import IpStack.Demux

/-!
Where a flow's segments go. `create_rev_packet` swaps the flow's addresses and ports, so every
segment a flow builds is addressed back to its peer: read from the other side, its tuple is the
one the demultiplexer filed the flow under. A flow also only ever appends to what it has put on
the outbox. Every pass and every call keeps both facts, which is what the model of the whole
stack needs of each flow.
-/

namespace IpStack

open IpStackTcpStream TcpFlags

@[simp] theorem IpStackTcpStream.revPacket_reverseNetworkTuple (s : IpStackTcpStream) (flags ttl : UInt8)
    (seq : Option SeqNum) (payload : List UInt8) :
    (s.revPacket flags ttl seq payload).reverseNetworkTuple = ⟨s.addrs, true⟩ := by
  unfold revPacket
  split <;> rename_i h <;>
    simp [NetworkPacket.reverseNetworkTuple, revHeader, h, FlowAddrs.srcPort, FlowAddrs.dstPort]

/-- The outbox side of a flow with addresses `a` whose history was `L`: the addresses are kept,
the history only grows, and every segment sent or queued is addressed to the peer. -/
structure Relays (a : FlowAddrs) (L : List Sent) (s : IpStackTcpStream) : Prop where
  addrs : s.addrs = a
  grows : L <+: s.upPacketSender.sent
  sent : ∀ x ∈ s.upPacketSender.sent, x.packet.reverseNetworkTuple = ⟨a, true⟩
  queued : ∀ p, s.packetToSend = some p → p.reverseNetworkTuple = ⟨a, true⟩

namespace Relays

variable {a : FlowAddrs} {L : List Sent} {s s' : IpStackTcpStream}

theorem initial (addrs : FlowAddrs) (peerSeq : UInt32) (mtu : UInt16) (iss : SeqNum) :
    Relays addrs [] (IpStackTcpStream.listen addrs peerSeq mtu iss) :=
  ⟨rfl, List.nil_prefix, by simp [IpStackTcpStream.listen], by simp [IpStackTcpStream.listen]⟩

/-- A change that keeps the addresses, the outbox history and the queued segment. -/
theorem update (h : Relays a L s) (h₁ : s'.addrs = s.addrs) (h₂ : s'.upPacketSender.sent = s.upPacketSender.sent)
    (h₃ : s'.packetToSend = s.packetToSend) : Relays a L s' :=
  ⟨h₁ ▸ h.addrs, h₂ ▸ h.grows, h₂ ▸ h.sent, h₃ ▸ h.queued⟩

theorem withTcb (h : Relays a L s) (t : Tcb) : Relays a L (s.withTcb t) := h.update rfl rfl rfl

theorem rebase (h : Relays a L s) : Relays a s.upPacketSender.sent s := { h with grows := List.prefix_refl _ }

/-- Every segment the flow builds is addressed to the peer. -/
theorem addressed (h : Relays a L s) {flags ttl : UInt8} {sq : Option SeqNum} {pl : List UInt8} :
    (s.revPacket flags ttl sq pl).reverseNetworkTuple = ⟨a, true⟩ := by
  rw [revPacket_reverseNetworkTuple, h.addrs]

theorem queue (h : Relays a L s) (flags : UInt8) (t : Tcb) :
    Relays a L { s with packetToSend := some (s.revPacket flags TTL none []), tcb := t } :=
  { h with queued := fun p hp => by cases hp; exact h.addressed }

theorem dropQueued (h : Relays a L s) : Relays a L { s with packetToSend := none } :=
  { h with queued := fun _ hp => Option.noConfusion hp }

theorem push (h : Relays a L s) {p : NetworkPacket} (hp : p.reverseNetworkTuple = ⟨a, true⟩) (r : Bool) :
    Relays a L { s with upPacketSender := Outbox.push s.upPacketSender p r } where
  addrs := h.addrs
  grows := h.grows.trans (List.prefix_append _ _)
  sent x hx := by
    rcases List.mem_append.mp hx with hx | hx
    · exact h.sent x hx
    · rw [List.mem_singleton.mp hx]; exact hp
  queued := h.queued

/-- A segment the flow built, sent. -/
theorem send (h : Relays a L s) {flags ttl : UInt8} {sq : Option SeqNum} {pl : List UInt8} {r : Bool}
    (hs : s.send (s.revPacket flags ttl sq pl) r = .ok s') : Relays a L s' := by
  obtain ⟨rfl, -⟩ := send_eq_ok hs; exact h.push h.addressed r

end Relays

namespace IpStackTcpStream

variable {a : FlowAddrs} {L : List Sent} (s : IpStackTcpStream)

theorem pollFlush_relays {s : IpStackTcpStream} (h : Relays a L s) : Relays a L s.pollFlush.1 := by
  obtain ⟨-, r, o, e, ho⟩ := s.pollFlush_spec
  rw [e]
  rcases ho with rfl | ⟨p, -, -, rfl⟩
  · exact h.update rfl rfl rfl
  · exact (h.push h.addressed true).update rfl rfl rfl

theorem flushPending_relays {s : IpStackTcpStream} (h : Relays a L s) : Relays a L s.flushPending.1 := by
  unfold flushPending; split
  · exact pollFlush_relays h
  · exact h

theorem onEstablished_relays {h : TcpHeader} {pl : List UInt8} (hr : Relays a L s) :
    (s.onEstablished h pl).Holds (Relays a L) := by
  simp only [onEstablished]
  split_ifs
  · split
    · exact hr.update rfl rfl rfl
    · exact hr
    · exact queue_holds _ ((hr.withTcb _).queue _ _)
    · exact flushThenLoop_holds _ (pollFlush_relays (hr.withTcb _))
    · exact hr.update rfl rfl rfl
    · exact hr.update rfl rfl rfl
  · exact queue_holds _ ((hr.withTcb _).queue _ _)
  all_goals exact hr.update rfl rfl rfl

theorem onSegment_relays (seg : TcpSegment) (hr : Relays a L s) : (s.onSegment seg).Holds (Relays a L) := by
  simp only [onSegment]
  split
  · exact hr.update rfl rfl rfl
  split
  · exact hr
  split
  · split <;> exact hr.update rfl rfl rfl
  · exact s.onEstablished_relays hr
  · split
    · exact hr.update rfl rfl rfl
    split
    · exact queue_holds _ ((hr.withTcb _).queue _ _)
    · exact hr
  · split
    · exact hr.update rfl rfl rfl
    split
    · exact queue_holds _ (hr.queue _ _)
    · exact hr
  · exact hr

theorem deliver_relays {cap : Nat} {b : List UInt8} (hr : Relays a L s) : (s.deliver cap b).Holds (Relays a L) := by
  unfold deliver
  split_ifs
  · exact hr
  · trivial
  simp only [createRevPacket_eq]
  split
  · exact hr.update rfl rfl rfl
  · exact (hr.withTcb _).send ‹_›

theorem afterDelivery_relays (hr : Relays a L s) : s.afterDelivery.Holds (Relays a L) := by
  unfold afterDelivery
  split_ifs
  · exact queue_holds _ (hr.queue _ _)
  · exact queue_holds _ (hr.queue _ _)
  split
  · exact hr
  · exact onSegment_relays _ _ (hr.update rfl rfl rfl)

theorem afterSend_relays (rbs : Nat) (fire : Bool) (cap : Nat) (hr : Relays a L s) :
    (afterSend rbs fire cap s).Holds (Relays a L) := by
  have h₁ : Relays a L (s.withTcb (s.tcb.changeRecvWindow (s.tcb.getAvailableReadBufferSize rbs).toUInt16)) :=
    hr.update rfl rfl rfl
  simp only [afterSend]
  split_ifs
  · exact hr.update rfl rfl rfl
  · exact hr.update rfl rfl rfl
  · simp only [createRevPacket_eq]
    split
    · exact h₁
    · rename_i s₂ he; exact (h₁.send he).update rfl rfl rfl
  · exact queue_holds _ (h₁.queue _ _)
  split
  · exact deliver_relays _ (h₁.update rfl rfl rfl)
  · exact afterDelivery_relays _ (h₁.update rfl rfl rfl)

theorem sendQueued_relays {s s' : IpStackTcpStream} (hr : Relays a L s) (h : s.sendQueued = .ok s') :
    Relays a L s' := by
  rcases sendQueued_ok h with ⟨-, rfl⟩ | ⟨p, hp, -, rfl⟩
  · exact hr
  · exact (hr.push (hr.queued p hp) false).dropQueued

/-- One pass of `poll_read` keeps the addresses, only appends to the outbox, and sends and
queues only segments addressed to the peer. -/
theorem readIter_relays (rbs : Nat) (fire : Bool) (cap : Nat) (hr : Relays a L s) :
    (readIter rbs fire cap s).Holds (Relays a L) := by
  have h₁ := flushPending_relays hr
  unfold readIter
  split
  · trivial
  all_goals rename_i heq; simp only [heq] at h₁
  · exact h₁
  · split
    · exact h₁.dropQueued
    · exact afterSend_relays _ rbs fire cap (sendQueued_relays h₁ ‹_›)

theorem pollWrite_relays (buf : List UInt8) (hr : Relays a L s) : Relays a L (s.pollWrite buf).1 := by
  have h₁ := flushPending_relays hr
  rcases s.pollWrite_eq buf with ⟨o, h, -⟩ | ⟨o, h, -⟩ | ⟨-, -, -, -, h⟩ <;> rw [h]
  · exact hr
  · exact h₁
  · exact (h₁.push h₁.addressed false).update rfl rfl rfl

end IpStackTcpStream

section Runs

variable {rbs : Nat} {w w' : World} {e : Event} {a : FlowAddrs} {L : List Sent}

theorem Step.relays (hr : Relays a L w.stream) (h : Step rbs w e w') : Relays a L w'.stream := by
  cases h with
  | @pass cap sd fire s' _ h' =>
    have := w.stream.readIter_relays rbs fire cap hr; rw [h'] at this; exact this
  | @ret cap sd fire s' b r _ h' =>
    have := w.stream.readIter_relays rbs fire cap hr; rw [h'] at this; exact this
  | write buf => exact w.stream.pollWrite_relays buf hr
  | flush => exact pollFlush_relays hr
  | _ => exact hr.update rfl rfl rfl

theorem Reachable.relays (h : Reachable rbs w) : Relays w.stream.addrs [] w.stream :=
  Reachable.induction (fun w => Relays w.stream.addrs [] w.stream)
    (fun _ h₀ => by obtain ⟨addrs, peerSeq, mtu, iss, rfl⟩ := h₀; exact .initial addrs peerSeq mtu iss)
    (fun _ _ w' _ hi h => by
      have h' := h.relays hi; show Relays w'.stream.addrs [] w'.stream; rw [h'.addrs]; exact h') w h

/-- A step of a reachable flow keeps its addresses and appends to its outbox history only
segments addressed to its peer. -/
theorem Step.appends (hw : Reachable rbs w) (h : Step rbs w e w') :
    w'.stream.addrs = w.stream.addrs ∧ ∃ N, w'.stream.upPacketSender.sent = w.stream.upPacketSender.sent ++ N ∧
      ∀ x ∈ N, x.packet.reverseNetworkTuple = ⟨w.stream.addrs, true⟩ := by
  have hr := h.relays hw.relays.rebase
  obtain ⟨N, hN⟩ := hr.grows
  exact ⟨hr.addrs, N, hN.symm, fun x hx => hr.sent x (hN ▸ List.mem_append_right _ hx)⟩

/-- A run keeps the flow's addresses. -/
theorem Run.addrs {w₀ : World} {es : List Event} (h₀ : Initial w₀) (h : Run rbs w₀ es w) :
    w.stream.addrs = w₀.stream.addrs := by
  induction h with
  | refl => rfl
  | tail hr hs ih => exact (hs.appends ⟨_, _, h₀, hr⟩).1.trans ih

end Runs

end IpStack
