import IpStack.Outbox
import IpStack.SendData

/-!
The new data segments of a flow. New data goes out only from `poll_write`, which sends the front
of the consumer's buffer at `seq`. A pass of `poll_read` and a `poll_flush` send only control
segments (ACK, SYN+ACK, FIN+ACK, RST+ACK) and retransmissions, which the outbox marks as such. So
the new data segments, in the order sent, carry exactly the bytes `poll_write` accepted.
-/

namespace IpStack

open IpStackTcpStream TcpFlags

/-- What the flow may do to its outbox from `s` to `s'` without `poll_write`: every segment
appended is a retransmission or a control segment, and a queued segment is not a PSH+ACK. -/
structure PassSends (s s' : IpStackTcpStream) : Prop where
  sent : ∃ N, s'.upPacketSender.sent = s.upPacketSender.sent ++ N ∧
    ∀ x ∈ N, x.resend = true ∨ x.packet.flags ≠ PSH ||| ACK
  queued : ∀ p, s'.packetToSend = some p → p.flags ≠ PSH ||| ACK

namespace PassSends

variable {s s₁ s₂ : IpStackTcpStream}

theorem refl (hq : ∀ p, s.packetToSend = some p → p.flags ≠ PSH ||| ACK) : PassSends s s :=
  ⟨⟨[], by simp, by simp⟩, hq⟩

/-- A change that keeps the outbox and the queued segment. -/
theorem update (h : PassSends s s₁) (h₂ : s₂.upPacketSender.sent = s₁.upPacketSender.sent)
    (h₃ : s₂.packetToSend = s₁.packetToSend) : PassSends s s₂ :=
  ⟨h₂ ▸ h.sent, h₃ ▸ h.queued⟩

theorem withTcb (h : PassSends s s₁) (t : Tcb) : PassSends s (s₁.withTcb t) :=
  h.update rfl rfl

theorem dropQueued (h : PassSends s s₁) : PassSends s { s₁ with packetToSend := none } :=
  { h with queued := fun _ hp => Option.noConfusion hp }

/-- A control segment queued, with any change of the TCB. -/
theorem queue (h : PassSends s s₁) {flags : UInt8} (hf : flags = ACK ∨ flags = SYN ||| ACK ∨ flags = FIN ||| ACK)
    (t : Tcb) : PassSends s { s₁ with packetToSend := some (s₁.revPacket flags TTL none []), tcb := t } where
  sent := h.sent
  queued p hp := by
    cases hp; rw [revPacket_flags_of _ _ _ (by rcases hf with rfl | rfl | rfl <;> simp)]
    rcases hf with rfl | rfl | rfl <;> decide

theorem push (h : PassSends s s₁) {p : NetworkPacket} {r : Bool} (hp : r = true ∨ p.flags ≠ PSH ||| ACK) :
    PassSends s { s₁ with upPacketSender := Outbox.push s₁.upPacketSender p r } where
  sent := by
    obtain ⟨N, hN, hx⟩ := h.sent
    refine ⟨N ++ [⟨p, r⟩], by simp [Outbox.push, hN], fun x hm => ?_⟩
    rcases List.mem_append.mp hm with hm | hm
    · exact hx x hm
    · rw [List.mem_singleton.mp hm]; exact hp
  queued := h.queued

/-- A control segment sent. -/
theorem control (h : PassSends s s₁) {flags : UInt8} {sq : Option SeqNum} {s₂ : IpStackTcpStream}
    (hf : flags = ACK ∨ flags = RST ||| ACK) (hs : s₁.send (s₁.revPacket flags TTL sq []) false = .ok s₂) :
    PassSends s s₂ := by
  obtain ⟨rfl, -⟩ := send_eq_ok hs
  refine h.push (.inr ?_)
  rw [revPacket_flags_of _ _ _ (by rcases hf with rfl | rfl <;> simp)]
  rcases hf with rfl | rfl <;> decide

end PassSends

namespace IpStackTcpStream

variable (s : IpStackTcpStream) {s₀ : IpStackTcpStream}

theorem pollFlush_sends {s : IpStackTcpStream} (h : PassSends s₀ s) : PassSends s₀ s.pollFlush.1 := by
  obtain ⟨-, r, o, hf, ho⟩ := s.pollFlush_spec
  rw [hf]
  rcases ho with rfl | ⟨p, -, -, rfl⟩
  · exact h.update rfl rfl
  · exact (h.push (.inl rfl)).update rfl rfl

theorem flushPending_sends {s : IpStackTcpStream} (h : PassSends s₀ s) : PassSends s₀ s.flushPending.1 := by
  unfold flushPending; split
  · exact pollFlush_sends h
  · exact h

theorem onEstablished_sends {h : TcpHeader} {pl : List UInt8} (hr : PassSends s₀ s) :
    (s.onEstablished h pl).Holds (PassSends s₀) := by
  simp only [onEstablished]
  split_ifs
  · split
    · exact hr.update rfl rfl
    · exact hr
    · exact queue_holds _ ((hr.withTcb _).queue (.inl rfl) _)
    · exact flushThenLoop_holds _ (pollFlush_sends (hr.withTcb _))
    · exact hr.update rfl rfl
    · exact hr.update rfl rfl
  · exact queue_holds _ ((hr.withTcb _).queue (.inl rfl) _)
  all_goals exact hr.update rfl rfl

theorem onSegment_sends (seg : TcpSegment) (hr : PassSends s₀ s) : (s.onSegment seg).Holds (PassSends s₀) := by
  simp only [onSegment]
  split
  · exact hr.update rfl rfl
  split
  · exact hr
  split
  · split <;> exact hr.update rfl rfl
  · exact s.onEstablished_sends hr
  · split
    · exact hr.update rfl rfl
    split
    · exact queue_holds _ ((hr.withTcb _).queue (.inl rfl) _)
    · exact hr
  · split
    · exact hr.update rfl rfl
    split
    · exact queue_holds _ ((hr.withTcb _).queue (.inl rfl) _)
    · exact hr
  · exact hr

theorem deliver_sends {cap : Nat} {b : List UInt8} (hr : PassSends s₀ s) : (s.deliver cap b).Holds (PassSends s₀) := by
  have ha : PassSends s₀ (s.withTcb (s.tcb.addAck (OfNat.ofNat b.length))) := hr.update rfl rfl
  unfold deliver
  split_ifs
  · exact hr
  · trivial
  simp only [createRevPacket_eq]
  split
  · exact ha
  · exact ha.control (.inl rfl) ‹_›

theorem afterDelivery_sends (hr : PassSends s₀ s) : s.afterDelivery.Holds (PassSends s₀) := by
  unfold afterDelivery
  split_ifs
  · exact queue_holds _ ((hr.withTcb _).queue (.inr (.inr rfl)) _)
  · exact queue_holds _ ((hr.withTcb _).queue (.inr (.inr rfl)) _)
  split
  · exact hr
  · exact onSegment_sends _ _ (hr.update rfl rfl)

theorem afterSend_sends (rbs : Nat) (fire : Bool) (cap : Nat) (hr : PassSends s₀ s) :
    (afterSend rbs fire cap s).Holds (PassSends s₀) := by
  have h₁ : PassSends s₀ (s.withTcb (s.tcb.changeRecvWindow (s.tcb.getAvailableReadBufferSize rbs).toUInt16)) :=
    hr.update rfl rfl
  simp only [afterSend]
  split_ifs
  · exact hr.update rfl rfl
  · exact hr.update rfl rfl
  · simp only [createRevPacket_eq]
    split
    · exact h₁
    · rename_i s₂ he; exact (h₁.control (.inr rfl) he).update rfl rfl
  · exact queue_holds _ ((h₁.withTcb _).queue (.inr (.inl rfl)) _)
  split
  · exact deliver_sends _ (h₁.update rfl rfl)
  · exact afterDelivery_sends _ (h₁.update rfl rfl)

theorem sendQueued_sends {s s' : IpStackTcpStream} (hr : PassSends s₀ s) (h : s.sendQueued = .ok s') :
    PassSends s₀ s' := by
  rcases sendQueued_ok h with ⟨-, rfl⟩ | ⟨p, hp, -, rfl⟩
  · exact hr
  · exact hr.dropQueued.push (.inr (hr.queued p hp))

/-- One pass of `poll_read` sends only control segments and retransmissions. -/
theorem readIter_sends (rbs : Nat) (fire : Bool) (cap : Nat) (hr : PassSends s₀ s) :
    (readIter rbs fire cap s).Holds (PassSends s₀) := by
  have h₁ := flushPending_sends hr
  unfold readIter
  split
  · trivial
  all_goals rename_i heq; simp only [heq] at h₁
  · exact h₁
  · split
    · exact h₁.dropQueued
    · exact afterSend_sends _ rbs fire cap (sendQueued_sends h₁ ‹_›)

end IpStackTcpStream

/-- The bytes of the new data segments of an outbox history, in the order sent: the PSH+ACK
segments that are not retransmissions. -/
def newData (L : List Sent) : List UInt8 :=
  (L.filter fun x => !x.resend && x.packet.flags == PSH ||| ACK).flatMap (·.packet.payload)

@[simp] theorem newData_append (L M : List Sent) : newData (L ++ M) = newData L ++ newData M := by
  simp [newData, List.filter_append]

theorem newData_eq_nil {N : List Sent} (h : ∀ x ∈ N, x.resend = true ∨ x.packet.flags ≠ PSH ||| ACK) :
    newData N = [] := by
  have : N.filter (fun x => !x.resend && x.packet.flags == PSH ||| ACK) = [] :=
    List.filter_eq_nil_iff.mpr fun x hx => by rcases h x hx with h | h <;> simp [h]
  simp [newData, this]

/-- The data invariant of a flow that has accepted the bytes `W`: the new data segments spell
`W`, and a queued segment is not a PSH+ACK. -/
structure DataLog (W : List UInt8) (s : IpStackTcpStream) : Prop where
  spelled : newData s.upPacketSender.sent = W
  queued : ∀ p, s.packetToSend = some p → p.flags ≠ PSH ||| ACK

namespace DataLog

variable {W : List UInt8} {s s' : IpStackTcpStream}

theorem initial (addrs : FlowAddrs) (peerSeq : UInt32) (mtu : UInt16) (iss : SeqNum) :
    DataLog [] (IpStackTcpStream.listen addrs peerSeq mtu iss) :=
  ⟨rfl, by simp [IpStackTcpStream.listen]⟩

/-- What a pass or a `poll_flush` sends keeps the invariant. -/
theorem sends (h : DataLog W s) (hp : PassSends s s') : DataLog W s' := by
  obtain ⟨⟨N, hN, hx⟩, hq⟩ := hp
  exact ⟨by rw [hN, newData_append, h.spelled, newData_eq_nil hx, List.append_nil], hq⟩

/-- `poll_write` sends the front of `buf` as a new segment, and so extends `W` by it. -/
theorem wrote (h : DataLog W s) (buf : List UInt8) : DataLog (W ++ buf.take s.payloadMax) (s.wrote buf) := by
  have hf := s.revPacket_flags_of none buf (f := PSH ||| ACK) (by simp)
  refine ⟨?_, h.queued⟩
  simp only [IpStackTcpStream.wrote, Outbox.push, newData_append, h.spelled]
  simp [newData, hf]

end DataLog

namespace IpStackTcpStream

/-- `poll_write` keeps the invariant, with `W` extended by the bytes it accepted. -/
theorem pollWrite_dataLog {W : List UInt8} {s : IpStackTcpStream} (buf : List UInt8) (hd : DataLog W s) :
    DataLog (W ++ accepted buf (s.pollWrite buf).2) (s.pollWrite buf).1 := by
  have h₁ := hd.sends (flushPending_sends (PassSends.refl hd.queued))
  rcases s.pollWrite_eq buf with ⟨o, h, ho⟩ | ⟨o, h, ho⟩ | ⟨-, -, -, -, h⟩ <;> rw [h]
  · rw [accepted_of_ne_ok ho, List.append_nil]; exact hd
  · rw [accepted_of_ne_ok ho, List.append_nil]; exact h₁
  · have : buf.take (buf.take s.flushPending.1.payloadMax).length = buf.take s.flushPending.1.payloadMax := by
      simp
    simp only [accepted, this]
    exact h₁.wrote buf

end IpStackTcpStream

section Runs

variable {rbs : Nat} {w w' : World} {e : Event}

/-- A step keeps the data invariant of the bytes accepted so far. -/
theorem Step.dataLog (hd : DataLog w.written w.stream) (h : Step rbs w e w') : DataLog w'.written w'.stream := by
  have h₀ := PassSends.refl hd.queued
  cases h with
  | @pass cap sd fire s' _ h' =>
    have := w.stream.readIter_sends rbs fire cap h₀; rw [h'] at this; exact hd.sends this
  | @ret cap sd fire s' b r _ h' =>
    have := w.stream.readIter_sends rbs fire cap h₀; rw [h'] at this; exact hd.sends this
  | write buf => exact w.stream.pollWrite_dataLog buf hd
  | flush => exact hd.sends (pollFlush_sends h₀)
  | _ => exact hd.sends (h₀.update rfl rfl)

theorem Reachable.dataLog (h : Reachable rbs w) : DataLog w.written w.stream :=
  Reachable.induction (fun w => DataLog w.written w.stream)
    (fun _ h₀ => by obtain ⟨addrs, peerSeq, mtu, iss, rfl⟩ := h₀; exact .initial addrs peerSeq mtu iss)
    (fun _ _ _ _ hi h => h.dataLog hi) w h

end Runs

/-- Every byte the consumer wrote goes out once, in order, as new data. In every reachable world of
a flow, the payloads of the PSH+ACK segments the flow has sent that are not retransmissions, in the
order sent, concatenate to exactly the bytes `poll_write` has accepted. -/
theorem new_data_spells_written (rbs : Nat) {w : World} (hw : Reachable rbs w) :
    (w.stream.upPacketSender.sent.filter fun x => !x.resend && x.packet.flags == PSH ||| ACK).flatMap
      (·.packet.payload) = w.written :=
  hw.dataLog.spelled

/-- After the handshake the consumer writes "HE" and then "LLO"; a repeated acknowledgement makes the
flow resend the first segment, which is not counted again. -/
theorem new_data_spells_written_two_writes : ∃ w₀ es w, Initial w₀ ∧ Run 64 w₀ es w ∧
    w.stream.upPacketSender.sent.map (·.resend) = [false, false, false, true] ∧
    (w.stream.upPacketSender.sent.filter fun x => !x.resend && x.packet.flags == PSH ||| ACK).flatMap
      (·.packet.payload) = w.written ∧ w.written = [72, 69, 76, 76, 79] := by
  let ack : TcpSegment :=
    ⟨{ sourcePort := 1234, destinationPort := 80, sequenceNumber := 101,
       acknowledgmentNumber := 1, windowSize := 1000, ack := true }, []⟩
  let w₀ := World.init (IpStackTcpStream.listen (.v4 ⟨0x0a000001, 1234⟩ ⟨0x0a000002, 80⟩) 100 1500 0)
  let ins : List Input := [.read 100, .pass false, .pass false, .arrive ack, .read 100, .pass false,
    .pass false, .write [72, 69], .write [76, 76, 79], .arrive ack, .read 100, .pass false, .pass false]
  have h : (w₀.execAll 64 ins).map (fun r => decide (r.2.stream.upPacketSender.sent.map (·.resend) =
      [false, false, false, true]) && decide (r.2.written = [72, 69, 76, 76, 79])) = some true := by
    decide
  have h₀ : Initial w₀ := ⟨_, _, _, _, rfl⟩
  obtain ⟨es, w, hr, h⟩ := World.execAll_run h
  simp only [Bool.and_eq_true, decide_eq_true_eq] at h
  exact ⟨w₀, es, w, h₀, hr, h.1, new_data_spells_written 64 ⟨w₀, es, h₀, hr⟩, h.2⟩

end IpStack
