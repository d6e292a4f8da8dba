import IpStack.SendData

/-!
The receive path in the data phase: the classifier, the reorder store, the drain from `ack` and
the delivery into the consumer's buffer. Against a peer that sends a stream `B` shorter than the
sequence space, split, reordered and repeated at will, flagged ACK with or without PSH but never
FIN, every entry of the reorder store holds the bytes of `B` at its offset from `isn + 1`. The
drain from `ack` then returns the next bytes of `B`, so what the consumer reads is always a
prefix of `B`. Until a shutdown is asked for, `ack` is `isn + 1` plus the number of bytes
delivered, and no segment the flow builds acknowledges a byte the consumer has not been handed.
After our FIN, `FinWait1(false)` counts one more octet on the peer's ACK, so the statements about
`ack` hold while no shutdown is asked for.
-/

namespace IpStack

open IpStackTcpStream TcpFlags

namespace SeqNum

theorem addNat_add_ofNat (a : SeqNum) (m n : Nat) : a.addNat m + OfNat.ofNat n = a.addNat (m + n) :=
  ext_val (by simp only [val_add, val_addNat, val_ofNat]; omega)

/-- Two offsets less than the sequence space apart name the same sequence number only if they
are equal. -/
theorem addNat_inj {a : SeqNum} {m n : Nat} (h : a.addNat m = a.addNat n) (hm : m < n + 2 ^ 32)
    (hn : n < m + 2 ^ 32) : m = n := by
  have := congrArg (fun x : SeqNum => x.val.toNat) h
  simp only [val_addNat] at this; omega

end SeqNum

namespace Slice

variable {W : List UInt8} {o : Nat} {a b : List UInt8}

theorem nil (h : o ≤ W.length) : Slice W o [] := ⟨by simpa using h, by simp⟩

theorem join (h₁ : Slice W o a) (h₂ : Slice W (o + a.length) b) : Slice W o (a ++ b) := by
  obtain ⟨h₁, e₁⟩ := h₁; obtain ⟨h₂, e₂⟩ := h₂
  refine ⟨by simp only [List.length_append]; omega, ?_⟩
  rw [List.length_append, List.take_add, e₁, List.drop_drop, e₂]

/-- A prefix of `W` followed by the slice that starts where it ends is a prefix of `W`. -/
theorem grow {A : List UInt8} (hA : A <+: W) (h : Slice W A.length b) : A ++ b <+: W := by
  have e : A ++ b = W.take (A.length + b.length) := by
    rw [List.take_add, ← List.prefix_iff_eq_take.mp hA, h.2]
  exact e ▸ List.take_prefix _ _

end Slice

/-- A segment of a peer sending `B` carries the bytes of `B` at its sequence number. -/
theorem PeerSegment.dataAt {isn : SeqNum} {B : List UInt8} {seg : TcpSegment} (h : PeerSegment isn B seg) :
    DataAt isn B ⟨seg.header.sequenceNumber⟩ seg.payload :=
  ⟨_, by rw [← SeqNum.addNat_addNat, SeqNum.addNat_dist], h.2.2.2.2.2.2.1⟩

/-- Without a FIN, a peer segment is flagged ACK or PSH+ACK. -/
theorem PeerSegment.flags_eq {isn : SeqNum} {B : List UInt8} {seg : TcpSegment} (h : PeerSegment isn B seg)
    (hf : seg.header.fin = false) : seg.header.flags = ACK ∨ seg.header.flags = PSH ||| ACK := by
  obtain ⟨ha, hs, hr, hu, he, hc, -⟩ := h
  unfold TcpHeader.flags
  rw [ha, hs, hr, hu, he, hc, hf]
  cases seg.header.psh <;> decide

namespace Tcb

variable {isn : SeqNum} {B : List UInt8}

/-- From the key at offset `d`, the drain of a store whose entries hold the bytes of `B` at their
offsets returns bytes of `B` from `d` on. -/
theorem drainFrom_slice (hB : B.length < 2 ^ 32) : ∀ (fuel d : Nat) (m : List (SeqNum × List UInt8)),
    (∀ e ∈ m, DataAt isn B e.1 e.2) → d ≤ B.length → Slice B d (drainFrom fuel (isn.addNat (1 + d)) m).1
  | 0, _, _, _, hd => .nil hd
  | fuel + 1, d, m, hm, hd => by
    simp only [drainFrom]
    split
    · exact .nil hd
    · rename_i p hp
      obtain ⟨o, ho, hs⟩ := hm _ (mem_of_lookup hp)
      have : 1 + o = 1 + d := SeqNum.addNat_inj ho.symm (by have := hs.1; omega) (by omega)
      obtain rfl : o = d := by omega
      have hrest := drainFrom_slice hB fuel (o + p.length) (m.filter (·.1 != isn.addNat (1 + o)))
        (fun e he => hm e (List.mem_of_mem_filter he)) hs.1
      rw [SeqNum.addNat_addNat, show 1 + o + p.length = 1 + (o + p.length) by omega]
      exact hs.join hrest

theorem getUnorderedPackets_slice (hB : B.length < 2 ^ 32) {t : Tcb} {d : Nat} {b : List UInt8}
    (hm : ∀ e ∈ t.unorderedPackets, DataAt isn B e.1 e.2) (ha : t.ack = isn.addNat (1 + d))
    (hd : d ≤ B.length) (h : t.getUnorderedPackets.1 = some b) : Slice B d b := by
  unfold getUnorderedPackets at h
  split at h
  · cases h
  · obtain rfl := Option.some.inj h
    rw [ha]; exact drainFrom_slice hB _ d _ hm hd

end Tcb

/-- The segments a flow has put on the outbox, and the one waiting in `packet_to_send`. -/
def IpStackTcpStream.emitted (s : IpStackTcpStream) : List NetworkPacket :=
  s.upPacketSender.sent.map (·.packet) ++ s.packetToSend.toList

/-- The receive-side invariant of a flow whose consumer has been handed the first `d` bytes of
`B`, sent from initial sequence number `isn` with no FIN. Every stored entry holds the bytes of
`B` at its offset; until a shutdown is asked for, `ack` counts exactly the `d` bytes and no
segment built so far acknowledges more; the flow has taken no FIN; and what waits in the inbox
belongs to the data phase. -/
structure RecvInv (isn : SeqNum) (B : List UInt8) (d : Nat) (s : IpStackTcpStream) : Prop where
  le : d ≤ B.length
  store : ∀ e ∈ s.tcb.unorderedPackets, DataAt isn B e.1 e.2
  ack : s.shutdown = .none → s.tcb.ack = isn.addNat (1 + d)
  acks : s.shutdown = .none → ∀ p ∈ s.emitted, ∃ n ≤ d, p.ack = isn.addNat (1 + n)
  notFin : s.tcb.state ≠ .finWait1 true
  inbox : ∀ seg ∈ s.streamReceiver, PeerSegment isn B seg ∧ seg.header.fin = false

/-- What a pass does to the receive side: looping again keeps the invariant; returning, the
bytes it filled are those of `B` after the `d` already read, and the invariant holds for the
longer read. -/
def ReadStep.Recv (isn : SeqNum) (B : List UInt8) (d : Nat) : ReadStep → Prop
  | .next s => RecvInv isn B d s
  | .done s b _ => Slice B d b ∧ RecvInv isn B (d + b.length) s
  | .panic _ => True

section Recv

variable {isn : SeqNum} {B : List UInt8} {d : Nat} {s : IpStackTcpStream}

namespace RecvInv

/-- A change that keeps `ack` and builds segments only from it while no shutdown is asked for,
stores only bytes of `B` at their offsets, takes no FIN and takes segments from the inbox. -/
theorem update (h : RecvInv isn B d s) {s' : IpStackTcpStream}
    (hsh : s'.shutdown = .none → s.shutdown = .none ∧ s'.tcb.ack = s.tcb.ack ∧
      ∀ p ∈ s'.emitted, p ∈ s.emitted ∨ p.ack = s.tcb.ack)
    (hstore : ∀ e ∈ s'.tcb.unorderedPackets, DataAt isn B e.1 e.2)
    (hst : s'.tcb.state ≠ .finWait1 true) (hin : s'.streamReceiver ⊆ s.streamReceiver) :
    RecvInv isn B d s' where
  le := h.le
  store := hstore
  ack hn := let ⟨h₁, h₂, _⟩ := hsh hn; h₂.trans (h.ack h₁)
  acks hn p hp := let ⟨h₁, _, h₃⟩ := hsh hn
    (h₃ p hp).elim (h.acks h₁ p) fun e => ⟨d, Nat.le_refl _, e.trans (h.ack h₁)⟩
  notFin := hst
  inbox seg hs := h.inbox seg (hin hs)

theorem withTcb (h : RecvInv isn B d s) {t : Tcb} (ha : s.shutdown = .none → t.ack = s.tcb.ack)
    (hstore : ∀ e ∈ t.unorderedPackets, DataAt isn B e.1 e.2) (hst : t.state ≠ .finWait1 true) :
    RecvInv isn B d (s.withTcb t) :=
  h.update (fun hn => ⟨hn, ha hn, fun _ hp => .inl hp⟩) hstore hst (List.Subset.refl _)

/-- A change of the TCB fields the receive side does not read. -/
theorem keep (h : RecvInv isn B d s) {t : Tcb} (ha : t.ack = s.tcb.ack)
    (hstore : t.unorderedPackets = s.tcb.unorderedPackets) (hst : t.state = s.tcb.state) :
    RecvInv isn B d (s.withTcb t) :=
  h.withTcb (fun _ => ha) (hstore ▸ h.store) (hst ▸ h.notFin)

theorem recvWindow (h : RecvInv isn B d s) (w : UInt16) :
    RecvInv isn B d (s.withTcb (s.tcb.changeRecvWindow w)) :=
  h.keep rfl rfl rfl

/-- The drain removes entries and keeps `ack`. -/
theorem drain (h : RecvInv isn B d s) : RecvInv isn B d (s.withTcb s.tcb.getUnorderedPackets.2) := by
  obtain ⟨m, e⟩ := s.tcb.getUnorderedPackets_eq
  refine h.withTcb (fun _ => by rw [e]) (fun x hx => h.store x (s.tcb.getUnorderedPackets_sublist.subset hx)) ?_
  simpa using h.notFin

/-- Once a shutdown is asked for, only the store, the state and the inbox matter. -/
theorem of_shutdown (h : RecvInv isn B d s) {s' : IpStackTcpStream} (hn : s'.shutdown ≠ .none)
    (hstore : ∀ e ∈ s'.tcb.unorderedPackets, DataAt isn B e.1 e.2)
    (hst : s'.tcb.state ≠ .finWait1 true) (hin : s'.streamReceiver ⊆ s.streamReceiver) :
    RecvInv isn B d s' :=
  h.update (fun h => absurd h hn) hstore hst hin

theorem close (h : RecvInv isn B d s) {t : Tcb} (ht : t = s.tcb ∨ t = s.tcb.changeState .closed) :
    RecvInv isn B d { s with tcb := t, shutdown := .ready } :=
  h.of_shutdown (by simp) (by rcases ht with rfl | rfl <;> exact h.store)
    (by rcases ht with rfl | rfl <;> simp [h.notFin]) (List.Subset.refl _)

theorem push (h : RecvInv isn B d s) {p : NetworkPacket} (hp : p.ack = s.tcb.ack) (r : Bool) :
    RecvInv isn B d { s with upPacketSender := Outbox.push s.upPacketSender p r } := by
  refine h.update (fun hn => ⟨hn, rfl, fun x hx => ?_⟩) h.store h.notFin (List.Subset.refl _)
  simp only [emitted, Outbox.push, List.map_append, List.map_cons, List.map_nil, List.mem_append,
    List.mem_singleton] at hx
  rcases hx with (hx | rfl) | hx
  · exact .inl (List.mem_append_left _ hx)
  · exact .inr hp
  · exact .inl (List.mem_append_right _ hx)

/-- The segment waiting in `packet_to_send` is dropped. -/
theorem dropQueued (h : RecvInv isn B d s) : RecvInv isn B d { s with packetToSend := none } :=
  h.update (fun hn => ⟨hn, rfl, fun _ hp => .inl (by
    simp only [emitted, Option.toList_none, List.append_nil] at hp; exact List.mem_append_left _ hp)⟩)
    h.store h.notFin (List.Subset.refl _)

theorem wrote (h : RecvInv isn B d s) (buf : List UInt8) : RecvInv isn B d (s.wrote buf) :=
  (h.keep (t := s.tcb.addInflightPacket s.tcb.seq (s.revPacket (PSH ||| ACK) TTL none buf).payload)
    rfl rfl rfl).push (by simp) false

theorem queue (h : RecvInv isn B d s) {flags : UInt8} {t : Tcb} (ha : s.shutdown = .none → t.ack = s.tcb.ack)
    (hstore : ∀ e ∈ t.unorderedPackets, DataAt isn B e.1 e.2) (hst : t.state ≠ .finWait1 true) :
    (s.queue flags t).Recv isn B d := by
  rw [queue_eq]
  refine h.update (fun hn => ⟨hn, ha hn, fun x hx => ?_⟩) hstore hst (List.Subset.refl _)
  simp only [emitted, Option.toList_some, List.mem_append, List.mem_singleton] at hx
  rcases hx with hx | rfl
  · exact .inl (List.mem_append_left _ hx)
  · exact .inr (by simp)

/-- A TCB change that keeps the reorder store keeps every entry right. -/
theorem store_of_eq (h : RecvInv isn B d s) {t : Tcb} (he : t.unorderedPackets = s.tcb.unorderedPackets) :
    ∀ e ∈ t.unorderedPackets, DataAt isn B e.1 e.2 :=
  fun e hx => h.store e (he ▸ hx)

/-- Storing the bytes of `B` at their offset keeps every entry right. -/
theorem store_add (h : RecvInv isn B d s) {k : SeqNum} {b : List UInt8} (hk : DataAt isn B k b) :
    ∀ e ∈ (s.tcb.addUnorderedPacket k b).unorderedPackets, DataAt isn B e.1 e.2 := by
  simp only [Tcb.addUnorderedPacket, List.mem_cons, List.mem_filter]
  rintro e (rfl | ⟨he, -⟩)
  · exact hk
  · exact h.store e he

/-- Delivering `b`, the bytes of `B` after the `d` already read, moves `ack` past them. -/
theorem deliver (h : RecvInv isn B d s) (hn : s.shutdown = .none) {b : List UInt8} (hb : Slice B d b) :
    RecvInv isn B (d + b.length) (s.withTcb (s.tcb.addAck (OfNat.ofNat b.length))) where
  le := hb.1
  store := h.store
  ack _ := by simp [h.ack hn, SeqNum.addNat_add_ofNat, Nat.add_assoc]
  acks _ p hp := let ⟨n, hn', e⟩ := h.acks hn p hp; ⟨n, by omega, e⟩
  notFin := h.notFin
  inbox := h.inbox

end RecvInv

theorem ReadStep.Recv.done_nil (h : RecvInv isn B d s) (r : Outcome Unit) : (ReadStep.done s [] r).Recv isn B d :=
  ⟨.nil h.le, h⟩

namespace IpStackTcpStream

theorem pollFlush_recv (h : RecvInv isn B d s) : RecvInv isn B d s.pollFlush.1 := by
  obtain ⟨-, r, o, e, ho⟩ := s.pollFlush_spec
  have h' := h.keep (t := { s.tcb with retransmission := r }) rfl rfl rfl
  rw [e]
  rcases ho with rfl | ⟨p, -, -, rfl⟩
  · exact h'
  · exact h'.push (by simp) true

theorem flushPending_recv (h : RecvInv isn B d s) : RecvInv isn B d s.flushPending.1 := by
  unfold flushPending; split
  · exact pollFlush_recv h
  · exact h

theorem flushThenLoop_recv (h : RecvInv isn B d s) : s.flushThenLoop.Recv isn B d := by
  have h' := pollFlush_recv h
  unfold flushThenLoop
  split
  · trivial
  all_goals rename_i heq; simp only [heq] at h'
  · exact .done_nil h' _
  · exact h'

theorem sendQueued_recv (h : RecvInv isn B d s) {s' : IpStackTcpStream} (hq : s.sendQueued = .ok s') :
    RecvInv isn B d s' := by
  rcases sendQueued_ok hq with ⟨-, rfl⟩ | ⟨p, hp, -, rfl⟩
  · exact h
  · refine h.update (fun hn => ⟨hn, rfl, fun x hx => .inl ?_⟩) h.store h.notFin (List.Subset.refl _)
    simpa [emitted, Outbox.push, hp] using hx

theorem onEstablished_recv {h : TcpHeader} {pl : List UInt8} (hi : RecvInv isn B d s)
    (hp : PeerSegment isn B ⟨h, pl⟩) (hf : h.fin = false) : (s.onEstablished h pl).Recv isn B d := by
  have hfl := hp.flags_eq hf
  simp only [onEstablished]
  split_ifs with h₁ h₂ h₃ h₄ h₅
  · split
    · exact hi.keep (by simp) rfl rfl
    · exact hi
    · exact (hi.keep (by simp) (by simp) (by simp)).queue (fun _ => rfl) (hi.store_of_eq (by simp)) (by simpa using hi.notFin)
    · exact flushThenLoop_recv (hi.keep rfl rfl rfl)
    · exact hi.withTcb (by simp) (by simpa using hi.store_add hp.dataAt) (by simpa using hi.notFin)
    · exact hi.keep (by simp) (by simp) (by simp)
  · exact absurd h₂ (by rcases hfl with e | e <;> rw [e] <;> decide)
  · exact hi
  · exact hi.keep (by simp) (by simp) (by simp)
  · exact hi.withTcb (by simp) (by simpa using hi.store_add hp.dataAt) (by simpa using hi.notFin)
  · exact hi

theorem onSegment_recv (seg : TcpSegment) (hi : RecvInv isn B d s)
    (hseg : PeerSegment isn B seg ∧ seg.header.fin = false)
    (hsd : s.tcb.state = .finWait1 false → s.shutdown ≠ .none) : (s.onSegment seg).Recv isn B d := by
  simp only [onSegment]
  split
  · exact .done_nil (hi.close (.inr rfl)) _
  split
  · exact hi
  split <;> rename_i hs
  · split
    · exact hi.withTcb (by simp) (hi.store_of_eq (by simp)) (by simp)
    · exact hi
  · exact onEstablished_recv hi hseg.1 hseg.2
  · split
    · exact hi.withTcb (fun hn => absurd hn (hsd hs)) (hi.store_of_eq (by simp)) (by simp)
    split
    · exact (hi.withTcb (fun hn => absurd hn (hsd hs)) (hi.store_of_eq (by simp)) (by simpa using hi.notFin)).queue
        (fun hn => absurd hn (hsd hs)) (hi.store_of_eq (by simp)) (by simp)
    · exact hi
  · split
    · exact hi.withTcb (by simp) (hi.store_of_eq (by simp)) (by simp)
    split
    · exact hi.queue (by simp) (hi.store_of_eq (by simp)) (by simp)
    · exact hi
  · exact hi

theorem deliver_recv {cap : Nat} {b : List UInt8} (hi : RecvInv isn B d s) (hn : s.shutdown = .none)
    (hb : Slice B d b) : (s.deliver cap b).Recv isn B d := by
  have hi' := hi.deliver hn hb
  unfold deliver
  split_ifs
  · exact .done_nil hi _
  · trivial
  simp only [createRevPacket_eq]
  split
  · exact ⟨hb, hi'⟩
  · rename_i s₂ hs; obtain ⟨rfl, -⟩ := send_eq_ok hs
    exact ⟨hb, hi'.push (by simp) false⟩

theorem afterDelivery_recv (hi : RecvInv isn B d s)
    (hsd : s.tcb.state = .finWait1 false → s.shutdown ≠ .none) : s.afterDelivery.Recv isn B d := by
  unfold afterDelivery
  split_ifs with h₁ h₂
  · exact absurd h₁ hi.notFin
  · exact hi.queue (fun hn => absurd (h₂.1.symm.trans hn) (by decide)) (hi.store_of_eq (by simp)) (by simp)
  split
  · exact .done_nil hi _
  · rename_i seg rest heq
    have hr : RecvInv isn B d { s with streamReceiver := rest } :=
      hi.update (fun hn => ⟨hn, rfl, fun _ hp => .inl hp⟩) hi.store hi.notFin (by simp [heq])
    exact onSegment_recv seg hr (hi.inbox seg (by simp [heq])) hsd

theorem afterSend_recv (hB : B.length < 2 ^ 32) (rbs : Nat) (fire : Bool) (cap : Nat) (hi : RecvInv isn B d s)
    (hsd : s.tcb.state = .finWait1 false → s.shutdown ≠ .none) : (afterSend rbs fire cap s).Recv isn B d := by
  have h₃ := hi.recvWindow (s.tcb.getAvailableReadBufferSize rbs).toUInt16
  simp only [afterSend]
  split_ifs with hc hf hfire hl
  · exact .done_nil (hi.close (.inl rfl)) _
  · exact .done_nil (hi.close (.inr rfl)) _
  · simp only [createRevPacket_eq]
    split
    · exact .done_nil h₃ _
    · rename_i s₂ hs; obtain ⟨rfl, -⟩ := send_eq_ok hs
      exact .done_nil ((h₃.push (by simp) false).close (.inr rfl)) _
  · exact h₃.queue (by simp) (h₃.store_of_eq (by simp)) (by simp [hl])
  split
  · rename_i b hb hn
    exact deliver_recv h₃.drain hn (Tcb.getUnorderedPackets_slice hB h₃.store (h₃.ack hn) h₃.le hb)
  · exact afterDelivery_recv h₃.drain (by simpa using hsd)

/-- One pass of `poll_read` keeps the receive-side invariant, and a pass that returns has filled
the buffer with the next bytes of `B`. -/
theorem readIter_recv (hB : B.length < 2 ^ 32) (rbs : Nat) (fire : Bool) (cap : Nat) (hi : RecvInv isn B d s)
    (hsd : s.tcb.state = .finWait1 false → s.shutdown ≠ .none) : (readIter rbs fire cap s).Recv isn B d := by
  have h₁ := flushPending_recv hi
  unfold readIter
  split
  · trivial
  all_goals rename_i heq; obtain ⟨hst, hsh⟩ := flushPending_keeps heq; simp only [heq] at h₁
  · exact .done_nil h₁ _
  · split
    · exact .done_nil h₁.dropQueued _
    · rename_i s₂ hq
      obtain ⟨ht, hsh', -⟩ := sendQueued_control hq
      exact afterSend_recv hB rbs fire cap (sendQueued_recv h₁ hq) (by rw [ht, hsh', hst, hsh]; exact hsd)

theorem pollWrite_recv (buf : List UInt8) (hi : RecvInv isn B d s) : RecvInv isn B d (s.pollWrite buf).1 := by
  rcases s.pollWrite_eq buf with ⟨o, h, -⟩ | ⟨o, h, -⟩ | ⟨-, -, -, -, h⟩ <;> rw [h]
  · exact hi
  · exact flushPending_recv hi
  · exact (flushPending_recv hi).wrote buf

end IpStackTcpStream

end Recv

/-- The receive-side invariant of a world: what the consumer has read is a prefix of `B`, and the
flow's invariant holds for that many bytes. -/
structure RecvState (isn : SeqNum) (B : List UInt8) (w : World) : Prop where
  read : w.delivered <+: B
  inv : RecvInv isn B w.delivered.length w.stream

section Runs

variable {isn : SeqNum} {B : List UInt8} {rbs : Nat} {w w' : World} {e : Event}

theorem RecvState.initial (h : Initial w) (ha : w.stream.tcb.ack = isn.addNat 1) :
    RecvState isn B w := by
  obtain ⟨addrs, peerSeq, mtu, iss, rfl⟩ := h
  exact ⟨List.nil_prefix, ⟨Nat.zero_le _, by simp [World.init, IpStackTcpStream.listen, Tcb.new],
    fun _ => by simpa using ha, by simp [World.init, IpStackTcpStream.listen, emitted],
    by simp [World.init, IpStackTcpStream.listen, Tcb.new], by simp [World.init, IpStackTcpStream.listen]⟩⟩

/-- A step keeps the receive-side invariant, provided a segment it puts in the inbox belongs to the
data phase. -/
theorem RecvState.step (hB : B.length < 2 ^ 32) (hi : RecvState isn B w) (hs : ShutdownInv w)
    (h : Step rbs w e w') (he : ∀ seg, e = .segmentArrived seg → PeerSegment isn B seg ∧ seg.header.fin = false) :
    RecvState isn B w' := by
  have hsd : w.stream.tcb.state = .finWait1 false → w.stream.shutdown ≠ .none := fun h => by
    rw [hs.finWait1 h]; decide
  cases h with
  | arrive seg _ =>
    refine ⟨hi.read, { hi.inv with inbox := fun x hx => ?_ }⟩
    rcases List.mem_append.mp hx with hx | hx
    · exact hi.inv.inbox x hx
    · exact (List.mem_singleton.mp hx) ▸ he seg rfl
  | closeOutbox _ =>
    exact ⟨hi.read, hi.inv.update (fun hn => ⟨hn, rfl, fun _ hp => .inl hp⟩) hi.inv.store hi.inv.notFin
      (List.Subset.refl _)⟩
  | callRead => exact ⟨hi.read, hi.inv⟩
  | callShutdown =>
    exact ⟨hi.read, hi.inv.of_shutdown (World.markShutdown_ne_none _) hi.inv.store hi.inv.notFin
      (List.Subset.refl _)⟩
  | shutdownReady => exact hi
  | @pass cap sd fire s' _ hs' =>
    have := w.stream.readIter_recv hB rbs fire cap hi.inv hsd; rw [hs'] at this; exact ⟨hi.read, this⟩
  | @ret cap sd fire s' b r _ hs' =>
    have := w.stream.readIter_recv hB rbs fire cap hi.inv hsd; rw [hs'] at this
    exact ⟨Slice.grow hi.read this.1, by simpa using this.2⟩
  | crash => exact ⟨hi.read, hi.inv⟩
  | write buf => exact ⟨hi.read, w.stream.pollWrite_recv buf hi.inv⟩
  | flush => exact ⟨hi.read, w.stream.pollFlush_recv hi.inv⟩

theorem Run.recvState (hB : B.length < 2 ^ 32) {w₀ : World} {es : List Event} (h₀ : Initial w₀)
    (ha : w₀.stream.tcb.ack = isn.addNat 1) (h : Run rbs w₀ es w)
    (hs : ∀ seg ∈ es.filterMap Event.arrival, PeerSegment isn B seg ∧ seg.header.fin = false) :
    RecvState isn B w := by
  induction h with
  | refl => exact .initial h₀ ha
  | @tail w₁ w₂ es e hr st ih =>
    refine (ih fun seg hseg => hs seg (by simp [List.filterMap_append, hseg])).step hB
      (Reachable.shutdownInv ⟨_, _, h₀, hr⟩) st fun seg he => hs seg ?_
    subst he; simp [Event.arrival]

end Runs

/-- What the consumer reads of the peer's stream in the data phase. In every run of a flow whose
peer sends a stream `B` shorter than the sequence space from initial sequence number `isn`, split,
reordered and repeated at will, flagged ACK with or without PSH and never FIN, the bytes
`poll_read` has put in the consumer's buffers form a prefix of `B`; and until a shutdown is asked
for, `ack` is `isn + 1` plus the number of bytes read. -/
theorem reads_follow_peer_stream (rbs : Nat) {isn : SeqNum} {B : List UInt8} (hB : B.length < 2 ^ 32)
    {w₀ w : World} {es : List Event} (h₀ : Initial w₀) (ha : w₀.stream.tcb.ack = isn.addNat 1)
    (h : Run rbs w₀ es w)
    (hs : ∀ seg ∈ es.filterMap Event.arrival, PeerSegment isn B seg ∧ seg.header.fin = false) :
    w.delivered <+: B ∧ (w.stream.shutdown = .none → w.stream.tcb.ack = isn.addNat (1 + w.delivered.length)) :=
  let hr := h.recvState hB h₀ ha hs
  ⟨hr.read, hr.inv.ack⟩

/-- The peer sends "ab" from `isn + 1` in two segments that arrive in reverse order; one read
returns both bytes. -/
theorem reads_follow_peer_stream_reordered : ∃ w₀ es w, Initial w₀ ∧ w₀.stream.tcb.ack = (⟨100⟩ : SeqNum).addNat 1 ∧
    Run 64 w₀ es w ∧ (∀ seg ∈ es.filterMap Event.arrival, PeerSegment ⟨100⟩ [97, 98] seg ∧ seg.header.fin = false) ∧
    w.delivered = [97, 98] ∧ w.delivered <+: [97, 98] := by
  let seg (sq : UInt32) (pl : List UInt8) : TcpSegment :=
    ⟨{ sourcePort := 1234, destinationPort := 80, sequenceNumber := sq,
       acknowledgmentNumber := 1, windowSize := 1000, ack := true }, pl⟩
  let w₀ := World.init (IpStackTcpStream.listen (.v4 ⟨0x0a000001, 1234⟩ ⟨0x0a000002, 80⟩) 100 1500 0)
  let ins : List Input := [.read 100, .pass false, .pass false, .arrive (seg 101 []), .read 100,
    .pass false, .pass false, .arrive (seg 102 [98]), .arrive (seg 101 [97]), .read 100, .pass false,
    .pass false, .pass false]
  have h : (w₀.execAll 64 ins).map (fun r =>
      decide (∀ seg ∈ r.1.filterMap Event.arrival, PeerSegment ⟨100⟩ [97, 98] seg ∧ seg.header.fin = false) &&
      decide (r.2.delivered = [97, 98])) = some true := by decide
  have h₀ : Initial w₀ := ⟨_, _, _, _, rfl⟩
  obtain ⟨es, w, hr, h⟩ := World.execAll_run h
  simp only [Bool.and_eq_true, decide_eq_true_eq] at h
  exact ⟨w₀, es, w, h₀, rfl, hr, h.1, h.2, (reads_follow_peer_stream 64 (by decide) h₀ rfl hr h.1).1⟩

/-- The flow acknowledges only bytes it has handed to the consumer. In the same runs, while no
shutdown is asked for, every segment the flow has put on the outbox acknowledges `isn + 1 + n`
for some `n` no larger than the number of bytes read. -/
theorem acks_only_read_bytes (rbs : Nat) {isn : SeqNum} {B : List UInt8} (hB : B.length < 2 ^ 32)
    {w₀ w : World} {es : List Event} (h₀ : Initial w₀) (ha : w₀.stream.tcb.ack = isn.addNat 1)
    (h : Run rbs w₀ es w)
    (hs : ∀ seg ∈ es.filterMap Event.arrival, PeerSegment isn B seg ∧ seg.header.fin = false) :
    w.stream.shutdown = .none → ∀ x ∈ w.stream.upPacketSender.sent,
      ∃ n ≤ w.delivered.length, x.packet.ack = isn.addNat (1 + n) :=
  fun hn x hx => (h.recvState hB h₀ ha hs).inv.acks hn x.packet (List.mem_append_left _ (List.mem_map_of_mem _ hx))

/-- Before the second segment of "ab" arrives, the data segment stored out of order is not
acknowledged: every segment sent acknowledges `isn + 1`. -/
theorem acks_only_read_bytes_gap : ∃ w₀ es w, Initial w₀ ∧ w₀.stream.tcb.ack = (⟨100⟩ : SeqNum).addNat 1 ∧
    Run 64 w₀ es w ∧ (∀ seg ∈ es.filterMap Event.arrival, PeerSegment ⟨100⟩ [97, 98] seg ∧ seg.header.fin = false) ∧
    w.stream.shutdown = .none ∧ w.delivered = [] ∧
    ∀ x ∈ w.stream.upPacketSender.sent, x.packet.ack = (⟨100⟩ : SeqNum).addNat 1 := by
  let seg (sq : UInt32) (pl : List UInt8) : TcpSegment :=
    ⟨{ sourcePort := 1234, destinationPort := 80, sequenceNumber := sq,
       acknowledgmentNumber := 1, windowSize := 1000, ack := true }, pl⟩
  let w₀ := World.init (IpStackTcpStream.listen (.v4 ⟨0x0a000001, 1234⟩ ⟨0x0a000002, 80⟩) 100 1500 0)
  let ins : List Input := [.read 100, .pass false, .pass false, .arrive (seg 101 []), .read 100,
    .pass false, .pass false, .arrive (seg 102 [98]), .read 100, .pass false, .pass false]
  have h : (w₀.execAll 64 ins).map (fun r =>
      decide (∀ seg ∈ r.1.filterMap Event.arrival, PeerSegment ⟨100⟩ [97, 98] seg ∧ seg.header.fin = false) &&
      decide (r.2.stream.shutdown = .none) && decide (r.2.delivered = [])) = some true := by decide
  have h₀ : Initial w₀ := ⟨_, _, _, _, rfl⟩
  obtain ⟨es, w, hr, h⟩ := World.execAll_run h
  simp only [Bool.and_eq_true, decide_eq_true_eq] at h
  obtain ⟨⟨hs, hn⟩, hd⟩ := h
  refine ⟨w₀, es, w, h₀, rfl, hr, hs, hn, hd, fun x hx => ?_⟩
  obtain ⟨n, hle, e⟩ := acks_only_read_bytes 64 (by decide) h₀ rfl hr hs hn x hx
  rw [hd] at hle; obtain rfl := Nat.le_zero.mp hle; simpa using e

end IpStack
