import IpStack.Flow

/-!
What the building blocks of a pass do, stated once so that the invariant proofs never unfold
them. `create_rev_packet` cannot fail: the payload bound keeps both IP length fields in range,
so it is the total `revPacket`. `poll_flush` never returns `Pending`; apart from clearing
`retransmission` it only appends the resent segment to the outbox.

Four runs at the end show the dispatch and the delivery of a pass diverging from TCP.
`poll_read` counts the peer's FIN at two sites, on arrival in `Established` and again when our
FIN+ACK is queued in `FinWait1(true)`; the `Established` branch for FIN+ACK checks neither that
the FIN is the next octet expected nor the segment's payload; in-order data is stored only under
the flags ACK and PSH+ACK, so with a FIN it is lost; and the delivery copies the whole contiguous
run stored at `ack` into the consumer's buffer, whatever room the buffer has left.
-/

namespace IpStack

namespace IpStackTcpStream

open TcpFlags

/-- The payload bound `create_rev_packet` applies for the flow's address family. -/
def payloadMax (s : IpStackTcpStream) : Nat :=
  match s.addrs with
  | .v4 .. => s.calculatePayloadMaxLen 20 TcpHeader.headerLen
  | .v6 .. => s.calculatePayloadMaxLen 40 TcpHeader.headerLen

/-- The segment `create_rev_packet` builds. -/
def revPacket (s : IpStackTcpStream) (flags ttl : UInt8) (seq : Option SeqNum)
    (payload : List UInt8) : NetworkPacket :=
  let pl := payload.take s.payloadMax
  match s.addrs with
  | .v4 src dst => ⟨.ipv4 dst.ip src.ip ttl (pl.length + TcpHeader.headerLen).toUInt16 true, s.revHeader flags seq, pl⟩
  | .v6 src dst => ⟨.ipv6 dst.ip src.ip ttl (pl.length + TcpHeader.headerLen).toUInt16, s.revHeader flags seq, pl⟩

theorem payloadMax_le (s : IpStackTcpStream) : s.payloadMax ≤ 65535 - 40 := by
  have := s.mtu.toBitVec.isLt
  unfold payloadMax calculatePayloadMaxLen TcpHeader.headerLen
  split <;> simp only [UInt16.toNat] at * <;> omega

@[simp] theorem createRevPacket_eq (s : IpStackTcpStream) (flags ttl : UInt8)
    (seq : Option SeqNum) (payload : List UInt8) :
    s.createRevPacket flags ttl seq payload = .ok (s.revPacket flags ttl seq payload) := by
  have hle := s.payloadMax_le
  have hlen : (payload.take s.payloadMax).length ≤ s.payloadMax := by
    rw [List.length_take]; exact Nat.min_le_left _ _
  rcases h : s.addrs with ⟨src, dst⟩ | ⟨src, dst⟩ <;>
    simp only [createRevPacket, revPacket, payloadMax, h, TcpHeader.headerLen] at hle hlen ⊢ <;>
    rw [if_neg (by omega)]

@[simp] theorem revPacket_transport (s : IpStackTcpStream) (flags ttl : UInt8)
    (seq : Option SeqNum) (payload : List UInt8) :
    (s.revPacket flags ttl seq payload).transport = s.revHeader flags seq := by
  unfold revPacket; split <;> rfl

@[simp] theorem revPacket_payload (s : IpStackTcpStream) (flags ttl : UInt8)
    (seq : Option SeqNum) (payload : List UInt8) :
    (s.revPacket flags ttl seq payload).payload = payload.take s.payloadMax := by
  unfold revPacket; split <;> rfl

@[simp] theorem revPacket_seq (s : IpStackTcpStream) (flags ttl : UInt8)
    (seq : Option SeqNum) (payload : List UInt8) :
    (s.revPacket flags ttl seq payload).seq = seq.getD s.tcb.seq := by
  simp [NetworkPacket.seq, revHeader]

@[simp] theorem revPacket_ack (s : IpStackTcpStream) (flags ttl : UInt8)
    (seq : Option SeqNum) (payload : List UInt8) :
    (s.revPacket flags ttl seq payload).ack = s.tcb.ack := by
  simp [NetworkPacket.ack, revHeader]

@[simp] theorem revPacket_flags (s : IpStackTcpStream) (flags ttl : UInt8)
    (seq : Option SeqNum) (payload : List UInt8) :
    (s.revPacket flags ttl seq payload).flags = (s.revHeader flags seq).flags := by
  simp [NetworkPacket.flags]

@[simp] theorem revPacket_ttl (s : IpStackTcpStream) (flags ttl : UInt8) (seq : Option SeqNum)
    (payload : List UInt8) : (s.revPacket flags ttl seq payload).ip.ttl = ttl := by
  unfold revPacket; split <;> rfl

/-- The segments the flow builds carry exactly the flags asked for. -/
theorem revPacket_flags_of (s : IpStackTcpStream) {f : UInt8} (sq : Option SeqNum) (pl : List UInt8)
    (hf : f = ACK ∨ f = SYN ||| ACK ∨ f = FIN ||| ACK ∨ f = RST ||| ACK ∨ f = PSH ||| ACK) :
    (s.revPacket f TTL sq pl).flags = f := by
  rcases hf with rfl | rfl | rfl | rfl | rfl <;> rw [revPacket_flags] <;>
    simp [revHeader, TcpHeader.flags, PSH, ACK, FIN, SYN, RST, CWR, ECE, URG] <;> decide

@[simp] theorem queue_eq (s : IpStackTcpStream) (flags : UInt8) (t : Tcb) :
    s.queue flags t = .next { s with packetToSend := some (s.revPacket flags TTL none []), tcb := t } := by
  simp [queue]

/-- The outbox after `p` is sent. -/
def Outbox.push (o : Outbox) (p : NetworkPacket) (resend : Bool) : Outbox :=
  { o with sent := o.sent ++ [⟨p, resend⟩] }

theorem send_eq_ok {s s' : IpStackTcpStream} {p : NetworkPacket} {r : Bool}
    (h : s.send p r = .ok s') :
    s' = { s with upPacketSender := Outbox.push s.upPacketSender p r } ∧ s.upPacketSender.closed = false := by
  unfold send at h
  split at h
  · cases h
  · rename_i hc; cases h; exact ⟨rfl, by simpa using hc⟩

/-- `poll_flush`, said once: it may clear `retransmission` and append one resent in-flight
segment (only in `Established`), and never returns `Pending`. -/
theorem pollFlush_spec (s : IpStackTcpStream) :
    s.pollFlush.2 ≠ .pending ∧
    ∃ r o, s.pollFlush.1 = { s with tcb := { s.tcb with retransmission := r }, upPacketSender := o } ∧
      (o = s.upPacketSender ∨ ∃ p ∈ s.tcb.inflightPackets, s.tcb.state = .established ∧
        o = Outbox.push s.upPacketSender (s.revPacket (PSH ||| ACK) TTL (some p.seq) p.payload) true) := by
  unfold pollFlush
  by_cases hst : s.tcb.state = .established
  · rw [if_neg (fun h => h hst)]
    split
    · exact ⟨by simp, s.tcb.retransmission, s.upPacketSender, rfl, .inl rfl⟩
    · simp only [withTcb, createRevPacket_eq]
      split
      · exact ⟨by simp, none, _, rfl, .inl rfl⟩
      · rename_i p hp
        split
        · exact ⟨by simp, none, _, rfl, .inl rfl⟩
        · rename_i s' hs
          obtain ⟨rfl, -⟩ := send_eq_ok hs
          refine ⟨by simp, none, _, rfl, .inr ⟨p, List.mem_of_find?_eq_some hp, hst, ?_⟩⟩
          simp [revPacket, revHeader, payloadMax, calculatePayloadMaxLen]
  · rw [if_pos hst]
    exact ⟨by simp, s.tcb.retransmission, s.upPacketSender, rfl, .inl rfl⟩

theorem flushPending_spec (s : IpStackTcpStream) :
    s.flushPending.2 ≠ .pending ∧
    ∃ r o, s.flushPending.1 = { s with tcb := { s.tcb with retransmission := r }, upPacketSender := o } ∧
      (o = s.upPacketSender ∨ ∃ p ∈ s.tcb.inflightPackets, s.tcb.state = .established ∧
        o = Outbox.push s.upPacketSender (s.revPacket (PSH ||| ACK) TTL (some p.seq) p.payload) true) := by
  unfold flushPending
  split
  · exact s.pollFlush_spec
  · exact ⟨by simp, s.tcb.retransmission, s.upPacketSender, rfl, .inl rfl⟩

theorem sendQueued_ok {s s' : IpStackTcpStream} (h : s.sendQueued = .ok s') :
    (s.packetToSend = none ∧ s' = s) ∨
    ∃ p, s.packetToSend = some p ∧ s.upPacketSender.closed = false ∧
      s' = { s with packetToSend := none, upPacketSender := Outbox.push s.upPacketSender p false } := by
  unfold sendQueued at h
  split at h
  · cases h; exact .inl ⟨‹_›, rfl⟩
  · obtain ⟨rfl, hc⟩ := send_eq_ok h; exact .inr ⟨_, ‹_›, hc, rfl⟩

/-- With no retransmission requested, `poll_flush` and the flush before a pass or a write do
nothing. -/
theorem pollFlush_of_none (s : IpStackTcpStream) (hr : s.tcb.retransmission = none) :
    (∀ site, s.pollFlush.2 ≠ .panic site) ∧ s.pollFlush.1 = s := by
  unfold pollFlush; split
  · exact ⟨fun _ => by simp, rfl⟩
  · simp [hr]

theorem flushPending_of_none (s : IpStackTcpStream) (hr : s.tcb.retransmission = none) :
    s.flushPending = (s, .ok ()) := by
  simp [flushPending, hr]

/-- `poll_flush` keeps the state, `shutdown`, and every TCB field but `retransmission`. -/
theorem pollFlush_fst_tcb (s : IpStackTcpStream) :
    ∃ r, s.pollFlush.1.tcb = { s.tcb with retransmission := r } := by
  obtain ⟨-, r, o, h, -⟩ := s.pollFlush_spec; exact ⟨r, by rw [h]⟩

@[simp] theorem pollFlush_state (s : IpStackTcpStream) : s.pollFlush.1.tcb.state = s.tcb.state := by
  obtain ⟨r, h⟩ := s.pollFlush_fst_tcb; rw [h]

@[simp] theorem pollFlush_shutdown (s : IpStackTcpStream) : s.pollFlush.1.shutdown = s.shutdown := by
  obtain ⟨-, r, o, h, -⟩ := s.pollFlush_spec; rw [h]

@[simp] theorem flushPending_state (s : IpStackTcpStream) :
    s.flushPending.1.tcb.state = s.tcb.state := by
  unfold flushPending; split <;> simp

@[simp] theorem flushPending_shutdown (s : IpStackTcpStream) :
    s.flushPending.1.shutdown = s.shutdown := by
  unfold flushPending; split <;> simp

theorem flushPending_keeps {s s₁ : IpStackTcpStream} {o : Outcome Unit}
    (h : s.flushPending = (s₁, o)) : s₁.tcb.state = s.tcb.state ∧ s₁.shutdown = s.shutdown := by
  have := congrArg Prod.fst h
  simp only at this
  exact ⟨this ▸ s.flushPending_state, this ▸ s.flushPending_shutdown⟩

/-- The stream after `poll_write` has sent the PSH+ACK segment for `buf` and put it in flight. -/
def wrote (s : IpStackTcpStream) (buf : List UInt8) : IpStackTcpStream :=
  let p := s.revPacket (PSH ||| ACK) TTL none buf
  { s with upPacketSender := Outbox.push s.upPacketSender p false,
           tcb := s.tcb.addInflightPacket s.tcb.seq p.payload }

@[simp] theorem wrote_tcb (s : IpStackTcpStream) (buf : List UInt8) :
    (s.wrote buf).tcb = s.tcb.addInflightPacket s.tcb.seq (buf.take s.payloadMax) := by
  simp [wrote]

@[simp] theorem wrote_shutdown (s : IpStackTcpStream) (buf : List UInt8) :
    (s.wrote buf).shutdown = s.shutdown := rfl

/-- `poll_write`, said once: it returns the stream unchanged, or as `poll_flush` left it, with
no byte accepted; or, in `Established` with both guards passed and the outbox open, it sends
one PSH+ACK segment at `seq` with the front of `buf` and puts it in flight. -/
theorem pollWrite_eq (s : IpStackTcpStream) (buf : List UInt8) :
    (∃ o, s.pollWrite buf = (s, o) ∧ ∀ n, o ≠ .ok n) ∨
    (∃ o, s.pollWrite buf = (s.flushPending.1, o) ∧ ∀ n, o ≠ .ok n) ∨
    (s.tcb.state = .established ∧
      ¬(s.tcb.sendWindow.toNat < s.tcb.avgSendWindow / 2 ∨ s.tcb.isSendBufferFull) ∧
      s.flushPending.2 ≠ .pending ∧ s.flushPending.1.upPacketSender.closed = false ∧
      s.pollWrite buf = (s.flushPending.1.wrote buf, .ok (buf.take s.flushPending.1.payloadMax).length)) := by
  unfold pollWrite
  split
  · exact .inl ⟨_, rfl, by simp⟩
  split
  · exact .inl ⟨_, rfl, by simp⟩
  rename_i hst hg
  split
  · rename_i heq; exact .inr (.inl ⟨_, by rw [heq], by simp⟩)
  · rename_i heq; exact .inr (.inl ⟨_, by rw [heq], by simp⟩)
  rename_i s₁ o hp hpend heq
  simp only [createRevPacket_eq]
  split
  · exact .inr (.inl ⟨_, by rw [heq], by simp⟩)
  rename_i s₂ hs
  obtain ⟨rfl, hc⟩ := send_eq_ok hs
  refine .inr (.inr ⟨Decidable.of_not_not hst, hg, by rw [heq]; exact hpend, by rw [heq]; exact hc, ?_⟩)
  rw [heq]; simp [wrote]

/-- A write that accepts bytes is the third case of `pollWrite_eq`. -/
theorem pollWrite_ok {s : IpStackTcpStream} {buf : List UInt8} {n : Nat} (h : (s.pollWrite buf).2 = .ok n) :
    s.tcb.state = .established ∧
      ¬(s.tcb.sendWindow.toNat < s.tcb.avgSendWindow / 2 ∨ s.tcb.isSendBufferFull) ∧
      (s.pollWrite buf).1 = s.flushPending.1.wrote buf ∧ n = (buf.take s.flushPending.1.payloadMax).length := by
  rcases s.pollWrite_eq buf with ⟨o, h', ho⟩ | ⟨o, h', ho⟩ | ⟨hst, hg, -, -, h'⟩ <;> rw [h'] at h ⊢
  · exact absurd h (ho n)
  · exact absurd h (ho n)
  · exact ⟨hst, hg, rfl, (Outcome.ok.inj h).symm⟩

@[simp] theorem pollWrite_state (s : IpStackTcpStream) (buf : List UInt8) :
    (s.pollWrite buf).1.tcb.state = s.tcb.state := by
  rcases s.pollWrite_eq buf with ⟨o, h, -⟩ | ⟨o, h, -⟩ | ⟨-, -, -, -, h⟩ <;> simp [h]

@[simp] theorem pollWrite_shutdown (s : IpStackTcpStream) (buf : List UInt8) :
    (s.pollWrite buf).1.shutdown = s.shutdown := by
  rcases s.pollWrite_eq buf with ⟨o, h, -⟩ | ⟨o, h, -⟩ | ⟨-, -, -, -, h⟩ <;> simp [h]

theorem sendQueued_control {s s' : IpStackTcpStream} (h : s.sendQueued = .ok s') :
    s'.tcb = s.tcb ∧ s'.shutdown = s.shutdown ∧ s'.streamReceiver = s.streamReceiver := by
  rcases sendQueued_ok h with ⟨-, rfl⟩ | ⟨p, -, -, rfl⟩ <;> simp

end IpStackTcpStream

/-- The stream a pass leaves behind, unless it panicked. -/
def ReadStep.stream? : ReadStep → Option IpStackTcpStream
  | .next s => some s
  | .done s _ _ => some s
  | .panic _ => none

@[simp] theorem ReadStep.stream?_next (s : IpStackTcpStream) : (ReadStep.next s).stream? = some s := rfl

@[simp] theorem ReadStep.stream?_done (s : IpStackTcpStream) (b : List UInt8) (r : Outcome Unit) :
    (ReadStep.done s b r).stream? = some s := rfl

@[simp] theorem ReadStep.stream?_panic (site : PanicSite) : (ReadStep.panic site).stream? = none := rfl

/-- The stream a pass leaves behind satisfies `P`, unless the pass panicked. -/
def ReadStep.Holds (P : IpStackTcpStream → Prop) : ReadStep → Prop
  | .next s => P s
  | .done s _ _ => P s
  | .panic _ => True

namespace IpStackTcpStream

variable {P : IpStackTcpStream → Prop} (s : IpStackTcpStream)

theorem queue_holds {flags : UInt8} {t : Tcb}
    (h : P { s with packetToSend := some (s.revPacket flags TTL none []), tcb := t }) :
    (s.queue flags t).Holds P := by
  rw [queue_eq]; exact h

theorem flushThenLoop_holds (h : P s.pollFlush.1) : s.flushThenLoop.Holds P := by
  unfold flushThenLoop
  split <;> rename_i heq <;> simp only [heq] at h <;> trivial

end IpStackTcpStream


section

open TcpFlags

/-- The peer's FIN counted twice. The peer sends no byte, and its FIN at `isn + 1` arrives in
order: `Established` counts it, and `FinWait1(true)` counts it again after queuing our FIN+ACK.
When the idle timer then fires, the RST+ACK acknowledges `isn + 3`, two past the FIN. -/
theorem fin_counted_twice : ∃ w₀ es w, Initial w₀ ∧ w₀.stream.tcb.ack = (⟨100⟩ : SeqNum).addNat 1 ∧
    Run 64 w₀ es w ∧ (∀ seg ∈ es.filterMap Event.arrival, PeerSegment ⟨100⟩ [] seg) ∧
    ∃ x ∈ w.stream.upPacketSender.sent, ¬ x.packet.ack ≤ (⟨100⟩ : SeqNum).addNat 2 := by
  let ackSeg : TcpSegment :=
    ⟨{ sourcePort := 1234, destinationPort := 80, sequenceNumber := 101,
       acknowledgmentNumber := 1, windowSize := 1000, ack := true }, []⟩
  let finSeg : TcpSegment :=
    ⟨{ sourcePort := 1234, destinationPort := 80, sequenceNumber := 101,
       acknowledgmentNumber := 1, windowSize := 1000, ack := true, fin := true }, []⟩
  let w₀ := World.init (IpStackTcpStream.listen (.v4 ⟨0x0a000001, 1234⟩ ⟨0x0a000002, 80⟩) 100 1500 0)
  let ins : List Input := [.read 100, .pass false, .pass false, .arrive ackSeg, .read 100,
    .pass false, .pass false, .arrive finSeg, .read 100, .pass false, .pass false, .pass true]
  have h : (w₀.execAll 64 ins).map (fun r => decide (∀ seg ∈ r.1.filterMap Event.arrival, PeerSegment ⟨100⟩ [] seg) &&
      r.2.stream.upPacketSender.sent.any fun x => !decide (x.packet.ack ≤ (⟨100⟩ : SeqNum).addNat 2)) =
      some true := by decide
  obtain ⟨es, w, hr, h⟩ := World.execAll_run h
  exact ⟨w₀, es, w, ⟨_, _, _, _, rfl⟩, rfl, hr, by simpa using h⟩

/-- An early FIN. The peer sends "ab" from `isn + 1`; the segment with "b", then the FIN, reach
the flow before the one with "a". The FIN+ACK branch of `Established` counts the FIN as the next
octet, `ack` moves onto "b", and the stored "b" is delivered as if it followed the bytes read so
far. No RST is sent or received and the timer never fires, yet the consumer reads "b". -/
theorem early_fin_skips_data : ∃ w₀ es w, Initial w₀ ∧ w₀.stream.tcb.ack = (⟨100⟩ : SeqNum).addNat 1 ∧
    Run 64 w₀ es w ∧ (∀ seg ∈ es.filterMap Event.arrival, PeerSegment ⟨100⟩ [97, 98] seg) ∧
    w.stream.upPacketSender.closed = false ∧ (∀ x ∈ w.stream.upPacketSender.sent, x.packet.flags ≠ RST ||| ACK) ∧
    ¬ w.delivered <+: [97, 98] := by
  let seg (sq : UInt32) (fin : Bool) (pl : List UInt8) : TcpSegment :=
    ⟨{ sourcePort := 1234, destinationPort := 80, sequenceNumber := sq,
       acknowledgmentNumber := 1, windowSize := 1000, ack := true, fin := fin }, pl⟩
  let w₀ := World.init (IpStackTcpStream.listen (.v4 ⟨0x0a000001, 1234⟩ ⟨0x0a000002, 80⟩) 100 1500 0)
  let ins : List Input := [.read 100, .pass false, .pass false, .arrive (seg 101 false []), .read 100,
    .pass false, .pass false, .arrive (seg 102 false [98]), .read 100, .pass false, .pass false,
    .arrive (seg 103 true []), .read 100, .pass false, .pass false]
  have h : (w₀.execAll 64 ins).map (fun r =>
      decide (∀ seg ∈ r.1.filterMap Event.arrival, PeerSegment ⟨100⟩ [97, 98] seg) &&
      !r.2.stream.upPacketSender.closed &&
      decide (∀ x ∈ r.2.stream.upPacketSender.sent, x.packet.flags ≠ RST ||| ACK) &&
      !decide (r.2.delivered <+: [97, 98])) = some true := by decide
  obtain ⟨es, w, hr, h⟩ := World.execAll_run h
  exact ⟨w₀, es, w, ⟨_, _, _, _, rfl⟩, rfl, hr, by simpa [and_assoc] using h⟩

/-- A read with a one-byte buffer after the peer sent two bytes in order. The first pass stores
them; the next drains the reorder store, hands both bytes to `put_slice`, and its assertion
fails. -/
theorem put_slice_overflow : ∃ w₀ es w, Initial w₀ ∧ w₀.stream.tcb.ack = (⟨100⟩ : SeqNum).addNat 1 ∧
    Run 64 w₀ es w ∧ (∀ seg ∈ es.filterMap Event.arrival, PeerSegment ⟨100⟩ [97, 98] seg) ∧
    [.readCalled 1, .passed, .readReturned [] (.panic .putSliceOverflow)] <:+ es := by
  let seg (pl : List UInt8) : TcpSegment :=
    ⟨{ sourcePort := 1234, destinationPort := 80, sequenceNumber := 101,
       acknowledgmentNumber := 1, windowSize := 1000, ack := true, psh := pl != [] }, pl⟩
  let w₀ := World.init (IpStackTcpStream.listen (.v4 ⟨0x0a000001, 1234⟩ ⟨0x0a000002, 80⟩) 100 1500 0)
  let ins : List Input := [.read 100, .pass false, .pass false, .arrive (seg []), .read 100,
    .pass false, .pass false, .arrive (seg [97, 98]), .read 1, .pass false, .pass false]
  have h : (w₀.execAll 64 ins).map (fun r =>
      decide (∀ seg ∈ r.1.filterMap Event.arrival, PeerSegment ⟨100⟩ [97, 98] seg) &&
      decide ([.readCalled 1, .passed, .readReturned [] (.panic .putSliceOverflow)] <:+ r.1)) =
      some true := by decide
  obtain ⟨es, w, hr, h⟩ := World.execAll_run h
  exact ⟨w₀, es, w, ⟨_, _, _, _, rfl⟩, rfl, hr, by simpa using h⟩

/-- In-order data with a FIN. In `Established`, with no shutdown asked for, the peer's next
segment carries "a" at `ack` with an acceptable acknowledgement, flagged FIN+ACK or FIN+PSH+ACK.
The read that takes it returns without the byte, and the reorder store holds nothing at `ack`:
FIN+ACK counts the FIN in the byte's place, FIN+PSH+ACK matches no branch and is dropped. -/
theorem fin_data_dropped (psh : Bool) : ∃ w₀ es w seg es' w', Initial w₀ ∧ Run 64 w₀ es w ∧
    w.stream.tcb.state = .established ∧ w.stream.shutdown = .none ∧ w.stream.streamReceiver = [seg] ∧
    seg.header.flags = (if psh then FIN ||| PSH ||| ACK else FIN ||| ACK) ∧
    (⟨seg.header.sequenceNumber⟩ : SeqNum) = w.stream.tcb.ack ∧ seg.payload ≠ [] ∧
    w.stream.tcb.AckAcceptable ⟨seg.header.acknowledgmentNumber⟩ ∧
    Run 64 w es' w' ∧ w'.mode = .idle ∧ w'.stream.streamReceiver = [] ∧ w'.delivered = w.delivered ∧
    w'.stream.tcb.unorderedPackets.lookup w.stream.tcb.ack = none := by
  let seg (fin : Bool) (pl : List UInt8) : TcpSegment :=
    ⟨{ sourcePort := 1234, destinationPort := 80, sequenceNumber := 101,
       acknowledgmentNumber := 1, windowSize := 1000, ack := true, psh := psh && fin, fin := fin }, pl⟩
  let w₀ := World.init (IpStackTcpStream.listen (.v4 ⟨0x0a000001, 1234⟩ ⟨0x0a000002, 80⟩) 100 1500 0)
  let ins : List Input := [.read 100, .pass false, .pass false, .arrive (seg false []), .read 100,
    .pass false, .pass false, .arrive (seg true [97])]
  let ins' : List Input := .read 100 :: List.replicate (if psh then 2 else 3) (.pass false)
  have h : (w₀.execAll 64 ins).map (fun r =>
      decide (r.2.stream.tcb.state = .established ∧ r.2.stream.shutdown = .none ∧
        r.2.stream.streamReceiver = [seg true [97]] ∧
        (seg true [97]).header.flags = (if psh then FIN ||| PSH ||| ACK else FIN ||| ACK) ∧
        (⟨(seg true [97]).header.sequenceNumber⟩ : SeqNum) = r.2.stream.tcb.ack ∧
        r.2.stream.tcb.AckAcceptable ⟨(seg true [97]).header.acknowledgmentNumber⟩) &&
      decide ((r.2.execAll 64 ins').map (fun r' => decide (r'.2.mode = .idle ∧
        r'.2.stream.streamReceiver = [] ∧ r'.2.delivered = r.2.delivered ∧
        r'.2.stream.tcb.unorderedPackets.lookup r.2.stream.tcb.ack = none)) = some true)) =
      some true := by cases psh <;> decide
  obtain ⟨es, w, hr, h⟩ := World.execAll_run h
  simp only [Bool.and_eq_true, decide_eq_true_eq] at h
  obtain ⟨⟨h₁, h₂, h₃, h₄, h₅, h₆⟩, h'⟩ := h
  obtain ⟨es', w', hr', h'⟩ := World.execAll_run h'
  simp only [decide_eq_true_eq] at h'
  exact ⟨w₀, es, w, _, es', w', ⟨_, _, _, _, rfl⟩, hr, h₁, h₂, h₃, h₄, h₅, List.cons_ne_nil _ _, h₆, hr', h'⟩

end

end IpStack
