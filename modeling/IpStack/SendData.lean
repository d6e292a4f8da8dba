import IpStack.StateMachine

/-!
What the flow sends of the bytes the consumer wrote. The sequence number `iss + 1 + i` stands
for byte `i` of the written stream `W`: `seq` is `iss`, before the SYN+ACK, then `iss + 1 + |W|`,
plus one once our FIN is out. Every in-flight entry, and so every PSH+ACK segment, new or
resent, carries the bytes of `W` at its offset, and the FIN+ACK sits just past `W`. A FIN is
queued only when the flow leaves `Established` for good, so `W` no longer grows after it.
-/

namespace IpStack

open IpStackTcpStream TcpFlags

namespace Slice

variable {W : List UInt8} {o : Nat} {b : List UInt8}

theorem take (h : Slice W o b) (n : Nat) : Slice W o (b.take n) := by
  obtain ⟨h₁, h₂⟩ := h
  refine ⟨by simp only [List.length_take]; omega, ?_⟩
  conv => rhs; rw [← h₂]
  simp only [List.take_take, List.length_take]

theorem append (h : Slice W o b) (X : List UInt8) : Slice (W ++ X) o b := by
  obtain ⟨h₁, h₂⟩ := h
  refine ⟨by simp; omega, ?_⟩
  rw [List.drop_append_of_le_length (by omega), List.take_append_of_le_length (by simp; omega), h₂]

theorem self_append (W X : List UInt8) : Slice (W ++ X) W.length X := ⟨by simp, by simp⟩

theorem drop (h : Slice W o b) {k : Nat} (hk : k ≤ b.length) : Slice W (o + k) (b.drop k) := by
  obtain ⟨h₁, h₂⟩ := h
  refine ⟨by simp only [List.length_drop]; omega, ?_⟩
  rw [List.length_drop, ← List.drop_drop, ← List.drop_take, h₂]

end Slice

/-- A segment at `seq` carries the written bytes `b` at its offset. -/
def DataAt (iss : SeqNum) (W : List UInt8) (seq : SeqNum) (b : List UInt8) : Prop :=
  ∃ o, seq = iss.addNat (1 + o) ∧ Slice W o b

theorem DataAt.append {iss : SeqNum} {W : List UInt8} {q : SeqNum} {b : List UInt8}
    (h : DataAt iss W q b) (X : List UInt8) : DataAt iss (W ++ X) q b :=
  let ⟨o, h₁, h₂⟩ := h; ⟨o, h₁, h₂.append X⟩

/-- What is left of an in-flight entry once its front is acknowledged is still at its offset. -/
theorem DataAt.suffix {iss : SeqNum} {W : List UInt8} {p q : InflightPacket}
    (h : DataAt iss W p.seq p.payload) (hq : q.SuffixOf p) : DataAt iss W q.seq q.payload := by
  obtain ⟨o, h₁, h₂⟩ := h
  obtain ⟨k, hk, hs, hp⟩ := hq
  exact ⟨o + k, by rw [hs, h₁, SeqNum.addNat_addNat, Nat.add_assoc], hp ▸ h₂.drop hk⟩

/-- After our FIN the flow is in none of the states that come before it. -/
def FinOut (st : TcpState) : Prop := st ≠ .listen ∧ st ≠ .synReceived ∧ st ≠ .established

theorem TcpState.Edge.finOut {a b : TcpState} (e : Edge a b) (h : FinOut a) : FinOut b := by
  cases e <;> simp_all [FinOut]

/-- What is asked of a segment on the outbox: a PSH+ACK segment carries written bytes at its
offset, and a FIN+ACK segment sits just past them, on a flow that has left `Established`. -/
def Emitted (iss : SeqNum) (W : List UInt8) (st : TcpState) (p : NetworkPacket) : Prop :=
  (p.flags = PSH ||| ACK → DataAt iss W p.seq p.payload) ∧
  (p.flags = FIN ||| ACK → p.seq = iss.addNat (1 + W.length) ∧ FinOut st)

namespace Emitted

variable {iss : SeqNum} {W : List UInt8} {st : TcpState} {p : NetworkPacket}

theorem of_flags (h₁ : p.flags ≠ PSH ||| ACK) (h₂ : p.flags ≠ FIN ||| ACK) : Emitted iss W st p :=
  ⟨fun h => absurd h h₁, fun h => absurd h h₂⟩

theorem edge {st' : TcpState} (h : Emitted iss W st p) (e : st' = st ∨ TcpState.Edge st st') :
    Emitted iss W st' p := by
  refine ⟨h.1, fun hf => ⟨(h.2 hf).1, ?_⟩⟩
  rcases e with rfl | e
  · exact (h.2 hf).2
  · exact e.finOut (h.2 hf).2

/-- Before our FIN, what is on the outbox stays right as `W` grows. -/
theorem append (h : Emitted iss W st p) (hst : ¬ FinOut st) (X : List UInt8) : Emitted iss (W ++ X) st p :=
  ⟨fun hf => (h.1 hf).append X, fun hf => absurd (h.2 hf).2 hst⟩

end Emitted

/-- The send-data invariant of a flow with initial sequence number `iss` whose consumer has
written `W`. -/
structure SendData (iss : SeqNum) (W : List UInt8) (s : IpStackTcpStream) : Prop where
  /-- `seq` is `iss` until the SYN+ACK, then one past the SYN and `W`, and one more once our
  FIN is out, which it is not before `FinWait1(false)` or `FinWait2`. -/
  seq : (s.tcb.seq = iss ∧ W = [] ∧ (s.tcb.state = .listen ∨ s.tcb.state = .closed)) ∨
    (s.tcb.state ≠ .listen ∧ ∃ f ≤ 1, s.tcb.seq = iss.addNat (1 + W.length + f) ∧
      (s.tcb.state = .synReceived ∨ s.tcb.state = .established ∨ s.tcb.state = .finWait1 true →
        f = 0))
  inflight : ∀ p ∈ s.tcb.inflightPackets, DataAt iss W p.seq p.payload
  sent : ∀ x ∈ s.upPacketSender.sent, Emitted iss W s.tcb.state x.packet
  queued : ∀ p, s.packetToSend = some p → p.flags ≠ PSH ||| ACK ∧ Emitted iss W s.tcb.state p

/-- The states in which our FIN is not out: `seq` counts only the SYN and `W`. -/
def NoFin (q : TcpState) : Prop := q = .synReceived ∨ q = .established ∨ q = .finWait1 true

/-- A change of state that leaves what `seq` counts: along an edge, not into `SynReceived`
(that is the SYN+ACK's), and into a state before our FIN only from one. -/
def KeepsSeq (q q' : TcpState) : Prop :=
  q' = q ∨ (TcpState.Edge q q' ∧ q' ≠ .synReceived ∧ (q' = .established ∨ q' = .finWait1 true → NoFin q))

namespace KeepsSeq

variable {q q' : TcpState}

theorem edge (h : KeepsSeq q q') : q' = q ∨ TcpState.Edge q q' := h.imp id (·.1)

theorem noFin (h : KeepsSeq q q') (hn : NoFin q') : NoFin q := by
  rcases h with rfl | ⟨-, hl, hf⟩
  · exact hn
  · rcases hn with h | h | h
    · exact absurd h hl
    · exact hf (.inl h)
    · exact hf (.inr h)

theorem ne_listen (h : KeepsSeq q q') (hq : q ≠ .listen) : q' ≠ .listen := by
  rcases h with rfl | ⟨e, -, -⟩
  · exact hq
  · exact e.target_ne_listen

@[simp] theorem refl (q : TcpState) : KeepsSeq q q := .inl rfl

@[simp] theorem synReceived : KeepsSeq .synReceived .established :=
  .inr ⟨.synReceived, by simp, fun _ => .inl rfl⟩

@[simp] theorem established : KeepsSeq .established (.finWait1 true) :=
  .inr ⟨.established true, by simp, fun _ => .inr (.inl rfl)⟩

@[simp] theorem finWait1 (b : Bool) : KeepsSeq (.finWait1 b) (.finWait2 true) :=
  .inr ⟨.finWait1 b, by simp, by simp⟩

@[simp] theorem finWait2 : KeepsSeq (.finWait2 true) (.finWait2 false) :=
  .inr ⟨.finWait2, by simp, by simp⟩

@[simp] theorem toClosed (q : TcpState) : KeepsSeq q .closed := by
  by_cases h : q = .closed
  · exact .inl h.symm
  · exact .inr ⟨.close h, by simp, by simp⟩

theorem listen_or_closed (h : KeepsSeq q q') (hq : q = .listen ∨ q = .closed) :
    q' = .listen ∨ q' = .closed := by
  rcases h with rfl | ⟨e, hl, -⟩
  · exact hq
  · rcases hq with rfl | rfl
    · cases e with
      | listen => exact absurd rfl hl
      | close _ => exact .inr rfl
    · cases e; contradiction

end KeepsSeq

namespace SendData

variable {iss : SeqNum} {W : List UInt8} {s s' : IpStackTcpStream}

/-- A step that keeps `seq` and the outbox, changes the state as `KeepsSeq` allows, only drops
in-flight entries or cuts their front off, and keeps or sends the queued segment. -/
theorem update (h : SendData iss W s) (h₁ : s'.tcb.seq = s.tcb.seq) (h₂ : KeepsSeq s.tcb.state s'.tcb.state)
    (h₃ : InflightPacket.Trimmed s'.tcb.inflightPackets s.tcb.inflightPackets)
    (h₄ : s'.upPacketSender.sent = s.upPacketSender.sent)
    (h₅ : s'.packetToSend = none ∨ s'.packetToSend = s.packetToSend) : SendData iss W s' := by
  obtain ⟨hs, hi, ht, hq⟩ := h
  refine ⟨?_, fun q hq' => let ⟨p, hp, hsf⟩ := h₃ q hq'; (hi p hp).suffix hsf,
    fun x hx => (ht x (h₄ ▸ hx)).edge h₂.edge, fun p hp => ?_⟩
  · rw [h₁]
    rcases hs with ⟨h₁', h₂', h₃'⟩ | ⟨h₁', f, hf₁, h₂', h₃'⟩
    · exact .inl ⟨h₁', h₂', h₂.listen_or_closed h₃'⟩
    · exact .inr ⟨h₂.ne_listen h₁', f, hf₁, h₂', fun h => h₃' (h₂.noFin h)⟩
  · rcases h₅ with h₅ | h₅ <;> rw [h₅] at hp
    · cases hp
    · exact ⟨(hq p hp).1, (hq p hp).2.edge h₂.edge⟩

/-- A step that leaves the TCB, the outbox and the queued segment as they were. -/
theorem keep (h : SendData iss W s) (h₁ : s'.tcb = s.tcb) (h₂ : s'.upPacketSender.sent = s.upPacketSender.sent)
    (h₃ : s'.packetToSend = s.packetToSend) : SendData iss W s' :=
  h.update (by rw [h₁]) (by rw [h₁]; exact .refl _) (by rw [h₁]; exact InflightPacket.Trimmed.refl _) h₂ (.inr h₃)

theorem send {p : NetworkPacket} {r : Bool} (h : SendData iss W s) (hp : Emitted iss W s.tcb.state p) :
    SendData iss W { s with upPacketSender := Outbox.push s.upPacketSender p r } := by
  refine ⟨h.seq, h.inflight, fun x hx => ?_, h.queued⟩
  simp only [Outbox.push, List.mem_append, List.mem_singleton] at hx
  rcases hx with hx | rfl
  · exact h.sent x hx
  · exact hp

/-- Before our FIN nothing has been sent past `W`. -/
theorem seq_noFin (h : SendData iss W s) (hs : NoFin s.tcb.state) :
    s.tcb.seq = iss.addNat (1 + W.length) := by
  rcases h.seq with ⟨-, -, h | h⟩ | ⟨-, f, -, hf, h⟩
  · rcases hs with h' | h' | h' <;> simp_all
  · rcases hs with h' | h' | h' <;> simp_all
  · rw [hf, h hs]; rfl

/-- Queuing a bare ACK or the SYN+ACK on a stream that already satisfies the invariant. -/
theorem queue {flags : UInt8} {t : Tcb} (h : SendData iss W { s with tcb := t })
    (hf : flags = ACK ∨ flags = SYN ||| ACK) :
    SendData iss W { s with packetToSend := some (s.revPacket flags TTL none []), tcb := t } := by
  have hfl := s.revPacket_flags_of none [] (f := flags) (by rcases hf with rfl | rfl <;> simp)
  have h₁ : flags ≠ PSH ||| ACK := by rcases hf with rfl | rfl <;> decide
  have h₂ : flags ≠ FIN ||| ACK := by rcases hf with rfl | rfl <;> decide
  refine ⟨h.seq, h.inflight, h.sent, fun p hp => ?_⟩
  cases hp
  exact ⟨by rw [hfl]; exact h₁, .of_flags (by rw [hfl]; exact h₁) (by rw [hfl]; exact h₂)⟩

/-- Our FIN+ACK is queued at `seq`, just past `W`, and `seq` moves past it. -/
theorem queueFin {t : Tcb} (h : SendData iss W s) (hs : NoFin s.tcb.state)
    (he : TcpState.Edge s.tcb.state t.state) (h₁ : t.seq = s.tcb.seq.addNat 1)
    (h₂ : t.state = .finWait1 false ∨ t.state = .finWait2 true)
    (h₃ : t.inflightPackets = s.tcb.inflightPackets) :
    SendData iss W { s with packetToSend := some (s.revPacket (FIN ||| ACK) TTL none []), tcb := t } := by
  have hfl := s.revPacket_flags_of none [] (f := FIN ||| ACK) (by simp)
  have hout : FinOut t.state := by rcases h₂ with h₂ | h₂ <;> simp [FinOut, h₂]
  have hseq := h.seq_noFin hs
  refine ⟨.inr ⟨hout.1, 1, le_refl 1, by rw [h₁, hseq]; simp, fun hn => ?_⟩, by rw [h₃]; exact h.inflight,
    fun x hx => (h.sent x hx).edge (.inr he), fun p hp => ?_⟩
  · rcases h₂ with h₂ | h₂ <;> rcases hn with h | h | h <;> simp_all
  · cases hp
    refine ⟨by rw [hfl]; decide, fun hp => absurd (hfl.symm.trans hp) (by decide), fun _ => ⟨?_, hout⟩⟩
    rw [revPacket_seq, hseq]; rfl

/-- A bare ACK or RST+ACK put on the outbox. -/
theorem control {flags : UInt8} {sq : Option SeqNum} {r : Bool} (h : SendData iss W s)
    (hf : flags = ACK ∨ flags = RST ||| ACK) :
    SendData iss W { s with upPacketSender := Outbox.push s.upPacketSender (s.revPacket flags TTL sq []) r } := by
  have hfl := s.revPacket_flags_of sq [] (f := flags) (by rcases hf with rfl | rfl <;> simp)
  exact h.send (.of_flags (by rw [hfl]; rcases hf with rfl | rfl <;> decide)
    (by rw [hfl]; rcases hf with rfl | rfl <;> decide))

/-- A resent in-flight entry, cut to the current window, still carries the bytes of `W` at its
offset. -/
theorem resend {p : InflightPacket} (h : SendData iss W s) (hp : p ∈ s.tcb.inflightPackets) (st : TcpState) :
    Emitted iss W st (s.revPacket (PSH ||| ACK) TTL (some p.seq) p.payload) := by
  have hfl := s.revPacket_flags_of (some p.seq) p.payload (f := PSH ||| ACK) (by simp)
  obtain ⟨o, ho, hsl⟩ := h.inflight p hp
  exact ⟨fun _ => ⟨o, by simpa using ho, by simpa using hsl.take _⟩,
    fun hf => absurd (hfl.symm.trans hf) (by decide)⟩

/-- The SYN+ACK takes `iss`; the data starts one past it. -/
theorem synSent {t : Tcb} (h : SendData iss W s) (hl : s.tcb.state = .listen) (h₁ : t.seq = s.tcb.seq.addNat 1)
    (h₂ : t.state = .synReceived) (h₃ : t.inflightPackets = s.tcb.inflightPackets) :
    SendData iss W { s with tcb := t } := by
  obtain ⟨hs, hi, ht, hq⟩ := h
  have e : TcpState.Edge s.tcb.state t.state := by rw [hl, h₂]; exact .listen
  rcases hs with ⟨h₁', rfl, -⟩ | ⟨h₁', -⟩
  · exact ⟨.inr ⟨by simp [h₂], 0, Nat.zero_le _, by rw [h₁, h₁']; rfl, fun _ => rfl⟩, h₃ ▸ hi,
      fun x hx => (ht x hx).edge (.inr e), fun p hp => ⟨(hq p hp).1, (hq p hp).2.edge (.inr e)⟩⟩
  · exact absurd hl h₁'

/-- `poll_write` in `Established` puts the front of `buf` at `seq`, just past `W`, and so
extends `W` by it. -/
theorem wrote (h : SendData iss W s) (hs : s.tcb.state = .established) (buf : List UInt8) :
    SendData iss (W ++ buf.take s.payloadMax) (s.wrote buf) := by
  have hseq := h.seq_noFin (.inr (.inl hs))
  have hnf : ¬ FinOut s.tcb.state := fun h => h.2.2 hs
  have hfl := s.revPacket_flags_of none buf (f := PSH ||| ACK) (by simp)
  have hX : DataAt iss (W ++ buf.take s.payloadMax) s.tcb.seq (buf.take s.payloadMax) :=
    ⟨W.length, hseq, Slice.self_append _ _⟩
  refine ⟨.inr ⟨by simp [hs], 0, Nat.zero_le _, ?_, fun _ => rfl⟩, fun p hp => ?_, fun x hx => ?_,
    fun p hp => ⟨(h.queued p hp).1, (h.queued p hp).2.append hnf _⟩⟩
  · simp [hseq, Nat.add_assoc]
  · simp only [wrote_tcb, Tcb.addInflightPacket, List.mem_append, List.mem_singleton] at hp
    rcases hp with hp | rfl
    · exact (h.inflight p hp).append _
    · exact hX
  · simp only [IpStackTcpStream.wrote, Outbox.push, List.mem_append, List.mem_singleton] at hx
    rcases hx with hx | rfl
    · exact (h.sent x hx).append hnf _
    · exact ⟨fun _ => by simpa using hX, fun hf => absurd (hfl.symm.trans hf) (by decide)⟩

theorem initial (addrs : FlowAddrs) (peerSeq : UInt32) (mtu : UInt16) (iss : SeqNum) :
    SendData iss [] (listen addrs peerSeq mtu iss) :=
  ⟨.inl ⟨rfl, rfl, .inl rfl⟩, by simp [IpStackTcpStream.listen, Tcb.new], by simp [IpStackTcpStream.listen],
    by simp [IpStackTcpStream.listen]⟩

end SendData

namespace IpStackTcpStream

variable {iss : SeqNum} {W : List UInt8} (s : IpStackTcpStream)

theorem pollFlush_sendData (hd : SendData iss W s) : SendData iss W s.pollFlush.1 := by
  obtain ⟨-, r, o, hf, ho⟩ := s.pollFlush_spec
  have h' : SendData iss W { s with tcb := { s.tcb with retransmission := r } } :=
    hd.update rfl (.refl _) (InflightPacket.Trimmed.refl _) rfl (.inr rfl)
  rw [hf]
  rcases ho with rfl | ⟨p, hp, -, rfl⟩
  · exact h'
  · exact h'.send (hd.resend hp _)

theorem flushPending_sendData (hd : SendData iss W s) : SendData iss W s.flushPending.1 := by
  unfold flushPending; split
  · exact s.pollFlush_sendData hd
  · exact hd

theorem onEstablished_sendData {h : TcpHeader} {pl : List UInt8} (hd : SendData iss W s)
    (hs : s.tcb.state = .established) : (s.onEstablished h pl).Holds (SendData iss W) := by
  simp only [onEstablished]
  split_ifs
  · split
    · exact hd.update (by simp) (by simp) (by simp) rfl (.inr rfl)
    · exact hd
    · exact queue_holds _ (SendData.queue (hd.update (by simp) (by simp) (by simp) rfl (.inr rfl)) (.inl rfl))
    · refine flushThenLoop_holds _ (pollFlush_sendData _ ?_)
      exact hd.update (by simp) (by simp) (by simp) rfl (.inr rfl)
    · exact hd.update (by simp) (by simp) (by simp) rfl (.inr rfl)
    · exact hd.update (by simp) (by simp) (by simp) rfl (.inr rfl)
  · exact queue_holds _ (SendData.queue (hd.update (by simp) (by simp [hs]) (by simp) rfl (.inr rfl)) (.inl rfl))
  · exact hd
  · exact hd.update (by simp) (by simp) (by simp) rfl (.inr rfl)
  · exact hd.update (by simp) (by simp) (by simp) rfl (.inr rfl)
  · exact hd

theorem onSegment_sendData (seg : TcpSegment) (hd : SendData iss W s) :
    (s.onSegment seg).Holds (SendData iss W) := by
  simp only [onSegment]
  split
  · exact hd.update (by simp) (by simp) (by simp) rfl (.inr rfl)
  split
  · exact hd
  split <;> rename_i hs
  · split
    · exact hd.update (by simp) (by simp [hs]) (by simp) rfl (.inr rfl)
    · exact hd
  · exact s.onEstablished_sendData hd hs
  · split
    · exact hd.update (by simp) (by simp [hs]) (by simp) rfl (.inr rfl)
    split
    · exact queue_holds _ (SendData.queue (hd.update (by simp) (by simp [hs]) (by simp) rfl (.inr rfl)) (.inl rfl))
    · exact hd
  · split
    · exact hd.update (by simp) (by simp [hs]) (by simp) rfl (.inr rfl)
    split
    · exact queue_holds _ (SendData.queue (hd.update (by simp) (by simp [hs]) (by simp) rfl (.inr rfl)) (.inl rfl))
    · exact hd
  · exact hd

theorem deliver_sendData {cap : Nat} {b : List UInt8} (hd : SendData iss W s) :
    (s.deliver cap b).Holds (SendData iss W) := by
  have ha : SendData iss W (s.withTcb (s.tcb.addAck (OfNat.ofNat b.length))) :=
    hd.update (by simp) (by simp) (by simp) rfl (.inr rfl)
  simp only [deliver]
  split_ifs
  · exact hd
  · trivial
  simp only [createRevPacket_eq]
  split
  · exact ha
  · rename_i hs; obtain ⟨rfl, -⟩ := send_eq_ok hs; exact ha.control (.inl rfl)

theorem afterDelivery_sendData (hd : SendData iss W s) : s.afterDelivery.Holds (SendData iss W) := by
  unfold afterDelivery
  split_ifs with h₁ h₂
  · exact queue_holds _ (hd.queueFin (.inr (.inr h₁)) (by simpa [h₁] using TcpState.Edge.finWait1 true)
      (by simp) (.inr rfl) rfl)
  · exact queue_holds _ (hd.queueFin (.inr (.inl h₂.2.1))
      (by simpa [h₂.2.1] using TcpState.Edge.established false) (by simp) (.inl rfl) rfl)
  split
  · exact hd
  · exact onSegment_sendData _ _ (hd.keep rfl rfl rfl)

theorem afterSend_sendData (rbs : Nat) (fire : Bool) (cap : Nat) (hd : SendData iss W s) :
    (afterSend rbs fire cap s).Holds (SendData iss W) := by
  have hr : SendData iss W (s.withTcb (s.tcb.changeRecvWindow (s.tcb.getAvailableReadBufferSize rbs).toUInt16)) :=
    hd.update (by simp) (by simp) (by simp) rfl (.inr rfl)
  simp only [afterSend]
  split_ifs with hc hf hfire hl
  · exact hd.keep rfl rfl rfl
  · exact hd.update (by simp) (by simp) (by simp) rfl (.inr rfl)
  · simp only [createRevPacket_eq]
    split
    · exact hr
    · rename_i hs; obtain ⟨rfl, -⟩ := send_eq_ok hs
      exact (hr.control (.inr rfl)).update (by simp) (by simp) (by simp) rfl (.inr rfl)
  · exact queue_holds _ (SendData.queue (hr.synSent hl rfl rfl rfl) (.inr rfl))
  split
  · exact deliver_sendData _ (hr.update (by simp) (by simp) (by simp) rfl (.inr rfl))
  · exact afterDelivery_sendData _ (hr.update (by simp) (by simp) (by simp) rfl (.inr rfl))

theorem sendQueued_sendData {s' : IpStackTcpStream} (hd : SendData iss W s) (hq : s.sendQueued = .ok s') :
    SendData iss W s' := by
  rcases sendQueued_ok hq with ⟨-, rfl⟩ | ⟨p, hp, -, rfl⟩
  · exact hd
  · exact (hd.update rfl (.refl _) (InflightPacket.Trimmed.refl _) rfl (.inl rfl) :
      SendData iss W { s with packetToSend := none }).send (hd.queued p hp).2

/-- One pass of `poll_read` keeps the send-data invariant. -/
theorem readIter_sendData (rbs : Nat) (fire : Bool) (cap : Nat) (hd : SendData iss W s) :
    (readIter rbs fire cap s).Holds (SendData iss W) := by
  have h₁ := s.flushPending_sendData hd
  unfold readIter
  split
  · trivial
  all_goals rename_i heq; rw [heq] at h₁
  · exact h₁
  split
  · exact h₁.update rfl (.refl _) (InflightPacket.Trimmed.refl _) rfl (.inl rfl)
  · rename_i s₂ hq; exact afterSend_sendData _ rbs fire cap (sendQueued_sendData _ h₁ hq)

theorem accepted_of_ne_ok {buf : List UInt8} {o : Outcome Nat} (h : ∀ n, o ≠ .ok n) : accepted buf o = [] := by
  cases o <;> simp_all [accepted]

/-- `poll_write` keeps the invariant, with `W` extended by the bytes it accepted. -/
theorem pollWrite_sendData (buf : List UInt8) (hd : SendData iss W s) :
    SendData iss (W ++ accepted buf (s.pollWrite buf).2) (s.pollWrite buf).1 := by
  rcases s.pollWrite_eq buf with ⟨o, h, ho⟩ | ⟨o, h, ho⟩ | ⟨hst, -, -, -, h⟩ <;> rw [h]
  · rw [accepted_of_ne_ok ho, List.append_nil]; exact hd
  · rw [accepted_of_ne_ok ho, List.append_nil]; exact s.flushPending_sendData hd
  · have : buf.take (buf.take s.flushPending.1.payloadMax).length = buf.take s.flushPending.1.payloadMax := by
      simp
    simp only [accepted, this]
    exact (s.flushPending_sendData hd).wrote (by simp [hst]) buf

end IpStackTcpStream

section Runs

variable {rbs : Nat} {iss : SeqNum} {w w' : World} {e : Event}

/-- A step keeps the send-data invariant of the bytes written so far. -/
theorem Step.sendData (hd : SendData iss w.written w.stream) (h : Step rbs w e w') :
    SendData iss w'.written w'.stream := by
  cases h with
  | @pass cap sd fire s' _ hs =>
    have := w.stream.readIter_sendData rbs fire cap hd; rw [hs] at this; exact this
  | @ret cap sd fire s' b r _ hs =>
    have := w.stream.readIter_sendData rbs fire cap hd; rw [hs] at this; exact this
  | write buf _ => exact w.stream.pollWrite_sendData buf hd
  | flush _ => exact w.stream.pollFlush_sendData hd
  | _ => exact hd.keep rfl rfl rfl

theorem Run.sendData {w₀ : World} {es : List Event} (h₀ : Initial w₀) (h : Run rbs w₀ es w) :
    SendData w₀.stream.tcb.seq w.written w.stream := by
  induction h with
  | refl => obtain ⟨addrs, peerSeq, mtu, iss, rfl⟩ := h₀; exact SendData.initial addrs peerSeq mtu iss
  | tail _ hs ih => exact hs.sendData ih

/-- A write that accepts `n` bytes appends them to `W` and sends them, as the last segment on
the outbox, at `iss + 1 + |W|`. -/
theorem Step.write_ok {buf : List UInt8} {n : Nat} (hd : SendData iss w.written w.stream)
    (h : Step rbs w (.writeReturned buf (.ok n)) w') :
    w'.written = w.written ++ buf.take n ∧ ∃ p, w'.stream.upPacketSender.sent.getLast? = some ⟨p, false⟩ ∧
      p.flags = PSH ||| ACK ∧ p.seq = iss.addNat (1 + w.written.length) ∧ p.payload = buf.take n := by
  obtain ⟨-, hr, rfl⟩ := h.writeReturned
  obtain ⟨hst, -, hw, rfl⟩ := IpStackTcpStream.pollWrite_ok hr
  have hseq := (w.stream.flushPending_sendData hd).seq_noFin (.inr (.inl (by simp [hst])))
  refine ⟨by simp [World.afterWrite, hr, accepted], w.stream.flushPending.1.revPacket (PSH ||| ACK) TTL none buf,
    by simp [hw, IpStackTcpStream.wrote, Outbox.push], IpStackTcpStream.revPacket_flags_of _ none buf (by simp),
    by simp [hseq], by simp⟩

end Runs

/-- What the flow sends of the bytes `W` the consumer wrote, `iss` being its initial sequence
number: every PSH+ACK segment on the outbox, new or resent, carries bytes of `W` at their
offset `o`, from `iss + 1 + o` on; our FIN+ACK sits at `iss + 1 + |W|`; and a write that
accepts `n` bytes sends exactly them, last on the outbox, at `iss + 1` plus the bytes accepted
before it. -/
theorem written_bytes_sent_in_order (rbs : Nat) {w₀ w : World} {es : List Event} (h₀ : Initial w₀)
    (h : Run rbs w₀ es w) :
    (∀ x ∈ w.stream.upPacketSender.sent,
      (x.packet.flags = PSH ||| ACK → DataAt w₀.stream.tcb.seq w.written x.packet.seq x.packet.payload) ∧
      (x.packet.flags = FIN ||| ACK → x.packet.seq = w₀.stream.tcb.seq.addNat (1 + w.written.length))) ∧
    ∀ buf n w', Step rbs w (.writeReturned buf (.ok n)) w' →
      w'.written = w.written ++ buf.take n ∧ ∃ p, w'.stream.upPacketSender.sent.getLast? = some ⟨p, false⟩ ∧
        p.flags = PSH ||| ACK ∧ p.seq = w₀.stream.tcb.seq.addNat (1 + w.written.length) ∧ p.payload = buf.take n :=
  ⟨fun x hx => ⟨((h.sendData h₀).sent x hx).1, fun hf => (((h.sendData h₀).sent x hx).2 hf).1⟩,
    fun _ _ _ hs => hs.write_ok (h.sendData h₀)⟩

/-- "HE" is written at 1; the peer acknowledges 2, and again 2, and the remainder "E" is resent
at 2, where byte 1 of what was written belongs. -/
theorem written_bytes_sent_in_order_run : ∃ w₀ es w, Initial w₀ ∧ Run 64 w₀ es w ∧ w.written = [72, 69] ∧
    (w.stream.upPacketSender.sent.map fun x => (x.resend, x.packet.seq, x.packet.payload)).getLast? =
      some (true, ⟨2⟩, [69]) ∧
    ∀ x ∈ w.stream.upPacketSender.sent,
      x.packet.flags = PSH ||| ACK → DataAt w₀.stream.tcb.seq w.written x.packet.seq x.packet.payload := by
  let seg (a : UInt32) : TcpSegment :=
    ⟨{ sourcePort := 1234, destinationPort := 80, sequenceNumber := 101,
       acknowledgmentNumber := a, windowSize := 1000, ack := true }, []⟩
  let w₀ := World.init (listen (.v4 ⟨0x0a000001, 1234⟩ ⟨0x0a000002, 80⟩) 100 1500 0)
  let ins : List Input := [.read 100, .pass false, .pass false, .arrive (seg 1), .read 100,
    .pass false, .pass false, .write [72, 69], .arrive (seg 2), .arrive (seg 2), .read 100, .pass false,
    .pass false]
  have h : (w₀.execAll 64 ins).map (fun r => decide (r.2.written = [72, 69] ∧
      (r.2.stream.upPacketSender.sent.map fun x => (x.resend, x.packet.seq, x.packet.payload)).getLast? =
        some (true, ⟨2⟩, [69]))) = some true := by decide
  have h₀ : Initial w₀ := ⟨_, _, _, _, rfl⟩
  obtain ⟨es, w, hr, h⟩ := World.execAll_run h
  simp only [decide_eq_true_eq] at h
  exact ⟨w₀, es, w, h₀, hr, h.1, h.2, fun x hx => ((written_bytes_sent_in_order 64 h₀ hr).1 x hx).1⟩

end IpStack
