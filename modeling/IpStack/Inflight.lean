import IpStack.StateMachine

/-!
The send side of a TCB: `seq`, `last_ack` and the in-flight entries. After the handshake the
entries follow one another without gap or overlap from `last_ack` to `seq`, or to one before it
once our FIN is out: an acknowledgement drops the entries it covers and cuts the one it falls
inside. So with data outstanding in `Established` an entry starts at `last_ack`, and the
retransmission a duplicate acknowledgement requests finds it. All offsets are measured from
`last_ack` and stay far below 2^31, except after an acknowledgement exactly half the sequence
space ahead, which the signed comparison takes as both ahead of `last_ack` and behind it: it
moves `last_ack` to the far side of `seq`, a write then leaves `seq` behind `last_ack`, and a
duplicate of it requests a retransmission from where no entry starts.
-/

namespace IpStack

open IpStackTcpStream TcpFlags

/-- `Chain a e ps E`: the entries `ps` follow one another without gap or overlap, the first
starting `e` bytes past `a` and the last ending `E` bytes past `a`. -/
inductive Chain (a : SeqNum) : Nat → List InflightPacket → Nat → Prop
  | nil (e : Nat) : Chain a e [] e
  | cons {e E : Nat} {p : InflightPacket} {ps : List InflightPacket} :
      a.dist p.seq = e → Chain a (e + p.payload.length) ps E → Chain a e (p :: ps) E

namespace Chain

variable {a : SeqNum} {e E : Nat} {ps : List InflightPacket}

theorem end_eq (h : Chain a e ps E) : E = e + (ps.map (·.payload.length)).sum := by
  induction h with
  | nil => simp
  | cons _ _ ih => simp only [ih, List.map_cons, List.sum_cons]; omega

theorem append {p : InflightPacket} (h : Chain a e ps E) (hp : a.dist p.seq = E) :
    Chain a e (ps ++ [p]) (E + p.payload.length) := by
  induction h with
  | nil => exact .cons hp (.nil _)
  | cons hq _ ih => exact .cons hq (ih hp)

/-- Every entry lies between the start of the chain and its end. -/
theorem mem {p : InflightPacket} (h : Chain a e ps E) (hp : p ∈ ps) :
    e ≤ a.dist p.seq ∧ a.dist p.seq + p.payload.length ≤ E := by
  induction h with
  | nil => simp at hp
  | @cons e E q qs hq hr ih =>
    have := hr.end_eq
    rcases List.mem_cons.mp hp with rfl | hp
    · omega
    · have := ih hp; omega

/-- Acknowledging `δ` bytes past the base drops the entries that end by then, cuts the one `δ`
falls inside, and moves the base of the rest forward by `δ`. -/
theorem trim {b : SeqNum} {δ : Nat} (hb : a.dist b = δ) (h : Chain a e ps E) (hδ : δ < 2 ^ 31)
    (hE : E < 2 ^ 31) : Chain b (e - δ) (ps.filterMap (InflightPacket.trimTo b)) (E - δ) := by
  induction h with
  | nil => exact .nil _
  | @cons e E p ps hq hr ih =>
    have := hr.end_eq
    have ih := ih hE
    have hlast : a.dist p.last = e + p.payload.length := by
      rw [InflightPacket.last, SeqNum.dist_addNat_right, hq]; exact Nat.mod_eq_of_lt (by omega)
    have hle : p.last ≤ b ↔ e + p.payload.length ≤ δ := by
      rw [SeqNum.le_iff_of_dist (b := a) (by omega) (by omega), hlast, hb]
    have hlt : p.seq < b ↔ e < δ := by
      rw [SeqNum.lt_iff_of_dist (b := a) (by omega) (by omega), hq, hb]
    by_cases h₁ : e + p.payload.length ≤ δ
    · have ht : p.trimTo b = none := if_pos (hle.mpr h₁)
      rw [List.filterMap_cons, ht]
      rwa [show e - δ = e + p.payload.length - δ by omega]
    by_cases h₂ : e < δ
    · -- the acknowledgement falls inside `p`, which keeps its bytes from `b` on
      have ht : p.trimTo b = some ⟨b, p.payload.drop (p.seq.dist b)⟩ := by
        rw [InflightPacket.trimTo, if_neg (mt hle.mp h₁), if_pos (hlt.mpr h₂)]
      have hd := SeqNum.dist_sub_of_le (b := a) (x := p.seq) (y := b) (by omega)
      rw [List.filterMap_cons, ht]
      refine .cons (by simp; omega) ?_
      rwa [List.length_drop, hd, hq, hb, show e - δ + (p.payload.length - (δ - e)) = e + p.payload.length - δ by omega]
    · have ht : p.trimTo b = some p := by
        rw [InflightPacket.trimTo, if_neg (mt hle.mp h₁), if_neg (mt hlt.mp h₂)]
      have hd := SeqNum.dist_sub_of_le (b := a) (x := b) (y := p.seq) (by omega)
      rw [List.filterMap_cons, ht]
      exact .cons (by omega) (by rwa [show e - δ + p.payload.length = e + p.payload.length - δ by omega])

end Chain

namespace Tcb

/-- The send-side invariant of a TCB. -/
structure SendInv (t : Tcb) : Prop where
  /-- Before the handshake nothing is in flight, no window is known, and `seq` is `last_ack`
  plus the SYN once it is sent. -/
  pre : t.state = .listen ∨ t.state = .synReceived →
    t.inflightPackets = [] ∧ t.sendWindow = 0 ∧
      t.lastAck.dist t.seq = if t.state = .listen then 0 else 1
  /-- The entries follow one another from `last_ack`; `seq` is where the last one ends, or one
  past it once our FIN is out, which it is not in `Established` or `FinWait1(true)`. -/
  chain : ∃ E, Chain t.lastAck 0 t.inflightPackets E ∧ E ≤ t.lastAck.dist t.seq ∧
    t.lastAck.dist t.seq ≤ E + 1 ∧ (t.state = .established ∨ t.state = .finWait1 true → t.lastAck.dist t.seq = E)
  bytes : t.inflightBytes ≤ sendBufferCap + 65535

namespace SendInv

variable {t : Tcb}

/-- What is outstanding past `last_ack` is at most the in-flight bytes and one SYN or FIN. -/
theorem dist_le (hi : SendInv t) : t.lastAck.dist t.seq ≤ t.inflightBytes + 1 := by
  obtain ⟨-, ⟨E, hc, -, h₂, -⟩, -⟩ := hi
  have := hc.end_eq; unfold inflightBytes; omega

theorem dist_lt (hi : SendInv t) : t.lastAck.dist t.seq < 2 ^ 30 := by
  have := hi.dist_le; have := hi.bytes; unfold sendBufferCap at *; omega

theorem congr {t' : Tcb} (hi : SendInv t) (h₁ : t'.state = t.state) (h₂ : t'.seq = t.seq)
    (h₃ : t'.lastAck = t.lastAck) (h₄ : t'.inflightPackets = t.inflightPackets)
    (h₅ : t'.sendWindow = t.sendWindow) : SendInv t' := by
  obtain ⟨hp, hc, hb⟩ := hi
  refine ⟨?_, ?_, ?_⟩ <;> simp only [inflightBytes, h₁, h₂, h₃, h₄, h₅] at * <;> assumption

theorem changeState {st : TcpState} (hi : SendInv t) (h₁ : st ≠ .listen ∧ st ≠ .synReceived)
    (h₂ : st = .established ∨ st = .finWait1 true → t.state = .established ∨ t.state = .finWait1 true) :
    SendInv (t.changeState st) := by
  obtain ⟨-, ⟨E, hc, hE, hD, hf⟩, hb⟩ := hi
  exact ⟨fun h => by simp_all, ⟨E, hc, hE, hD, fun h => hf (h₂ h)⟩, hb⟩

theorem synSent (hi : SendInv t) (hs : t.state = .listen) :
    SendInv (t.addSeqOne.changeState .synReceived) := by
  obtain ⟨hI, hw, hd⟩ := hi.pre (.inl hs)
  simp only [hs, if_true, SeqNum.dist_eq_zero] at hd
  refine ⟨fun _ => ⟨hI, hw, ?_⟩, ⟨0, by simpa [hI] using .nil 0, ?_⟩, ?_⟩ <;>
    simp [hI, hd, inflightBytes]

/-- The handshake ACK can only acknowledge the SYN: the window is still zero. -/
theorem established {a : SeqNum} {w : UInt16} (hi : SendInv t) (hs : t.state = .synReceived)
    (ha : t.AckAcceptable a) : SendInv (((t.changeLastAck a).changeSendWindow w).changeState .established) := by
  obtain ⟨hI, hw, hd⟩ := hi.pre (.inr hs)
  simp only [hs, reduceCtorEq, if_false] at hd
  obtain ⟨h₁, h₂⟩ := ha
  rw [hw] at h₁
  simp only [UInt16.toUInt32, show ((0 : UInt16).toNat.toUInt32) = 0 from rfl] at h₁
  have h₁' : t.lastAck < a := by simpa using h₁
  have hδ := SeqNum.lt_iff_dist'.mp h₁'
  have h₃ := SeqNum.le_iff_dist.mp h₂
  have h₄ := SeqNum.dist_add_dist t.lastAck a t.seq
  have ha : a = t.seq := SeqNum.dist_eq_zero.mp (by omega)
  subst ha
  rw [Tcb.changeLastAck_of_lt h₁']
  refine ⟨fun h => by simp at h, ⟨0, by simpa [hI] using .nil 0, ?_⟩, ?_⟩ <;>
    simp [hI, inflightBytes]

/-- An acceptable acknowledgement that is not half the sequence space ahead lies between
`last_ack` and `seq`; it drops the entries it covers and cuts the one it falls inside. -/
theorem changeLastAck {a : SeqNum} (hi : SendInv t) (hpre : t.state ≠ .listen ∧ t.state ≠ .synReceived)
    (ha : a ≤ t.seq) (hh : t.lastAck.dist a ≠ 2 ^ 31) : SendInv (t.changeLastAck a) := by
  by_cases hlt : t.lastAck < a
  · have hD := hi.dist_lt
    obtain ⟨-, ⟨E, hc, hE, hDE, hf⟩, hb⟩ := hi
    have hδ := SeqNum.lt_iff_dist'.mp hlt
    have h₃ := SeqNum.le_iff_dist.mp ha
    have h₄ := SeqNum.dist_add_dist t.lastAck a t.seq
    have hd := SeqNum.dist_sub_of_le (b := t.lastAck) (x := a) (y := t.seq) (by omega)
    have hc' := hc.trim (b := a) rfl (by omega) (by omega)
    rw [Nat.zero_sub] at hc'
    rw [Tcb.changeLastAck_of_lt hlt]
    refine ⟨fun h => absurd h (by simpa using hpre), ⟨E - t.lastAck.dist a, hc', ?_, ?_, ?_⟩, ?_⟩
    · simp only [hd]; omega
    · simp only [hd]; omega
    · intro h; simp only [hd]; have := hf h; omega
    · have h₁ := hc.end_eq; have h₂ := hc'.end_eq
      simp only [inflightBytes] at hb ⊢; omega
  · rwa [Tcb.changeLastAck_of_not_lt hlt]

theorem addInflightPacket {buf : List UInt8} (hi : SendInv t) (hs : t.state = .established)
    (hfull : t.inflightBytes ≤ sendBufferCap) (hlen : buf.length ≤ 65495) :
    SendInv (t.addInflightPacket t.seq buf) := by
  have hD := hi.dist_lt
  obtain ⟨-, ⟨E, hc, hE, hDE, hf⟩, hb⟩ := hi
  have hE' := hf (.inl hs)
  have hd := SeqNum.dist_addNat_right t.lastAck t.seq buf.length
  rw [Nat.mod_eq_of_lt (by omega)] at hd
  refine ⟨fun h => by simp_all, ⟨E + buf.length, hc.append hE', ?_, ?_, ?_⟩, ?_⟩
  · simp only [Tcb.addInflightPacket, hd]; omega
  · simp only [Tcb.addInflightPacket, hd]; omega
  · intro _; simp only [Tcb.addInflightPacket, hd]; omega
  · rw [inflightBytes_addInflightPacket]; unfold sendBufferCap at *; omega

theorem finSent {st : TcpState} (hi : SendInv t)
    (hs : t.state = .established ∨ t.state = .finWait1 true)
    (hst : st = .finWait1 false ∨ st = .finWait2 true) : SendInv (t.addSeqOne.changeState st) := by
  have hD := hi.dist_lt
  obtain ⟨-, ⟨E, hc, hE, hDE, hf⟩, hb⟩ := hi
  have hE' := hf hs
  have hd := SeqNum.dist_addNat_right t.lastAck t.seq 1
  rw [Nat.mod_eq_of_lt (by omega)] at hd
  refine ⟨fun h => by rcases hst with rfl | rfl <;> simp at h, ⟨E, hc, ?_, ?_, ?_⟩, hb⟩ <;>
    simp only [Tcb.addSeqOne, Tcb.changeState, hd]
  · omega
  · omega
  · rcases hst with rfl | rfl <;> simp

theorem changeSendWindow {w : UInt16} (hi : SendInv t) (hpre : t.state ≠ .listen ∧ t.state ≠ .synReceived) :
    SendInv (t.changeSendWindow w) :=
  ⟨fun h => absurd h (by simpa using hpre), hi.chain, hi.bytes⟩

theorem addAck {n : SeqNum} (hi : SendInv t) : SendInv (t.addAck n) := hi.congr rfl rfl rfl rfl rfl

theorem addUnorderedPacket {k : SeqNum} {buf : List UInt8} (hi : SendInv t) :
    SendInv (t.addUnorderedPacket k buf) := hi.congr rfl rfl rfl rfl rfl

theorem changeRecvWindow {w : UInt16} (hi : SendInv t) : SendInv (t.changeRecvWindow w) :=
  hi.congr rfl rfl rfl rfl rfl

theorem setRetransmission {r : Option SeqNum} (hi : SendInv t) : SendInv { t with retransmission := r } :=
  hi.congr rfl rfl rfl rfl rfl

theorem getUnorderedPackets (hi : SendInv t) : SendInv t.getUnorderedPackets.2 := by
  obtain ⟨m, h⟩ := t.getUnorderedPackets_eq; rw [h]; exact hi.congr rfl rfl rfl rfl rfl

/-- `last_ack ≤ seq`, and every byte of every entry lies in `[last_ack, seq)`. -/
theorem window (hi : SendInv t) :
    t.lastAck ≤ t.seq ∧ ∀ p ∈ t.inflightPackets, t.lastAck ≤ p.seq ∧ p.last ≤ t.seq ∧
      t.lastAck.dist p.seq + p.payload.length ≤ t.lastAck.dist t.seq := by
  have hD := hi.dist_lt
  obtain ⟨-, ⟨E, hc, hE, -, -⟩, -⟩ := hi
  refine ⟨SeqNum.le_iff_dist.mpr (by omega), fun p hp => ?_⟩
  have hm := hc.mem hp
  have hlast : t.lastAck.dist p.last = t.lastAck.dist p.seq + p.payload.length := by
    rw [InflightPacket.last, SeqNum.dist_addNat_right]; exact Nat.mod_eq_of_lt (by omega)
  have hd := SeqNum.dist_sub_of_le (b := t.lastAck) (x := p.last) (y := t.seq) (by omega)
  exact ⟨SeqNum.le_iff_dist.mpr (by omega), SeqNum.le_iff_dist.mpr (by omega), by omega⟩

/-- With data outstanding in `Established`, an entry starts at `last_ack`. -/
theorem entry_at_lastAck (hi : SendInv t) (hs : t.state = .established) (hne : t.lastAck ≠ t.seq) :
    ∃ p ∈ t.inflightPackets, p.seq = t.lastAck := by
  obtain ⟨-, ⟨E, hc, -, -, hf⟩, -⟩ := hi
  have hD := hf (.inl hs)
  have h0 : t.lastAck.dist t.seq ≠ 0 := fun h => hne (SeqNum.dist_eq_zero.mp h)
  generalize t.inflightPackets = I at hc ⊢
  cases hc with
  | nil => omega
  | cons hq _ => exact ⟨_, List.mem_cons_self _ _, (SeqNum.dist_eq_zero.mp hq).symm⟩

end SendInv

/-- A duplicate acknowledgement asks for a retransmission from `last_ack` while `last_ack` is
not `seq`. -/
theorem checkPktType_retransmissionRequest {t : Tcb} {h : TcpHeader} {pl : List UInt8}
    (hc : t.checkPktType h pl = .retransmissionRequest) :
    (⟨h.acknowledgmentNumber⟩ : SeqNum) = t.lastAck ∧ t.lastAck ≠ t.seq := by
  simp only [checkPktType] at hc
  split_ifs at hc with h₁ h₂ h₃ h₄
  exact ⟨h₃.1, fun e => h₄ (h₃.1.trans e)⟩

end Tcb

/-- The next segment in the inbox does not acknowledge exactly half the sequence space beyond
`last_ack`. -/
def NoHalfAck (s : IpStackTcpStream) : Prop :=
  ∀ seg ∈ s.streamReceiver.take 1, s.tcb.lastAck.dist ⟨seg.header.acknowledgmentNumber⟩ ≠ 2 ^ 31

instance (s : IpStackTcpStream) : Decidable (NoHalfAck s) :=
  inferInstanceAs (Decidable (∀ seg ∈ s.streamReceiver.take 1, _))

/-- What a pass may do to the send side: keep the invariant, and move `seq` and `last_ack`
only forward. -/
def SendStep (s s' : IpStackTcpStream) : Prop :=
  s'.tcb.SendInv ∧ s.tcb.seq ≤ s'.tcb.seq ∧ s.tcb.lastAck ≤ s'.tcb.lastAck

namespace SendStep

variable {s s₁ s' : IpStackTcpStream}

theorem keep (hi : s'.tcb.SendInv) (h₁ : s'.tcb.seq = s.tcb.seq) (h₂ : s'.tcb.lastAck = s.tcb.lastAck) :
    SendStep s s' :=
  ⟨hi, h₁ ▸ SeqNum.le_refl _, h₂ ▸ SeqNum.le_refl _⟩

theorem of_prefix (h : SendStep s₁ s') (h₁ : s₁.tcb.seq = s.tcb.seq) (h₂ : s₁.tcb.lastAck = s.tcb.lastAck) :
    SendStep s s' := by
  obtain ⟨hi, hs, ha⟩ := h; rw [h₁] at hs; rw [h₂] at ha; exact ⟨hi, hs, ha⟩

theorem acked (a : SeqNum) (hi : s'.tcb.SendInv) (h₁ : s'.tcb.seq = s.tcb.seq)
    (h₂ : s'.tcb.lastAck = (s.tcb.changeLastAck a).lastAck) : SendStep s s' :=
  ⟨hi, h₁ ▸ SeqNum.le_refl _, h₂ ▸ s.tcb.lastAck_le_changeLastAck a⟩

theorem seqOne (hi : s'.tcb.SendInv) (h₁ : s'.tcb.seq = s.tcb.seq.addNat 1)
    (h₂ : s'.tcb.lastAck = s.tcb.lastAck) : SendStep s s' :=
  ⟨hi, h₁ ▸ SeqNum.le_addNat _ (by omega), h₂ ▸ SeqNum.le_refl _⟩

theorem of_holds {r : ReadStep} (h : r.Holds (SendStep s₁)) (h₁ : s₁.tcb.seq = s.tcb.seq)
    (h₂ : s₁.tcb.lastAck = s.tcb.lastAck) : r.Holds (SendStep s) := by
  cases r <;> simp only [ReadStep.Holds] at * <;> first | trivial | exact of_prefix h h₁ h₂

end SendStep

namespace IpStackTcpStream

variable (s : IpStackTcpStream)

theorem onEstablished_send {h : TcpHeader} {pl : List UInt8} (hi : s.tcb.SendInv)
    (hs : s.tcb.state = .established) (hv : s.tcb.checkPktType h pl ≠ .invalid)
    (hh : s.tcb.lastAck.dist ⟨h.acknowledgmentNumber⟩ ≠ 2 ^ 31) :
    (s.onEstablished h pl).Holds (SendStep s) := by
  have hpre : s.tcb.state ≠ .listen ∧ s.tcb.state ≠ .synReceived := by simp [hs]
  have ha := hi.changeLastAck hpre (Tcb.ackAcceptable_of_checkPktType hv).2 hh
  have hpre' : (s.tcb.changeLastAck ⟨h.acknowledgmentNumber⟩).state ≠ .listen ∧
      (s.tcb.changeLastAck ⟨h.acknowledgmentNumber⟩).state ≠ .synReceived := by simpa using hpre
  simp only [onEstablished]
  split_ifs
  · split
    · exact .keep (hi.changeSendWindow hpre) rfl rfl
    · exact .keep hi rfl rfl
    · exact queue_holds _ (.acked ⟨h.acknowledgmentNumber⟩ (ha.changeSendWindow hpre') (by simp) (by simp))
    · refine flushThenLoop_holds _ ?_
      obtain ⟨r, hr⟩ := pollFlush_fst_tcb (s.withTcb { s.tcb.changeSendWindow h.windowSize with
        retransmission := some ⟨h.acknowledgmentNumber⟩ })
      exact .keep (hr ▸ (hi.changeSendWindow hpre).setRetransmission) (by rw [hr]; rfl) (by rw [hr]; rfl)
    · exact .acked ⟨h.acknowledgmentNumber⟩ (ha.addUnorderedPacket.changeSendWindow hpre') (by simp) (by simp)
    · exact .acked ⟨h.acknowledgmentNumber⟩ (ha.changeSendWindow hpre') (by simp) (by simp)
  · exact queue_holds _ (.keep (hi.addAck.changeState (by simp) (fun _ => .inl hs)) rfl rfl)
  · exact .keep hi rfl rfl
  · exact .acked ⟨h.acknowledgmentNumber⟩ ha (by simp) (by simp)
  · exact .acked ⟨h.acknowledgmentNumber⟩ (ha.changeSendWindow hpre').addUnorderedPacket (by simp) (by simp)
  · exact .keep hi rfl rfl

theorem onSegment_send (seg : TcpSegment) (hi : s.tcb.SendInv)
    (hh : s.tcb.lastAck.dist ⟨seg.header.acknowledgmentNumber⟩ ≠ 2 ^ 31) :
    (s.onSegment seg).Holds (SendStep s) := by
  simp only [onSegment]
  split
  · exact .keep (hi.changeState (by simp) (by simp)) rfl rfl
  split
  · exact .keep hi rfl rfl
  rename_i hv
  have hacc := Tcb.ackAcceptable_of_checkPktType hv
  split <;> rename_i hs
  · split
    · exact .acked ⟨seg.header.acknowledgmentNumber⟩ (hi.established hs hacc) (by simp) (by simp)
    · exact .keep hi rfl rfl
  · exact s.onEstablished_send hi hs hv hh
  · have hpre : s.tcb.state ≠ .listen ∧ s.tcb.state ≠ .synReceived := by simp [hs]
    split
    · exact .acked ⟨seg.header.acknowledgmentNumber⟩
        ((hi.changeLastAck hpre hacc.2 hh).addAck.changeState (by simp) (by simp)) (by simp) (by simp)
    split
    · exact queue_holds _ (.keep ((hi.addAck.changeSendWindow hpre).changeState (by simp) (by simp)) rfl rfl)
    · exact .keep hi rfl rfl
  · split
    · exact .keep (hi.changeState (by simp) (by simp)) rfl rfl
    split
    · exact queue_holds _ (.keep (hi.changeState (by simp) (by simp)) rfl rfl)
    · exact .keep hi rfl rfl
  · exact .keep hi rfl rfl

theorem deliver_send {cap : Nat} {b : List UInt8} (hi : s.tcb.SendInv) :
    (s.deliver cap b).Holds (SendStep s) := by
  simp only [deliver]
  split_ifs
  · exact .keep hi rfl rfl
  · trivial
  simp only [createRevPacket_eq]
  split
  · exact .keep hi.addAck rfl rfl
  · rename_i hs; obtain ⟨rfl, -⟩ := send_eq_ok hs; exact .keep hi.addAck rfl rfl

theorem afterDelivery_send (hi : s.tcb.SendInv) (hh : NoHalfAck s) :
    s.afterDelivery.Holds (SendStep s) := by
  unfold afterDelivery
  split_ifs with h₁ h₂
  · exact queue_holds _ (.seqOne ((hi.finSent (.inr h₁) (.inr rfl)).congr rfl rfl rfl rfl rfl) rfl rfl)
  · exact queue_holds _ (.seqOne (hi.finSent (.inl h₂.2.1) (.inl rfl)) rfl rfl)
  split
  · exact .keep hi rfl rfl
  · rename_i seg rest heq
    exact SendStep.of_holds (onSegment_send _ seg hi (hh seg (by simp [heq]))) rfl rfl

theorem afterSend_send (rbs : Nat) (fire : Bool) (cap : Nat) (hi : s.tcb.SendInv) (hh : NoHalfAck s) :
    (afterSend rbs fire cap s).Holds (SendStep s) := by
  simp only [afterSend]
  split_ifs with hc hf hfire hl
  · exact .keep hi rfl rfl
  · exact .keep (hi.changeState (by simp) (by simp)) rfl rfl
  · simp only [createRevPacket_eq]
    split
    · exact .keep hi.changeRecvWindow rfl rfl
    · rename_i hs; obtain ⟨rfl, -⟩ := send_eq_ok hs
      exact .keep (hi.changeRecvWindow.changeState (by simp) (by simp)) rfl rfl
  · exact queue_holds _ (.seqOne (hi.changeRecvWindow.synSent hl) rfl rfl)
  have hi' : (s.tcb.changeRecvWindow (Tcb.getAvailableReadBufferSize rbs s.tcb).toUInt16).getUnorderedPackets.2.SendInv :=
    hi.changeRecvWindow.getUnorderedPackets
  split
  · exact SendStep.of_holds (deliver_send _ hi') (by simp) (by simp)
  · refine SendStep.of_holds (afterDelivery_send _ hi' fun seg hseg => ?_) (by simp) (by simp)
    simpa using hh seg hseg

/-- One pass of `poll_read` keeps the send-side invariant and moves `seq` and `last_ack` only
forward, when the next inbox segment does not acknowledge half the sequence space ahead. -/
theorem readIter_send (rbs : Nat) (fire : Bool) (cap : Nat) (hi : s.tcb.SendInv) (hh : NoHalfAck s) :
    (readIter rbs fire cap s).Holds (SendStep s) := by
  unfold readIter
  obtain ⟨-, r, o, hf, -⟩ := s.flushPending_spec
  split
  · trivial
  all_goals rename_i heq; rw [heq] at hf; simp only at hf; subst hf
  · exact .keep hi.setRetransmission rfl rfl
  split
  · exact .keep hi.setRetransmission rfl rfl
  · rename_i s₂ hq
    obtain ⟨ht, -, hrcv⟩ := sendQueued_control hq
    refine SendStep.of_holds (afterSend_send _ rbs fire cap (ht ▸ hi.setRetransmission) ?_)
      (by rw [ht]) (by rw [ht])
    intro seg hseg; rw [ht]; rw [hrcv] at hseg; exact hh seg hseg

theorem pollWrite_send (buf : List UInt8) (hi : s.tcb.SendInv) : SendStep s (s.pollWrite buf).1 := by
  obtain ⟨-, r, o, hf, -⟩ := s.flushPending_spec
  rcases s.pollWrite_eq buf with ⟨_, h, -⟩ | ⟨_, h, -⟩ | ⟨hst, hg, -, -, h⟩ <;> rw [h]
  · exact .keep hi rfl rfl
  · rw [hf]; exact .keep hi.setRetransmission rfl rfl
  · have hlen := List.length_take_le s.flushPending.1.payloadMax buf
    have := s.flushPending.1.payloadMax_le
    have ht : s.flushPending.1.tcb = { s.tcb with retransmission := r } := by rw [hf]
    simp only [Tcb.isSendBufferFull, not_or, decide_eq_true_eq, Nat.not_lt] at hg
    refine ⟨?_, ?_, ?_⟩ <;> rw [wrote_tcb, ht]
    · exact hi.setRetransmission.addInflightPacket hst hg.2 (by omega)
    · simpa using SeqNum.le_addNat _ (by omega)
    · simpa using SeqNum.le_refl _

theorem pollFlush_send (hi : s.tcb.SendInv) : SendStep s s.pollFlush.1 := by
  obtain ⟨r, hr⟩ := s.pollFlush_fst_tcb
  exact .keep (hr ▸ hi.setRetransmission) (by rw [hr]) (by rw [hr])

end IpStackTcpStream

theorem Tcb.SendInv.new (ack iss : SeqNum) : (Tcb.new ack iss).SendInv :=
  ⟨fun _ => ⟨rfl, rfl, by simp [Tcb.new]⟩, ⟨0, .nil 0, by simp [Tcb.new], by simp [Tcb.new], by simp [Tcb.new]⟩,
    by simp [Tcb.new, Tcb.inflightBytes]⟩

/-- A step keeps the send-side invariant and moves `seq` and `last_ack` only forward. -/
theorem Step.sendStep {rbs : Nat} {w w' : World} {e : Event} (hi : w.stream.tcb.SendInv)
    (hh : NoHalfAck w.stream) (h : Step rbs w e w') : SendStep w.stream w'.stream := by
  cases h with
  | @pass cap sd fire s' _ hs =>
    have := w.stream.readIter_send rbs fire cap hi hh; rw [hs] at this; exact this
  | @ret cap sd fire s' b r _ hs =>
    have := w.stream.readIter_send rbs fire cap hi hh; rw [hs] at this; exact this
  | write buf _ => exact w.stream.pollWrite_send buf hi
  | flush _ => exact w.stream.pollFlush_send hi
  | _ => exact .keep hi rfl rfl

/-- The worlds reached by runs in which no segment taken from the inbox acknowledges exactly
half the sequence space beyond `last_ack`. -/
inductive SaneReachable (rbs : Nat) : World → Prop
  | init {w : World} : Initial w → SaneReachable rbs w
  | step {w w' : World} {e : Event} : SaneReachable rbs w → NoHalfAck w.stream → Step rbs w e w' →
      SaneReachable rbs w'

/-- Runs the inputs as `execAll` does, checking before each step that the next inbox segment
does not acknowledge half the sequence space ahead. -/
def World.saneAll (rbs : Nat) : World → List Input → Bool
  | _, [] => true
  | w, i :: is => decide (NoHalfAck w.stream) && match w.exec rbs i with
    | none => false
    | some (_, w') => saneAll rbs w' is

namespace SaneReachable

variable {rbs : Nat} {w : World}

theorem sendInv (h : SaneReachable rbs w) : w.stream.tcb.SendInv := by
  induction h with
  | init h₀ => obtain ⟨_, _, _, _, rfl⟩ := h₀; exact Tcb.SendInv.new _ _
  | step _ hh hs ih => exact (hs.sendStep ih hh).1

theorem execAll {w' : World} {is : List Input} {es : List Event} (h : SaneReachable rbs w)
    (hs : w.saneAll rbs is = true) (hx : w.execAll rbs is = some (es, w')) : SaneReachable rbs w' := by
  induction is generalizing w es with
  | nil => cases hx; exact h
  | cons i is ih =>
    simp only [World.saneAll, Bool.and_eq_true, decide_eq_true_eq] at hs
    simp only [World.execAll] at hx
    obtain ⟨hh, hs⟩ := hs
    split at hs
    · cases hs
    · rename_i e w₁ he
      rw [he] at hx
      obtain ⟨⟨es₁, w₂⟩, hr, he'⟩ := Option.map_eq_some'.mp hx
      cases he'
      exact ih (h.step hh (World.exec_sound he)) hs hr

end SaneReachable

/-- A pass that leaves `retransmission` clear and does not panic for want of an in-flight entry. -/
def ReadStep.FlushSafe : ReadStep → Prop
  | .next s => s.tcb.retransmission = none
  | .done s _ r => s.tcb.retransmission = none ∧ r ≠ .panic .flushEntryMissing
  | .panic site => site ≠ .flushEntryMissing

/-- The site of the panic a step reports, if it reports one. -/
def Event.panicSite : Event → Option PanicSite
  | .readReturned _ (.panic p) => some p
  | .shutdownReturned (.panic p) => some p
  | .writeReturned _ (.panic p) => some p
  | .flushReturned (.panic p) => some p
  | _ => none

namespace IpStackTcpStream

variable (s : IpStackTcpStream)

/-- In `Established` with data outstanding, a retransmission from `last_ack` finds its entry:
`poll_flush` does not panic and clears the request. -/
theorem pollFlush_finds (hi : s.tcb.SendInv) (hs : s.tcb.state = .established)
    (hr : s.tcb.retransmission = some s.tcb.lastAck) (hne : s.tcb.lastAck ≠ s.tcb.seq) :
    (∀ site, s.pollFlush.2 ≠ .panic site) ∧ s.pollFlush.1.tcb.retransmission = none := by
  obtain ⟨p, hp, hps⟩ := hi.entry_at_lastAck hs hne
  obtain ⟨q, hq⟩ : ∃ q, s.tcb.inflightPackets.find? (·.seq == s.tcb.lastAck) = some q :=
    Option.isSome_iff_exists.mp (List.find?_isSome.mpr ⟨p, hp, by simp [hps]⟩)
  unfold pollFlush
  rw [if_neg (fun h => h hs), hr]
  simp only [withTcb, hq, createRevPacket_eq]
  split
  · simp
  · rename_i hs'; obtain ⟨rfl, -⟩ := send_eq_ok hs'; simp

theorem flushThenLoop_flushSafe (h₁ : ∀ site, s.pollFlush.2 ≠ .panic site)
    (h₂ : s.pollFlush.1.tcb.retransmission = none) : s.flushThenLoop.FlushSafe := by
  unfold flushThenLoop
  split <;> rename_i heq <;> rw [heq] at h₁ h₂
  · exact absurd rfl (h₁ _)
  · exact ⟨h₂, by simp⟩
  · exact h₂

theorem onEstablished_flushSafe {h : TcpHeader} {pl : List UInt8} (hi : s.tcb.SendInv)
    (hs : s.tcb.state = .established) (hr : s.tcb.retransmission = none) : (s.onEstablished h pl).FlushSafe := by
  have hpre : s.tcb.state ≠ .listen ∧ s.tcb.state ≠ .synReceived := by simp [hs]
  simp only [onEstablished]
  split_ifs
  · split
    · simpa [ReadStep.FlushSafe] using hr
    · exact hr
    · simpa [ReadStep.FlushSafe] using hr
    · rename_i hc
      obtain ⟨ha, hne⟩ := Tcb.checkPktType_retransmissionRequest hc
      have hf := pollFlush_finds (s.withTcb { s.tcb.changeSendWindow h.windowSize with
        retransmission := some ⟨h.acknowledgmentNumber⟩ }) ((hi.changeSendWindow hpre).setRetransmission)
        (by simpa using hs) (by simp [ha]) (by simpa using hne)
      exact flushThenLoop_flushSafe _ hf.1 hf.2
    · simpa [ReadStep.FlushSafe] using hr
    · simpa [ReadStep.FlushSafe] using hr
  all_goals simpa [ReadStep.FlushSafe] using hr

theorem onSegment_flushSafe (seg : TcpSegment) (hi : s.tcb.SendInv) (hr : s.tcb.retransmission = none) :
    (s.onSegment seg).FlushSafe := by
  simp only [onSegment]
  split
  · exact ⟨by simpa using hr, by simp⟩
  split
  · exact hr
  split <;> rename_i hs
  · split <;> simpa [ReadStep.FlushSafe] using hr
  · exact s.onEstablished_flushSafe hi hs hr
  all_goals (try split_ifs) <;> simpa [ReadStep.FlushSafe] using hr

theorem deliver_flushSafe {cap : Nat} {b : List UInt8} (hr : s.tcb.retransmission = none) :
    (s.deliver cap b).FlushSafe := by
  simp only [deliver]
  split_ifs
  · exact ⟨hr, by simp⟩
  · simp [ReadStep.FlushSafe]
  simp only [createRevPacket_eq]
  split
  · exact ⟨by simpa using hr, by simp⟩
  · rename_i hs; obtain ⟨rfl, -⟩ := send_eq_ok hs; exact ⟨by simpa using hr, by simp⟩

theorem afterDelivery_flushSafe (hi : s.tcb.SendInv) (hr : s.tcb.retransmission = none) :
    s.afterDelivery.FlushSafe := by
  unfold afterDelivery
  split_ifs
  · simpa [ReadStep.FlushSafe] using hr
  · simpa [ReadStep.FlushSafe] using hr
  split
  · exact ⟨hr, by simp⟩
  · exact onSegment_flushSafe _ _ hi hr

theorem afterSend_flushSafe (rbs : Nat) (fire : Bool) (cap : Nat) (hi : s.tcb.SendInv)
    (hr : s.tcb.retransmission = none) : (afterSend rbs fire cap s).FlushSafe := by
  simp only [afterSend]
  split_ifs
  · exact ⟨hr, by simp⟩
  · exact ⟨by simpa using hr, by simp⟩
  · simp only [createRevPacket_eq]
    split
    · exact ⟨by simpa using hr, by simp⟩
    · rename_i hs; obtain ⟨rfl, -⟩ := send_eq_ok hs; exact ⟨by simpa using hr, by simp⟩
  · simpa [ReadStep.FlushSafe] using hr
  split
  · exact deliver_flushSafe _ (by simpa using hr)
  · exact afterDelivery_flushSafe _ hi.changeRecvWindow.getUnorderedPackets (by simpa using hr)

/-- One pass of `poll_read` from a sound send side with `retransmission` clear keeps it clear and
does not panic in `poll_flush`. -/
theorem readIter_flushSafe (rbs : Nat) (fire : Bool) (cap : Nat) (hi : s.tcb.SendInv)
    (hr : s.tcb.retransmission = none) : (readIter rbs fire cap s).FlushSafe := by
  unfold readIter
  rw [flushPending_of_none _ hr]
  dsimp only
  split
  · exact ⟨by simpa using hr, by simp⟩
  · rename_i s₂ hq
    obtain ⟨ht, -, -⟩ := sendQueued_control hq
    exact afterSend_flushSafe _ rbs fire cap (ht ▸ hi) (by rw [ht]; exact hr)

theorem pollWrite_flushSafe (buf : List UInt8) (hr : s.tcb.retransmission = none) :
    (∀ site, (s.pollWrite buf).2 ≠ .panic site) ∧ (s.pollWrite buf).1.tcb.retransmission = none := by
  unfold pollWrite
  rw [flushPending_of_none _ hr]
  dsimp only
  split
  · exact ⟨fun _ => by simp, hr⟩
  split
  · exact ⟨fun _ => by simp, hr⟩
  simp only [createRevPacket_eq]
  split
  · exact ⟨fun _ => by simp, hr⟩
  · rename_i hs; obtain ⟨rfl, -⟩ := send_eq_ok hs; exact ⟨fun _ => by simp, by simpa using hr⟩

end IpStackTcpStream

/-- A step from a world with a sound send side and `retransmission` clear keeps it clear and
reports no panic of `poll_flush`. -/
theorem Step.flushSafe {rbs : Nat} {w w' : World} {e : Event} (hi : w.stream.tcb.SendInv)
    (hr : w.stream.tcb.retransmission = none) (h : Step rbs w e w') :
    w'.stream.tcb.retransmission = none ∧ e.panicSite ≠ some .flushEntryMissing := by
  cases h with
  | @pass cap sd fire s' _ hs =>
    have := w.stream.readIter_flushSafe rbs fire cap hi hr; rw [hs] at this; exact ⟨this, by simp [Event.panicSite]⟩
  | @ret cap sd fire s' b r _ hs =>
    have := w.stream.readIter_flushSafe rbs fire cap hi hr; rw [hs] at this
    refine ⟨this.1, ?_⟩
    cases sd <;> cases r <;> simp_all [returned, Event.panicSite, ReadStep.FlushSafe]
  | @crash cap sd fire site _ hs =>
    have := w.stream.readIter_flushSafe rbs fire cap hi hr; rw [hs] at this
    exact ⟨hr, by cases sd <;> simpa [returned, Event.panicSite] using this⟩
  | write buf _ =>
    obtain ⟨h₁, h₂⟩ := w.stream.pollWrite_flushSafe buf hr
    refine ⟨h₂, ?_⟩
    revert h₁; generalize (w.stream.pollWrite buf).2 = o; cases o <;> simp [Event.panicSite]
  | flush _ =>
    obtain ⟨h₁, h₂⟩ := w.stream.pollFlush_of_none hr
    refine ⟨by simp [h₂, hr], ?_⟩
    revert h₁; generalize w.stream.pollFlush.2 = o; cases o <;> simp [Event.panicSite]
  | _ => exact ⟨hr, by simp [Event.panicSite]⟩

theorem SaneReachable.retransmission {rbs : Nat} {w : World} (h : SaneReachable rbs w) :
    w.stream.tcb.retransmission = none := by
  induction h with
  | init h₀ => obtain ⟨_, _, _, _, rfl⟩ := h₀; rfl
  | @step w _ _ hw _ hs ih => exact (hs.flushSafe hw.sendInv ih).1

/-- After that half-space acknowledgement a duplicate of it requests a retransmission from
`last_ack`, where no entry starts (nothing is in flight), and `poll_flush` panics. -/
theorem pollFlush_entry_missing : ∃ w₀ es w, Initial w₀ ∧ Run 64 w₀ es w ∧
    es.getLast? = some (.readReturned [] (.panic .flushEntryMissing)) := by
  let seg (a : UInt32) (win : UInt16) : TcpSegment :=
    ⟨{ sourcePort := 1234, destinationPort := 80, sequenceNumber := 101,
       acknowledgmentNumber := a, windowSize := win, ack := true }, []⟩
  let w₀ := World.init (listen (.v4 ⟨0x0a000001, 1234⟩ ⟨0x0a000002, 80⟩) 100 1500 0)
  let ins : List Input := [.read 100, .pass false, .pass false, .arrive (seg 1 0), .read 100,
    .pass false, .pass false, .arrive (seg 2147483649 1000), .arrive (seg 2147483649 1000), .read 100,
    .pass false, .pass false]
  have h : (w₀.execAll 64 ins).map (·.1.getLast?) =
      some (some (.readReturned [] (.panic .flushEntryMissing))) := by decide
  obtain ⟨es, w, hr, h⟩ := World.execAll_run h
  exact ⟨w₀, es, w, ⟨_, _, _, _, rfl⟩, hr, by simpa using h⟩

end IpStack
