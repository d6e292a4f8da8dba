import IpStack.StateMachine

/-!
The shape of what a flow puts on the outbox. The history `up_packet_sender` has received is a
word of a small language: the SYN+ACK first, then data and acknowledgements, our FIN+ACK after
the last data segment, and a RST+ACK only at the end; the segments that are not
retransmissions carry sequence numbers that never go back. `EmitInv` ties that history to the
TCB state, the segment queued in `packet_to_send`, and how far `seq` has run past the last new
segment; every pass and every call keeps it. Every segment carries `TTL`, which is what the
demultiplexer expects of a live TCP stream (`DemuxStep.streamSends`).
-/

namespace IpStack

open IpStackTcpStream TcpFlags

/-- The states that come after our FIN; `Closed` may also be reached by a RST or the timer. -/
def TcpState.afterFin : TcpState → Bool
  | .finWait1 false | .finWait2 _ | .closed => true
  | _ => false

theorem TcpState.Edge.afterFin {a b : TcpState} (e : TcpState.Edge a b) (h : a.afterFin) : b.afterFin := by
  cases e <;> simp_all [TcpState.afterFin]

/-- How far `seq` may run past the last new segment: one write, and our FIN after it. -/
def TcpState.seqSlack (st : TcpState) : Nat := if st.afterFin then 65536 else 65535

theorem TcpState.seqSlack_le {a b : TcpState} (e : b = a ∨ TcpState.Edge a b) : a.seqSlack ≤ b.seqSlack := by
  unfold TcpState.seqSlack
  rcases e with rfl | e
  · exact Nat.le_refl _
  · have := e.afterFin
    revert this; cases a.afterFin <;> cases b.afterFin <;> simp

theorem TcpState.seqSlack_ge (a : TcpState) : 65535 ≤ a.seqSlack := by
  unfold TcpState.seqSlack; split <;> omega

theorem TcpState.seqSlack_le_max (a : TcpState) : a.seqSlack ≤ 65536 := by
  unfold TcpState.seqSlack; split <;> omega

/-- The last segment on the outbox that is not a retransmission. -/
def lastNew (L : List Sent) : Option Sent := (L.filter (!·.resend)).getLast?

@[simp] theorem lastNew_nil : lastNew [] = none := rfl

theorem lastNew_push (L : List Sent) (x : Sent) :
    lastNew (L ++ [x]) = if x.resend then lastNew L else some x := by
  cases hx : x.resend <;> simp [lastNew, List.filter_append, hx]

/-- Where an element of `L ++ [x]` sits: it is `x`, or it is in `L`. -/
theorem snoc_split {α : Type} {a b L : List α} {y x : α} (h : a ++ y :: b = L ++ [x]) :
    (a = L ∧ y = x ∧ b = []) ∨ ∃ b', b = b' ++ [x] ∧ a ++ y :: b' = L := by
  rcases List.eq_nil_or_concat b with rfl | ⟨b', z, rfl⟩
  · obtain ⟨h₁, h₂⟩ := List.append_inj' h rfl
    exact .inl ⟨h₁, by simpa using h₂, rfl⟩
  · rw [List.concat_eq_append, show a ++ y :: (b' ++ [z]) = (a ++ y :: b') ++ [z] by simp] at h
    obtain ⟨h₁, h₂⟩ := List.append_inj' h rfl
    exact .inr ⟨b', by simpa [List.concat_eq_append] using h₂, h₁⟩

/-- The shape of an outbox history: the SYN+ACK comes first, nothing but acknowledgements
follows our FIN+ACK, nothing follows a RST+ACK, and the new segments' sequence numbers never go
back. -/
structure OutboxShape (L : List Sent) : Prop where
  synFirst : ∀ a x b, L = a ++ x :: b → x.packet.flags = SYN ||| ACK → a = []
  afterFin : ∀ a x b, L = a ++ x :: b → x.packet.flags = FIN ||| ACK →
    ∀ y ∈ b, y.packet.flags ≠ PSH ||| ACK ∧ y.packet.flags ≠ FIN ||| ACK
  rstLast : ∀ a x b, L = a ++ x :: b → x.packet.flags = RST ||| ACK → b = []
  seqChain : (L.filter (!·.resend)).Chain' (·.packet.seq ≤ ·.packet.seq)

namespace OutboxShape

theorem nil : OutboxShape [] :=
  ⟨fun _ _ _ h => by simp at h, fun _ _ _ h => by simp at h, fun _ _ _ h => by simp at h, by simp⟩

/-- What a segment must satisfy to be appended to a history of that shape. -/
theorem push {L : List Sent} {x : Sent} (h : OutboxShape L) (hsyn : x.packet.flags = SYN ||| ACK → L = [])
    (hfin : ∀ y ∈ L, y.packet.flags = FIN ||| ACK → x.packet.flags ≠ PSH ||| ACK ∧ x.packet.flags ≠ FIN ||| ACK)
    (hrst : ∀ y ∈ L, y.packet.flags ≠ RST ||| ACK)
    (hseq : x.resend = false → ∀ y ∈ lastNew L, y.packet.seq ≤ x.packet.seq) : OutboxShape (L ++ [x]) := by
  refine ⟨fun a y b hL hy => ?_, fun a y b hL hy z hz => ?_, fun a y b hL hy => ?_, ?_⟩
  · rcases snoc_split hL.symm with ⟨rfl, rfl, -⟩ | ⟨b', -, hL'⟩
    · exact hsyn hy
    · exact h.synFirst a y b' hL'.symm hy
  · rcases snoc_split hL.symm with ⟨rfl, rfl, rfl⟩ | ⟨b', rfl, hL'⟩
    · simp at hz
    · rcases List.mem_append.mp hz with hz | hz
      · exact h.afterFin a y b' hL'.symm hy z hz
      · rw [List.mem_singleton.mp hz]; exact hfin y (hL' ▸ by simp) hy
  · rcases snoc_split hL.symm with ⟨-, -, rfl⟩ | ⟨b', -, hL'⟩
    · rfl
    · exact absurd hy (hrst y (hL' ▸ by simp))
  · rw [List.filter_append, List.chain'_append]
    refine ⟨h.seqChain, ?_, fun y hy z hz => ?_⟩
    · cases hx : x.resend <;> simp [hx]
    · cases hx : x.resend <;> simp [hx] at hz
      subst hz; exact hseq hx y hy

end OutboxShape

/-- What a segment waiting in `packet_to_send` is: an ACK, the first SYN+ACK, or our only
FIN+ACK; at most one behind `seq`, and not behind the last new segment. -/
structure Queued (t : Tcb) (L : List Sent) (p : NetworkPacket) : Prop where
  flags : p.flags = ACK ∨ p.flags = SYN ||| ACK ∨ p.flags = FIN ||| ACK
  syn : p.flags = SYN ||| ACK → L = [] ∧ t.state = .synReceived
  fin : p.flags = FIN ||| ACK → t.state.afterFin ∧ ∀ y ∈ L, y.packet.flags ≠ FIN ||| ACK
  seq : p.seq.dist t.seq ≤ 1
  last : ∀ y ∈ lastNew L, y.packet.seq.dist p.seq ≤ y.packet.seq.dist t.seq
  ttl : p.ip.ttl = TTL

theorem Queued.ne {t : Tcb} {L : List Sent} {p : NetworkPacket} (h : Queued t L p) :
    p.flags ≠ PSH ||| ACK ∧ p.flags ≠ RST ||| ACK := by
  rcases h.flags with hf | hf | hf <;> rw [hf] <;> decide

/-- The emission invariant of a flow with TCB `t`, outbox history `L` and queued segment `q`:
the history has its shape; in `Listen` nothing was sent or queued; in `Closed` nothing is
queued; a sent FIN+ACK or RST+ACK is reflected in the state; `seq` is at most one write and our
FIN past the last new segment; and a queued segment is an ACK, the first SYN+ACK, or our only
FIN+ACK, at most one behind `seq`; and every segment carries `TTL`. -/
structure EmitInv (t : Tcb) (L : List Sent) (q : Option NetworkPacket) : Prop where
  shape : OutboxShape L
  listen : t.state = .listen → L = [] ∧ q = none
  closed : t.state = .closed → q = none
  fin : ∀ y ∈ L, y.packet.flags = FIN ||| ACK → t.state.afterFin
  rst : ∀ y ∈ L, y.packet.flags = RST ||| ACK → t.state = .closed
  lastSeq : ∀ y ∈ lastNew L, y.packet.seq.dist t.seq ≤ t.state.seqSlack
  queued : ∀ p, q = some p → Queued t L p
  ttl : ∀ y ∈ L, y.packet.ip.ttl = TTL

namespace EmitInv

variable {t t' : Tcb} {L : List Sent} {q : Option NetworkPacket}

theorem lastNew_le (h : EmitInv t L q) {y : Sent} (hy : y ∈ lastNew L) : y.packet.seq ≤ t.seq := by
  have := h.lastSeq y hy; have := t.state.seqSlack_le_max
  rw [SeqNum.le_iff_dist]; omega

theorem ttl_push (h : EmitInv t L q) {x : Sent} (hx : x.packet.ip.ttl = TTL) :
    ∀ y ∈ L ++ [x], y.packet.ip.ttl = TTL := fun y hy =>
  (List.mem_append.mp hy).elim (h.ttl y) fun hy => List.mem_singleton.mp hy ▸ hx

/-- A TCB change that keeps the state and `seq`. -/
theorem congr (h : EmitInv t L q) (h₁ : t'.state = t.state) (h₂ : t'.seq = t.seq) : EmitInv t' L q := by
  obtain ⟨hs, hl, hc, hf, hr, hq, hp, ht⟩ := h
  refine ⟨hs, h₁ ▸ hl, h₁ ▸ hc, h₁ ▸ hf, h₁ ▸ hr, h₁ ▸ h₂ ▸ hq, fun p h => ?_, ht⟩
  obtain ⟨q₁, q₂, q₃, q₄, q₅, q₆⟩ := hp p h
  exact ⟨q₁, h₁ ▸ q₂, h₁ ▸ q₃, h₂ ▸ q₄, h₂ ▸ q₅, q₆⟩

/-- A change of state along an edge, with nothing queued, on a flow that is not closed. -/
theorem update (h : EmitInv t L q) (hq : q = none) (hc : t.state ≠ .closed)
    (he : t'.state = t.state ∨ TcpState.Edge t.state t'.state) (hs : t'.seq = t.seq) : EmitInv t' L q := by
  subst hq
  refine ⟨h.shape, fun hl => h.listen ?_, fun _ => rfl, fun y hy hf => ?_, fun y hy hr => absurd (h.rst y hy hr) hc,
    fun y hy => hs ▸ (h.lastSeq y hy).trans (TcpState.seqSlack_le he), fun _ hp => Option.noConfusion hp, h.ttl⟩
  · rcases he with he | e
    · rwa [← he]
    · exact absurd hl e.target_ne_listen
  · rcases he with he | e
    · rw [he]; exact h.fin y hy hf
    · exact e.afterFin (h.fin y hy hf)

/-- The queued segment is dropped. -/
theorem drop (h : EmitInv t L q) : EmitInv t L none :=
  ⟨h.shape, fun hl => ⟨(h.listen hl).1, rfl⟩, fun _ => rfl, h.fin, h.rst, h.lastSeq, fun _ hp => Option.noConfusion hp, h.ttl⟩

/-- The queued segment goes out as a new segment. -/
theorem sendQueued {p : NetworkPacket} (h : EmitInv t L (some p)) : EmitInv t (L ++ [⟨p, false⟩]) none := by
  have hq := h.queued p rfl
  have hnc : t.state ≠ .closed := fun hc => by simpa using h.closed hc
  refine ⟨h.shape.push (fun hs => (hq.syn hs).1) (fun y hy hy' => ⟨hq.ne.1, fun hF => (hq.fin hF).2 y hy hy'⟩)
      (fun y hy hr => hnc (h.rst y hy hr)) (fun _ y hy => ?_), fun hl => absurd (h.listen hl).2 (by simp),
    fun _ => rfl, fun y hy hy' => ?_, fun y hy hr => ?_, fun y hy => ?_, fun _ hp => Option.noConfusion hp,
    h.ttl_push hq.ttl⟩
  · have := hq.last y hy; have := h.lastSeq y hy; have := t.state.seqSlack_le_max
    show y.packet.seq ≤ p.seq
    rw [SeqNum.le_iff_dist]; omega
  · rcases List.mem_append.mp hy with hy | hy
    · exact h.fin y hy hy'
    · rw [List.mem_singleton.mp hy] at hy'; exact (hq.fin hy').1
  · rcases List.mem_append.mp hy with hy | hy
    · exact h.rst y hy hr
    · rw [List.mem_singleton.mp hy] at hr; exact absurd hr hq.ne.2
  · rw [lastNew_push, if_neg (by simp)] at hy
    simp only [Option.mem_def, Option.some.injEq] at hy; subst hy
    exact hq.seq.trans (le_trans (by omega) t.state.seqSlack_ge)

/-- A retransmitted data segment, in `Established`. -/
theorem resend {x : Sent} (h : EmitInv t L q) (hst : t.state = .established) (hx : x.resend = true)
    (hf : x.packet.flags = PSH ||| ACK) (ht : x.packet.ip.ttl = TTL) : EmitInv t (L ++ [x]) q := by
  have hnf : ∀ y ∈ L, y.packet.flags ≠ FIN ||| ACK := fun y hy hy' => by
    simpa [hst, TcpState.afterFin] using h.fin y hy hy'
  have hnf' : ∀ y ∈ L ++ [x], y.packet.flags ≠ FIN ||| ACK := fun y hy => by
    rcases List.mem_append.mp hy with hy | hy
    · exact hnf y hy
    · rw [List.mem_singleton.mp hy, hf]; decide
  have hlast : lastNew (L ++ [x]) = lastNew L := by rw [lastNew_push, if_pos hx]
  refine ⟨h.shape.push (fun hs => absurd (hf.symm.trans hs) (by decide)) (fun y hy hy' => absurd hy' (hnf y hy))
      (fun y hy hr => by simpa [hst] using h.rst y hy hr) (fun h' => by simp [hx] at h'),
    fun hl => by simp [hst] at hl, fun hc => by simp [hst] at hc, fun y hy hy' => absurd hy' (hnf' y hy),
    fun y hy hr => ?_, hlast ▸ h.lastSeq, fun p hp => ?_, h.ttl_push ht⟩
  · rcases List.mem_append.mp hy with hy | hy
    · exact h.rst y hy hr
    · rw [List.mem_singleton.mp hy] at hr; exact absurd (hf.symm.trans hr) (by decide)
  · obtain ⟨q₁, q₂, q₃, q₄, q₅, q₆⟩ := h.queued p hp
    exact ⟨q₁, fun hs => absurd (q₂ hs).2 (by simp [hst]), fun hF => ⟨(q₃ hF).1, hnf'⟩, q₄, hlast ▸ q₅, q₆⟩

/-- A new ACK or data segment at `seq`, with `seq` moving past its `n` bytes. -/
theorem pushNew {x : Sent} {n : Nat} (h : EmitInv t L q) (hq : q = none) (hc : t.state ≠ .closed)
    (hl : t.state ≠ .listen) (hx : x.resend = false)
    (hf : x.packet.flags = ACK ∨ x.packet.flags = PSH ||| ACK ∧ t.state = .established)
    (hp : x.packet.seq = t.seq) (hn : n ≤ 65535) (h₁ : t'.state = t.state) (h₂ : t'.seq = t.seq.addNat n)
    (ht : x.packet.ip.ttl = TTL) : EmitInv t' (L ++ [x]) q := by
  subst hq
  have hfl : x.packet.flags ≠ SYN ||| ACK ∧ x.packet.flags ≠ FIN ||| ACK ∧ x.packet.flags ≠ RST ||| ACK := by
    rcases hf with hf | ⟨hf, -⟩ <;> rw [hf] <;> decide
  refine ⟨h.shape.push (fun hs => absurd hs hfl.1) (fun y hy hy' => ⟨fun hP => ?_, hfl.2.1⟩)
      (fun y hy hr => hc (h.rst y hy hr)) (fun _ y hy => hp ▸ h.lastNew_le hy),
    fun hl' => absurd (h₁ ▸ hl') hl, fun _ => rfl, fun y hy hy' => ?_, fun y hy hr => ?_, fun y hy => ?_,
    fun _ hp => Option.noConfusion hp, h.ttl_push ht⟩
  · rcases hf with hf | ⟨-, hst⟩
    · exact absurd (hf.symm.trans hP) (by decide)
    · have := h.fin y hy hy'; simp [hst, TcpState.afterFin] at this
  · rw [h₁]
    rcases List.mem_append.mp hy with hy | hy
    · exact h.fin y hy hy'
    · rw [List.mem_singleton.mp hy] at hy'; exact absurd hy' hfl.2.1
  · rcases List.mem_append.mp hy with hy | hy
    · exact absurd (h.rst y hy hr) hc
    · rw [List.mem_singleton.mp hy] at hr; exact absurd hr hfl.2.2
  · rw [lastNew_push, if_neg (by simp [hx])] at hy
    simp only [Option.mem_def, Option.some.injEq] at hy; subst hy
    rw [hp, h₂, SeqNum.dist_addNat, h₁]
    exact le_trans (Nat.mod_le _ _) (hn.trans t.state.seqSlack_ge)

/-- The RST+ACK at `seq`, and the flow closes. -/
theorem reset {x : Sent} (h : EmitInv t L q) (hq : q = none) (hc : t.state ≠ .closed) (hx : x.resend = false)
    (hf : x.packet.flags = RST ||| ACK) (hp : x.packet.seq = t.seq) (h₁ : t'.state = .closed) (h₂ : t'.seq = t.seq)
    (ht : x.packet.ip.ttl = TTL) : EmitInv t' (L ++ [x]) q := by
  subst hq
  refine ⟨h.shape.push (fun hs => absurd (hf.symm.trans hs) (by decide))
      (fun _ _ _ => ⟨fun hP => absurd (hf.symm.trans hP) (by decide), fun hF => absurd (hf.symm.trans hF) (by decide)⟩)
      (fun y hy hr => hc (h.rst y hy hr)) (fun _ y hy => hp ▸ h.lastNew_le hy),
    fun hl => by simp [h₁] at hl, fun _ => rfl, fun _ _ _ => by simp [h₁, TcpState.afterFin], fun _ _ _ => h₁,
    fun y hy => ?_, fun _ hp => Option.noConfusion hp, h.ttl_push ht⟩
  rw [lastNew_push, if_neg (by simp [hx])] at hy
  simp only [Option.mem_def, Option.some.injEq] at hy; subst hy
  rw [hp, h₂, SeqNum.dist_self]; exact Nat.zero_le _

/-- A bare ACK is queued at `seq`, with the state kept or moved along an edge. -/
theorem queueAck {p : NetworkPacket} (h : EmitInv t L q) (hq : q = none) (hc : t.state ≠ .closed)
    (he : t'.state = t.state ∨ TcpState.Edge t.state t'.state) (hc' : t'.state ≠ .closed)
    (hl' : t'.state ≠ .listen) (hs : t'.seq = t.seq) (hf : p.flags = ACK) (hp : p.seq = t.seq)
    (ht : p.ip.ttl = TTL) : EmitInv t' L (some p) := by
  have h' := h.update hq hc he hs
  subst hq
  refine ⟨h'.shape, fun hl => absurd hl hl', fun hc => absurd hc hc', h'.fin, h'.rst, h'.lastSeq, fun p' hp' => ?_,
    h'.ttl⟩
  cases hp'
  exact ⟨.inl hf, fun hs => absurd (hf.symm.trans hs) (by decide), fun hs => absurd (hf.symm.trans hs) (by decide),
    by rw [hp, hs, SeqNum.dist_self]; omega, fun y _ => by rw [hp, hs], ht⟩

/-- The SYN+ACK is queued at `seq` in `Listen`, and `seq` moves past it. -/
theorem queueSyn {p : NetworkPacket} (h : EmitInv t L q) (hl : t.state = .listen)
    (hst : t'.state = .synReceived) (hs : t'.seq = t.seq.addNat 1) (hf : p.flags = SYN ||| ACK) (hp : p.seq = t.seq)
    (ht : p.ip.ttl = TTL) : EmitInv t' L (some p) := by
  obtain ⟨rfl, -⟩ := h.listen hl
  refine ⟨.nil, fun h' => by simp [hst] at h', fun h' => by simp [hst] at h', fun y hy => by simp at hy,
    fun y hy => by simp at hy, fun y hy => by simp at hy, fun p' hp' => ?_, by simp⟩
  cases hp'
  exact ⟨.inr (.inl hf), fun _ => ⟨rfl, hst⟩, fun h' => absurd (hf.symm.trans h') (by decide), by simp [hp, hs],
    fun y hy => by simp at hy, ht⟩

/-- Our FIN+ACK is queued at `seq`, the flow moves past our FIN, and `seq` past its sequence
number. -/
theorem queueFin {p : NetworkPacket} (h : EmitInv t L q) (hq : q = none) (hn : t.state.afterFin = false)
    (ha : t'.state.afterFin) (hc' : t'.state ≠ .closed) (hs : t'.seq = t.seq.addNat 1)
    (hf : p.flags = FIN ||| ACK) (hp : p.seq = t.seq) (ht : p.ip.ttl = TTL) : EmitInv t' L (some p) := by
  subst hq
  have hnf : ∀ y ∈ L, y.packet.flags ≠ FIN ||| ACK := fun y hy hy' => by simpa [hn] using h.fin y hy hy'
  have hnc : t.state ≠ .closed := fun hc => by simp [hc, TcpState.afterFin] at hn
  have hslack : t.state.seqSlack = 65535 := by simp [TcpState.seqSlack, hn]
  have hslack' : t'.state.seqSlack = 65536 := by simp [TcpState.seqSlack, ha]
  refine ⟨h.shape, fun hl => absurd ha (by simp [hl, TcpState.afterFin]), fun hc => absurd hc hc',
    fun _ _ _ => ha, fun y hy hr => absurd (h.rst y hy hr) hnc, fun y hy => ?_, fun p' hp' => ?_, h.ttl⟩
  · have := h.lastSeq y hy
    rw [hs, SeqNum.dist_addNat_right, hslack']; rw [hslack] at this; omega
  · cases hp'
    refine ⟨.inr (.inr hf), fun h' => absurd (hf.symm.trans h') (by decide), fun _ => ⟨ha, hnf⟩,
      by simp [hp, hs], fun y hy => ?_, ht⟩
    have := h.lastSeq y hy; rw [hslack] at this
    rw [hp, hs, SeqNum.dist_addNat_right]; omega

theorem initial (ack iss : SeqNum) : EmitInv (Tcb.new ack iss) [] none :=
  ⟨.nil, fun _ => ⟨rfl, rfl⟩, fun _ => rfl, by simp, by simp, by simp, fun _ hp => Option.noConfusion hp, by simp⟩

end EmitInv

/-- A pass keeps the emission invariant, and a pass that returns leaves nothing queued. -/
def ReadStep.Emits : ReadStep → Prop
  | .next s => EmitInv s.tcb s.upPacketSender.sent s.packetToSend
  | .done s _ _ => EmitInv s.tcb s.upPacketSender.sent none ∧ s.packetToSend = none
  | .panic _ => True

namespace IpStackTcpStream

variable (s : IpStackTcpStream)

theorem pollFlush_emits (hd : EmitInv s.tcb s.upPacketSender.sent s.packetToSend) :
    EmitInv s.pollFlush.1.tcb s.pollFlush.1.upPacketSender.sent s.pollFlush.1.packetToSend := by
  obtain ⟨-, r, o, hf, ho⟩ := s.pollFlush_spec
  have h' : EmitInv { s.tcb with retransmission := r } s.upPacketSender.sent s.packetToSend := hd.congr rfl rfl
  rw [hf]
  rcases ho with rfl | ⟨p, -, hst, rfl⟩
  · exact h'
  · exact h'.resend hst rfl (revPacket_flags_of _ _ _ (by simp)) (by simp)

theorem pollFlush_packetToSend : s.pollFlush.1.packetToSend = s.packetToSend := by
  obtain ⟨-, r, o, hf, -⟩ := s.pollFlush_spec; rw [hf]

theorem flushPending_emits (hd : EmitInv s.tcb s.upPacketSender.sent s.packetToSend) :
    EmitInv s.flushPending.1.tcb s.flushPending.1.upPacketSender.sent s.flushPending.1.packetToSend := by
  unfold flushPending; split
  · exact s.pollFlush_emits hd
  · exact hd

theorem flushPending_packetToSend : s.flushPending.1.packetToSend = s.packetToSend := by
  unfold flushPending; split
  · exact s.pollFlush_packetToSend
  · rfl

theorem flushThenLoop_emits (hd : EmitInv s.tcb s.upPacketSender.sent s.packetToSend) (hq : s.packetToSend = none) :
    s.flushThenLoop.Emits := by
  have h₁ := s.pollFlush_emits hd
  have h₂ : s.pollFlush.1.packetToSend = none := by rw [pollFlush_packetToSend, hq]
  unfold flushThenLoop
  split <;> rename_i heq <;> rw [heq] at h₁ h₂
  · trivial
  · exact ⟨h₂ ▸ h₁, h₂⟩
  · exact h₁

theorem onEstablished_emits {h : TcpHeader} {pl : List UInt8}
    (hd : EmitInv s.tcb s.upPacketSender.sent s.packetToSend) (hq : s.packetToSend = none)
    (hs : s.tcb.state = .established) : (s.onEstablished h pl).Emits := by
  have hc : s.tcb.state ≠ .closed := by simp [hs]
  simp only [onEstablished]
  split_ifs
  · split
    · exact hd.congr (by simp) (by simp)
    · exact hd
    · rw [queue_eq]
      exact (hd.congr (by simp) (by simp)).queueAck hq (by simp [hs]) (.inl rfl) (by simp [hs]) (by simp [hs]) rfl
        (revPacket_flags_of _ _ _ (by simp)) (by simp) (by simp)
    · exact flushThenLoop_emits _ (hd.congr rfl rfl) hq
    · exact hd.congr (by simp) (by simp)
    · exact hd.congr (by simp) (by simp)
  · rw [queue_eq]
    exact (hd.congr rfl rfl).queueAck hq hc (.inr (by simpa [hs] using TcpState.Edge.established true)) (by simp)
      (by simp) (by simp) (revPacket_flags_of _ _ _ (by simp)) (by simp) (by simp)
  · exact hd
  · exact hd.congr (by simp) (by simp)
  · exact hd.congr (by simp) (by simp)
  · exact hd

theorem onSegment_emits (seg : TcpSegment) (hd : EmitInv s.tcb s.upPacketSender.sent s.packetToSend)
    (hq : s.packetToSend = none) (hc : s.tcb.state ≠ .closed) : (s.onSegment seg).Emits := by
  simp only [onSegment]
  split
  · exact ⟨hq ▸ hd.update hq hc (by by_cases h : s.tcb.state = .closed <;> simp_all [TcpState.Edge.close]) rfl, hq⟩
  split
  · exact hd
  split <;> rename_i hs
  · split
    · exact hd.update hq hc (.inr (by simpa [hs] using TcpState.Edge.synReceived)) (by simp)
    · exact hd
  · exact s.onEstablished_emits hd hq hs
  · split
    · exact hd.update hq hc (.inr (by simpa [hs] using TcpState.Edge.finWait1 false)) (by simp)
    split
    · rw [queue_eq]
      exact (hd.congr rfl rfl).queueAck hq hc (.inr (by simpa [hs] using TcpState.Edge.finWait1 false)) (by simp)
        (by simp) (by simp) (revPacket_flags_of _ _ _ (by simp)) (by simp) (by simp)
    · exact hd
  · split
    · exact hd.update hq hc (.inr (by simpa [hs] using TcpState.Edge.finWait2)) (by simp)
    split
    · rw [queue_eq]
      exact hd.queueAck hq hc (.inr (by simpa [hs] using TcpState.Edge.finWait2)) (by simp) (by simp) (by simp)
        (revPacket_flags_of _ _ _ (by simp)) (by simp) (by simp)
    · exact hd
  · exact hd

theorem deliver_emits {cap : Nat} {b : List UInt8} (hd : EmitInv s.tcb s.upPacketSender.sent s.packetToSend)
    (hq : s.packetToSend = none) (hc : s.tcb.state ≠ .closed) (hl : s.tcb.state ≠ .listen) :
    (s.deliver cap b).Emits := by
  rw [hq] at hd
  simp only [deliver]
  split_ifs
  · exact ⟨hd, hq⟩
  · trivial
  simp only [createRevPacket_eq]
  split
  · exact ⟨hd.congr rfl rfl, hq⟩
  · rename_i s₂ hs; obtain ⟨rfl, -⟩ := send_eq_ok hs
    exact ⟨(hd.congr rfl rfl).pushNew rfl hc hl rfl (.inl (revPacket_flags_of _ _ _ (by simp))) (by simp)
      (Nat.zero_le _) rfl (by simp) (by simp), hq⟩

theorem afterDelivery_emits (hd : EmitInv s.tcb s.upPacketSender.sent s.packetToSend) (hq : s.packetToSend = none)
    (hc : s.tcb.state ≠ .closed) : s.afterDelivery.Emits := by
  unfold afterDelivery
  split_ifs with h₁ h₂
  · rw [queue_eq]
    exact hd.queueFin hq (by rw [h₁]; rfl) (by simp [TcpState.afterFin]) (by simp) (by simp)
      (revPacket_flags_of _ _ _ (by simp)) (by simp) (by simp)
  · rw [queue_eq]
    exact hd.queueFin hq (by rw [h₂.2.1]; rfl) (by simp [TcpState.afterFin]) (by simp) (by simp)
      (revPacket_flags_of _ _ _ (by simp)) (by simp) (by simp)
  split
  · exact ⟨hq ▸ hd, hq⟩
  · exact onSegment_emits _ _ hd hq hc

theorem afterSend_emits (rbs : Nat) (fire : Bool) (cap : Nat)
    (hd : EmitInv s.tcb s.upPacketSender.sent s.packetToSend) (hq : s.packetToSend = none) :
    (afterSend rbs fire cap s).Emits := by
  simp only [afterSend]
  split_ifs with hc hf hfire hl
  · exact ⟨hq ▸ hd, hq⟩
  · exact ⟨hq ▸ hd.update hq (by simp [hf]) (.inr (by simpa [hf] using TcpState.Edge.close (by simp))) rfl, hq⟩
  · simp only [createRevPacket_eq]
    split
    · exact ⟨hq ▸ hd.congr rfl rfl, hq⟩
    · rename_i s₂ hs; obtain ⟨rfl, -⟩ := send_eq_ok hs
      exact ⟨hq ▸ (hd.congr rfl rfl).reset hq hc rfl (revPacket_flags_of _ _ _ (by simp)) (by simp) rfl rfl
        (by simp), hq⟩
  · rw [queue_eq]
    exact (hd.congr rfl rfl).queueSyn hl (by simp) (by simp) (revPacket_flags_of _ _ _ (by simp)) (by simp) (by simp)
  split
  · exact deliver_emits _ (hd.congr (by simp) (by simp)) hq (by simpa using hc) (by simpa using hl)
  · exact afterDelivery_emits _ (hd.congr (by simp) (by simp)) hq (by simpa using hc)

/-- One pass of `poll_read` keeps the emission invariant. -/
theorem readIter_emits (rbs : Nat) (fire : Bool) (cap : Nat)
    (hd : EmitInv s.tcb s.upPacketSender.sent s.packetToSend) : (readIter rbs fire cap s).Emits := by
  have h₁ := s.flushPending_emits hd
  have hnp := s.flushPending_spec.1
  unfold readIter
  split
  · trivial
  · rename_i heq; exact absurd (by rw [heq]) hnp
  · rename_i heq; rw [heq] at h₁
    split
    · exact ⟨h₁.drop, rfl⟩
    · rename_i s₂ hq
      rcases sendQueued_ok hq with ⟨hn, rfl⟩ | ⟨p, hp, -, rfl⟩
      · exact afterSend_emits _ rbs fire cap h₁ hn
      · exact afterSend_emits _ rbs fire cap (hp ▸ h₁).sendQueued rfl

theorem pollWrite_emits (buf : List UInt8) (hd : EmitInv s.tcb s.upPacketSender.sent s.packetToSend)
    (hq : s.packetToSend = none) :
    EmitInv (s.pollWrite buf).1.tcb (s.pollWrite buf).1.upPacketSender.sent none ∧
      (s.pollWrite buf).1.packetToSend = none := by
  have h₁ := s.flushPending_emits hd
  have h₂ : s.flushPending.1.packetToSend = none := by rw [flushPending_packetToSend, hq]
  rw [h₂] at h₁
  rcases s.pollWrite_eq buf with ⟨o, h, -⟩ | ⟨o, h, -⟩ | ⟨hst, -, -, -, h⟩ <;> rw [h]
  · exact ⟨hq ▸ hd, hq⟩
  · exact ⟨h₁, h₂⟩
  · have hst' : s.flushPending.1.tcb.state = .established := by simp [hst]
    have hlen := List.length_take_le s.flushPending.1.payloadMax buf
    have := s.flushPending.1.payloadMax_le
    exact ⟨h₁.pushNew (n := (buf.take s.flushPending.1.payloadMax).length) rfl (by simp [hst]) (by simp [hst]) rfl
      (.inr ⟨revPacket_flags_of _ _ _ (by simp), hst'⟩) (by simp) (by omega) (by simp) (by simp)
      (by simp), h₂⟩

/-- `poll_flush` on a flow that is not established returns without touching it. -/
theorem pollFlush_not_established (h : s.tcb.state ≠ .established) : s.pollFlush = (s, .err .notConnected) := by
  simp [pollFlush, h]

/-- A pass on a closed flow with nothing queued only reports the close. -/
theorem readIter_closed (rbs : Nat) (fire : Bool) (cap : Nat) (hc : s.tcb.state = .closed)
    (hq : s.packetToSend = none) :
    readIter rbs fire cap s = .done { s with shutdown := .ready } [] (.ok ()) := by
  have hf : s.flushPending = (s, .err .notConnected) ∨ s.flushPending = (s, .ok ()) := by
    unfold flushPending; split
    · exact .inl (s.pollFlush_not_established (by simp [hc]))
    · exact .inr rfl
  rcases hf with hf | hf <;> simp [readIter, hf, sendQueued, hq, afterSend, hc]

end IpStackTcpStream

/-- The emission invariant of a world: the flow's, and nothing queued between calls. -/
structure EmitState (w : World) : Prop where
  inv : EmitInv w.stream.tcb w.stream.upPacketSender.sent w.stream.packetToSend
  idle : w.mode = .idle → w.stream.packetToSend = none

section Steps

variable {rbs : Nat} {w w' : World} {e : Event}

theorem EmitState.step (hi : EmitState w) (h : Step rbs w e w') : EmitState w' := by
  cases h with
  | @pass cap sd fire s' hm hs =>
    have := w.stream.readIter_emits rbs fire cap hi.inv; rw [hs] at this
    exact ⟨this, fun h => by simp [hm] at h⟩
  | @ret cap sd fire s' b r hm hs =>
    have := w.stream.readIter_emits rbs fire cap hi.inv; rw [hs] at this
    exact ⟨by rw [this.2]; exact this.1, fun _ => this.2⟩
  | crash => exact ⟨hi.inv, fun h => by cases h⟩
  | write buf hm =>
    have := w.stream.pollWrite_emits buf hi.inv (hi.idle hm)
    exact ⟨by rw [World.afterWrite_stream, this.2]; exact this.1, fun _ => this.2⟩
  | flush hm =>
    exact ⟨w.stream.pollFlush_emits hi.inv, fun _ => by
      rw [World.afterFlush_stream, pollFlush_packetToSend]; exact hi.idle hm⟩
  | callRead => exact ⟨hi.inv, fun h => by cases h⟩
  | callShutdown => exact ⟨hi.inv, fun h => by cases h⟩
  | shutdownReady => exact hi
  | _ => exact ⟨hi.inv, hi.idle⟩

theorem Reachable.emitState (h : Reachable rbs w) : EmitState w :=
  Reachable.induction EmitState (fun _ h₀ => by
      obtain ⟨_, _, _, _, rfl⟩ := h₀; exact ⟨EmitInv.initial _ _, fun _ => rfl⟩)
    (fun _ _ _ _ hi h => hi.step h) w h

/-- Every segment a reachable flow has sent carries `TTL`. -/
theorem Reachable.sent_ttl (h : Reachable rbs w) : ∀ x ∈ w.stream.upPacketSender.sent, x.packet.ip.ttl = TTL :=
  h.emitState.inv.ttl

/-- Nothing is sent by a step from a closed flow. -/
theorem Step.closed_silent (hi : EmitState w) (h : Step rbs w e w') (hc : w.stream.tcb.state = .closed) :
    w'.stream.upPacketSender.sent = w.stream.upPacketSender.sent := by
  have hq := hi.inv.closed hc
  have hne : w.stream.tcb.state ≠ .established := by simp [hc]
  cases h with
  | @pass cap sd fire s' _ hs => rw [w.stream.readIter_closed rbs fire cap hc hq] at hs; cases hs
  | @ret cap sd fire s' b r _ hs => rw [w.stream.readIter_closed rbs fire cap hc hq] at hs; cases hs; rfl
  | write buf => simp [World.afterWrite, pollWrite, hne]
  | flush => simp [World.afterFlush, w.stream.pollFlush_not_established hne]
  | _ => rfl

end Steps

/-- The outbox of a flow: at most one SYN+ACK, before every other segment; neither data nor a
second FIN+ACK after our FIN+ACK; nothing after a RST+ACK, so at most one of them; nothing sent
by any step from a closed flow; and, retransmissions aside, sequence numbers that never go
back. -/
theorem outbox_shape (rbs : Nat) (w : World) (hw : Reachable rbs w) :
    (∀ a x b, w.stream.upPacketSender.sent = a ++ x :: b → x.packet.flags = SYN ||| ACK → a = []) ∧
    (∀ a x b, w.stream.upPacketSender.sent = a ++ x :: b → x.packet.flags = FIN ||| ACK →
      ∀ y ∈ b, y.packet.flags ≠ PSH ||| ACK ∧ y.packet.flags ≠ FIN ||| ACK) ∧
    (∀ a x b, w.stream.upPacketSender.sent = a ++ x :: b → x.packet.flags = RST ||| ACK → b = []) ∧
    (∀ e w', Step rbs w e w' → w.stream.tcb.state = .closed →
      w'.stream.upPacketSender.sent = w.stream.upPacketSender.sent) ∧
    (w.stream.upPacketSender.sent.filter (!·.resend)).Chain' (·.packet.seq ≤ ·.packet.seq) :=
  have hi := hw.emitState
  ⟨hi.inv.shape.synFirst, hi.inv.shape.afterFin, hi.inv.shape.rstLast, fun _ _ h hc => h.closed_silent hi hc,
    hi.inv.shape.seqChain⟩

theorem outbox_shape_close : ∃ w₀ es w, Initial w₀ ∧ Run 64 w₀ es w ∧
    w.stream.upPacketSender.sent.map (·.packet.flags) = [SYN ||| ACK, PSH ||| ACK, FIN ||| ACK] ∧
    (w.stream.upPacketSender.sent.filter (!·.resend)).Chain' (·.packet.seq ≤ ·.packet.seq) := by
  let seg (a : UInt32) : TcpSegment :=
    ⟨{ sourcePort := 1234, destinationPort := 80, sequenceNumber := 101,
       acknowledgmentNumber := a, windowSize := 1000, ack := true }, []⟩
  let w₀ := World.init (listen (.v4 ⟨0x0a000001, 1234⟩ ⟨0x0a000002, 80⟩) 100 1500 0)
  let ins : List Input := [.read 100, .pass false, .pass false, .arrive (seg 1), .read 100,
    .pass false, .pass false, .write [1, 2, 3], .arrive (seg 4), .read 100, .pass false, .pass false,
    .shutdown, .pass false, .pass false]
  have h : (w₀.execAll 64 ins).map (·.2.stream.upPacketSender.sent.map (·.packet.flags)) =
      some [SYN ||| ACK, PSH ||| ACK, FIN ||| ACK] := by decide
  obtain ⟨es, w, hr, h⟩ := World.execAll_run h
  exact ⟨w₀, es, w, ⟨_, _, _, _, rfl⟩, hr, by simpa using h,
    (outbox_shape 64 w ⟨w₀, es, ⟨_, _, _, _, rfl⟩, hr⟩).2.2.2.2⟩

end IpStack
