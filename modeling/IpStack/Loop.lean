import IpStack.StateMachine

/-!
Termination of the `poll_read` loop. With the idle timer quiet, a pass that loops again either
takes the oldest segment of the inbox, the state staying or following an edge, or leaves the
inbox as it is and makes one of three silent moves: `Listen` to `SynReceived`, `Established` to
`FinWait1(false)`, `FinWait1(true)` to `FinWait2(true)`. The inbox length plus the silent moves a
state still allows, at most two, falls with every pass that loops, so a call on an inbox of `n`
segments returns within `n + 3` passes.
-/

namespace IpStack

open TcpState IpStackTcpStream TcpFlags

namespace TcpState

/-- How many passes that take no segment a flow in this state can still make. -/
def budget : TcpState → Nat
  | .listen => 2
  | .synReceived | .established | .finWait1 true => 1
  | _ => 0

theorem budget_le_two (q : TcpState) : q.budget ≤ 2 := by
  unfold budget; split <;> omega

theorem Edge.budget_le {a b : TcpState} (h : Edge a b) : b.budget ≤ a.budget := by
  cases h with
  | established b => cases b <;> simp [budget]
  | finWait1 b => cases b <;> simp [budget]
  | _ => simp [budget]

/-- The moves a pass makes without taking a segment from the inbox. -/
def SilentMove (q q' : TcpState) : Prop :=
  q = .listen ∧ q' = .synReceived ∨ q = .established ∧ q' = .finWait1 false ∨
    q = .finWait1 true ∧ q' = .finWait2 true

theorem SilentMove.budget_lt {q q' : TcpState} (h : SilentMove q q') : q'.budget < q.budget := by
  rcases h with ⟨rfl, rfl⟩ | ⟨rfl, rfl⟩ | ⟨rfl, rfl⟩ <;> simp [budget]

end TcpState

/-- What a pass that loops again did: took the oldest segment of the inbox, the state staying or
following an edge, or left the inbox as it was and made a silent move. -/
def Progress (s s' : IpStackTcpStream) : Prop :=
  (∃ seg, s.streamReceiver = seg :: s'.streamReceiver ∧
    (s'.tcb.state = s.tcb.state ∨ Edge s.tcb.state s'.tcb.state)) ∨
  (s'.streamReceiver = s.streamReceiver ∧ SilentMove s.tcb.state s'.tcb.state)

/-- The segments left in the inbox plus the silent moves left to the state. -/
def loopMeasure (s : IpStackTcpStream) : Nat := s.streamReceiver.length + s.tcb.state.budget

theorem Progress.measure_lt {s s' : IpStackTcpStream} (h : Progress s s') : loopMeasure s' < loopMeasure s := by
  unfold loopMeasure
  rcases h with ⟨seg, hr, he | he⟩ | ⟨hr, hm⟩
  · rw [hr, he]; simp
  · have := he.budget_le; rw [hr]; simp; omega
  · have := hm.budget_lt; rw [hr]; omega

theorem Progress.congr {s₁ s s' : IpStackTcpStream} (h : Progress s₁ s') (h₁ : s₁.streamReceiver = s.streamReceiver)
    (h₂ : s₁.tcb.state = s.tcb.state) : Progress s s' := by
  unfold Progress at *; rwa [h₁, h₂] at h

/-- The stream a pass that loops again leaves behind satisfies `P`. -/
def ReadStep.Loops (P : IpStackTcpStream → Prop) : ReadStep → Prop
  | .next s => P s
  | _ => True

theorem ReadStep.Loops.mono {P Q : IpStackTcpStream → Prop} {r : ReadStep} (h : r.Loops P)
    (hPQ : ∀ s, P s → Q s) : r.Loops Q := by
  cases r
  · exact hPQ _ h
  all_goals trivial

namespace IpStackTcpStream

variable (s : IpStackTcpStream)

@[simp] theorem pollFlush_streamReceiver : s.pollFlush.1.streamReceiver = s.streamReceiver := by
  obtain ⟨-, r, o, h, -⟩ := s.pollFlush_spec; rw [h]

@[simp] theorem flushPending_streamReceiver : s.flushPending.1.streamReceiver = s.streamReceiver := by
  obtain ⟨-, r, o, h, -⟩ := s.flushPending_spec; rw [h]

theorem onEstablished_inbox {h : TcpHeader} {pl : List UInt8} :
    (s.onEstablished h pl).Holds (·.streamReceiver = s.streamReceiver) := by
  simp only [onEstablished]
  split_ifs
  · split
    all_goals first | rfl | exact queue_holds _ rfl | exact flushThenLoop_holds _ (by simp)
  all_goals first | rfl | exact queue_holds _ rfl

/-- Handling a segment leaves the rest of the inbox alone. -/
theorem onSegment_inbox (seg : TcpSegment) : (s.onSegment seg).Holds (·.streamReceiver = s.streamReceiver) := by
  simp only [onSegment]
  split
  · rfl
  split
  · rfl
  split
  · split_ifs <;> rfl
  · exact s.onEstablished_inbox
  all_goals first | rfl | split_ifs <;> first | rfl | exact queue_holds _ rfl

theorem deliver_returns {cap : Nat} {b : List UInt8} {P : IpStackTcpStream → Prop} : (s.deliver cap b).Loops P := by
  unfold deliver; split_ifs
  · trivial
  · trivial
  simp only [createRevPacket_eq]; split <;> trivial

theorem afterDelivery_progress : s.afterDelivery.Loops (Progress s) := by
  unfold afterDelivery
  split_ifs with h₁ h₂
  · rw [queue_eq]; exact .inr ⟨rfl, .inr (.inr ⟨h₁, rfl⟩)⟩
  · rw [queue_eq]; exact .inr ⟨rfl, .inr (.inl ⟨h₂.2.1, rfl⟩)⟩
  split
  · trivial
  · rename_i seg rest heq
    have hl := onSegment_law { s with streamReceiver := rest } seg
    have hi := onSegment_inbox { s with streamReceiver := rest } seg
    generalize onSegment { s with streamReceiver := rest } seg = r at hl hi
    cases r with
    | next s' => exact .inl ⟨seg, by rw [heq, hi], hl.elim (fun h => .inl h.1) (fun h => .inr h.1)⟩
    | _ => trivial

theorem afterSend_progress (rbs cap : Nat) : (afterSend rbs false cap s).Loops (Progress s) := by
  simp only [afterSend, Bool.false_eq_true, if_false]
  split_ifs with hc hf hl
  · trivial
  · trivial
  · rw [queue_eq]; exact .inr ⟨rfl, .inl ⟨by simpa using hl, rfl⟩⟩
  split
  · exact deliver_returns _
  · exact (afterDelivery_progress _).mono fun s' h => h.congr rfl (by simp)

/-- One pass of `poll_read` with the idle timer quiet that loops again makes progress. -/
theorem readIter_progress (rbs cap : Nat) : (readIter rbs false cap s).Loops (Progress s) := by
  unfold readIter
  split
  · trivial
  · trivial
  rename_i s₁ o _ _ heq
  have h₁ := congrArg Prod.fst heq
  simp only at h₁
  split
  · trivial
  · rename_i s₂ hq
    obtain ⟨ht, -, hr⟩ := sendQueued_control hq
    exact (afterSend_progress s₂ rbs cap).mono fun s' h =>
      h.congr (by rw [hr, ← h₁, flushPending_streamReceiver]) (by rw [ht, ← h₁, flushPending_state])

end IpStackTcpStream

/-- The `loop` of `poll_read` with the idle timer quiet, run for at most `fuel` passes: what
the last pass returned, or `next` with the stream when the fuel ran out first. -/
def readLoop (rbs cap : Nat) : Nat → IpStackTcpStream → ReadStep
  | 0, s => .next s
  | fuel + 1, s =>
    match readIter rbs false cap s with
    | .next s' => readLoop rbs cap fuel s'
    | r => r

/-- Fuel beyond the measure is never used up. -/
theorem readLoop_returns (rbs cap : Nat) :
    ∀ fuel s, loopMeasure s < fuel → ∀ s', readLoop rbs cap fuel s ≠ .next s'
  | 0, _, h => absurd h (Nat.not_lt_zero _)
  | fuel + 1, s, h => by
    have hp := s.readIter_progress rbs cap
    simp only [readLoop]
    split
    · rename_i s' heq
      rw [heq] at hp
      exact readLoop_returns rbs cap fuel s' (by have := hp.measure_lt; omega)
    · rename_i r hr; exact fun s' h => hr s' h

/-- One call of `poll_read` with the idle timer quiet returns within `n + 3` passes on an inbox
of `n` segments; every pass that loops again takes a segment without moving the state back, or
leaves the inbox as it is and makes a silent move. -/
theorem read_returns_within (rbs cap : Nat) (s : IpStackTcpStream) :
    (∀ s', readLoop rbs cap (s.streamReceiver.length + 3) s ≠ .next s') ∧
    ∀ s₁ s₂, readIter rbs false cap s₁ = .next s₂ →
      (∃ seg, s₁.streamReceiver = seg :: s₂.streamReceiver ∧ s₁.tcb.state.rank ≤ s₂.tcb.state.rank) ∨
      (s₂.streamReceiver = s₁.streamReceiver ∧ SilentMove s₁.tcb.state s₂.tcb.state) := by
  refine ⟨readLoop_returns rbs cap _ s (by have := s.tcb.state.budget_le_two; unfold loopMeasure; omega),
    fun s₁ s₂ h => ?_⟩
  have hp := s₁.readIter_progress rbs cap
  rw [h] at hp
  rcases hp with ⟨seg, hr, he | he⟩ | hm
  · exact .inl ⟨seg, hr, he ▸ le_refl _⟩
  · exact .inl ⟨seg, hr, he.rank_lt.le⟩
  · exact .inr hm

end IpStack
