import IpStack.Pass

/-!
The connection state machine. Every change of `TcpState` a step makes is one of the edges
below, and each edge raises the state's rank, so no state is entered twice and `Closed` is
never left. A pass closes the flow only on a RST, on the idle timer, or from `FinWait2(false)`,
and it makes `shutdown` ready in the same pass, so `Shutdown::Ready` and `Closed` coincide in
every reachable world. `FinWait1(false)` is only entered under a pending shutdown, which only
`poll_shutdown` requests.
-/

namespace IpStack

namespace TcpState

/-- The changes of state the flow engine makes; any state but `Closed` may be closed. -/
inductive Edge : TcpState → TcpState → Prop
  | listen : Edge .listen .synReceived
  | synReceived : Edge .synReceived .established
  | established (b : Bool) : Edge .established (.finWait1 b)
  | finWait1 (b : Bool) : Edge (.finWait1 b) (.finWait2 true)
  | finWait2 : Edge (.finWait2 true) (.finWait2 false)
  | close {s : TcpState} : s ≠ .closed → Edge s .closed

def rank : TcpState → Nat
  | .listen => 0
  | .synReceived => 1
  | .established => 2
  | .finWait1 _ => 3
  | .finWait2 true => 4
  | .finWait2 false => 5
  | .closed => 6

theorem rank_le_closed (s : TcpState) : s.rank ≤ rank .closed := by
  rcases s with _ | _ | _ | _ | ⟨_ | _⟩ | _ <;> simp [rank]

theorem rank_lt_closed {s : TcpState} (h : s ≠ .closed) : s.rank < rank .closed := by
  cases s with
  | finWait2 b => cases b <;> simp [rank]
  | closed => exact absurd rfl h
  | _ => simp [rank]

theorem Edge.source_ne_closed {a b : TcpState} (h : Edge a b) : a ≠ .closed := by
  cases h <;> simp_all

theorem Edge.target_ne_listen {a b : TcpState} (h : Edge a b) : b ≠ .listen := by
  cases h <;> simp

theorem Edge.rank_lt {a b : TcpState} (h : Edge a b) : a.rank < b.rank := by
  cases h with
  | close h => exact rank_lt_closed h
  | _ => simp [rank]

end TcpState

open TcpState IpStackTcpStream TcpFlags

/-- Why a pass that closes the flow closed it, read off what it returns: a RST, the idle
timer, the flow leaving `FinWait2(false)`, or a flow that was already closed. -/
def CloseReason (q : TcpState) (r : Outcome Unit) : Prop :=
  r = .err .connectionReset ∨ r = .err .timedOut ∨
    (q = .finWait2 false ∧ r = .err .connectionAborted) ∨ (q = .closed ∧ r = .ok ())

/-- What a pass that starts in state `q` with shutdown `sh` may do. Looping again, it keeps
both or follows an edge that does not close, into `FinWait1(false)` only under a pending
shutdown. Returning, it keeps both (and returns `Ok` only when no shutdown was asked for:
that is the delivery), or closes the flow, makes `shutdown` ready and returns no bytes. -/
def PassLaw (q : TcpState) (sh : Shutdown) : ReadStep → Prop
  | .next s' => (s'.tcb.state = q ∧ s'.shutdown = sh) ∨
      (Edge q s'.tcb.state ∧ s'.tcb.state ≠ .closed ∧ s'.shutdown = sh ∧
        (s'.tcb.state = .finWait1 false → sh = .pending))
  | .done s' b r => (s'.tcb.state = q ∧ s'.shutdown = sh ∧ (r = .ok () → sh = .none)) ∨
      (s'.tcb.state = .closed ∧ s'.shutdown = .ready ∧ b = [] ∧ CloseReason q r)
  | .panic _ => True

namespace PassLaw

variable {q : TcpState} {sh : Shutdown} {s' : IpStackTcpStream}

theorem next_keep (h₁ : s'.tcb.state = q) (h₂ : s'.shutdown = sh) : PassLaw q sh (.next s') :=
  .inl ⟨h₁, h₂⟩

theorem next_edge (e : Edge q s'.tcb.state) (hc : s'.tcb.state ≠ .closed) (h₂ : s'.shutdown = sh)
    (hf : s'.tcb.state = .finWait1 false → sh = .pending) : PassLaw q sh (.next s') :=
  .inr ⟨e, hc, h₂, hf⟩

theorem done_keep {b : List UInt8} {r : Outcome Unit} (h₁ : s'.tcb.state = q)
    (h₂ : s'.shutdown = sh) (h₃ : r = .ok () → sh = .none) : PassLaw q sh (.done s' b r) :=
  .inl ⟨h₁, h₂, h₃⟩

theorem close {r : Outcome Unit} (h₁ : s'.tcb.state = .closed) (h₂ : s'.shutdown = .ready)
    (hr : CloseReason q r) : PassLaw q sh (.done s' [] r) :=
  .inr ⟨h₁, h₂, rfl, hr⟩

/-- A pass that starts after a prefix keeping the state and `shutdown` obeys the same law. -/
theorem congr {q' : TcpState} {sh' : Shutdown} {r : ReadStep} (h : PassLaw q' sh' r)
    (h₁ : q' = q) (h₂ : sh' = sh) : PassLaw q sh r :=
  h₁ ▸ h₂ ▸ h

end PassLaw

namespace IpStackTcpStream

variable (s : IpStackTcpStream)

theorem queue_law {flags : UInt8} {t : Tcb} (h : t.state = s.tcb.state) :
    PassLaw s.tcb.state s.shutdown (s.queue flags t) := by
  rw [queue_eq]; exact .next_keep h rfl

theorem flushThenLoop_law : PassLaw s.tcb.state s.shutdown s.flushThenLoop := by
  unfold flushThenLoop
  split
  · trivial
  all_goals rename_i heq; have := congrArg Prod.fst heq; simp only at this
  · exact .done_keep (this ▸ s.pollFlush_state) (this ▸ s.pollFlush_shutdown) (by simp)
  · exact .next_keep (this ▸ s.pollFlush_state) (this ▸ s.pollFlush_shutdown)

/-- In `Established` only a FIN moves the state, to `FinWait1(true)`. -/
theorem onEstablished_law {h : TcpHeader} {pl : List UInt8} (hs : s.tcb.state = .established) :
    PassLaw s.tcb.state s.shutdown (s.onEstablished h pl) := by
  simp only [onEstablished]
  split_ifs
  · split
    · exact .next_keep (by simp) rfl
    · exact .next_keep rfl rfl
    · exact (queue_law _ rfl).congr (by simp) rfl
    · exact flushThenLoop_law _
    all_goals exact .next_keep (by simp) rfl
  · rw [queue_eq]
    exact .next_edge (by simpa [hs] using Edge.established true) (by simp) rfl (by simp)
  all_goals exact .next_keep (by simp) rfl

theorem onSegment_law (seg : TcpSegment) : PassLaw s.tcb.state s.shutdown (s.onSegment seg) := by
  simp only [onSegment]
  split
  · exact .close rfl rfl (.inl rfl)
  split
  · exact .next_keep rfl rfl
  split <;> rename_i hs
  · split
    · exact .next_edge (by simpa [hs] using Edge.synReceived) (by simp) rfl (by simp)
    · exact .next_keep rfl rfl
  · exact s.onEstablished_law hs
  · split
    · exact .next_edge (by simpa [hs] using Edge.finWait1 false) (by simp) rfl (by simp)
    split
    · rw [queue_eq]
      exact .next_edge (by simpa [hs] using Edge.finWait1 false) (by simp) rfl (by simp)
    · exact .next_keep rfl rfl
  · split
    · exact .next_edge (by simpa [hs] using Edge.finWait2) (by simp) rfl (by simp)
    split
    · rw [queue_eq]; exact .next_edge (by simpa [hs] using Edge.finWait2) (by simp) rfl (by simp)
    · exact .next_keep rfl rfl
  · exact .next_keep rfl rfl

theorem deliver_law {cap : Nat} {b : List UInt8} (hsd : s.shutdown = .none) :
    PassLaw s.tcb.state s.shutdown (s.deliver cap b) := by
  unfold deliver
  split_ifs
  · exact .done_keep rfl rfl (by simp)
  · trivial
  simp only [createRevPacket_eq]
  split
  · exact .done_keep (by simp) rfl (by simp)
  · rename_i hs; obtain ⟨rfl, -⟩ := send_eq_ok hs
    exact .done_keep (by simp) rfl (fun _ => hsd)

theorem afterDelivery_law : PassLaw s.tcb.state s.shutdown s.afterDelivery := by
  unfold afterDelivery
  split_ifs with h₁ h₂
  · rw [queue_eq]
    exact .next_edge (by simpa [h₁] using Edge.finWait1 true) (by simp) rfl (by simp)
  · rw [queue_eq]
    exact .next_edge (by simpa [h₂.2.1] using Edge.established false) (by simp) rfl
      (fun _ => h₂.1)
  split
  · exact .done_keep rfl rfl (by simp)
  · exact onSegment_law _ _

theorem afterSend_law (rbs : Nat) (fire : Bool) (cap : Nat) :
    PassLaw s.tcb.state s.shutdown (afterSend rbs fire cap s) := by
  simp only [afterSend]
  split_ifs with hc hf hfire hl
  · exact .close hc rfl (.inr (.inr (.inr ⟨hc, rfl⟩)))
  · exact .close rfl rfl (.inr (.inr (.inl ⟨hf, rfl⟩)))
  · simp only [createRevPacket_eq]
    split
    · exact .done_keep (by simp) rfl (by simp)
    · rename_i hs; obtain ⟨rfl, -⟩ := send_eq_ok hs
      exact .close rfl rfl (.inr (.inl rfl))
  · simp only [withTcb, Tcb.changeRecvWindow] at hl
    rw [queue_eq]; exact .next_edge (by simpa [hl] using Edge.listen) (by simp) rfl (by simp)
  split
  · exact (deliver_law _ ‹_›).congr (by simp) rfl
  · exact (afterDelivery_law _).congr (by simp) rfl

/-- One pass of `poll_read` obeys the law. -/
theorem readIter_law (rbs : Nat) (fire : Bool) (cap : Nat) :
    PassLaw s.tcb.state s.shutdown (readIter rbs fire cap s) := by
  unfold readIter
  split
  · trivial
  all_goals rename_i heq; obtain ⟨h₁, h₂⟩ := flushPending_keeps heq
  · exact .done_keep h₁ h₂ (by simp)
  · split
    · exact .done_keep h₁ h₂ (by simp)
    · rename_i s₂ hq; obtain ⟨ht, hsh, -⟩ := sendQueued_control hq
      have := afterSend_law s₂ rbs fire cap
      rwa [ht, hsh, h₁, h₂] at this

end IpStackTcpStream

section Steps

variable {rbs : Nat} {w w' : World} {e : Event}

/-- A step changes the state only along an edge, and closes the flow only from
`FinWait2(false)` or with a return that reports a RST or the idle timer. -/
theorem Step.state_law (h : Step rbs w e w') :
    (w'.stream.tcb.state = w.stream.tcb.state ∨ Edge w.stream.tcb.state w'.stream.tcb.state) ∧
    (w.stream.tcb.state ≠ .closed → w'.stream.tcb.state = .closed →
      w.stream.tcb.state = .finWait2 false ∨
        ∃ sd, e = returned sd [] (.err .connectionReset) ∨ e = returned sd [] (.err .timedOut)) := by
  cases h with
  | pass fire _ hs =>
    rcases hs ▸ w.stream.readIter_law rbs fire _ with ⟨h₁, -⟩ | ⟨e, hc, -⟩
    · exact ⟨.inl h₁, fun hq hc => absurd (h₁ ▸ hc) hq⟩
    · exact ⟨.inr e, fun _ h => absurd h hc⟩
  | @ret cap sd fire s' b r _ hs =>
    rcases hs ▸ w.stream.readIter_law rbs fire _ with ⟨h₁, -⟩ | ⟨h₁, -, rfl, hr⟩
    · exact ⟨.inl h₁, fun hq hc => absurd (h₁ ▸ hc) hq⟩
    · refine ⟨?_, fun hq _ => ?_⟩
      · by_cases hq : w.stream.tcb.state = .closed
        · exact .inl (h₁.trans hq.symm)
        · exact .inr (h₁ ▸ .close hq)
      rcases hr with rfl | rfl | ⟨hf, -⟩ | ⟨hq', -⟩
      · exact .inr ⟨sd, .inl rfl⟩
      · exact .inr ⟨sd, .inr rfl⟩
      · exact .inl hf
      · exact absurd hq' hq
  | _ => exact ⟨.inl (by simp), fun hq hc => absurd (by simpa using hc) hq⟩

/-- `shutdown` becomes `Pending` only in `poll_shutdown`'s prologue. -/
theorem Step.pending_origin (h : Step rbs w e w') (hp : w'.stream.shutdown = .pending) :
    w.stream.shutdown = .pending ∨ e = .shutdownCalled := by
  cases h with
  | pass fire _ hs =>
    rcases hs ▸ w.stream.readIter_law rbs fire _ with ⟨-, h₂⟩ | ⟨-, -, h₂, -⟩ <;> exact .inl (h₂ ▸ hp)
  | ret fire _ hs =>
    rcases hs ▸ w.stream.readIter_law rbs fire _ with ⟨-, h₂, -⟩ | ⟨-, h₂, -⟩
    · exact .inl (h₂ ▸ hp)
    · simp_all
  | callShutdown => exact .inr rfl
  | _ => simp_all

/-- The shutdown invariant: `Ready` exactly in `Closed`, `FinWait1(false)` only under a pending
shutdown, and a `poll_shutdown` in progress has requested one. -/
structure ShutdownInv (w : World) : Prop where
  ready_iff : w.stream.shutdown = .ready ↔ w.stream.tcb.state = .closed
  finWait1 : w.stream.tcb.state = .finWait1 false → w.stream.shutdown = .pending
  calling : ∀ cap, w.mode = .reading cap true → w.stream.shutdown ≠ .none

theorem ShutdownInv.initial {w : World} (h : Initial w) : ShutdownInv w := by
  obtain ⟨addrs, peerSeq, mtu, iss, rfl⟩ := h
  exact ⟨by simp [World.init, IpStackTcpStream.listen, Tcb.new],
    by simp [World.init, IpStackTcpStream.listen, Tcb.new],
    by simp [World.init]⟩

/-- A pass keeps the shutdown invariant. -/
theorem ShutdownInv.pass {w : World} {r : ReadStep} {s' : IpStackTcpStream} (hi : ShutdownInv w)
    (hl : PassLaw w.stream.tcb.state w.stream.shutdown r) (hr : r.stream? = some s') :
    (s'.shutdown = .ready ↔ s'.tcb.state = .closed) ∧
    (s'.tcb.state = .finWait1 false → s'.shutdown = .pending) ∧ (w.stream.shutdown ≠ .none → s'.shutdown ≠ .none) := by
  rcases r with s₁ | ⟨s₁, b, o⟩ | site <;> simp only [ReadStep.stream?, Option.some.injEq, reduceCtorEq] at hr <;> subst hr
  · rcases hl with ⟨h₁, h₂⟩ | ⟨e, hc, h₂, hf⟩
    · rw [h₁, h₂]; exact ⟨hi.ready_iff, hi.finWait1, id⟩
    · have hq := e.source_ne_closed
      refine ⟨?_, fun h => h₂ ▸ hf h, fun h => h₂ ▸ h⟩
      rw [h₂]; exact ⟨fun h => absurd (hi.ready_iff.mp h) hq, fun h => absurd h hc⟩
  · rcases hl with ⟨h₁, h₂, -⟩ | ⟨h₁, h₂, -⟩
    · rw [h₁, h₂]; exact ⟨hi.ready_iff, hi.finWait1, id⟩
    · simp [h₁, h₂]

theorem ShutdownInv.step (hi : ShutdownInv w) (h : Step rbs w e w') : ShutdownInv w' := by
  cases h with
  | @pass cap sd fire s' hm hs =>
    have hl := w.stream.readIter_law rbs fire cap; rw [hs] at hl
    obtain ⟨h₁, h₂, h₃⟩ := hi.pass hl rfl
    exact ⟨h₁, h₂, fun c hc => h₃ (hi.calling c hc)⟩
  | @ret cap sd fire s' b r hm hs =>
    have hl := w.stream.readIter_law rbs fire cap; rw [hs] at hl
    obtain ⟨h₁, h₂, -⟩ := hi.pass hl rfl
    exact ⟨h₁, h₂, by simp⟩
  | callShutdown hm hs =>
    have hc : w.stream.tcb.state ≠ .closed := fun h => hs (hi.ready_iff.mpr h)
    refine ⟨⟨fun h => ?_, fun h => absurd h hc⟩, fun hf => ?_, fun _ _ => World.markShutdown_ne_none _⟩
    · simp only [World.markShutdown] at h; split at h <;> simp_all
    · simp only [World.markShutdown]; split
      · rfl
      · exact hi.finWait1 hf
  | _ => exact ⟨by simpa using hi.ready_iff, by simpa using hi.finWait1, by simp_all [hi.calling]⟩

theorem Reachable.shutdownInv (h : Reachable rbs w) : ShutdownInv w :=
  Reachable.induction ShutdownInv (fun _ => ShutdownInv.initial) (fun _ _ _ _ hi h => hi.step h) w h

/-- `poll_shutdown` returns `Ok` only on a closed flow. -/
theorem Step.shutdown_ok_closed (hi : ShutdownInv w) (h : Step rbs w e w')
    (he : e = .shutdownReturned (.ok ())) : w'.stream.tcb.state = .closed := by
  cases h with
  | shutdownReady _ hs => exact hi.ready_iff.mp hs
  | @ret cap sd fire s' b r hm hs =>
    obtain ⟨rfl, rfl⟩ := returned_eq_shutdownReturned.mp he
    rcases hs ▸ w.stream.readIter_law rbs fire cap with ⟨-, -, h₃⟩ | ⟨h₁, -⟩
    · exact absurd (h₃ rfl) (hi.calling cap hm)
    · exact h₁
  | crash _ _ _ => simp at he
  | _ => simp_all

end Steps

namespace Run

variable {rbs : Nat}

/-- Along a run the state is kept or its rank has grown. -/
theorem state_rank {w w' : World} {es : List Event} (h : Run rbs w es w') :
    w'.stream.tcb.state = w.stream.tcb.state ∨ w.stream.tcb.state.rank < w'.stream.tcb.state.rank := by
  induction h with
  | refl => exact .inl rfl
  | tail _ hs ih =>
    rcases hs.state_law.1 with h | h
    · rw [h]; exact ih
    · have := h.rank_lt
      rcases ih with ih | ih
      · exact .inr (by rw [← ih]; exact this)
      · exact .inr (by omega)

/-- `shutdown` is `Pending` only after `poll_shutdown` was called. -/
theorem pending_called {w₀ w : World} {es : List Event} (h₀ : Initial w₀) (h : Run rbs w₀ es w)
    (hp : w.stream.shutdown = .pending) : .shutdownCalled ∈ es := by
  induction h with
  | refl => obtain ⟨_, _, _, _, rfl⟩ := h₀; simp [World.init, IpStackTcpStream.listen] at hp
  | tail _ hs ih =>
    rcases hs.pending_origin hp with h | rfl
    · exact List.mem_append_left _ (ih h)
    · simp

end Run

/-- The state machine of a flow. Every step changes the state along an edge, closing only
from `FinWait2(false)` or on a RST or the idle timer; so no state is entered twice and `Closed`
is absorbing. `FinWait1(false)` is entered only after `poll_shutdown` was called; in every
reachable world `Shutdown::Ready` holds exactly in `Closed`, and `poll_shutdown` returns `Ok`
only on a closed flow. -/
theorem tcpState_transitions (rbs : Nat) :
    (∀ w e w', Step rbs w e w' →
      (w'.stream.tcb.state = w.stream.tcb.state ∨ Edge w.stream.tcb.state w'.stream.tcb.state) ∧
      (w.stream.tcb.state ≠ .closed → w'.stream.tcb.state = .closed →
        w.stream.tcb.state = .finWait2 false ∨
          ∃ sd, e = returned sd [] (.err .connectionReset) ∨ e = returned sd [] (.err .timedOut))) ∧
    (∀ w₁ es₁ w₂ es₂ w₃, Run rbs w₁ es₁ w₂ → Run rbs w₂ es₂ w₃ →
      w₃.stream.tcb.state = w₁.stream.tcb.state → w₂.stream.tcb.state = w₁.stream.tcb.state) ∧
    (∀ w es w', Run rbs w es w' → w.stream.tcb.state = .closed → w'.stream.tcb.state = .closed) ∧
    (∀ w₀ es w, Initial w₀ → Run rbs w₀ es w →
      w.stream.tcb.state = .finWait1 false → .shutdownCalled ∈ es) ∧
    (∀ w, Reachable rbs w → (w.stream.shutdown = .ready ↔ w.stream.tcb.state = .closed)) ∧
    (∀ w w', Reachable rbs w → Step rbs w (.shutdownReturned (.ok ())) w' →
      w'.stream.tcb.state = .closed) := by
  refine ⟨fun _ _ _ h => h.state_law, fun w₁ es₁ w₂ es₂ w₃ h₁ h₂ he => ?_, fun w es w' h hc => ?_,
    fun w₀ es w h₀ h hf => ?_, fun w h => h.shutdownInv.ready_iff,
    fun w w' hw h => h.shutdown_ok_closed hw.shutdownInv rfl⟩
  · rcases h₁.state_rank with h | h
    · exact h
    · rcases h₂.state_rank with h' | h' <;> rw [he] at h'
      · rw [h'] at h; omega
      · omega
  · rcases h.state_rank with h | h
    · rw [h, hc]
    · have := TcpState.rank_le_closed w'.stream.tcb.state; rw [hc] at h; omega
  · exact Run.pending_called h₀ h ((Reachable.shutdownInv ⟨w₀, es, h₀, h⟩).finWait1 hf)

end IpStack
