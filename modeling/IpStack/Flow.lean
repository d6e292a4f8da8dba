import IpStack.Poll

/-!
A flow as a labelled transition system. A world is the stream, the call the consumer is in,
and two byte histories: what `poll_read` has put in the consumer's buffers and what
`poll_write` has accepted. A step is an event of the environment (a
segment reaches the inbox, the demultiplexer drops the outbox), the start of a call, one pass
of the `poll_read` loop, or a whole `poll_write` or `poll_flush`. `poll_shutdown` is its
prologue followed by the passes of the `poll_read` it calls with a one-byte buffer.
A panic ends the run. A peer that sends a byte stream `B` from its initial sequence number
sends the segments `PeerSegment` describes.
-/

namespace IpStack

open IpStackTcpStream

inductive Mode
  | idle
  | reading (cap : Nat) (fromShutdown : Bool)
  | crashed
deriving DecidableEq, Repr

structure World where
  stream : IpStackTcpStream
  mode : Mode
  delivered : List UInt8
  written : List UInt8
deriving DecidableEq, Repr

inductive Event
  | segmentArrived (seg : TcpSegment)
  | outboxClosed
  | readCalled (cap : Nat)
  | shutdownCalled
  | passed
  | readReturned (filled : List UInt8) (r : Outcome Unit)
  | shutdownReturned (r : Outcome Unit)
  | writeReturned (buf : List UInt8) (r : Outcome Nat)
  | flushReturned (r : Outcome Unit)
deriving DecidableEq, Repr

/-- The bytes a `poll_write` result accepts from `buf`. -/
def accepted (buf : List UInt8) : Outcome Nat → List UInt8
  | .ok n => buf.take n
  | _ => []

/-- The mode after a call that returned `r`. -/
def modeAfter {α : Type} : Outcome α → Mode
  | .panic _ => .crashed
  | _ => .idle

@[simp] theorem modeAfter_ne_reading {α : Type} (r : Outcome α) (cap : Nat) (sd : Bool) :
    modeAfter r ≠ .reading cap sd := by
  cases r <;> simp [modeAfter]

namespace World

def init (s : IpStackTcpStream) : World := ⟨s, .idle, [], []⟩

def afterWrite (w : World) (buf : List UInt8) : World :=
  let r := w.stream.pollWrite buf
  { w with stream := r.1, mode := modeAfter r.2, written := w.written ++ accepted buf r.2 }

def afterFlush (w : World) : World :=
  let r := w.stream.pollFlush
  { w with stream := r.1, mode := modeAfter r.2 }

/-- The shutdown prologue: `Shutdown::None` becomes `Pending`, `Pending` stays. -/
def markShutdown (s : IpStackTcpStream) : IpStackTcpStream :=
  { s with shutdown := if s.shutdown = .none then .pending else s.shutdown }

@[simp] theorem afterWrite_stream (w : World) (buf : List UInt8) :
    (w.afterWrite buf).stream = (w.stream.pollWrite buf).1 := rfl

@[simp] theorem afterFlush_stream (w : World) : w.afterFlush.stream = w.stream.pollFlush.1 := rfl

@[simp] theorem afterWrite_mode (w : World) (buf : List UInt8) :
    (w.afterWrite buf).mode = modeAfter (w.stream.pollWrite buf).2 := rfl

@[simp] theorem afterFlush_mode (w : World) : w.afterFlush.mode = modeAfter w.stream.pollFlush.2 := rfl

@[simp] theorem markShutdown_tcb (s : IpStackTcpStream) : (markShutdown s).tcb = s.tcb := rfl

theorem markShutdown_ne_none (s : IpStackTcpStream) : (markShutdown s).shutdown ≠ .none := by
  unfold markShutdown; split <;> simp_all

end World

/-- The result a call made in `mode` reports for a pass that returned `r` with `filled`. -/
def returned (fromShutdown : Bool) (filled : List UInt8) (r : Outcome Unit) : Event :=
  if fromShutdown then .shutdownReturned r else .readReturned filled r

@[simp] theorem returned_eq_shutdownReturned {sd : Bool} {b : List UInt8} {r r' : Outcome Unit} :
    returned sd b r = .shutdownReturned r' ↔ sd = true ∧ r = r' := by
  cases sd <;> simp [returned]

@[simp] theorem returned_eq_readReturned {sd : Bool} {b b' : List UInt8} {r r' : Outcome Unit} :
    returned sd b r = .readReturned b' r' ↔ sd = false ∧ b = b' ∧ r = r' := by
  cases sd <;> simp [returned]

@[simp] theorem returned_ne_shutdownCalled {sd : Bool} {b : List UInt8} {r : Outcome Unit} :
    returned sd b r ≠ .shutdownCalled := by
  cases sd <;> simp [returned]

inductive Step (rbs : Nat) : World → Event → World → Prop
  | arrive {w : World} (seg : TcpSegment) (h : w.mode ≠ .crashed) :
      Step rbs w (.segmentArrived seg)
        { w with stream := { w.stream with streamReceiver := w.stream.streamReceiver ++ [seg] } }
  | closeOutbox {w : World} (h : w.mode ≠ .crashed) :
      Step rbs w .outboxClosed
        { w with stream := { w.stream with upPacketSender := { w.stream.upPacketSender with closed := true } } }
  | callRead {w : World} (cap : Nat) (h : w.mode = .idle) :
      Step rbs w (.readCalled cap) { w with mode := .reading cap false }
  | callShutdown {w : World} (h : w.mode = .idle) (hs : w.stream.shutdown ≠ .ready) :
      Step rbs w .shutdownCalled { w with mode := .reading 1 true, stream := World.markShutdown w.stream }
  | shutdownReady {w : World} (h : w.mode = .idle) (hs : w.stream.shutdown = .ready) :
      Step rbs w (.shutdownReturned (.ok ())) w
  | pass {w : World} {cap : Nat} {sd : Bool} (fire : Bool) {s' : IpStackTcpStream}
      (h : w.mode = .reading cap sd) (hs : readIter rbs fire cap w.stream = .next s') :
      Step rbs w .passed { w with stream := s' }
  | ret {w : World} {cap : Nat} {sd : Bool} (fire : Bool) {s' : IpStackTcpStream}
      {b : List UInt8} {r : Outcome Unit}
      (h : w.mode = .reading cap sd) (hs : readIter rbs fire cap w.stream = .done s' b r) :
      Step rbs w (returned sd b r) { w with stream := s', mode := .idle, delivered := w.delivered ++ b }
  | crash {w : World} {cap : Nat} {sd : Bool} (fire : Bool) {site : PanicSite}
      (h : w.mode = .reading cap sd) (hs : readIter rbs fire cap w.stream = .panic site) :
      Step rbs w (returned sd [] (.panic site)) { w with mode := .crashed }
  | write {w : World} (buf : List UInt8) (h : w.mode = .idle) :
      Step rbs w (.writeReturned buf (w.stream.pollWrite buf).2) (w.afterWrite buf)
  | flush {w : World} (h : w.mode = .idle) :
      Step rbs w (.flushReturned w.stream.pollFlush.2) w.afterFlush

/-- The only step that reports a write's result is the `poll_write` itself. -/
theorem Step.writeReturned {rbs : Nat} {w w' : World} {buf : List UInt8} {r : Outcome Nat}
    (h : Step rbs w (.writeReturned buf r) w') :
    w.mode = .idle ∧ (w.stream.pollWrite buf).2 = r ∧ w' = w.afterWrite buf := by
  generalize he : Event.writeReturned buf r = e at h
  cases h with
  | @ret _ sd => cases sd <;> simp [returned] at he
  | @crash _ sd => cases sd <;> simp [returned] at he
  | write b hm => simp only [Event.writeReturned.injEq] at he; obtain ⟨rfl, rfl⟩ := he; exact ⟨hm, rfl, rfl⟩
  | _ => simp at he

inductive Run (rbs : Nat) : World → List Event → World → Prop
  | refl (w : World) : Run rbs w [] w
  | tail {w w' w'' : World} {es : List Event} {e : Event} :
      Run rbs w es w' → Step rbs w' e w'' → Run rbs w (es ++ [e]) w''

/-- What the environment or the consumer does next; `pass fire` runs one pass of the current
`poll_read`. -/
inductive Input
  | arrive (seg : TcpSegment)
  | closeOutbox
  | read (cap : Nat)
  | shutdown
  | pass (fire : Bool)
  | write (buf : List UInt8)
  | flush
deriving DecidableEq, Repr

namespace World

/-- The step an input causes, computed; `none` when the input is not possible in `w`. -/
def exec (rbs : Nat) (w : World) : Input → Option (Event × World)
  | .arrive seg => if w.mode = .crashed then none else
      some (.segmentArrived seg, { w with stream := { w.stream with streamReceiver := w.stream.streamReceiver ++ [seg] } })
  | .closeOutbox => if w.mode = .crashed then none else
      some (.outboxClosed, { w with stream := { w.stream with upPacketSender := { w.stream.upPacketSender with closed := true } } })
  | .read cap => if w.mode = .idle then some (.readCalled cap, { w with mode := .reading cap false }) else none
  | .shutdown => if w.mode ≠ .idle then none
      else if w.stream.shutdown = .ready then some (.shutdownReturned (.ok ()), w)
      else some (.shutdownCalled, { w with mode := .reading 1 true, stream := markShutdown w.stream })
  | .pass fire => match w.mode with
    | .reading cap sd => match readIter rbs fire cap w.stream with
      | .next s' => some (.passed, { w with stream := s' })
      | .done s' b r => some (returned sd b r, { w with stream := s', mode := .idle, delivered := w.delivered ++ b })
      | .panic site => some (returned sd [] (.panic site), { w with mode := .crashed })
    | _ => none
  | .write buf => if w.mode = .idle then some (.writeReturned buf (w.stream.pollWrite buf).2, w.afterWrite buf) else none
  | .flush => if w.mode = .idle then some (.flushReturned w.stream.pollFlush.2, w.afterFlush) else none

/-- Runs the inputs in order, collecting the events. -/
def execAll (rbs : Nat) : World → List Input → Option (List Event × World)
  | w, [] => some ([], w)
  | w, i :: is => match w.exec rbs i with
    | none => none
    | some (e, w') => (execAll rbs w' is).map fun r => (e :: r.1, r.2)

end World

/-- `b` is the part of the byte stream `W` that starts at offset `o`. -/
def Slice (W : List UInt8) (o : Nat) (b : List UInt8) : Prop :=
  o + b.length ≤ W.length ∧ (W.drop o).take b.length = b

instance (W : List UInt8) (o : Nat) (b : List UInt8) : Decidable (Slice W o b) :=
  inferInstanceAs (Decidable (_ ∧ _))

/-- A segment a peer sending the stream `B` from initial sequence number `isn` may send, split,
reordered or repeated at will: ACK with or without PSH and FIN, the bytes of `B` at its offset,
and a FIN only just past the last byte of `B`. -/
def PeerSegment (isn : SeqNum) (B : List UInt8) (seg : TcpSegment) : Prop :=
  seg.header.ack = true ∧ seg.header.syn = false ∧ seg.header.rst = false ∧ seg.header.urg = false ∧
    seg.header.ece = false ∧ seg.header.cwr = false ∧
    Slice B ((isn.addNat 1).dist ⟨seg.header.sequenceNumber⟩) seg.payload ∧
    (seg.header.fin = true → (isn.addNat 1).dist ⟨seg.header.sequenceNumber⟩ + seg.payload.length = B.length)

instance (isn : SeqNum) (B : List UInt8) (seg : TcpSegment) : Decidable (PeerSegment isn B seg) :=
  inferInstanceAs (Decidable (_ ∧ _))

/-- The segment an event puts in the inbox. -/
def Event.arrival : Event → Option TcpSegment
  | .segmentArrived seg => some seg
  | _ => none

/-- A world right after the demultiplexer accepted a flow from its SYN. -/
def Initial (w : World) : Prop :=
  ∃ addrs peerSeq mtu iss, w = World.init (listen addrs peerSeq mtu iss)

def Reachable (rbs : Nat) (w : World) : Prop :=
  ∃ w₀ es, Initial w₀ ∧ Run rbs w₀ es w

namespace Run

variable {rbs : Nat}

theorem single {w w' : World} {e : Event} (h : Step rbs w e w') : Run rbs w [e] w' := by
  simpa using tail (refl w) h

theorem trans {w₁ w₂ w₃ : World} {es es' : List Event} (h₁ : Run rbs w₁ es w₂)
    (h₂ : Run rbs w₂ es' w₃) : Run rbs w₁ (es ++ es') w₃ := by
  induction h₂ with
  | refl => simpa using h₁
  | tail _ hs ih => simpa [List.append_assoc] using tail ih hs

end Run

theorem Run.cons {rbs : Nat} {w w' w'' : World} {e : Event} {es : List Event}
    (h : Step rbs w e w') (hr : Run rbs w' es w'') : Run rbs w (e :: es) w'' := by
  simpa using (Run.single h).trans hr

/-- The interpreter only takes steps of the relation. -/
theorem World.exec_sound {rbs : Nat} {w w' : World} {i : Input} {e : Event}
    (h : w.exec rbs i = some (e, w')) : Step rbs w e w' := by
  cases i with
  | arrive seg => simp only [exec] at h; split at h <;> cases h; exact .arrive seg ‹_›
  | closeOutbox => simp only [exec] at h; split at h <;> cases h; exact .closeOutbox ‹_›
  | read cap => simp only [exec] at h; split at h <;> cases h; exact .callRead cap ‹_›
  | shutdown =>
    simp only [exec] at h
    split at h
    · cases h
    · split at h <;> cases h
      · exact .shutdownReady (Decidable.of_not_not ‹_›) ‹_›
      · exact .callShutdown (Decidable.of_not_not ‹_›) ‹_›
  | pass fire =>
    simp only [exec] at h
    split at h
    · split at h <;> cases h
      · exact .pass fire ‹_› ‹_›
      · exact .ret fire ‹_› ‹_›
      · exact .crash fire ‹_› ‹_›
    · cases h
  | write buf => simp only [exec] at h; split at h <;> cases h; exact .write buf ‹_›
  | flush => simp only [exec] at h; split at h <;> cases h; exact .flush ‹_›

theorem World.execAll_sound {rbs : Nat} {w w' : World} {is : List Input} {es : List Event}
    (h : w.execAll rbs is = some (es, w')) : Run rbs w es w' := by
  induction is generalizing w es with
  | nil => simp only [execAll, Option.some.injEq, Prod.mk.injEq] at h; obtain ⟨rfl, rfl⟩ := h; exact .refl w
  | cons i is ih =>
    simp only [execAll] at h
    split at h
    · simp at h
    · rename_i e w₁ he
      obtain ⟨r, hr, hes⟩ := Option.map_eq_some'.mp h
      simp only [Prod.mk.injEq] at hes; obtain ⟨rfl, rfl⟩ := hes
      exact Run.cons (exec_sound he) (ih hr)

/-- What the interpreter computes, observed through any `f`, is observed on a run. -/
theorem World.execAll_run {rbs : Nat} {w : World} {is : List Input} {α : Type} {f : List Event × World → α}
    {a : α} (h : (w.execAll rbs is).map f = some a) : ∃ es w', Run rbs w es w' ∧ f (es, w') = a := by
  obtain ⟨⟨es, w'⟩, hx, rfl⟩ := Option.map_eq_some'.mp h
  exact ⟨es, w', execAll_sound hx, rfl⟩

theorem Reachable.step {rbs : Nat} {w w' : World} {e : Event} (hw : Reachable rbs w)
    (h : Step rbs w e w') : Reachable rbs w' := by
  obtain ⟨w₀, es, h₀, hr⟩ := hw
  exact ⟨w₀, es ++ [e], h₀, hr.tail h⟩

/-- A world property that holds initially and survives every step holds in every reachable
world. -/
theorem Reachable.induction {rbs : Nat} (P : World → Prop) (h₀ : ∀ w, Initial w → P w)
    (hs : ∀ w e w', Reachable rbs w → P w → Step rbs w e w' → P w') :
    ∀ w, Reachable rbs w → P w := by
  rintro w ⟨w₀, es, hi, hr⟩
  induction hr with
  | refl => exact h₀ _ hi
  | tail hr' st ih => exact hs _ _ _ ⟨_, _, hi, hr'⟩ ih st

end IpStack
