import IpStack.Delivery
import IpStack.Outbox

/-!
End of stream as `poll_read` reports it. `Ok` with nothing read is end of stream to a tokio
reader, and `poll_read` returns it only on a closed flow: every entry of the reorder store holds
at least one byte, so a delivery is never empty. On a closed flow it returns it from its first
pass.
-/

namespace IpStack

open IpStackTcpStream TcpFlags

/-- Every entry of the reorder store holds at least one byte. -/
def StoreFilled (s : IpStackTcpStream) : Prop := ∀ e ∈ s.tcb.unorderedPackets, e.2 ≠ []

/-- A pass that returns `Ok` with nothing read leaves the flow closed. -/
def ReadStep.Reports : ReadStep → Prop
  | .done s b r => r = .ok () → b = [] → s.tcb.state = .closed
  | _ => True

/-- A pass keeps the store filled and reports end of stream only on a closed flow. -/
def ReadStep.Sound (r : ReadStep) : Prop := r.Holds StoreFilled ∧ r.Reports

namespace ReadStep

theorem Sound.next {s : IpStackTcpStream} (h : StoreFilled s) : (ReadStep.next s).Sound := ⟨h, trivial⟩

theorem Sound.err {s : IpStackTcpStream} (h : StoreFilled s) (b : List UInt8) (e : ErrorKind) :
    (ReadStep.done s b (.err e)).Sound :=
  ⟨h, by simp [ReadStep.Reports]⟩

end ReadStep

namespace Tcb

/-- A segment classified as new data carries data. -/
theorem payload_ne_nil_of_newPacket {t : Tcb} {h : TcpHeader} {p : List UInt8}
    (hc : t.checkPktType h p = .newPacket) : p ≠ [] := by
  simp only [checkPktType] at hc
  split_ifs at hc with h₁ h₂ h₃ h₄ h₅
  exact h₅.2

/-- A TCB change that keeps the reorder store keeps it filled. -/
theorem storeFilled_of_eq {t t' : Tcb} (h : ∀ e ∈ t.unorderedPackets, e.2 ≠ [])
    (he : t'.unorderedPackets = t.unorderedPackets) : ∀ e ∈ t'.unorderedPackets, e.2 ≠ [] :=
  fun e hx => h e (he ▸ hx)

theorem storeFilled_add {t : Tcb} (h : ∀ e ∈ t.unorderedPackets, e.2 ≠ []) {k : SeqNum} {b : List UInt8}
    (hb : b ≠ []) : ∀ e ∈ (t.addUnorderedPacket k b).unorderedPackets, e.2 ≠ [] := by
  simp only [addUnorderedPacket, List.mem_cons, List.mem_filter]
  rintro e (rfl | ⟨he, -⟩)
  · exact hb
  · exact h e he

/-- A drain of a store whose entries are not empty returns bytes. -/
theorem getUnorderedPackets_ne_nil {t : Tcb} (h : ∀ e ∈ t.unorderedPackets, e.2 ≠ []) {b : List UInt8}
    (hb : t.getUnorderedPackets.1 = some b) : b ≠ [] := by
  unfold getUnorderedPackets at hb
  split at hb
  · cases hb
  · rename_i p hp
    obtain rfl := Option.some.inj hb
    have hm := mem_of_lookup hp
    obtain ⟨n, hn⟩ := Nat.exists_eq_succ_of_ne_zero (List.ne_nil_of_mem hm |> List.length_pos.mpr).ne'
    rw [hn]; simp only [drainFrom, hp]
    exact List.append_ne_nil_of_left_ne_nil (h _ hm) _

end Tcb

namespace IpStackTcpStream

variable (s : IpStackTcpStream)

theorem pollFlush_storeFilled {s : IpStackTcpStream} (h : StoreFilled s) : StoreFilled s.pollFlush.1 := by
  obtain ⟨r, e⟩ := s.pollFlush_fst_tcb; intro x hx; rw [e] at hx; exact h x hx

theorem flushPending_storeFilled {s : IpStackTcpStream} (h : StoreFilled s) : StoreFilled s.flushPending.1 := by
  unfold flushPending; split
  · exact pollFlush_storeFilled h
  · exact h

theorem storeFilled_drain {s : IpStackTcpStream} (h : StoreFilled s) :
    StoreFilled (s.withTcb s.tcb.getUnorderedPackets.2) :=
  fun e he => h e ((Tcb.getUnorderedPackets_sublist _).subset he)

theorem queue_sound {flags : UInt8} {t : Tcb} (h : ∀ e ∈ t.unorderedPackets, e.2 ≠ []) :
    (s.queue flags t).Sound := by
  rw [queue_eq]; exact .next h

theorem flushThenLoop_sound (h : StoreFilled s) : s.flushThenLoop.Sound := by
  have hp := s.pollFlush_spec.1
  have hf := pollFlush_storeFilled h
  unfold flushThenLoop
  split
  · exact ⟨trivial, trivial⟩
  all_goals rename_i heq; simp only [heq] at hp hf
  · exact absurd rfl hp
  · exact .next hf

theorem onEstablished_sound {h : TcpHeader} {pl : List UInt8} (hs : StoreFilled s) :
    (s.onEstablished h pl).Sound := by
  simp only [onEstablished]
  split_ifs with h₁ h₂ h₃ h₄ h₅
  · split
    · exact .next hs
    · exact .next hs
    · exact queue_sound _ (Tcb.storeFilled_of_eq hs (by simp))
    · exact flushThenLoop_sound _ hs
    · exact .next (Tcb.storeFilled_of_eq (Tcb.storeFilled_add (k := ⟨h.sequenceNumber⟩) hs
        (Tcb.payload_ne_nil_of_newPacket ‹_›)) (by simp))
    · exact .next (Tcb.storeFilled_of_eq hs (by simp))
  · exact queue_sound _ (Tcb.storeFilled_of_eq hs (by simp))
  · exact .next hs
  · exact .next (Tcb.storeFilled_of_eq hs (by simp))
  · exact .next (Tcb.storeFilled_of_eq (Tcb.storeFilled_add (k := ⟨h.sequenceNumber⟩) hs (not_or.mp h₅).1) (by simp))
  · exact .next hs

theorem onSegment_sound (seg : TcpSegment) (hs : StoreFilled s) : (s.onSegment seg).Sound := by
  simp only [onSegment]
  split
  · exact .err (by exact hs) _ _
  split
  · exact .next hs
  split
  · split
    · exact .next (Tcb.storeFilled_of_eq hs (by simp))
    · exact .next hs
  · exact s.onEstablished_sound hs
  · split
    · exact .next (Tcb.storeFilled_of_eq hs (by simp))
    split
    · exact queue_sound _ (Tcb.storeFilled_of_eq hs (by simp))
    · exact .next hs
  · split
    · exact .next hs
    split
    · exact queue_sound _ hs
    · exact .next hs
  · exact .next hs

theorem deliver_sound {cap : Nat} {b : List UInt8} (hs : StoreFilled s) (hb : b ≠ []) :
    (s.deliver cap b).Sound := by
  unfold deliver
  split_ifs
  · exact .err hs _ _
  · exact ⟨trivial, trivial⟩
  simp only [createRevPacket_eq]
  split
  · exact .err hs _ _
  · rename_i s₂ he; obtain ⟨rfl, -⟩ := send_eq_ok he
    exact ⟨hs, fun _ h => absurd h hb⟩

theorem afterDelivery_sound (hs : StoreFilled s) : s.afterDelivery.Sound := by
  unfold afterDelivery
  split_ifs
  · exact queue_sound _ hs
  · exact queue_sound _ hs
  split
  · exact ⟨hs, by simp [ReadStep.Reports]⟩
  · exact onSegment_sound _ _ hs

theorem afterSend_sound (rbs : Nat) (fire : Bool) (cap : Nat) (hs : StoreFilled s) :
    (afterSend rbs fire cap s).Sound := by
  have h₃ : StoreFilled (s.withTcb (s.tcb.changeRecvWindow (s.tcb.getAvailableReadBufferSize rbs).toUInt16)) := hs
  simp only [afterSend]
  split_ifs with hc
  · exact ⟨hs, fun _ _ => hc⟩
  · exact .err (by exact hs) _ _
  · simp only [createRevPacket_eq]
    split
    · exact .err h₃ _ _
    · rename_i s₂ he; obtain ⟨rfl, -⟩ := send_eq_ok he
      exact .err (by exact h₃) _ _
  · exact queue_sound _ hs
  split
  · rename_i b hb _
    exact deliver_sound _ (storeFilled_drain h₃) (Tcb.getUnorderedPackets_ne_nil h₃ hb)
  · exact afterDelivery_sound _ (storeFilled_drain h₃)

/-- One pass of `poll_read` keeps every stored entry filled, and returns `Ok` with nothing read
only on a closed flow. -/
theorem readIter_sound (rbs : Nat) (fire : Bool) (cap : Nat) (hs : StoreFilled s) :
    (readIter rbs fire cap s).Sound := by
  have hp := s.flushPending_spec.1
  have h₁ := flushPending_storeFilled hs
  unfold readIter
  split
  · exact ⟨trivial, trivial⟩
  all_goals rename_i heq; simp only [heq] at hp h₁
  · exact absurd rfl hp
  · split
    · exact .err (by exact h₁) _ _
    · rename_i s₂ hq
      obtain ⟨ht, -, -⟩ := sendQueued_control hq
      exact afterSend_sound _ rbs fire cap fun e he => h₁ e (by rwa [ht] at he)

theorem pollWrite_storeFilled (buf : List UInt8) (hs : StoreFilled s) : StoreFilled (s.pollWrite buf).1 := by
  rcases s.pollWrite_eq buf with ⟨o, h, -⟩ | ⟨o, h, -⟩ | ⟨-, -, -, -, h⟩ <;> rw [h]
  · exact hs
  · exact flushPending_storeFilled hs
  · exact fun e he => flushPending_storeFilled hs e (by simpa using he)

end IpStackTcpStream

section Runs

variable {rbs : Nat} {w w' : World} {e : Event}

theorem Step.storeFilled (hs : StoreFilled w.stream) (h : Step rbs w e w') : StoreFilled w'.stream := by
  cases h with
  | @pass cap sd fire s' _ h' =>
    have := w.stream.readIter_sound rbs fire cap hs; rw [h'] at this; exact this.1
  | @ret cap sd fire s' b r _ h' =>
    have := w.stream.readIter_sound rbs fire cap hs; rw [h'] at this; exact this.1
  | write buf => exact w.stream.pollWrite_storeFilled buf hs
  | flush => exact pollFlush_storeFilled hs
  | _ => exact hs

theorem Reachable.storeFilled (h : Reachable rbs w) : StoreFilled w.stream :=
  Reachable.induction (StoreFilled ·.stream)
    (fun _ h₀ => by obtain ⟨_, _, _, _, rfl⟩ := h₀; simp [StoreFilled, World.init, IpStackTcpStream.listen, Tcb.new])
    (fun _ _ _ _ hi h => h.storeFilled hi) w h

/-- A read that returns `Ok` with nothing read leaves the flow closed. -/
theorem Step.readReturned_reports (hs : StoreFilled w.stream) {b : List UInt8} {r : Outcome Unit}
    (h : Step rbs w (.readReturned b r) w') : r = .ok () → b = [] → w'.stream.tcb.state = .closed := by
  generalize he : Event.readReturned b r = e at h
  cases h with
  | @ret cap sd fire s' b' r' _ h' =>
    have := (w.stream.readIter_sound rbs fire cap hs).2; rw [h'] at this
    obtain ⟨-, rfl, rfl⟩ := returned_eq_readReturned.mp he.symm
    exact this
  | crash => obtain ⟨-, -, rfl⟩ := returned_eq_readReturned.mp he.symm; simp
  | _ => simp at he

end Runs

/-- `poll_read` reports end of stream exactly on a closed flow: in a reachable world, a read that
returns `Ok` with nothing read leaves the flow closed, and a read called on a closed flow returns
`Ok` with nothing read from its first pass. -/
theorem eof_iff_closed (rbs : Nat) {w : World} (hw : Reachable rbs w) :
    (∀ w', Step rbs w (.readReturned [] (.ok ())) w' → w'.stream.tcb.state = .closed) ∧
    (∀ cap, w.mode = .reading cap false → w.stream.tcb.state = .closed →
      ∃ w', Step rbs w (.readReturned [] (.ok ())) w') :=
  ⟨fun _ h => Step.readReturned_reports hw.storeFilled h rfl rfl, fun cap hm hc =>
    ⟨_, (Step.ret false hm (w.stream.readIter_closed rbs false cap hc (hw.emitState.inv.closed hc)) :
      Step rbs w (.readReturned [] (.ok ())) _)⟩⟩

/-- A reset from the peer closes the flow; the next read then returns `Ok` with nothing read. -/
theorem eof_iff_closed_after_reset : ∃ w₀ es w w', Initial w₀ ∧ Run 64 w₀ es w ∧
    Step 64 w (.readReturned [] (.ok ())) w' ∧ w'.stream.tcb.state = .closed := by
  let reset : TcpSegment :=
    ⟨{ sourcePort := 1234, destinationPort := 80, sequenceNumber := 101,
       acknowledgmentNumber := 1, windowSize := 1000, rst := true }, []⟩
  let w₀ := World.init (IpStackTcpStream.listen (.v4 ⟨0x0a000001, 1234⟩ ⟨0x0a000002, 80⟩) 100 1500 0)
  let ins : List Input := [.read 100, .pass false, .pass false, .arrive reset, .read 100, .pass false, .read 100]
  have h : (w₀.execAll 64 ins).map (fun r =>
      decide (r.2.mode = .reading 100 false) && decide (r.2.stream.tcb.state = .closed)) = some true := by decide
  obtain ⟨es, w, hr, h⟩ := World.execAll_run h
  simp only [Bool.and_eq_true, decide_eq_true_eq] at h
  have h₀ : Initial w₀ := ⟨_, _, _, _, rfl⟩
  have hx := eof_iff_closed 64 ⟨w₀, es, h₀, hr⟩
  obtain ⟨w', hs⟩ := hx.2 100 h.1 h.2
  exact ⟨w₀, es, w, w', h₀, hr, hs, hx.1 w' hs⟩

end IpStack
