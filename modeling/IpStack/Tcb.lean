import IpStack.Packet
import Mathlib

/-!
The transmission control block of one flow. The source's `tcb.rs` is not in the snapshot,
so the record and every method `tcp.rs` calls on it are modelled from the spec's data model
and its TCB section: the packet classifier, cumulative acknowledgement (fully covered in-flight
segments dropped, the one split cut at `last_ack`), the reorder store drained from `ack`, and
the window bookkeeping.
Where the spec leaves a value open (the capacity of the reorder store, the widths of the
classifier's windows) the choice is stated at the definition.
-/

namespace IpStack

inductive TcpState
  | listen
  | synReceived
  | established
  | finWait1 (peerFinObserved : Bool)
  | finWait2 (awaitingFinalAck : Bool)
  | closed
deriving DecidableEq, Repr

inductive PacketStatus
  | windowUpdate
  | invalid
  | retransmissionRequest
  | newPacket
  | ack
  | keepAlive
deriving DecidableEq, Repr

structure InflightPacket where
  seq : SeqNum
  payload : List UInt8
deriving DecidableEq, Repr

/-- The sequence number just past an in-flight segment. -/
def InflightPacket.last (p : InflightPacket) : SeqNum := p.seq.addNat p.payload.length

/-- What is left of an in-flight segment once `a` is acknowledged: nothing when `a` covers it,
its part from `a` on when `a` falls inside it, the whole segment otherwise. -/
def InflightPacket.trimTo (a : SeqNum) (p : InflightPacket) : Option InflightPacket :=
  if p.last ≤ a then none
  else if p.seq < a then some ⟨a, p.payload.drop (p.seq.dist a)⟩
  else some p

/-- `q` is what is left of the in-flight segment `p` once its first `k` bytes are acknowledged. -/
def InflightPacket.SuffixOf (q p : InflightPacket) : Prop :=
  ∃ k ≤ p.payload.length, q.seq = p.seq.addNat k ∧ q.payload = p.payload.drop k

/-- Every entry of `L'` is what is left of an entry of `L`. -/
def InflightPacket.Trimmed (L' L : List InflightPacket) : Prop := ∀ q ∈ L', ∃ p ∈ L, q.SuffixOf p

namespace InflightPacket

theorem trimTo_suffixOf {a : SeqNum} {p q : InflightPacket} (h : p.trimTo a = some q) : q.SuffixOf p := by
  unfold trimTo at h
  split at h
  · cases h
  rename_i hc
  split at h <;> cases h
  · rename_i hlt
    refine ⟨p.seq.dist a, ?_, by simp, rfl⟩
    have h₁ := SeqNum.lt_iff_dist'.mp hlt
    have h₂ := SeqNum.dist_add_dist p.seq p.last a
    have h₃ := SeqNum.dist_lt p.last a
    rw [SeqNum.le_iff_dist] at hc
    simp only [last, SeqNum.dist_addNat] at h₂ hc h₃
    omega
  · exact ⟨0, Nat.zero_le _, by simp, by simp⟩

@[simp] theorem Trimmed.refl (L : List InflightPacket) : Trimmed L L :=
  fun q hq => ⟨q, hq, 0, Nat.zero_le _, by simp, by simp⟩

@[simp] theorem Trimmed.filterMap_trimTo (a : SeqNum) (L : List InflightPacket) :
    Trimmed (L.filterMap (trimTo a)) L := fun _ hq =>
  let ⟨p, hp, h⟩ := List.mem_filterMap.mp hq; ⟨p, hp, trimTo_suffixOf h⟩

end InflightPacket

/-- Modelled from the spec: the send-buffer cap (64 KiB) above which writes park. -/
def sendBufferCap : Nat := 64 * 1024

/-- Modelled from the spec: `Tcb`. The idle timer is not a field: the flow model asks at each
pass of `poll_read` whether it fired. -/
structure Tcb where
  seq : SeqNum
  retransmission : Option SeqNum
  ack : SeqNum
  lastAck : SeqNum
  recvWindow : UInt16
  sendWindow : UInt16
  state : TcpState
  avgSendWindow : Nat
  inflightPackets : List InflightPacket
  unorderedPackets : List (SeqNum × List UInt8)
deriving DecidableEq, Repr

/-- An entry found by `lookup` is in the list. -/
theorem mem_of_lookup {α β : Type} [BEq α] [LawfulBEq α] {l : List (α × β)} {k : α} {v : β}
    (h : l.lookup k = some v) : (k, v) ∈ l := by
  obtain ⟨l₁, l₂, rfl, -⟩ := List.lookup_eq_some_iff.mp h; simp

namespace Tcb

/-- Modelled from the spec: `Tcb::new`. The spec fixes `ack` and allows any initial `seq` (the
source uses 0), which `iss` keeps open; nothing is in flight, so `last_ack = seq`. No window
has been advertised by either side yet. -/
def new (ack iss : SeqNum) : Tcb where
  seq := iss
  retransmission := none
  ack := ack
  lastAck := iss
  recvWindow := 0
  sendWindow := 0
  state := .listen
  avgSendWindow := 0
  inflightPackets := []
  unorderedPackets := []

/-- Modelled from the spec: `Tcb::add_seq_one`. -/
@[simp] def addSeqOne (t : Tcb) : Tcb := { t with seq := t.seq.addNat 1 }

/-- Modelled from the spec: `Tcb::add_ack`. -/
@[simp] def addAck (t : Tcb) (n : SeqNum) : Tcb := { t with ack := t.ack + n }

/-- Modelled from the spec: `Tcb::change_state`. -/
@[simp] def changeState (t : Tcb) (s : TcpState) : Tcb := { t with state := s }

/-- Modelled from the spec: `Tcb::change_recv_window`. -/
@[simp] def changeRecvWindow (t : Tcb) (w : UInt16) : Tcb := { t with recvWindow := w }

/-- Modelled from the spec: `Tcb::change_send_window`, which also folds the new value into
the moving average `avg := (7·avg + new)/8`. -/
@[simp] def changeSendWindow (t : Tcb) (w : UInt16) : Tcb :=
  { t with sendWindow := w, avgSendWindow := (7 * t.avgSendWindow + w.toNat) / 8 }

/-- Modelled from the spec: `Tcb::add_inflight_packet` appends the segment; `seq` moves past
it, as the spec's write scenario requires (the peer then acknowledges `seq + len`). -/
@[simp] def addInflightPacket (t : Tcb) (seq : SeqNum) (buf : List UInt8) : Tcb :=
  { t with inflightPackets := t.inflightPackets ++ [⟨seq, buf⟩], seq := t.seq.addNat buf.length }

/-- Payload bytes held in `inflight_packets`. -/
def inflightBytes (t : Tcb) : Nat := (t.inflightPackets.map (·.payload.length)).sum

@[simp] theorem inflightBytes_addInflightPacket (t : Tcb) (seq : SeqNum) (buf : List UInt8) :
    (t.addInflightPacket seq buf).inflightBytes = t.inflightBytes + buf.length := by
  simp [inflightBytes]

/-- Modelled from the spec: `Tcb::is_send_buffer_full`, true once the in-flight byte total
exceeds the cap. -/
def isSendBufferFull (t : Tcb) : Bool := decide (sendBufferCap < t.inflightBytes)

/-- Modelled from the spec: `Tcb::change_last_ack`. An acknowledgement ahead of `last_ack`
becomes the new `last_ack`; the in-flight segments it covers are dropped and the one it falls
inside is cut to start at it, as the spec's invariant `last_ack ≤ p.seq` requires. -/
def changeLastAck (t : Tcb) (a : SeqNum) : Tcb :=
  if t.lastAck < a then
    { t with lastAck := a, inflightPackets := t.inflightPackets.filterMap (InflightPacket.trimTo a) }
  else t

/-- Modelled from the spec: `Tcb::add_unordered_packet` stores the payload under its sequence
number, replacing an earlier one stored there. -/
@[simp] def addUnorderedPacket (t : Tcb) (seq : SeqNum) (buf : List UInt8) : Tcb :=
  { t with unorderedPackets := (seq, buf) :: t.unorderedPackets.filter (·.1 != seq) }

/-- Payload bytes held in the reorder store. -/
def unorderedBytes (t : Tcb) : Nat := (t.unorderedPackets.map (·.2.length)).sum

/-- Modelled from the spec: `Tcb::get_available_read_buffer_size`, the free space of the
reorder store. Its capacity `READ_BUFFER_SIZE` is a constant of the absent tcb.rs that the spec
does not give, so it is a parameter. -/
def getAvailableReadBufferSize (readBufferSize : Nat) (t : Tcb) : Nat :=
  readBufferSize - t.unorderedBytes

/-- Removes the stored segments that start at `k` and each continue where the previous one
ends, and returns their bytes in order. `fuel` is the store's size, so the chain is never cut. -/
def drainFrom : Nat → SeqNum → List (SeqNum × List UInt8) → List UInt8 × List (SeqNum × List UInt8)
  | 0, _, m => ([], m)
  | fuel + 1, k, m =>
    match m.lookup k with
    | none => ([], m)
    | some p =>
      let rest := drainFrom fuel (k.addNat p.length) (m.filter (·.1 != k))
      (p ++ rest.1, rest.2)

/-- Modelled from the spec: `Tcb::get_unordered_packets`, the read-side drain. It returns the
longest contiguous run stored from `ack` on and removes it; `ack` itself is advanced by the
caller (`poll_read`'s `add_ack`). -/
def getUnorderedPackets (t : Tcb) : Option (List UInt8) × Tcb :=
  match t.unorderedPackets.lookup t.ack with
  | none => (none, t)
  | some _ =>
    let r := drainFrom t.unorderedPackets.length t.ack t.unorderedPackets
    (some r.1, { t with unorderedPackets := r.2 })

/-- The acknowledgement number of a segment lies in `(last_ack − window, seq]`, the window
being the peer's advertised one (the spec's glossary meaning of "window"). -/
def AckAcceptable (t : Tcb) (a : SeqNum) : Prop :=
  t.lastAck - ⟨t.sendWindow.toUInt32⟩ < a ∧ a ≤ t.seq

/-- The sequence number of a segment lies in the receive window. The spec does not give its
bounds; `[ack − 1, ack + recv_window]` keeps the table's keep-alive row (`seq = ack − 1`) and a
bare ACK at a zero window from being invalid. -/
def SeqAcceptable (t : Tcb) (s : SeqNum) : Prop :=
  t.ack - 1 ≤ s ∧ s ≤ t.ack.addNat t.recvWindow.toNat

instance (t : Tcb) (a : SeqNum) : Decidable (t.AckAcceptable a) :=
  inferInstanceAs (Decidable (_ ∧ _))

instance (t : Tcb) (s : SeqNum) : Decidable (t.SeqAcceptable s) :=
  inferInstanceAs (Decidable (_ ∧ _))

/-- Modelled from the spec: `Tcb::check_pkt_type`, the classification table read top to
bottom; a segment no row matches is `Invalid`. -/
def checkPktType (t : Tcb) (h : TcpHeader) (p : List UInt8) : PacketStatus :=
  let rcvdAck : SeqNum := ⟨h.acknowledgmentNumber⟩
  let rcvdSeq : SeqNum := ⟨h.sequenceNumber⟩
  if ¬ (t.AckAcceptable rcvdAck ∧ t.SeqAcceptable rcvdSeq) then .invalid
  else if rcvdSeq = t.ack - 1 ∧ p = [] then .keepAlive
  else if rcvdAck = t.lastAck ∧ p = [] then
    if rcvdAck = t.seq then .windowUpdate else .retransmissionRequest
  else if t.ack ≤ rcvdSeq ∧ p ≠ [] then .newPacket
  else if t.lastAck < rcvdAck ∧ p = [] then .ack
  else .invalid

/-- `change_last_ack` touches only `last_ack` and the in-flight list. -/
theorem changeLastAck_eq (t : Tcb) (a : SeqNum) :
    ∃ l fl, t.changeLastAck a = { t with lastAck := l, inflightPackets := fl } := by
  unfold changeLastAck; split
  · exact ⟨_, _, rfl⟩
  · exact ⟨t.lastAck, t.inflightPackets, rfl⟩

@[simp] theorem changeLastAck_state (t : Tcb) (a : SeqNum) : (t.changeLastAck a).state = t.state := by
  obtain ⟨_, _, h⟩ := t.changeLastAck_eq a; rw [h]

@[simp] theorem changeLastAck_seq (t : Tcb) (a : SeqNum) : (t.changeLastAck a).seq = t.seq := by
  obtain ⟨_, _, h⟩ := t.changeLastAck_eq a; rw [h]

@[simp] theorem changeLastAck_ack (t : Tcb) (a : SeqNum) : (t.changeLastAck a).ack = t.ack := by
  obtain ⟨_, _, h⟩ := t.changeLastAck_eq a; rw [h]

@[simp] theorem changeLastAck_retransmission (t : Tcb) (a : SeqNum) :
    (t.changeLastAck a).retransmission = t.retransmission := by
  obtain ⟨_, _, h⟩ := t.changeLastAck_eq a; rw [h]

@[simp] theorem changeLastAck_recvWindow (t : Tcb) (a : SeqNum) :
    (t.changeLastAck a).recvWindow = t.recvWindow := by
  obtain ⟨_, _, h⟩ := t.changeLastAck_eq a; rw [h]

@[simp] theorem changeLastAck_unorderedPackets (t : Tcb) (a : SeqNum) :
    (t.changeLastAck a).unorderedPackets = t.unorderedPackets := by
  obtain ⟨_, _, h⟩ := t.changeLastAck_eq a; rw [h]

/-- A segment the classifier does not call `Invalid` acknowledges inside the window. -/
theorem ackAcceptable_of_checkPktType {t : Tcb} {h : TcpHeader} {p : List UInt8}
    (hv : t.checkPktType h p ≠ .invalid) : t.AckAcceptable ⟨h.acknowledgmentNumber⟩ := by
  simp only [checkPktType] at hv
  refine Decidable.byContradiction fun hn => hv ?_
  rw [if_pos (fun hab => hn hab.1)]

theorem changeLastAck_of_lt {t : Tcb} {a : SeqNum} (h : t.lastAck < a) :
    t.changeLastAck a =
      { t with lastAck := a, inflightPackets := t.inflightPackets.filterMap (InflightPacket.trimTo a) } :=
  if_pos h

theorem changeLastAck_of_not_lt {t : Tcb} {a : SeqNum} (h : ¬ t.lastAck < a) : t.changeLastAck a = t :=
  if_neg h

@[simp] theorem changeLastAck_sendWindow (t : Tcb) (a : SeqNum) :
    (t.changeLastAck a).sendWindow = t.sendWindow := by
  obtain ⟨_, _, h⟩ := t.changeLastAck_eq a; rw [h]

/-- The drain touches only the reorder store. -/
theorem getUnorderedPackets_eq (t : Tcb) :
    ∃ m, (t.getUnorderedPackets).2 = { t with unorderedPackets := m } := by
  unfold getUnorderedPackets; split
  · exact ⟨t.unorderedPackets, rfl⟩
  · exact ⟨_, rfl⟩

@[simp] theorem getUnorderedPackets_state (t : Tcb) : t.getUnorderedPackets.2.state = t.state := by
  obtain ⟨_, h⟩ := t.getUnorderedPackets_eq; rw [h]

@[simp] theorem getUnorderedPackets_seq (t : Tcb) : t.getUnorderedPackets.2.seq = t.seq := by
  obtain ⟨_, h⟩ := t.getUnorderedPackets_eq; rw [h]

@[simp] theorem getUnorderedPackets_lastAck (t : Tcb) : t.getUnorderedPackets.2.lastAck = t.lastAck := by
  obtain ⟨_, h⟩ := t.getUnorderedPackets_eq; rw [h]

@[simp] theorem getUnorderedPackets_retransmission (t : Tcb) :
    t.getUnorderedPackets.2.retransmission = t.retransmission := by
  obtain ⟨_, h⟩ := t.getUnorderedPackets_eq; rw [h]

@[simp] theorem getUnorderedPackets_inflightPackets (t : Tcb) :
    t.getUnorderedPackets.2.inflightPackets = t.inflightPackets := by
  obtain ⟨_, h⟩ := t.getUnorderedPackets_eq; rw [h]

@[simp] theorem getUnorderedPackets_recvWindow (t : Tcb) :
    t.getUnorderedPackets.2.recvWindow = t.recvWindow := by
  obtain ⟨_, h⟩ := t.getUnorderedPackets_eq; rw [h]

/-- The drain only removes entries. -/
theorem drainFrom_sublist : ∀ (fuel : Nat) (k : SeqNum) (m : List (SeqNum × List UInt8)),
    (drainFrom fuel k m).2.Sublist m
  | 0, _, _ => List.Sublist.refl _
  | fuel + 1, k, m => by
    simp only [drainFrom]
    split
    · exact List.Sublist.refl _
    · exact (drainFrom_sublist fuel _ _).trans (List.filter_sublist _)

theorem getUnorderedPackets_sublist (t : Tcb) :
    t.getUnorderedPackets.2.unorderedPackets.Sublist t.unorderedPackets := by
  unfold getUnorderedPackets
  split
  · exact List.Sublist.refl _
  · exact drainFrom_sublist _ _ _

/-- The drain frees space in the reorder store. -/
theorem getAvailableReadBufferSize_le_drain (rbs : Nat) (t : Tcb) :
    t.getAvailableReadBufferSize rbs ≤ t.getUnorderedPackets.2.getAvailableReadBufferSize rbs := by
  have := (t.getUnorderedPackets_sublist.map (·.2.length)).sum_le_sum fun _ _ => Nat.zero_le _
  unfold getAvailableReadBufferSize unorderedBytes; omega

/-- An acknowledgement only drops in-flight segments or cuts their front off. -/
@[simp] theorem changeLastAck_trimmed (t : Tcb) (a : SeqNum) :
    InflightPacket.Trimmed (t.changeLastAck a).inflightPackets t.inflightPackets := by
  unfold changeLastAck; split
  · exact InflightPacket.Trimmed.filterMap_trimTo a _
  · exact InflightPacket.Trimmed.refl _

theorem lastAck_le_changeLastAck (t : Tcb) (a : SeqNum) : t.lastAck ≤ (t.changeLastAck a).lastAck := by
  by_cases h : t.lastAck < a
  · rw [changeLastAck_of_lt h]; exact SeqNum.le_of_lt h
  · rw [changeLastAck_of_not_lt h]; exact SeqNum.le_refl _

end Tcb

end IpStack
