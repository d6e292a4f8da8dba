import Mathlib

/-!
Sequence numbers of the TCP flow engine: 32-bit values with wrapping addition, ordered by
the sign of their 32-bit difference. The source's `seqnum.rs` is not in the snapshot, so the
type follows the spec's data model. Every comparison the flow makes reduces to the forward
distance `dist`, a natural number below 2^32 that the proofs hand to `omega`.
-/

namespace IpStack

/-- Modelled from the spec: `SeqNum` (stream/seqnum.rs is not in the snapshot). A 32-bit
unsigned integer with modular arithmetic. -/
structure SeqNum where
  val : UInt32
deriving DecidableEq, Repr

namespace SeqNum

instance : Add SeqNum := ⟨fun a b => ⟨a.val + b.val⟩⟩
instance : Sub SeqNum := ⟨fun a b => ⟨a.val - b.val⟩⟩
instance (n : Nat) : OfNat SeqNum n := ⟨⟨OfNat.ofNat n⟩⟩

/-- `a < b` when `a − b`, read as a signed 32-bit integer, is negative. -/
instance : LT SeqNum := ⟨fun a b => 2 ^ 31 ≤ (a.val - b.val).toNat⟩

instance : LE SeqNum := ⟨fun a b => a = b ∨ a < b⟩

instance (a b : SeqNum) : Decidable (a < b) :=
  inferInstanceAs (Decidable (2 ^ 31 ≤ (a.val - b.val).toNat))

instance (a b : SeqNum) : Decidable (a ≤ b) := inferInstanceAs (Decidable (a = b ∨ a < b))

/-- Adds a byte count, wrapping like `SeqNum + u32` on a length cast to `u32`. -/
def addNat (a : SeqNum) (n : Nat) : SeqNum := ⟨a.val + n.toUInt32⟩

/-- How far `b` lies ahead of `a`, modulo 2^32. -/
def dist (a b : SeqNum) : Nat := (b.val - a.val).toNat

theorem val_lt (a : SeqNum) : a.val.toNat < 2 ^ 32 := a.val.toBitVec.isLt

theorem ext_val {a b : SeqNum} (h : a.val.toNat = b.val.toNat) : a = b := by
  cases a; cases b; simp only [mk.injEq]; exact UInt32.toNat.inj h

@[simp] theorem val_add (a b : SeqNum) :
    (a + b).val.toNat = (a.val.toNat + b.val.toNat) % 2 ^ 32 := rfl

@[simp] theorem val_sub (a b : SeqNum) :
    (a - b).val.toNat = (2 ^ 32 - b.val.toNat + a.val.toNat) % 2 ^ 32 := rfl

@[simp] theorem val_addNat (a : SeqNum) (n : Nat) :
    (a.addNat n).val.toNat = (a.val.toNat + n) % 2 ^ 32 := by
  show (a.val.toNat + n % 2 ^ 32) % 2 ^ 32 = _
  omega

@[simp] theorem val_ofNat (n : Nat) : (OfNat.ofNat n : SeqNum).val.toNat = n % 2 ^ 32 := rfl

theorem dist_eq (a b : SeqNum) : a.dist b = (2 ^ 32 - a.val.toNat + b.val.toNat) % 2 ^ 32 := rfl

theorem dist_lt (a b : SeqNum) : a.dist b < 2 ^ 32 := by
  rw [dist_eq]; omega

@[simp] theorem dist_self (a : SeqNum) : a.dist a = 0 := by
  have := a.val_lt; rw [dist_eq]; omega

theorem dist_eq_zero {a b : SeqNum} : a.dist b = 0 ↔ a = b := by
  refine ⟨fun h => ext_val ?_, fun h => h ▸ dist_self a⟩
  have := a.val_lt; have := b.val_lt; rw [dist_eq] at h; omega

/-- Distances add up modulo 2^32; the proofs use the case where no wrap occurs. -/
theorem dist_add_dist (a b c : SeqNum) : (a.dist b + b.dist c) % 2 ^ 32 = a.dist c := by
  have := a.val_lt; have := b.val_lt; have := c.val_lt
  simp only [dist_eq]; omega

theorem dist_comm_add {a b : SeqNum} (h : a ≠ b) : a.dist b + b.dist a = 2 ^ 32 := by
  have := a.val_lt; have := b.val_lt
  have hv : a.val.toNat ≠ b.val.toNat := fun e => h (ext_val e)
  simp only [dist_eq]; omega

@[simp] theorem dist_addNat (a : SeqNum) (n : Nat) : a.dist (a.addNat n) = n % 2 ^ 32 := by
  have := a.val_lt; simp only [dist_eq, val_addNat]; omega

@[simp] theorem addNat_dist (a b : SeqNum) : a.addNat (a.dist b) = b :=
  ext_val (by have := a.val_lt; have := b.val_lt; simp only [val_addNat, dist_eq]; omega)

theorem dist_addNat_right (a b : SeqNum) (n : Nat) :
    a.dist (b.addNat n) = (a.dist b + n) % 2 ^ 32 := by
  have := a.val_lt; have := b.val_lt; simp only [dist_eq, val_addNat]; omega

theorem lt_iff_dist {a b : SeqNum} : a < b ↔ 2 ^ 31 ≤ b.dist a := Iff.rfl

/-- The order is read off the forward distance: `a ≤ b` exactly when `b` is at most half the
sequence space ahead of `a`. -/
theorem le_iff_dist {a b : SeqNum} : a ≤ b ↔ a.dist b ≤ 2 ^ 31 := by
  show a = b ∨ 2 ^ 31 ≤ b.dist a ↔ _
  by_cases h : a = b
  · subst h; simp
  · have := dist_comm_add h; have := dist_lt b a; simp only [h, false_or]; omega

theorem lt_iff_dist' {a b : SeqNum} : a < b ↔ 0 < a.dist b ∧ a.dist b ≤ 2 ^ 31 := by
  rw [lt_iff_dist]
  by_cases h : a = b
  · subst h; simp
  · have := dist_comm_add h; have := dist_lt a b
    have : a.dist b ≠ 0 := fun e => h (dist_eq_zero.mp e); omega

/-- Within half the sequence space past a common base, the order is the order of the
distances from the base. -/
theorem le_iff_of_dist {b x y : SeqNum} (hx : b.dist x < 2 ^ 31) (hy : b.dist y < 2 ^ 31) :
    x ≤ y ↔ b.dist x ≤ b.dist y := by
  have := b.val_lt; have := x.val_lt; have := y.val_lt
  rw [le_iff_dist]; simp only [dist_eq] at *; omega

theorem lt_iff_of_dist {b x y : SeqNum} (hx : b.dist x < 2 ^ 31) (hy : b.dist y < 2 ^ 31) :
    x < y ↔ b.dist x < b.dist y := by
  have := b.val_lt; have := x.val_lt; have := y.val_lt
  rw [lt_iff_dist']; simp only [dist_eq] at *; omega

theorem dist_sub_of_le {b x y : SeqNum} (h : b.dist x ≤ b.dist y) :
    x.dist y = b.dist y - b.dist x := by
  have := b.val_lt; have := x.val_lt; have := y.val_lt
  simp only [dist_eq] at *; omega

theorem le_addNat (a : SeqNum) {n : Nat} (h : n ≤ 2 ^ 31) : a ≤ a.addNat n := by
  rw [le_iff_dist, dist_addNat]; omega

@[simp] theorem addNat_zero (a : SeqNum) : a.addNat 0 = a :=
  ext_val (by have := a.val_lt; simp only [val_addNat]; omega)

@[simp] theorem addNat_addNat (a : SeqNum) (m n : Nat) : (a.addNat m).addNat n = a.addNat (m + n) :=
  ext_val (by simp only [val_addNat]; omega)

theorem le_of_lt {a b : SeqNum} (h : a < b) : a ≤ b := .inr h

theorem le_refl (a : SeqNum) : a ≤ a := .inl rfl

@[simp] theorem sub_mk_zero (a : SeqNum) : a - ⟨0⟩ = a :=
  ext_val (by have := a.val_lt; simp only [val_sub]; show (2 ^ 32 - 0 + _) % _ = _; omega)

end SeqNum

end IpStack
