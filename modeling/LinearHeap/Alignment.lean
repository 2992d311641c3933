import LinearHeap.Layout

/-!
# Alignments

A request names an alignment of 1, 2, 4 or 8 bytes. Every granule already meets the strongest of
them, so an alignment only takes part in the offset that answers a request for no bytes
(`Alignment.sentinel`). `ofNat?_eq_some_iff` says which numbers are alignments.
-/

set_option autoImplicit false
set_option relaxedAutoImplicit false

namespace LinearHeap

/-- An alignment that the allocator supports. -/
inductive Alignment where
  | one
  | two
  | four
  | eight
  deriving DecidableEq, Repr

namespace Alignment

/-- The number of bytes that offsets are aligned to. -/
def bytes : Alignment → Nat
  | one => 1
  | two => 2
  | four => 4
  | eight => 8

/-- The alignment to so many bytes, if it is supported. -/
def ofNat? : Nat → Option Alignment
  | 1 => some one
  | 2 => some two
  | 4 => some four
  | 8 => some eight
  | _ => none

@[simp] theorem ofNat?_bytes (align : Alignment) : ofNat? align.bytes = some align := by
  cases align <;> rfl

theorem bytes_of_ofNat? {n : Nat} {align : Alignment} (h : ofNat? n = some align) :
    align.bytes = n := by
  unfold ofNat? at h
  split at h <;> simp_all [bytes] <;> subst h <;> rfl

theorem ofNat?_eq_some_iff {n : Nat} {align : Alignment} :
    ofNat? n = some align ↔ align.bytes = n :=
  ⟨bytes_of_ofNat?, fun h ↦ h ▸ ofNat?_bytes align⟩

theorem ofNat?_eq_none_iff {n : Nat} :
    ofNat? n = none ↔ n ≠ 1 ∧ n ≠ 2 ∧ n ≠ 4 ∧ n ≠ 8 := by
  unfold ofNat?
  split <;> simp_all

/-- Alignments are ordered by their bytes. -/
instance : Ord Alignment where
  compare first second := compare first.bytes second.bytes

/-- The least multiple of the alignment at or above an offset. -/
def roundUp (align : Alignment) (offset : Nat) : Nat :=
  (offset + (align.bytes - 1)) / align.bytes * align.bytes

/-- The offset that answers a request for no bytes: the end of the region, rounded up. -/
def sentinel (align : Alignment) : Nat := align.roundUp Layout.capacity

theorem le_roundUp (align : Alignment) (offset : Nat) : offset ≤ align.roundUp offset := by
  cases align <;> simp only [roundUp, bytes] <;> omega

theorem bytes_dvd_roundUp (align : Alignment) (offset : Nat) :
    align.bytes ∣ align.roundUp offset :=
  Nat.dvd_mul_left _ _

theorem roundUp_lt (align : Alignment) (offset : Nat) :
    align.roundUp offset < offset + align.bytes := by
  cases align <;> simp only [roundUp, bytes] <;> omega

/-- The region's end meets every alignment. -/
@[simp] theorem sentinel_eq (align : Alignment) : align.sentinel = Layout.capacity := by
  cases align <;> rfl

/-- The text that shows an alignment. -/
def text (align : Alignment) : String := "Align(" ++ toString align.bytes ++ ")"

end Alignment

end LinearHeap
