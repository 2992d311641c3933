import LinearHeap.SizeClass
import LinearHeap.Alignment

/-!
# Numbers under checks

The requests of a heap are told in natural numbers, where every sum is exact, and in bitmaps, which
change as a whole. Carried out, they compute with numbers of 64 bits and touch one word of the
bitmap at a time, and then any step may be impossible: a sum out of range, a shift by more bits than
a word has, a place that is not there, an internal check that fails. A `Checked` computation looks
before each such step, and breaks off with a `Trap` instead of taking one that is impossible.

This module has the numbers and the words: what each operation needs in order not to break off, and
what it gives then. The mask of a run is given bit by bit (`exists_runMask`), and size classes and
offsets are those of `SizeClass` and `Layout` (`sizeClass_eq`, `granuleOffset_eq`, `pageOffset_eq`,
`sentinel_eq`).
-/

set_option autoImplicit false
set_option relaxedAutoImplicit false

namespace LinearHeap

/-- What makes a step of a computation impossible. -/
inductive Trap where
  /-- A number leaves the range of 64 bits. -/
  | range
  /-- A number is divided by zero. -/
  | divisor
  /-- A word is shifted by as many bits as it has, or more. -/
  | shift (amount : Nat)
  /-- An internal check fails, or an element lies outside the region. -/
  | fault (cause : Fault)
  deriving DecidableEq, Repr

/-- A computation that breaks off before a step that is impossible. -/
abbrev Checked (α : Type) : Type := Except Trap α

/-- The bits of a page. -/
abbrev Word : Type := BitVec Layout.granulesPerPage

namespace Checked

/-! ### Numbers -/

section Numbers

def add (first second : Nat) : Checked Nat :=
  if first + second < UInt64.size then .ok (first + second) else .error .range

/-- The sum, if it is in range. Unlike `add`, this asks whether it is and does not take it for
granted. -/
def add? (first second : Nat) : Option Nat :=
  if first + second < UInt64.size then some (first + second) else none

def sub (first second : Nat) : Checked Nat :=
  if second ≤ first then .ok (first - second) else .error .range

def mul (first second : Nat) : Checked Nat :=
  if first * second < UInt64.size then .ok (first * second) else .error .range

/-- So many units as a number needs. -/
def ceilDiv (number unit : Nat) : Checked Nat :=
  if unit = 0 then .error .divisor
  else if number % unit = 0 then .ok (number / unit)
  else add (number / unit) 1

/-- The least multiple of a unit that is not less than a number. -/
def roundUp (number unit : Nat) : Checked Nat :=
  if unit = 0 then .error .divisor
  else if number % unit = 0 then .ok number
  else do
    let missing ← sub unit (number % unit)
    add number missing

variable {first second number unit : Nat}

theorem ok_bind {α β : Type} (value : α) (next : α → Checked β) :
    (Except.ok value >>= next : Checked β) = next value :=
  rfl

theorem add_eq (h : first + second < UInt64.size) : add first second = .ok (first + second) :=
  if_pos h

theorem sub_eq (h : second ≤ first) : sub first second = .ok (first - second) :=
  if_pos h

theorem mul_eq (h : first * second < UInt64.size) : mul first second = .ok (first * second) :=
  if_pos h

theorem ceilDiv_eq (hunit : 0 < unit) (hnumber : number < UInt64.size) :
    ceilDiv number unit = .ok ((number + (unit - 1)) / unit) := by
  have hsplit := Nat.div_add_mod number unit
  have hlt := Nat.mod_lt number hunit
  rw [ceilDiv, if_neg (Nat.ne_of_gt hunit)]
  split
  · next hmod =>
    rw [hmod, Nat.add_zero] at hsplit
    rw [← hsplit, Nat.mul_add_div hunit, Nat.div_eq_of_lt (Nat.sub_lt hunit Nat.zero_lt_one),
      Nat.add_zero, Nat.mul_div_cancel_left _ hunit]
  · next hmod =>
    have hquotient : number / unit < number := by
      refine Nat.div_lt_self ?_ ?_
      · exact Nat.pos_of_ne_zero fun hzero ↦ hmod (hzero ▸ Nat.zero_mod unit)
      · exact Nat.lt_of_le_of_ne hunit fun hone ↦ hmod (hone ▸ Nat.mod_one number)
    have hsum : number + (unit - 1) = unit * (number / unit + 1) + (number % unit - 1) := by
      rw [Nat.mul_succ]
      omega
    have hrest : number % unit - 1 < unit := Nat.lt_of_le_of_lt (Nat.sub_le _ _) hlt
    rw [add_eq (Nat.lt_of_le_of_lt hquotient hnumber), hsum, Nat.mul_add_div hunit,
      Nat.div_eq_of_lt hrest, Nat.add_zero]

end Numbers

/-! ### Words -/

section Words

def shiftLeft (word : Word) (amount : Nat) : Checked Word :=
  if amount < Layout.granulesPerPage then .ok (word <<< amount) else .error (.shift amount)

def shiftRight (word : Word) (amount : Nat) : Checked Word :=
  if amount < Layout.granulesPerPage then .ok (word >>> amount) else .error (.shift amount)

/-- The word whose lowest bits, so many of them, are set. -/
def runMask (length : Nat) : Checked Word :=
  if Layout.granulesPerPage ≤ length then .ok (BitVec.allOnes _)
  else do
    let power ← shiftLeft 1#_ length
    if 1#_ ≤ power then .ok (power - 1#_) else .error .range

/-- The word has exactly its lowest bits set, so many of them. -/
def IsRunMask (mask : Word) (length : Nat) : Prop :=
  ∀ bit, mask.getLsbD bit = decide (bit < Layout.granulesPerPage ∧ bit < length)

variable {word : Word} {amount bit length : Nat}

theorem shiftLeft_eq (h : amount < Layout.granulesPerPage) :
    shiftLeft word amount = .ok (word <<< amount) :=
  if_pos h

theorem shiftRight_eq (h : amount < Layout.granulesPerPage) :
    shiftRight word amount = .ok (word >>> amount) :=
  if_pos h

/-- A bit that is shifted to the lowest place is read there. -/
theorem shiftRight_and_one_eq_zero_iff :
    word >>> bit &&& 1#_ = 0#_ ↔ word.getLsbD bit = false := by
  rw [BitVec.and_one_eq_setWidth_ofBool_getLsbD, BitVec.getLsbD_ushiftRight, Nat.add_zero]
  cases word.getLsbD bit <;> decide

theorem shiftRight_and_one_beq : (word >>> bit &&& 1#_ == 1#_) = word.getLsbD bit := by
  rw [BitVec.and_one_eq_setWidth_ofBool_getLsbD, BitVec.getLsbD_ushiftRight, Nat.add_zero]
  cases word.getLsbD bit <;> decide

/-- The mask of a run has exactly the bits of the run. -/
theorem exists_runMask (length : Nat) :
    ∃ mask, runMask length = .ok mask ∧ IsRunMask mask length := by
  by_cases hfull : Layout.granulesPerPage ≤ length
  · refine ⟨BitVec.allOnes _, if_pos hfull, fun bit ↦ ?_⟩
    rw [BitVec.getLsbD_allOnes, decide_eq_decide]
    omega
  · have hlength := Nat.lt_of_not_le hfull
    have hpower : ((1#_ : Word) <<< length).toNat = 2 ^ length := by
      rw [← BitVec.twoPow_eq, BitVec.toNat_twoPow_of_lt hlength]
    have hone : (1#_ : Word).toNat ≤ ((1#_ : Word) <<< length).toNat := by
      rw [hpower]
      exact Nat.one_le_two_pow
    refine ⟨1#_ <<< length - 1#_, ?_, fun bit ↦ ?_⟩
    · rw [runMask, if_neg hfull, shiftLeft_eq hlength, ok_bind, if_pos (BitVec.le_def.mpr hone)]
    · rw [BitVec.getLsbD, BitVec.toNat_sub_of_le hone, hpower]
      change (2 ^ length - 1).testBit bit = _
      rw [Nat.testBit_two_pow_sub_one, decide_eq_decide]
      omega

/-- A mask of a whole word is not made by a shift, which would be too long. -/
example : runMask 64 = .ok (BitVec.allOnes _) ∧ shiftLeft 1#_ 64 = .error (.shift 64) :=
  ⟨rfl, rfl⟩

end Words

/-! ### Size classes and offsets -/

section Layout

/-- The size class of a request, which must not be for no bytes. -/
def sizeClass (size : Nat) : Checked SizeClass :=
  if size = 0 then .error (.fault .emptyRequest)
  else if size < Layout.pageBytes then do
    let granules ← ceilDiv size Layout.granuleBytes
    return .small granules
  else do
    let pages ← ceilDiv size Layout.pageBytes
    return .large pages

def granuleOffset (granule : Nat) : Checked Nat := do
  let bytes ← mul granule Layout.granuleBytes
  add Layout.heapStart bytes

def pageOffset (page : Nat) : Checked Nat := do
  let granule ← mul page Layout.granulesPerPage
  granuleOffset granule

/-- The offset that answers a request for no bytes. -/
def sentinel (align : Alignment) : Checked Nat := roundUp Layout.capacity align.bytes

variable {size granule page : Nat}

theorem sizeClass_eq (hpos : 0 < size) (hrange : size < UInt64.size) :
    sizeClass size = .ok (.ofSize size) := by
  rw [sizeClass, if_neg (Nat.ne_of_gt hpos), SizeClass.ofSize]
  split
  · rw [ceilDiv_eq (by decide) hrange]
    rfl
  · rw [ceilDiv_eq (by decide) hrange]
    rfl

theorem granuleOffset_eq (h : granule < Layout.heapGranules) :
    granuleOffset granule = .ok (Layout.granuleOffset granule) := by
  rw [Layout.heapGranules_eq] at h
  have hbytes : granule * Layout.granuleBytes < UInt64.size := by
    simp only [Layout.granuleBytes, UInt64.size]
    omega
  have hoffset : Layout.heapStart + granule * Layout.granuleBytes < UInt64.size := by
    simp only [Layout.heapStart_eq, Layout.granuleBytes, UInt64.size]
    omega
  rw [granuleOffset, mul_eq hbytes, ok_bind, add_eq hoffset]
  rfl

theorem pageOffset_eq (h : page < Layout.bitmapWords) :
    pageOffset page = .ok (Layout.pageOffset page) := by
  rw [Layout.bitmapWords_eq] at h
  have hgranule : page * Layout.granulesPerPage < Layout.heapGranules := by
    simp only [Layout.granulesPerPage, Layout.heapGranules_eq]
    omega
  have hrange : page * Layout.granulesPerPage < UInt64.size :=
    Nat.lt_trans hgranule (by decide)
  rw [pageOffset, mul_eq hrange, ok_bind, granuleOffset_eq hgranule]
  rfl

theorem sentinel_eq (align : Alignment) : sentinel align = .ok align.sentinel := by
  cases align <;> rfl

end Layout

end Checked

end LinearHeap
