import LinearHeap.Proofs.Checked.Numbers
import LinearHeap.Proofs.Copies

/-!
# Copies under checks

A copy goes through its elements by number, and computes where each of them is from the offset of
the first. It looks at that sum and that product, and at the place in the region, before each
element, and it breaks off with what it has stored. The part of a buffer that a copy is about is
named by its start and its length; the end is a sum that may be too large for 64 bits and then
wraps, so that it comes to lie before the start.

In a region whose size is a number of 64 bits no offset of an element is out of range, although the
first one may be any number: elements before it have been found inside the region. So these copies
do what those of the region do, whose sums are exact (`writeAll_eq`, `readAll_eq`), and a wrapped
end is always found out (`windowEnd_eq`).
-/

set_option autoImplicit false
set_option relaxedAutoImplicit false

namespace LinearHeap

namespace Checked

/-! ### Copies step by step -/

/-- Where an element is, by its number. -/
def elementOffset (type : ElementType) (offset number : Nat) : Checked Nat := do
  let bytes ← mul number type.width
  add offset bytes

/-- Puts an element, by its number, at its place. -/
def storeElement (region : Region) (type : ElementType) (offset number : Nat)
    (element : type.Element) : Checked Region := do
  let place ← elementOffset type offset number
  (region.store type place element).mapError .fault

/-- The element with a number. -/
def loadElement (region : Region) (type : ElementType) (offset number : Nat) :
    Checked type.Element := do
  let place ← elementOffset type offset number
  (region.load type place).mapError .fault

/-- Puts elements at their places, the first of which has a number. -/
def writeFrom (region : Region) (type : ElementType) (offset number : Nat) :
    List type.Element → Region × Option Trap
  | [] => (region, none)
  | element :: rest =>
    match storeElement region type offset number element with
    | .ok stored => writeFrom stored type offset (number + 1) rest
    | .error trap => (region, some trap)

/-- So many elements, the first of which has a number. -/
def readFrom (region : Region) (type : ElementType) (offset number : Nat) :
    (count : Nat) → Checked (List type.Element)
  | 0 => .ok []
  | count + 1 => do
    let element ← loadElement region type offset number
    let rest ← readFrom region type offset (number + 1) count
    return element :: rest

def writeAll (region : Region) (type : ElementType) (offset : Nat) (elements : List type.Element) :
    Region × Option Trap :=
  writeFrom region type offset 0 elements

def readAll (region : Region) (type : ElementType) (offset count : Nat) :
    Checked (List type.Element) :=
  readFrom region type offset 0 count

/-- The end of a part of a buffer of so many elements. The sum wraps; a part is not there if it ends
before it starts, or after the buffer does. -/
def windowEnd (bound start length : Nat) : Checked Nat :=
  let stop := (start + length) % UInt64.size
  if start ≤ stop ∧ stop ≤ bound then .ok stop
  else .error (.fault (.outsideBuffer start length))

def writeWindow (region : Region) (type : ElementType) (offset : Nat) (buffer : List type.Element)
    (start length : Nat) : Region × Option Trap :=
  match windowEnd buffer.length start length with
  | .ok stop => writeAll region type offset ((buffer.drop start).take (stop - start))
  | .error trap => (region, some trap)

def readWindow (region : Region) (type : ElementType) (offset : Nat) (buffer : List type.Element)
    (start length : Nat) : Checked (List type.Element) := do
  let stop ← windowEnd buffer.length start length
  let elements ← readAll region type offset (stop - start)
  return buffer.take start ++ elements ++ buffer.drop stop

/-! ### They are the copies of the region -/

section Elements

variable {region : Region} {type : ElementType} {offset number : Nat}

theorem elementOffset_eq (h : offset + number * type.width < UInt64.size) :
    elementOffset type offset number = .ok (offset + number * type.width) := by
  rw [elementOffset, mul_eq (Nat.lt_of_le_of_lt (Nat.le_add_left _ _) h), ok_bind, add_eq h]

/-- The place of an element is right behind the one before it. -/
theorem offset_succ (type : ElementType) (offset number : Nat) :
    offset + (number + 1) * type.width = offset + number * type.width + type.width := by
  rw [Nat.succ_mul, Nat.add_assoc]

/-- Behind an element inside the region no sum is out of range. -/
theorem offset_succ_lt (hsize : region.size < UInt64.size)
    (hholds : region.Holds type (offset + number * type.width)) :
    offset + (number + 1) * type.width < UInt64.size := by
  rw [offset_succ]
  exact Nat.lt_of_le_of_lt hholds hsize

theorem writeFrom_eq (hsize : region.size < UInt64.size)
    (hrange : offset + number * type.width < UInt64.size) (elements : List type.Element) :
    writeFrom region type offset number elements =
      ((region.writeAll type (offset + number * type.width) elements).1,
        (region.writeAll type (offset + number * type.width) elements).2.map .fault) := by
  induction elements generalizing region number with
  | nil => rfl
  | cons element rest ih =>
    rw [writeFrom, storeElement, elementOffset_eq hrange, ok_bind, Region.writeAll]
    by_cases hholds : region.Holds type (offset + number * type.width)
    · rw [Region.store_of_holds hholds, if_pos hholds, ← offset_succ]
      exact ih (by rwa [Region.size_overwrite]) (offset_succ_lt hsize hholds)
    · rw [Region.store, if_neg hholds, if_neg hholds]
      rfl

theorem readFrom_eq (hsize : region.size < UInt64.size)
    (hrange : offset + number * type.width < UInt64.size) (count : Nat) :
    readFrom region type offset number count =
      (region.readAll type (offset + number * type.width) count).mapError .fault := by
  induction count generalizing number with
  | zero => rfl
  | succ count ih =>
    rw [readFrom, loadElement, elementOffset_eq hrange, ok_bind, Region.readAll, Region.load]
    split
    · next hholds =>
      rw [ih (offset_succ_lt hsize hholds), offset_succ]
      cases region.readAll type (offset + number * type.width + type.width) count <;> rfl
    · rfl

end Elements

/-- A part of a buffer is there if its exact end does not lie behind the buffer. -/
theorem windowEnd_eq {bound start length : Nat} (hbound : bound < UInt64.size)
    (hstart : start < UInt64.size) (hlength : length < UInt64.size) :
    windowEnd bound start length =
      if start + length ≤ bound then .ok (start + length)
      else .error (.fault (.outsideBuffer start length)) := by
  rw [windowEnd]
  by_cases hexact : start + length < UInt64.size
  · simp only [Nat.mod_eq_of_lt hexact, Nat.le_add_right, true_and]
  · -- The sum wraps once, and falls short of the start because the length is in range.
    have hwrap : (start + length) % UInt64.size = start + length - UInt64.size := by
      rw [Nat.mod_eq_sub_mod (Nat.le_of_not_lt hexact), Nat.mod_eq_of_lt (by omega)]
    simp only [hwrap]
    rw [if_neg (by omega), if_neg (by omega)]

section Copies

variable {region : Region} {type : ElementType} {offset : Nat}

theorem writeAll_eq (hsize : region.size < UInt64.size) (hoffset : offset < UInt64.size)
    (elements : List type.Element) :
    writeAll region type offset elements =
      ((region.writeAll type offset elements).1,
        (region.writeAll type offset elements).2.map .fault) := by
  have hrange : offset + 0 * type.width < UInt64.size := by rwa [Nat.zero_mul, Nat.add_zero]
  have hfirst := writeFrom_eq hsize hrange elements
  rwa [Nat.zero_mul, Nat.add_zero] at hfirst

theorem readAll_eq (hsize : region.size < UInt64.size) (hoffset : offset < UInt64.size)
    (count : Nat) :
    readAll region type offset count = (region.readAll type offset count).mapError .fault := by
  have hrange : offset + 0 * type.width < UInt64.size := by rwa [Nat.zero_mul, Nat.add_zero]
  have hfirst := readFrom_eq hsize hrange count
  rwa [Nat.zero_mul, Nat.add_zero] at hfirst

variable {buffer : List type.Element} {start length : Nat}

theorem writeWindow_eq (hsize : region.size < UInt64.size) (hoffset : offset < UInt64.size)
    (hbuffer : buffer.length < UInt64.size) (hstart : start < UInt64.size)
    (hlength : length < UInt64.size) :
    writeWindow region type offset buffer start length =
      ((region.writeWindow type offset buffer start length).1,
        (region.writeWindow type offset buffer start length).2.map .fault) := by
  rw [writeWindow, windowEnd_eq hbuffer hstart hlength, Region.writeWindow]
  by_cases hin : start + length ≤ buffer.length
  · rw [if_pos hin, if_pos hin]
    dsimp only
    rw [Nat.add_sub_cancel_left]
    exact writeAll_eq hsize hoffset _
  · rw [if_neg hin, if_neg hin]
    rfl

theorem readWindow_eq (hsize : region.size < UInt64.size) (hoffset : offset < UInt64.size)
    (hbuffer : buffer.length < UInt64.size) (hstart : start < UInt64.size)
    (hlength : length < UInt64.size) :
    readWindow region type offset buffer start length =
      (region.readWindow type offset buffer start length).mapError .fault := by
  rw [readWindow, windowEnd_eq hbuffer hstart hlength, Region.readWindow]
  split
  · rw [ok_bind, readAll_eq hsize hoffset, Nat.add_sub_cancel_left]
    cases region.readAll type offset length <;> rfl
  · rfl

end Copies

end Checked

end LinearHeap
