import LinearHeap.ElementType
import LinearHeap.Fault

/-!
# Regions

A region is a flat array of bytes. Elements are read and written at any offset, aligned or not. An
element that does not lie inside the region is a fault and changes nothing; a copy of several
elements goes through them in order and breaks off at the first that does not fit, so the ones
before it stay stored.

The bytes of a region are its view: `getElem?_overwrite` says what every write does to each of them,
and `size_overwrite` that a write never changes their number. `load_store` and `store_load` are the
two laws of a single element.
-/

set_option autoImplicit false
set_option relaxedAutoImplicit false

namespace LinearHeap

/-- A flat array of bytes. -/
structure Region where
  bytes : Array UInt8
  deriving DecidableEq, Repr

namespace Region

/-- The number of bytes. -/
def size (region : Region) : Nat := region.bytes.size

/-- A region of equal bytes. -/
def filled (size : Nat) (byte : UInt8) : Region := ⟨Array.replicate size byte⟩

/-- The bytes at `offset, …, offset + count - 1`, as far as the region has them. -/
def slice (region : Region) (offset count : Nat) : List UInt8 :=
  (region.bytes.extract offset (offset + count)).toList

/-- The bytes at `offset, …, offset + count - 1`, if the region has them all. -/
def slice? (region : Region) (offset count : Nat) : Option (List UInt8) :=
  if offset + count ≤ region.size then some (region.slice offset count) else none

private def overwriteBytes (bytes : Array UInt8) : (offset : Nat) → List UInt8 → Array UInt8
  | _, [] => bytes
  | offset, byte :: rest => overwriteBytes (bytes.setIfInBounds offset byte) (offset + 1) rest

/-- The region with the given bytes from an offset on; those that fall outside it are dropped. -/
def overwrite (region : Region) (offset : Nat) (source : List UInt8) : Region :=
  ⟨overwriteBytes region.bytes offset source⟩

/-! ## The bytes after a write -/

theorem ext {first second : Region}
    (hbytes : ∀ i : Nat, first.bytes[i]? = second.bytes[i]?) : first = second := by
  obtain ⟨first⟩ := first
  obtain ⟨second⟩ := second
  congr
  exact Array.ext_getElem? hbytes

private theorem size_overwriteBytes (bytes : Array UInt8) (offset : Nat) (source : List UInt8) :
    (overwriteBytes bytes offset source).size = bytes.size := by
  induction source generalizing bytes offset with
  | nil => rfl
  | cons byte rest ih => rw [overwriteBytes, ih, Array.size_setIfInBounds]

private theorem getElem?_overwriteBytes (bytes : Array UInt8) (offset : Nat)
    (source : List UInt8) (i : Nat) :
    (overwriteBytes bytes offset source)[i]? =
      if i < bytes.size ∧ offset ≤ i ∧ i < offset + source.length then source[i - offset]?
      else bytes[i]? := by
  induction source generalizing bytes offset with
  | nil =>
    rw [overwriteBytes, if_neg]
    simp only [List.length_nil]
    omega
  | cons byte rest ih =>
    rw [overwriteBytes, ih, Array.size_setIfInBounds, List.length_cons,
      Array.getElem?_setIfInBounds]
    by_cases hsize : i < bytes.size
    · by_cases hlt : i < offset
      · rw [if_neg (by omega), if_neg (by omega), if_neg (by omega)]
      · by_cases heq : offset = i
        · subst heq
          rw [if_neg (by omega), if_pos rfl, if_pos hsize, if_pos (by omega), Nat.sub_self]
          rfl
        · rw [if_neg heq]
          by_cases hin : i < offset + (rest.length + 1)
          · rw [if_pos (by omega), if_pos (by omega),
              show i - offset = (i - (offset + 1)) + 1 by omega, List.getElem?_cons_succ]
          · rw [if_neg (by omega), if_neg (by omega)]
    · have hnone : bytes[i]? = none := Array.getElem?_eq_none (by omega)
      by_cases heq : offset = i
      · subst heq
        simp only [hsize, false_and, if_false, if_true, hnone]
      · simp only [hsize, false_and, if_false, heq]

@[simp] theorem size_overwrite (region : Region) (offset : Nat) (source : List UInt8) :
    (region.overwrite offset source).size = region.size :=
  size_overwriteBytes _ _ _

/-- A write puts its bytes where it says, as far as the region goes, and keeps all others. -/
theorem getElem?_overwrite (region : Region) (offset : Nat) (source : List UInt8) (i : Nat) :
    (region.overwrite offset source).bytes[i]? =
      if i < region.size ∧ offset ≤ i ∧ i < offset + source.length then source[i - offset]?
      else region.bytes[i]? :=
  getElem?_overwriteBytes _ _ _ _

theorem getElem?_overwrite_of_lt {region : Region} {offset i : Nat} {source : List UInt8}
    (h : i < offset) : (region.overwrite offset source).bytes[i]? = region.bytes[i]? := by
  rw [getElem?_overwrite, if_neg (by omega)]

theorem getElem?_overwrite_of_le {region : Region} {offset i : Nat} {source : List UInt8}
    (h : offset + source.length ≤ i) :
    (region.overwrite offset source).bytes[i]? = region.bytes[i]? := by
  rw [getElem?_overwrite, if_neg (by omega)]

@[simp] theorem overwrite_nil (region : Region) (offset : Nat) :
    region.overwrite offset [] = region := rfl

/-- Writing one run of bytes is writing its parts one after the other. -/
theorem overwrite_append (region : Region) (offset : Nat) (front back : List UInt8) :
    region.overwrite offset (front ++ back) =
      (region.overwrite offset front).overwrite (offset + front.length) back := by
  have happend : ∀ (bytes : Array UInt8) (offset : Nat),
      overwriteBytes bytes offset (front ++ back) =
        overwriteBytes (overwriteBytes bytes offset front) (offset + front.length) back := by
    induction front with
    | nil => intro bytes offset; rfl
    | cons byte rest ih =>
      intro bytes offset
      rw [List.cons_append, overwriteBytes, ih, overwriteBytes, List.length_cons,
        Nat.add_assoc, Nat.add_comm 1]
  exact congrArg Region.mk (happend region.bytes offset)

/-- Writes to separate places may be exchanged. -/
theorem overwrite_comm (region : Region) {first second : Nat} {source other : List UInt8}
    (h : first + source.length ≤ second ∨ second + other.length ≤ first) :
    (region.overwrite first source).overwrite second other =
      (region.overwrite second other).overwrite first source := by
  apply ext
  intro i
  rw [getElem?_overwrite, getElem?_overwrite, getElem?_overwrite, getElem?_overwrite]
  simp only [size_overwrite]
  split <;> split <;> first | rfl | omega

/-! ## The bytes of a slice -/

theorem length_slice (region : Region) {offset count : Nat} (h : offset + count ≤ region.size) :
    (region.slice offset count).length = count := by
  simp only [slice, size, Array.length_toList, Array.size_extract] at *
  omega

theorem getElem?_slice (region : Region) {offset count i : Nat} (h : i < count) :
    (region.slice offset count)[i]? = region.bytes[offset + i]? := by
  simp only [slice, Array.getElem?_toList, Array.getElem?_extract]
  by_cases hsize : offset + i < region.bytes.size
  · rw [if_pos (by omega)]
  · rw [if_neg (by omega), Array.getElem?_eq_none (by omega)]

/-- A slice of no bytes is empty, wherever it is. -/
@[simp] theorem slice_zero (region : Region) (offset : Nat) : region.slice offset 0 = [] := by
  rw [slice, Nat.add_zero, Array.extract_empty_of_stop_le_start (Nat.le_refl _)]

/-- A slice is made of any first part of it and the rest. -/
theorem slice_add (region : Region) (offset first second : Nat) :
    region.slice offset (first + second) =
      region.slice offset first ++ region.slice (offset + first) second := by
  rw [slice, slice, slice, ← Array.toList_append, Array.extract_append_extract, Nat.add_assoc,
    Nat.min_eq_left (Nat.le_add_right _ _),
    Nat.max_eq_right (Nat.add_le_add_left (Nat.le_add_right _ _) _)]

theorem slice_congr {first second : Region} {offset count : Nat}
    (hbytes : ∀ i : Nat, offset ≤ i → i < offset + count → first.bytes[i]? = second.bytes[i]?) :
    first.slice offset count = second.slice offset count := by
  apply List.ext_getElem?
  intro i
  by_cases hi : i < count
  · rw [getElem?_slice _ hi, getElem?_slice _ hi]
    exact hbytes _ (by omega) (by omega)
  · rw [List.getElem?_eq_none, List.getElem?_eq_none]
    · simp only [slice, Array.length_toList, Array.size_extract]
      omega
    · simp only [slice, Array.length_toList, Array.size_extract]
      omega

/-- Reading what was written gives it back. -/
theorem slice_overwrite_self (region : Region) {offset : Nat} {source : List UInt8}
    (h : offset + source.length ≤ region.size) :
    (region.overwrite offset source).slice offset source.length = source := by
  apply List.ext_getElem?
  intro i
  by_cases hi : i < source.length
  · rw [getElem?_slice _ hi, getElem?_overwrite, if_pos (by omega), Nat.add_sub_cancel_left]
  · rw [List.getElem?_eq_none, List.getElem?_eq_none (by omega)]
    rw [length_slice _ (by rwa [size_overwrite])]
    omega

/-- Writing what was read changes nothing. -/
theorem overwrite_slice_self (region : Region) {offset count : Nat}
    (h : offset + count ≤ region.size) :
    region.overwrite offset (region.slice offset count) = region := by
  apply ext
  intro i
  rw [getElem?_overwrite, length_slice _ h]
  split
  · rw [getElem?_slice _ (by omega)]
    congr 1
    omega
  · rfl

/-- A read does not see a write elsewhere. -/
theorem slice_overwrite_of_disjoint (region : Region) {offset count start : Nat}
    {source : List UInt8} (h : offset + count ≤ start ∨ start + source.length ≤ offset) :
    (region.overwrite start source).slice offset count = region.slice offset count := by
  apply slice_congr
  intro i hle hlt
  rw [getElem?_overwrite, if_neg (by omega)]

/-! ## Single elements -/

/-- The element at an offset lies inside the region. -/
def Holds (region : Region) (type : ElementType) (offset : Nat) : Prop :=
  offset + type.width ≤ region.size

instance (region : Region) (type : ElementType) (offset : Nat) :
    Decidable (region.Holds type offset) :=
  inferInstanceAs (Decidable (_ ≤ _))

/-- The element at an offset. -/
def load (region : Region) (type : ElementType) (offset : Nat) : Except Fault type.Element :=
  if region.Holds type offset then .ok (type.decode (region.slice offset type.width))
  else .error (.outsideRegion offset type.width)

/-- The region with an element put at an offset. -/
def store (region : Region) (type : ElementType) (offset : Nat) (element : type.Element) :
    Except Fault Region :=
  if region.Holds type offset then .ok (region.overwrite offset (type.encode element))
  else .error (.outsideRegion offset type.width)

theorem load_of_holds {region : Region} {type : ElementType} {offset : Nat}
    (h : region.Holds type offset) :
    region.load type offset = .ok (type.decode (region.slice offset type.width)) :=
  if_pos h

theorem store_of_holds {region : Region} {type : ElementType} {offset : Nat}
    (h : region.Holds type offset) (element : type.Element) :
    region.store type offset element = .ok (region.overwrite offset (type.encode element)) :=
  if_pos h

/-- An element is read if it lies inside the region and its bytes are those that are there. -/
theorem load_eq_ok_iff {region : Region} {type : ElementType} {offset : Nat}
    {element : type.Element} :
    region.load type offset = .ok element ↔
      region.Holds type offset ∧ type.encode element = region.slice offset type.width := by
  constructor
  · intro h
    unfold load at h
    split at h
    · next hholds =>
      injection h with h
      exact ⟨hholds, h ▸ type.encode_decode (region.length_slice hholds)⟩
    · contradiction
  · rintro ⟨hholds, hbytes⟩
    rw [load_of_holds hholds, ← hbytes, type.decode_encode]

/-- An element read where it was written is that element. -/
theorem load_store {region stored : Region} {type : ElementType} {offset : Nat}
    {element : type.Element} (h : region.store type offset element = .ok stored) :
    stored.load type offset = .ok element := by
  unfold store at h
  split at h
  · next hholds =>
    injection h with h
    subst h
    have hself : (region.overwrite offset (type.encode element)).slice offset
        (type.encode element).length = type.encode element :=
      region.slice_overwrite_self (by rw [type.length_encode]; exact hholds)
    rw [type.length_encode] at hself
    exact load_eq_ok_iff.mpr ⟨by simpa [Holds] using hholds, hself.symm⟩
  · contradiction

/-- An element written where it was read changes nothing. -/
theorem store_load {region : Region} {type : ElementType} {offset : Nat} {element : type.Element}
    (h : region.load type offset = .ok element) :
    region.store type offset element = .ok region := by
  obtain ⟨hholds, hbytes⟩ := load_eq_ok_iff.mp h
  rw [store_of_holds hholds, hbytes, region.overwrite_slice_self hholds]

/-! ## Copies -/

/-- Puts elements one after the other from an offset on. The copy breaks off at the first element
that does not lie inside the region; the ones before it stay stored. -/
def writeAll (region : Region) (type : ElementType) (offset : Nat) :
    List type.Element → Region × Option Fault
  | [] => (region, none)
  | element :: rest =>
    if region.Holds type offset then
      (region.overwrite offset (type.encode element)).writeAll type (offset + type.width) rest
    else (region, some (.outsideRegion offset type.width))

/-- So many elements one after the other from an offset on. -/
def readAll (region : Region) (type : ElementType) (offset : Nat) :
    (count : Nat) → Except Fault (List type.Element)
  | 0 => .ok []
  | count + 1 => do
    let element ← region.load type offset
    let rest ← region.readAll type (offset + type.width) count
    return element :: rest

/-- Copies `length` elements of a buffer, from `start` on, into the region. -/
def writeWindow (region : Region) (type : ElementType) (offset : Nat) (buffer : List type.Element)
    (start length : Nat) : Region × Option Fault :=
  if start + length ≤ buffer.length then
    region.writeAll type offset ((buffer.drop start).take length)
  else (region, some (.outsideBuffer start length))

/-- The buffer with `length` of its elements, from `start` on, replaced by those of the region. -/
def readWindow (region : Region) (type : ElementType) (offset : Nat) (buffer : List type.Element)
    (start length : Nat) : Except Fault (List type.Element) :=
  if start + length ≤ buffer.length then do
    let elements ← region.readAll type offset length
    return buffer.take start ++ elements ++ buffer.drop (start + length)
  else .error (.outsideBuffer start length)

@[simp] theorem size_writeAll (region : Region) (type : ElementType) (offset : Nat)
    (elements : List type.Element) :
    (region.writeAll type offset elements).1.size = region.size := by
  induction elements generalizing region offset with
  | nil => rfl
  | cons element rest ih =>
    rw [writeAll]
    split
    · rw [ih, size_overwrite]
    · rfl

@[simp] theorem size_writeWindow (region : Region) (type : ElementType) (offset : Nat)
    (buffer : List type.Element) (start length : Nat) :
    (region.writeWindow type offset buffer start length).1.size = region.size := by
  unfold writeWindow
  split
  · exact size_writeAll _ _ _ _
  · rfl

/-- A copy that fits is one write of the bytes of its elements. -/
theorem writeAll_of_le {region : Region} {type : ElementType} {offset : Nat}
    {elements : List type.Element}
    (h : offset + elements.length * type.width ≤ region.size) :
    region.writeAll type offset elements =
      (region.overwrite offset (elements.flatMap type.encode), none) := by
  induction elements generalizing region offset with
  | nil => rfl
  | cons element rest ih =>
    rw [List.length_cons, Nat.add_mul, Nat.one_mul] at h
    rw [writeAll, if_pos (by simp only [Holds]; omega), ih (by rw [size_overwrite]; omega),
      List.flatMap_cons, overwrite_append, type.length_encode]

end Region

end LinearHeap
