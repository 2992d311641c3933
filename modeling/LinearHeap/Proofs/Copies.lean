import LinearHeap.Heap

/-!
# Copies

The reads and writes of callers as one kind of event, so that a run can mix them with requests. A
copy that fits into the region is one write of its bytes (`Heap.region_copy`). One that does not fit
breaks off, and still no copy changes a byte before the offset that it starts from
(`Heap.getElem?_copy_of_lt`). So a copy into the heap proper leaves the bitmap alone, whether it
fits or not (`Heap.bitmap_copy`).

Element by element, `Region.fitting` is the number of those that lie inside the region. A write is
one write of the bytes of these and a fault at the next one (`Region.writeAll_eq`), and a read is
served if all of them do, with the elements whose bytes are there (`Region.readAll_eq_ok_iff`).
-/

set_option autoImplicit false
set_option relaxedAutoImplicit false

namespace LinearHeap

/-- A copy between the region and a buffer of the caller. -/
inductive Copy where
  | read (type : ElementType) (offset count : Nat)
  | readWindow (type : ElementType) (offset : Nat) (buffer : List type.Element)
      (start length : Nat)
  | write (type : ElementType) (offset : Nat) (elements : List type.Element)
  | writeWindow (type : ElementType) (offset : Nat) (buffer : List type.Element)
      (start length : Nat)

namespace Copy

/-- The offset in the region that a copy starts from. -/
def offset : Copy → Nat
  | read _ offset _ | readWindow _ offset _ _ _ | write _ offset _ | writeWindow _ offset _ _ _ =>
    offset

/-- The bytes that a copy stores one after the other: the encodings of its elements. A window that
the caller's buffer does not have stores none. -/
def stored : Copy → List UInt8
  | read _ _ _ | readWindow _ _ _ _ _ => []
  | write type _ elements => elements.flatMap type.encode
  | writeWindow type _ buffer start length =>
    if start + length ≤ buffer.length then
      ((buffer.drop start).take length).flatMap type.encode
    else []

end Copy

/-- The heap after a copy. A read leaves it as it is. -/
def Heap.copy (heap : Heap) : Copy → Heap
  | .read _ _ _ | .readWindow _ _ _ _ _ => heap
  | .write type offset elements => (heap.writeAll type offset elements).1
  | .writeWindow type offset buffer start length =>
    (heap.writeWindow type offset buffer start length).1

/-- A region after a copy, which looks at nothing but the elements. -/
def Region.copy (region : Region) : Copy → Region
  | .read _ _ _ | .readWindow _ _ _ _ _ => region
  | .write type offset elements => (region.writeAll type offset elements).1
  | .writeWindow type offset buffer start length =>
    (region.writeWindow type offset buffer start length).1

/-- A copy into a heap is one into its region. -/
theorem Heap.region_copy_eq (heap : Heap) (copy : Copy) :
    (heap.copy copy).region = heap.region.copy copy := by
  cases copy <;> rfl

theorem ElementType.length_flatMap_encode (type : ElementType) (elements : List type.Element) :
    (elements.flatMap type.encode).length = elements.length * type.width := by
  simp only [List.length_flatMap, type.length_encode, List.map_const', List.sum_replicate_nat]

/-! ### Elements that fit -/

namespace Region

variable {region : Region} {type : ElementType} {offset count : Nat} {elements : List type.Element}

/-- How many of so many elements, one after the other from an offset on, lie inside the region. -/
def fitting (region : Region) (type : ElementType) (offset count : Nat) : Nat :=
  min count ((region.size - offset) / type.width)

/-- What breaks a copy of so many elements off: the first that does not lie inside the region. -/
def breakOff? (region : Region) (type : ElementType) (offset count : Nat) : Option Fault :=
  if region.fitting type offset count = count then none
  else some (.outsideRegion (offset + region.fitting type offset count * type.width) type.width)

/-- So many elements fit if there are no more than asked for and the last one ends inside the
region; none at all fit anywhere. -/
theorem le_fitting_iff {fit : Nat} :
    fit ≤ region.fitting type offset count ↔
      fit ≤ count ∧ (fit = 0 ∨ offset + fit * type.width ≤ region.size) := by
  have hnone : fit * type.width = 0 ↔ fit = 0 := by
    rw [Nat.mul_eq_zero, or_iff_left (Nat.ne_of_gt type.width_pos)]
  rw [fitting, Nat.le_min, Nat.le_div_iff_mul_le type.width_pos]
  refine and_congr_right fun _ ↦ ?_
  omega

theorem fitting_le (region : Region) (type : ElementType) (offset count : Nat) :
    region.fitting type offset count ≤ count :=
  Nat.min_le_left _ _

theorem fitting_eq_self_iff :
    region.fitting type offset count = count ↔
      count = 0 ∨ offset + count * type.width ≤ region.size :=
  ⟨fun h ↦ (le_fitting_iff.mp (Nat.le_of_eq h.symm)).2, fun h ↦
    Nat.le_antisymm (fitting_le _ _ _ _) (le_fitting_iff.mpr ⟨Nat.le_refl count, h⟩)⟩

/-- The elements that fit end inside the region, unless there are none. -/
theorem fitting_eq_zero_or_le (region : Region) (type : ElementType) (offset count : Nat) :
    region.fitting type offset count = 0 ∨
      offset + region.fitting type offset count * type.width ≤ region.size :=
  (le_fitting_iff.mp (Nat.le_refl _)).2

/-- One more element fits if it lies inside the region, and then as many as fit behind it. -/
theorem fitting_succ (region : Region) (type : ElementType) (offset count : Nat) :
    region.fitting type offset (count + 1) =
      if region.Holds type offset then region.fitting type (offset + type.width) count + 1
      else 0 := by
  have hwidth := type.width_pos
  rw [fitting, fitting]
  split
  · next hholds =>
    have hle : type.width ≤ region.size - offset := Nat.le_sub_of_add_le' hholds
    rw [Nat.div_eq_sub_div hwidth hle, Nat.sub_sub, Nat.succ_min_succ]
  · next hholds =>
    simp only [Holds] at hholds
    rw [Nat.div_eq_of_lt (by omega), Nat.min_zero]

theorem breakOff?_succ (region : Region) (type : ElementType) (offset count : Nat) :
    region.breakOff? type offset (count + 1) =
      if region.Holds type offset then region.breakOff? type (offset + type.width) count
      else some (.outsideRegion offset type.width) := by
  rw [breakOff?, fitting_succ]
  split
  · have hoffset : ∀ fit, offset + (fit + 1) * type.width =
        offset + type.width + fit * type.width := by
      intro fit
      rw [Nat.succ_mul, Nat.add_comm (fit * _), Nat.add_assoc]
    simp only [Nat.add_right_cancel_iff, hoffset, breakOff?]
  · rw [if_neg (Nat.succ_ne_zero count).symm, Nat.zero_mul, Nat.add_zero]

/-- How many elements fit is a matter of the region's size alone. -/
@[simp] theorem fitting_overwrite (region : Region) (type : ElementType) (offset count start : Nat)
    (source : List UInt8) :
    (region.overwrite start source).fitting type offset count =
      region.fitting type offset count := by
  rw [fitting, fitting, size_overwrite]

@[simp] theorem breakOff?_overwrite (region : Region) (type : ElementType)
    (offset count start : Nat) (source : List UInt8) :
    (region.overwrite start source).breakOff? type offset count =
      region.breakOff? type offset count := by
  rw [breakOff?, breakOff?, fitting_overwrite]

/-- A copy into the region is one write of the bytes of the elements that fit; the next one breaks
it off. -/
theorem writeAll_eq (region : Region) (type : ElementType) (offset : Nat)
    (elements : List type.Element) :
    region.writeAll type offset elements =
      (region.overwrite offset
        ((elements.take (region.fitting type offset elements.length)).flatMap type.encode),
        region.breakOff? type offset elements.length) := by
  -- How many of the rest fit behind the first element does not depend on its being written.
  induction elements generalizing region offset with
  | nil =>
    rw [List.take_nil, List.flatMap_nil, overwrite_nil, List.length_nil, breakOff?,
      if_pos (fitting_eq_self_iff.mpr (Or.inl rfl))]
    rfl
  | cons element rest ih =>
    rw [writeAll, List.length_cons, fitting_succ, breakOff?_succ]
    split
    · rw [ih, fitting_overwrite, breakOff?_overwrite, List.take_succ_cons, List.flatMap_cons,
        overwrite_append, type.length_encode]
    · rw [List.take_zero, List.flatMap_nil, overwrite_nil]

/-- A read of some elements is a read of the first and of the others. -/
theorem readAll_succ_eq_ok_iff :
    region.readAll type offset (count + 1) = .ok elements ↔
      ∃ element rest, elements = element :: rest ∧ region.load type offset = .ok element ∧
        region.readAll type (offset + type.width) count = .ok rest := by
  rw [readAll]
  cases region.load type offset with
  | error fault => simp [bind, Except.bind]
  | ok element =>
    cases region.readAll type (offset + type.width) count with
    | error fault => simp [bind, Except.bind]
    | ok rest => simp [bind, Except.bind, pure, Except.pure, eq_comm]

/-- A copy out of the region is served if all elements fit, and it gives those whose bytes are
there. -/
theorem readAll_eq_ok_iff :
    region.readAll type offset count = .ok elements ↔
      elements.length = count ∧ region.fitting type offset count = count ∧
        elements.flatMap type.encode = region.slice offset (count * type.width) := by
  induction count generalizing offset elements with
  | zero =>
    rw [readAll, Nat.zero_mul, slice_zero, Except.ok.injEq, List.length_eq_zero_iff]
    constructor
    · rintro rfl
      exact ⟨rfl, fitting_eq_self_iff.mpr (Or.inl rfl), rfl⟩
    · exact fun h ↦ h.1.symm
  | succ count ih =>
    rw [readAll_succ_eq_ok_iff, fitting_succ, Nat.succ_mul, Nat.add_comm (_ * _), slice_add]
    simp only [ih, load_eq_ok_iff]
    constructor
    · rintro ⟨element, rest, rfl, ⟨hholds, hfirst⟩, hlength, hfits, hrest⟩
      rw [if_pos hholds, hfits, List.length_cons, hlength, List.flatMap_cons, hfirst, hrest]
      exact ⟨rfl, rfl, rfl⟩
    · rintro ⟨hlength, hfits, hbytes⟩
      obtain ⟨element, rest, rfl⟩ := List.exists_cons_of_length_eq_add_one hlength
      split at hfits
      · next hholds =>
        rw [List.flatMap_cons] at hbytes
        obtain ⟨hfirst, hrest⟩ := List.append_inj hbytes
          ((type.length_encode element).trans (region.length_slice hholds).symm)
        exact ⟨element, rest, rfl, ⟨hholds, hfirst⟩, Nat.succ.inj hlength, Nat.succ.inj hfits,
          hrest⟩
      · exact absurd hfits (Nat.succ_ne_zero count).symm

/-- A copy out of the region is served if all elements fit. -/
theorem exists_readAll_eq_ok_iff :
    (∃ elements, region.readAll type offset count = .ok elements) ↔
      region.fitting type offset count = count := by
  refine ⟨fun ⟨elements, h⟩ ↦ (readAll_eq_ok_iff.mp h).2.1, fun hfits ↦ ?_⟩
  induction count generalizing offset with
  | zero => exact ⟨[], rfl⟩
  | succ count ih =>
    rw [fitting_succ] at hfits
    split at hfits
    · next hholds =>
      obtain ⟨rest, hrest⟩ := ih (Nat.succ.inj hfits)
      exact ⟨_, readAll_succ_eq_ok_iff.mpr ⟨_, rest, rfl, load_of_holds hholds, hrest⟩⟩
    · exact absurd hfits (Nat.succ_ne_zero count).symm

/-- The elements that a copy has stored are read back as they were. -/
theorem readAll_writeAll_fitting (region : Region) (type : ElementType) (offset : Nat)
    (elements : List type.Element) :
    (region.writeAll type offset elements).1.readAll type offset
        (region.fitting type offset elements.length) =
      .ok (elements.take (region.fitting type offset elements.length)) := by
  have hle := region.fitting_le type offset elements.length
  have hfits := region.fitting_eq_zero_or_le type offset elements.length
  rw [writeAll_eq, readAll_eq_ok_iff, fitting_overwrite, fitting_eq_self_iff,
    List.length_take_of_le hle]
  refine ⟨rfl, hfits, ?_⟩
  rcases hfits with hnone | hsize
  · rw [hnone, Nat.zero_mul, slice_zero]
    rfl
  · rw [← congrArg (· * type.width) (List.length_take_of_le hle),
      ← type.length_flatMap_encode] at hsize ⊢
    exact (region.slice_overwrite_self hsize).symm

end Region

/-- Writing some elements that fit is one write of their bytes. -/
theorem Heap.region_writeAll {heap : Heap} {type : ElementType} {offset : Nat}
    {elements : List type.Element}
    (h : elements.flatMap type.encode = [] ∨
      offset + (elements.flatMap type.encode).length ≤ heap.region.size) :
    (heap.writeAll type offset elements).1.region =
      heap.region.overwrite offset (elements.flatMap type.encode) := by
  rw [type.length_flatMap_encode] at h
  rcases h with hnone | hle
  · have hlength := congrArg List.length hnone
    rw [type.length_flatMap_encode, List.length_nil] at hlength
    have hwidth := Nat.ne_of_gt type.width_pos
    rw [List.length_eq_zero_iff.mp ((Nat.mul_eq_zero.mp hlength).resolve_right hwidth)]
    rfl
  · exact congrArg Prod.fst (Region.writeAll_of_le hle)

/-- A copy whose bytes lie in the region is one write of these bytes. -/
theorem Heap.region_copy {heap : Heap} {copy : Copy}
    (h : copy.stored = [] ∨ copy.offset + copy.stored.length ≤ heap.region.size) :
    (heap.copy copy).region = heap.region.overwrite copy.offset copy.stored := by
  cases copy with
  | read type offset count => rfl
  | readWindow type offset buffer start length => rfl
  | write type offset elements => exact heap.region_writeAll h
  | writeWindow type offset buffer start length =>
    by_cases hwindow : start + length ≤ buffer.length
    · simp only [Copy.stored, Copy.offset, if_pos hwindow] at h ⊢
      rw [← region_writeAll h]
      simp only [copy, writeWindow, Region.writeWindow, if_pos hwindow, writeAll]
    · simp only [Copy.stored, Copy.offset, if_neg hwindow, Region.overwrite_nil]
      simp only [copy, writeWindow, Region.writeWindow, if_neg hwindow]

/-! ### Copies and the bitmap -/

/-- A copy that stores nothing in the bitmap: it stores no byte at all, or starts in the heap
proper. -/
def Copy.SparesBitmap (copy : Copy) : Prop := copy.stored = [] ∨ Layout.heapStart ≤ copy.offset

instance (copy : Copy) : Decidable copy.SparesBitmap :=
  inferInstanceAs (Decidable (_ ∨ _))

/-- Writing some elements keeps the bytes before them, also where the write breaks off. -/
theorem Region.getElem?_writeAll_of_lt {region : Region} {type : ElementType} {offset i : Nat}
    {elements : List type.Element} (h : i < offset) :
    (region.writeAll type offset elements).1.bytes[i]? = region.bytes[i]? := by
  rw [writeAll_eq]
  exact getElem?_overwrite_of_lt h

/-- At a byte that lies eight bytes or more before the end of the region, writing some elements does
what one write of their bytes does, also where the write breaks off: an element that does not fit
starts after it. -/
theorem Region.getElem?_writeAll_of_add_le {region : Region} {type : ElementType} {offset i : Nat}
    {elements : List type.Element} (h : i + 8 ≤ region.size) :
    (region.writeAll type offset elements).1.bytes[i]? =
      (region.overwrite offset (elements.flatMap type.encode)).bytes[i]? := by
  induction elements generalizing region offset with
  | nil => rfl
  | cons element rest ih =>
    rw [writeAll]
    split
    · rw [ih (by rwa [size_overwrite]), List.flatMap_cons, overwrite_append, type.length_encode]
    · next hfits =>
      have hwidth := type.width_le
      simp only [Holds] at hfits
      exact (getElem?_overwrite_of_lt (by omega)).symm

/-- Elements that fit are read back as they were written. -/
theorem Region.readAll_writeAll {region : Region} {type : ElementType} {offset : Nat}
    {elements : List type.Element} (h : offset + elements.length * type.width ≤ region.size) :
    (region.writeAll type offset elements).1.readAll type offset elements.length =
      .ok elements := by
  have hback := region.readAll_writeAll_fitting type offset elements
  rwa [fitting_eq_self_iff.mpr (Or.inr h), List.take_length] at hback

namespace Heap

variable {heap : Heap} {copy : Copy} {i : Nat}

/-- A copy keeps the bytes before the offset that it starts from. -/
theorem getElem?_copy_of_lt (h : i < copy.offset) :
    (heap.copy copy).region.bytes[i]? = heap.region.bytes[i]? := by
  cases copy with
  | read type offset count => rfl
  | readWindow type offset buffer start length => rfl
  | write type offset elements => exact Region.getElem?_writeAll_of_lt h
  | writeWindow type offset buffer start length =>
    simp only [Heap.copy, writeWindow, Region.writeWindow]
    split
    · exact Region.getElem?_writeAll_of_lt h
    · rfl

/-- On the first page a copy is one write of the bytes that it stores, whether it fits or not. -/
theorem getElem?_copy_of_lt_heapStart (h : i < Layout.heapStart) :
    (heap.copy copy).region.bytes[i]? =
      (heap.region.overwrite copy.offset copy.stored).bytes[i]? := by
  have hcapacity := heap.capacity_le
  rw [Layout.heapStart_eq] at h
  rw [Layout.capacity_eq] at hcapacity
  have hroom : i + 8 ≤ heap.region.size := by omega
  cases copy with
  | read type offset count => rfl
  | readWindow type offset buffer start length => rfl
  | write type offset elements => exact Region.getElem?_writeAll_of_add_le hroom
  | writeWindow type offset buffer start length =>
    simp only [Heap.copy, writeWindow, Region.writeWindow, Copy.stored, Copy.offset]
    split
    · exact Region.getElem?_writeAll_of_add_le hroom
    · rfl

/-- A copy that spares the bitmap does not change it. -/
theorem bitmap_copy (h : copy.SparesBitmap) : (heap.copy copy).bitmap = heap.bitmap := by
  rw [bitmap, bitmap]
  rcases h with hnone | hstart
  · rw [region_copy (Or.inl hnone), hnone, Region.overwrite_nil]
  · refine congrArg Bitmap.ofBytes (Region.slice_congr fun i _ hi ↦ getElem?_copy_of_lt ?_)
    rw [Nat.zero_add] at hi
    exact Nat.lt_of_lt_of_le hi hstart

end Heap

end LinearHeap
