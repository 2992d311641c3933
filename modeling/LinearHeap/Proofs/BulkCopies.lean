import Mathlib.Algebra.Group.Nat.Defs
import Mathlib.Order.Bounds.Basic
import LinearHeap.Proofs.Checked.Copies

/-!
# Bulk copies store the longest prefix that fits

A copy into a region goes through its elements in order and stops at the first that does not lie
inside the region. What it has stored then is the longest prefix of the elements that fits
(`Region.StoresPrefix`), and the fault names the place of the next one. A copy out of a region is
served if all elements fit, and what it gives are the bytes that are there (`Region.ReadsBytes`), so
elements that were stored are read back bit for bit. A part of a buffer is copied in the same way,
if the buffer has that part; otherwise nothing is done.

`Region.copies_of_longest_prefix` says this for every region, offset and list of elements, and that
the copies that compute each place with numbers of 64 bits do the same, none of which is out of
range.
-/

set_option autoImplicit false
set_option relaxedAutoImplicit false

namespace LinearHeap

/-- The same copies, step by step in numbers of 64 bits, into and out of a region. -/
structure Checked.CopiesAgree (region : Region) (type : ElementType) (offset : Nat) : Prop where
  writeAll_eq : ∀ elements : List type.Element, Checked.writeAll region type offset elements =
    ((region.writeAll type offset elements).1,
      (region.writeAll type offset elements).2.map .fault)
  readAll_eq : ∀ count, Checked.readAll region type offset count =
    (region.readAll type offset count).mapError .fault
  writeWindow_eq : ∀ (buffer : List type.Element) (start length : UInt64),
    buffer.length < UInt64.size →
      Checked.writeWindow region type offset buffer start.toNat length.toNat =
        ((region.writeWindow type offset buffer start.toNat length.toNat).1,
          (region.writeWindow type offset buffer start.toNat length.toNat).2.map .fault)
  readWindow_eq : ∀ (buffer : List type.Element) (start length : UInt64),
    buffer.length < UInt64.size →
      Checked.readWindow region type offset buffer start.toNat length.toNat =
        (region.readWindow type offset buffer start.toNat length.toNat).mapError .fault

namespace Region

/-- Of some elements the first `stored` ones fit at an offset and no more, the bytes there are
theirs, all other bytes are as before, and the next element, if there is one, is the fault. -/
structure StoresPrefix (before : Region) (type : ElementType) (offset : Nat)
    (elements : List type.Element) (stored : Nat) (written : Region × Option Fault) : Prop where
  isGreatest : IsGreatest {count | count ≤ elements.length ∧
    (count = 0 ∨ offset + count * type.width ≤ before.size)} stored
  size_eq : written.1.size = before.size
  getElem?_eq : ∀ i : Nat, written.1.bytes[i]? =
    if offset ≤ i ∧ i < offset + stored * type.width then
      ((elements.take stored).flatMap type.encode)[i - offset]?
    else before.bytes[i]?
  fault_eq : written.2 =
    if stored = elements.length then none
    else some (.outsideRegion (offset + stored * type.width) type.width)

/-- So many elements are read at an offset if all of them fit there, and their bytes are the bytes
of the region. -/
structure ReadsBytes (region : Region) (type : ElementType) (offset count : Nat)
    (read : Except Fault (List type.Element)) : Prop where
  exists_ok_iff : (∃ elements, read = .ok elements) ↔
    count = 0 ∨ offset + count * type.width ≤ region.size
  bytes_eq : ∀ elements, read = .ok elements → elements.length = count ∧
    elements.flatMap type.encode = region.slice offset (count * type.width)

/-- A part of a buffer is filled with the elements at an offset, if all of them fit there; the rest
of the buffer is as before. -/
structure ReadsInto (region : Region) (type : ElementType) (offset : Nat)
    (buffer : List type.Element) (start length : Nat)
    (read : Except Fault (List type.Element)) : Prop where
  readsBytes : region.ReadsBytes type offset length
    (read.map fun filled ↦ (filled.drop start).take length)
  length_eq : ∀ filled, read = .ok filled → filled.length = buffer.length
  getElem?_eq : ∀ filled, read = .ok filled → ∀ i : Nat, i < start ∨ start + length ≤ i →
    filled[i]? = buffer[i]?

variable {region : Region} {type : ElementType} {offset : Nat}

theorem isGreatest_fitting (region : Region) (type : ElementType) (offset count : Nat) :
    IsGreatest {fit | fit ≤ count ∧ (fit = 0 ∨ offset + fit * type.width ≤ region.size)}
      (region.fitting type offset count) :=
  ⟨le_fitting_iff.mp (Nat.le_refl _), fun _ h ↦ le_fitting_iff.mpr h⟩

/-- A copy into a region stores the longest prefix that fits. -/
theorem storesPrefix_writeAll (region : Region) (type : ElementType) (offset : Nat)
    (elements : List type.Element) :
    region.StoresPrefix type offset elements (region.fitting type offset elements.length)
      (region.writeAll type offset elements) where
  isGreatest := isGreatest_fitting region type offset elements.length
  size_eq := region.size_writeAll type offset elements
  getElem?_eq := fun i ↦ by
    have hfits := region.fitting_eq_zero_or_le type offset elements.length
    rw [writeAll_eq, getElem?_overwrite, type.length_flatMap_encode,
      List.length_take_of_le (region.fitting_le type offset elements.length)]
    by_cases hin : offset ≤ i ∧
        i < offset + region.fitting type offset elements.length * type.width
    · have hsize : i < region.size := by
        rcases hfits with hnone | hsize
        · rw [hnone, Nat.zero_mul] at hin
          omega
        · omega
      rw [if_pos ⟨hsize, hin⟩, if_pos hin]
    · rw [if_neg fun h ↦ hin h.2, if_neg hin]
  fault_eq := by rw [writeAll_eq, breakOff?]

/-- A copy out of a region gives the bytes that are there, if the region has them all. -/
theorem readsBytes_readAll (region : Region) (type : ElementType) (offset count : Nat) :
    region.ReadsBytes type offset count (region.readAll type offset count) where
  exists_ok_iff := exists_readAll_eq_ok_iff.trans fitting_eq_self_iff
  bytes_eq := fun elements h ↦ by
    obtain ⟨hlength, _, hbytes⟩ := readAll_eq_ok_iff.mp h
    exact ⟨hlength, hbytes⟩

/-- No place that a copy looks at is out of the range of 64 bits: the first is not, and the others
lie behind elements inside the region. -/
theorem StoresPrefix.place_lt {elements : List type.Element} {stored number : Nat}
    {written : Region × Option Fault} (h : region.StoresPrefix type offset elements stored written)
    (hsize : region.size < UInt64.size) (hoffset : offset < UInt64.size)
    (hnumber : number ≤ stored) :
    offset + number * type.width < UInt64.size := by
  rcases h.isGreatest.1.2 with hnone | hfits
  · have hfirst : number = 0 := by omega
    rw [hfirst, Nat.zero_mul]
    exact hoffset
  · have hle : number * type.width ≤ stored * type.width := Nat.mul_le_mul_right _ hnumber
    omega

/-! ### Parts of a buffer -/

section Window

variable {buffer : List type.Element} {start length : Nat}

theorem writeWindow_of_le (region : Region) (offset : Nat) (h : start + length ≤ buffer.length) :
    region.writeWindow type offset buffer start length =
      region.writeAll type offset ((buffer.drop start).take length) :=
  if_pos h

theorem readWindow_of_le (region : Region) (offset : Nat) (h : start + length ≤ buffer.length) :
    region.readWindow type offset buffer start length =
      (region.readAll type offset length).map fun elements ↦
        buffer.take start ++ elements ++ buffer.drop (start + length) := by
  rw [readWindow, if_pos h]
  cases region.readAll type offset length <;> rfl

/-- What is read into a part of a buffer are the bytes of the region. -/
theorem readsInto_readWindow (region : Region) (offset : Nat)
    (h : start + length ≤ buffer.length) :
    region.ReadsInto type offset buffer start length
      (region.readWindow type offset buffer start length) := by
  rw [readWindow_of_le region offset h]
  have hreads := region.readsBytes_readAll type offset length
  cases hread : region.readAll type offset length with
  | error fault =>
    rw [hread] at hreads
    exact ⟨hreads, nofun, nofun⟩
  | ok elements =>
    have hlength := (hreads.bytes_eq elements hread).1
    have hstart : (buffer.take start).length = start := List.length_take_of_le (by omega)
    -- The part of the buffer that was replaced is what was read.
    have hpart : ((buffer.take start ++ elements ++ buffer.drop (start + length)).drop start).take
        length = elements := by
      rw [List.append_assoc, List.drop_left' hstart, List.take_left' hlength]
    rw [hread] at hreads
    refine ⟨?_, ?_, ?_⟩
    · simp only [Except.map, hpart]
      exact hreads
    · rintro _ ⟨rfl⟩
      simp only [List.length_append, hstart, hlength, List.length_drop]
      omega
    · rintro _ ⟨rfl⟩ i hi
      dsimp only
      rcases hi with hbefore | hafter
      · rw [List.append_assoc, List.getElem?_append_left (by omega),
          List.getElem?_take_of_lt hbefore]
      · rw [List.getElem?_append_right (by rw [List.length_append]; omega), List.length_append,
          List.getElem?_drop, hstart, hlength]
        congr 1
        omega

end Window

/-- Bulk copies store exactly the longest prefix that fits. In any region, at any offset and for any
type of elements: a copy stores the greatest number of elements, from the first on, that is zero or
ends inside the region; their bytes are there afterwards, every other byte and the size are as
before, and if there are more elements, the next one breaks it off. What was stored is read back bit
for bit. A copy out of the region is served if and only if there are no elements or the last one
ends inside the region, and gives those whose bytes are there. With a part of a buffer both do the
same if the buffer has that part, as exact numbers go, and nothing otherwise. If the size is below
`2 ^ 63` and the offset a number of 64 bits, then every place that is looked at is one, and the
copies that compute with such numbers step by step do the same. The copies of a heap are those of
its region. -/
theorem copies_of_longest_prefix (region : Region) (type : ElementType) (offset : Nat) :
    (∀ elements : List type.Element, ∃ stored,
      region.StoresPrefix type offset elements stored (region.writeAll type offset elements) ∧
        (region.writeAll type offset elements).1.readAll type offset stored =
          .ok (elements.take stored) ∧
        (region.size < 2 ^ 63 → offset < UInt64.size →
          ∀ number, number ≤ stored → offset + number * type.width < UInt64.size)) ∧
    (∀ count, region.ReadsBytes type offset count (region.readAll type offset count)) ∧
    (∀ (buffer : List type.Element) (start length : Nat),
      (start + length ≤ buffer.length →
        (∃ stored, region.StoresPrefix type offset ((buffer.drop start).take length) stored
          (region.writeWindow type offset buffer start length)) ∧
        region.ReadsInto type offset buffer start length
          (region.readWindow type offset buffer start length)) ∧
      (buffer.length < start + length →
        region.writeWindow type offset buffer start length =
            (region, some (.outsideBuffer start length)) ∧
          region.readWindow type offset buffer start length =
            .error (.outsideBuffer start length))) ∧
    (region.size < 2 ^ 63 → offset < UInt64.size → Checked.CopiesAgree region type offset) ∧
    ∀ heap : Heap, heap.region = region →
      (∀ elements : List type.Element,
        ((heap.writeAll type offset elements).1.region, (heap.writeAll type offset elements).2) =
          region.writeAll type offset elements) ∧
      (∀ count, heap.readAll type offset count = region.readAll type offset count) ∧
      ∀ (buffer : List type.Element) (start length : Nat),
        ((heap.writeWindow type offset buffer start length).1.region,
            (heap.writeWindow type offset buffer start length).2) =
          region.writeWindow type offset buffer start length ∧
        heap.readWindow type offset buffer start length =
          region.readWindow type offset buffer start length := by
  have hrange : region.size < 2 ^ 63 → region.size < UInt64.size := fun h ↦
    Nat.lt_trans h (by decide)
  refine ⟨fun elements ↦ ?_, region.readsBytes_readAll type offset,
    fun buffer start length ↦ ⟨fun hin ↦ ?_, fun hout ↦ ?_⟩, fun hsize hoffset ↦ ?_, ?_⟩
  · have hstores := region.storesPrefix_writeAll type offset elements
    exact ⟨_, hstores, region.readAll_writeAll_fitting type offset elements,
      fun hsize hoffset _ ↦ hstores.place_lt (hrange hsize) hoffset⟩
  · rw [writeWindow_of_le region offset hin]
    exact ⟨⟨_, region.storesPrefix_writeAll type offset _⟩,
      region.readsInto_readWindow offset hin⟩
  · exact ⟨if_neg (Nat.not_le_of_lt hout), if_neg (Nat.not_le_of_lt hout)⟩
  · exact ⟨Checked.writeAll_eq (hrange hsize) hoffset, Checked.readAll_eq (hrange hsize) hoffset,
      fun _ start length hbuffer ↦ Checked.writeWindow_eq (hrange hsize) hoffset hbuffer
        start.toNat_lt length.toNat_lt,
      fun _ start length hbuffer ↦ Checked.readWindow_eq (hrange hsize) hoffset hbuffer
        start.toNat_lt length.toNat_lt⟩
  · rintro heap rfl
    exact ⟨fun _ ↦ rfl, fun _ ↦ rfl, fun _ _ _ ↦ ⟨rfl, rfl⟩⟩

/-- Eleven bytes before the end of a region, two of three 32-bit floats fit. The first is a
signalling NaN and is read back as such; a part of a buffer whose end wraps is not there. -/
theorem copies_of_longest_prefix_past_end :
    let region := Heap.zeroed.region
    let elements : List (ElementType.Element .float32) :=
      [0x7FA00001#32, 0x80000000#32, 0x3F800000#32]
    (region.StoresPrefix .float32 33269 elements 2 (region.writeAll .float32 33269 elements) ∧
      (region.writeAll .float32 33269 elements).2 = some (.outsideRegion 33277 4) ∧
      (region.writeAll .float32 33269 elements).1.readAll .float32 33269 2 =
        .ok [0x7FA00001#32, 0x80000000#32]) ∧
    (region.size < 2 ^ 63 ∧ 33269 < UInt64.size ∧ 2 ≤ 2 ∧ 33269 + 2 * 4 < UInt64.size ∧
      Checked.CopiesAgree region .float32 33269) ∧
    (1 + 2 ≤ elements.length ∧ region.ReadsInto .float32 33269 elements 1 2
      (region.readWindow .float32 33269 elements 1 2)) ∧
    (elements.length < 2 + (UInt64.size - 1) ∧
      region.readWindow .float32 33269 elements 2 (UInt64.size - 1) =
        .error (.outsideBuffer 2 (UInt64.size - 1))) ∧
    (Heap.zeroed.region = region ∧
      Heap.zeroed.readAll .float32 33269 2 = region.readAll .float32 33269 2) := by
  intro region elements
  have hsize : region.size = 33280 := Array.size_replicate
  have hrange : region.size < 2 ^ 63 := by
    rw [hsize]
    decide
  have hfits : region.fitting .float32 33269 elements.length = 2 := by
    rw [fitting, hsize]
    decide
  obtain ⟨hwrite, _, hwindow, hagree, hheap⟩ := copies_of_longest_prefix region .float32 33269
  obtain ⟨stored, hstores, hback, hplaces⟩ := hwrite elements
  obtain rfl : stored = 2 := by
    rw [← hfits]
    exact hstores.isGreatest.unique (isGreatest_fitting _ _ _ _)
  refine ⟨⟨hstores, hstores.fault_eq, hback⟩,
    ⟨hrange, by decide, Nat.le_refl 2, hplaces hrange (by decide) 2 (Nat.le_refl 2),
      hagree hrange (by decide)⟩,
    ⟨by decide, ((hwindow elements 1 2).1 (by decide)).2⟩,
    ⟨by decide, ((hwindow elements 2 (UInt64.size - 1)).2 (by decide)).2⟩,
    rfl, (hheap Heap.zeroed rfl).2.1 2⟩

end Region

end LinearHeap
