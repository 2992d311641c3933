import Mathlib.Algebra.Ring.Nat
import LinearHeap.Proofs.Checked.Words
import LinearHeap.Proofs.Copies

/-!
# Views of the bitmap

The bitmap can be looked at granule by granule, word by word and through two counts, and it lies in
the region as bytes that any copy may read or overwrite. All of these show the same 4096 bits
(`Heap.ViewsAgree`), whatever the first page holds: the words are little-endian, so bit `i % 64` of
word `i / 64` is bit `i % 8` of byte `i / 8`.

Copies come in two ways. What any copy leaves in the first page is what one write of its bytes
leaves there (`Heap.getElem?_copy_of_lt_heapStart`), at any offset and also for a copy that breaks
off; `Heap.isAllocated_copy` says it in granules. And 64-bit elements at the start of the region are
the words, read (`Heap.exists_readAll_eq_words`) as well as written
(`Heap.exists_writeAll_eq_words`).
`Heap.views_agree_after_copies` puts this together.
-/

set_option autoImplicit false
set_option relaxedAutoImplicit false

namespace LinearHeap

/-- The number of bits that are set in some bytes. -/
def setBits (bytes : List UInt8) : Nat :=
  (bytes.map fun byte ↦ (List.range 8).countP byte.toNat.testBit).sum

namespace Heap

/-- The views of the bitmap agree with each other and with the bytes of the first page, and so do
the same looks at the bitmap when they are taken word by word in the region. -/
structure ViewsAgree (heap : Heap) : Prop where
  isAllocated_byte : ∀ granule, granule < Layout.heapGranules →
    ∃ byte, heap.region.bytes[granule / 8]? = some byte ∧
      heap.isAllocated granule = byte.toNat.testBit (granule % 8)
  isAllocated_word : ∀ granule, granule < Layout.heapGranules →
    ∃ word, heap.word? (granule / Layout.granulesPerPage) = some word ∧
      heap.isAllocated granule = word.getLsbD (granule % Layout.granulesPerPage)
  isAllocated_beyond : ∀ granule, Layout.heapGranules ≤ granule →
    heap.isAllocated granule = false
  word?_eq_none_iff : ∀ index, heap.word? index = none ↔ Layout.bitmapWords ≤ index
  allocated_granules :
    heap.allocated = (List.range Layout.heapGranules).countP heap.isAllocated
  allocated_setBits : heap.allocated = setBits (heap.region.slice 0 Layout.heapStart)
  free_add_allocated : heap.free + heap.allocated = Layout.heapGranules
  isAllocated_inRegion : ∀ granule,
    Checked.isAllocated heap.region granule = .ok (heap.isAllocated granule)
  word?_inRegion : ∀ index, Checked.word? heap.region index = .ok (heap.word? index)
  counts_inRegion : Checked.allocated heap.region = .ok heap.allocated ∧
    Checked.free heap.region = .ok heap.free

variable {heap : Heap} {copy : Copy} {granule index : Nat}

/-! ### Bits, words and counts -/

/-- A granule of the heap has its bit in a byte of the first page. -/
theorem exists_byte (heap : Heap) (h : granule < Layout.heapGranules) :
    ∃ byte, heap.region.bytes[granule / 8]? = some byte ∧
      heap.isAllocated granule = byte.toNat.testBit (granule % 8) := by
  have hcapacity := heap.capacity_le
  rw [Layout.capacity_eq] at hcapacity
  rw [isAllocated_eq heap h]
  rw [Layout.heapGranules_eq] at h
  have hin : granule / 8 < heap.region.bytes.size := by
    simp only [Region.size] at hcapacity
    omega
  rw [Array.getElem?_eq_getElem hin]
  exact ⟨_, rfl, rfl⟩

theorem word?_of_lt (heap : Heap) (h : index < Layout.bitmapWords) :
    heap.word? index = some (heap.bitmap.word index) :=
  if_pos h

theorem word?_eq_none_iff : heap.word? index = none ↔ Layout.bitmapWords ≤ index := by
  rw [word?, Bitmap.word?]
  split
  · next h => exact iff_of_false (Option.some_ne_none _) (Nat.not_le.mpr h)
  · next h => exact iff_of_true rfl (Nat.le_of_not_lt h)

/-- The set bits of the words are those of the bytes of the first page. -/
theorem allocated_eq_setBits (heap : Heap) :
    heap.allocated = setBits (heap.region.slice 0 Layout.heapStart) := by
  have hlength : (heap.region.slice 0 Layout.heapStart).length = Layout.heapStart :=
    heap.region.length_slice (by rw [Nat.zero_add]; exact heap.heapStart_le)
  have hgranules : Layout.heapGranules = Layout.heapStart * 8 := rfl
  rw [allocated, Bitmap.allocated_eq_countP, hgranules, Bitmap.countP_range_mul,
    ← List.sum_eq_foldl, setBits]
  refine congrArg List.sum (List.ext_getElem ?_ ?_)
  · rw [List.length_map, List.length_map, List.length_range, hlength]
  · intro i hi _
    rw [List.length_map, List.length_range] at hi
    rw [List.getElem_map, List.getElem_map, List.getElem_range]
    apply List.countP_congr
    intro bit hbit
    have hbit := List.mem_range.mp hbit
    have hgranule : i * 8 + bit < Layout.heapGranules := by
      rw [hgranules]
      omega
    have hbyte : (i * 8 + bit) / 8 = i := by omega
    have hplace : (i * 8 + bit) % 8 = bit := by omega
    have hin : i < (heap.region.slice 0 Layout.heapStart).length := hlength.symm ▸ hi
    have hslice : heap.region.bytes[i]? = some (heap.region.slice 0 Layout.heapStart)[i] := by
      rw [← List.getElem?_eq_getElem, Region.getElem?_slice _ hi, Nat.zero_add]
    have hset := heap.isAllocated_eq hgranule
    rw [hbyte, hplace, hslice, isAllocated, Option.getD_some] at hset
    rw [hset]

/-- All views agree, whatever the first page holds. -/
theorem viewsAgree (heap : Heap) : heap.ViewsAgree where
  isAllocated_byte := fun _ h ↦ heap.exists_byte h
  isAllocated_word := fun granule h ↦ by
    refine ⟨_, heap.word?_of_lt (Checked.page_lt h), ?_⟩
    rw [isAllocated, Bitmap.isSet_eq_getLsbD_word]
  isAllocated_beyond := fun _ h ↦ heap.bitmap.isSet_eq_false_of_le h
  word?_eq_none_iff := fun _ ↦ word?_eq_none_iff
  allocated_granules := heap.bitmap.allocated_eq_countP
  allocated_setBits := heap.allocated_eq_setBits
  free_add_allocated := heap.bitmap.free_add_allocated
  isAllocated_inRegion := Checked.isAllocated_eq heap
  word?_inRegion := Checked.word?_eq heap
  counts_inRegion := ⟨Checked.allocated_eq heap, Checked.free_eq heap⟩

/-! ### Copies into the bitmap -/

/-- After a copy the granules whose bytes it stores show the bits of these bytes, and the others are
as they were. -/
theorem isAllocated_copy (heap : Heap) (copy : Copy) (h : granule < Layout.heapGranules) :
    (heap.copy copy).isAllocated granule =
      if copy.offset ≤ granule / 8 ∧ granule / 8 < copy.offset + copy.stored.length then
        (copy.stored[granule / 8 - copy.offset]?.getD 0).toNat.testBit (granule % 8)
      else heap.isAllocated granule := by
  have hpage : granule / 8 < Layout.heapStart := by
    rw [Layout.heapGranules_eq] at h
    rw [Layout.heapStart_eq]
    omega
  have hsize : granule / 8 < heap.region.size := Nat.lt_of_lt_of_le hpage heap.heapStart_le
  rw [isAllocated_eq _ h, getElem?_copy_of_lt_heapStart hpage, Region.getElem?_overwrite]
  by_cases hstored : copy.offset ≤ granule / 8 ∧ granule / 8 < copy.offset + copy.stored.length
  · rw [if_pos hstored, if_pos ⟨hsize, hstored⟩]
  · rw [if_neg hstored, if_neg fun hin ↦ hstored hin.2, isAllocated_eq heap h]

/-! ### Words as elements -/

/-- The elements of 64 bits at the start of the region are the words of the bitmap. -/
theorem readAll_words (heap : Heap) {count : Nat} (h : index + count ≤ Layout.bitmapWords) :
    heap.readAll .uint64 (8 * index) count =
      .ok ((List.range' index count).map fun index ↦ (heap.bitmap.word index).setWidth _) := by
  induction count generalizing index with
  | zero => rfl
  | succ count ih =>
    have hnext : index + 1 + count ≤ Layout.bitmapWords := by omega
    have hrest : heap.region.readAll .uint64 (8 * index + ElementType.width .uint64) count =
        .ok ((List.range' (index + 1) count).map fun index ↦
          (heap.bitmap.word index).setWidth _) := ih hnext
    rw [readAll, Region.readAll, Checked.load_word heap (by omega), hrest, List.range'_succ,
      List.map_cons]
    rfl

/-- The elements of the first page, read as 64-bit words, are the words of the bitmap. -/
theorem exists_readAll_eq_words (heap : Heap) :
    ∃ words, heap.readAll .uint64 0 Layout.bitmapWords = .ok words ∧
      ∀ index, (heap.word? index).map BitVec.toNat = words[index]?.map BitVec.toNat := by
  have hbound : 0 + Layout.bitmapWords ≤ Layout.bitmapWords := Nat.le_of_eq (Nat.zero_add _)
  refine ⟨_, heap.readAll_words hbound, fun index ↦ ?_⟩
  rw [List.getElem?_map]
  by_cases h : index < Layout.bitmapWords
  · rw [word?_of_lt heap h, List.getElem?_range' h]
    simp only [Option.map_some, Nat.zero_add, Nat.one_mul, BitVec.toNat_setWidth]
    rw [Nat.mod_eq_of_lt]
    exact (heap.bitmap.word index).isLt
  · rw [word?_eq_none_iff.mpr (Nat.le_of_not_lt h), List.getElem?_eq_none]
    · rfl
    · rw [List.length_range']
      exact Nat.le_of_not_lt h

/-- Elements of 64 bits that fill the first page are read back, and become the words of the
bitmap. -/
theorem exists_writeAll_eq_words (heap : Heap) {words : List (ElementType.Element .uint64)}
    (h : words.length = Layout.bitmapWords) :
    ∃ written, heap.writeAll .uint64 0 words = (written, none) ∧
      (∀ index, (written.word? index).map BitVec.toNat = words[index]?.map BitVec.toNat) ∧
      written.readAll .uint64 0 Layout.bitmapWords = .ok words := by
  have hcapacity := heap.capacity_le
  rw [Layout.capacity_eq] at hcapacity
  have hfits : 0 + words.length * ElementType.width .uint64 ≤ heap.region.size := by
    rw [h, Layout.bitmapWords_eq, ElementType.width]
    omega
  have hnone : (heap.writeAll .uint64 0 words).2 = none :=
    congrArg Prod.snd (Region.writeAll_of_le hfits)
  have hback : (heap.writeAll .uint64 0 words).1.readAll .uint64 0 words.length = .ok words :=
    Region.readAll_writeAll hfits
  rw [h] at hback
  refine ⟨_, Prod.ext rfl hnone, fun index ↦ ?_, hback⟩
  obtain ⟨read, hread, hwords⟩ := (heap.writeAll .uint64 0 words).1.exists_readAll_eq_words
  rw [hback, Except.ok.injEq] at hread
  rw [hwords index, hread]

/-- All views of the bitmap agree with the bytes of the first page, after anything. Whatever a heap
holds and whatever was copied into it, with elements of any type, at any offset and also if it did
not fit: a granule is allocated if its bit is set in its byte, which is its bit in its word, past
the last granule and the last word there is nothing, the count is that of the granules and of the
set bits of the page, and the two counts add up to all granules. One more copy changes just the bits
of the bytes that it stores. In particular 64 words written at the start of the region are then the
words of the bitmap and are read back, and words that are read there are the words of the bitmap. -/
theorem views_agree_after_copies (heap : Heap) (copies : List Copy) :
    let after := copies.foldl Heap.copy heap
    after.ViewsAgree ∧
    (∀ copied granule, granule < Layout.heapGranules →
      (after.copy copied).isAllocated granule =
        if copied.offset ≤ granule / 8 ∧
            granule / 8 < copied.offset + copied.stored.length then
          (copied.stored[granule / 8 - copied.offset]?.getD 0).toNat.testBit (granule % 8)
        else after.isAllocated granule) ∧
    (∀ words : List (ElementType.Element .uint64), words.length = Layout.bitmapWords →
      ∃ written, after.writeAll .uint64 0 words = (written, none) ∧
        (∀ index, (written.word? index).map BitVec.toNat = words[index]?.map BitVec.toNat) ∧
        written.readAll .uint64 0 Layout.bitmapWords = .ok words) ∧
    ∃ words, after.readAll .uint64 0 Layout.bitmapWords = .ok words ∧
      ∀ index, (after.word? index).map BitVec.toNat = words[index]?.map BitVec.toNat := by
  intro after
  exact ⟨after.viewsAgree, fun copied _ h ↦ after.isAllocated_copy copied h,
    fun _ h ↦ after.exists_writeAll_eq_words h, after.exists_readAll_eq_words⟩

/-- A 16-bit element at offset 511 puts one byte into the bitmap, and with it allocates granule
4095 of a heap of zeros. Then 64 words of five are written over the first page and read back. -/
theorem views_agree_after_copies_straddling :
    let after := zeroed.copy (.write .uint16 511 [0x0180#16])
    let words : List (ElementType.Element .uint64) := List.replicate 64 5#64
    4095 < Layout.heapGranules ∧ after.isAllocated 4095 = true ∧
      after.free + after.allocated = 4096 ∧ words.length = Layout.bitmapWords ∧
      ∃ written, after.writeAll .uint64 0 words = (written, none) ∧
        (written.word? 63).map BitVec.toNat = some 5 ∧
        written.readAll .uint64 0 64 = .ok words := by
  intro after words
  have hgranule : 4095 < Layout.heapGranules := by decide
  have hlength : words.length = Layout.bitmapWords := List.length_replicate
  obtain ⟨_, hcopy, _⟩ := views_agree_after_copies zeroed []
  have hset := hcopy (.write .uint16 511 [0x0180#16]) 4095 hgranule
  rw [if_pos (by decide)] at hset
  obtain ⟨hviews, _, hwrite, _⟩ :=
    views_agree_after_copies zeroed [.write .uint16 511 [0x0180#16]]
  obtain ⟨written, hwritten, hwords, hread⟩ := hwrite words hlength
  exact ⟨hgranule, hset.trans (by decide), hviews.free_add_allocated, hlength, written, hwritten,
    hwords 63, hread⟩

end Heap

end LinearHeap
