import Mathlib.Algebra.Order.BigOperators.Group.List
import Mathlib.Algebra.Order.Ring.Nat
import LinearHeap.Proofs.BitmapViews
import LinearHeap.Proofs.GranuleCount
import LinearHeap.Proofs.LeastRoom

/-!
# How full a heap is that refuses a request

A heap refuses a request for want of room only if it is full enough. The places that a search looks
at fall into blocks of the length that it looks for; when it finds nothing, no block is free, so
each has a taken place, and there are at least as many taken places as blocks (`div_le_card_taken`).

For a small request the places are the bits of each word, so every word has that many bits set
(`Bitmap.div_le_cpop_word`). For a large one they are the words, so that many words are not zero
(`Bitmap.div_le_card_usedPages`). Either way the number of allocated granules has a lower bound,
which a caller can compare with `Heap.allocated` before asking. Where the blocks are single granules
the bound is the whole heap, and then the converse holds as well
(`Bitmap.not_hasRoom_granule_iff`).
-/

set_option autoImplicit false
set_option relaxedAutoImplicit false

namespace LinearHeap

/-- Where no run of a length is free, there is a taken place in each block of that length. -/
theorem div_le_card_taken {free : Nat → Bool} {length bound : Nat} (hlength : 0 < length)
    (h : ∀ start, ¬ IsRun free length bound start) :
    bound / length ≤ ((Finset.range bound).filter fun place ↦ free place = false).card := by
  -- Division by the length sends each place to its block, and every block is met by a taken place.
  have hsurj : Set.SurjOn (fun place ↦ place / length)
      ((Finset.range bound).filter fun place ↦ free place = false)
      (Finset.range (bound / length)) := by
    intro block hblock
    have hlt : block < bound / length := Finset.mem_range.mp hblock
    have hend : block * length + length ≤ bound := by
      rw [← Nat.succ_mul]
      exact Nat.le_trans (Nat.mul_le_mul_right _ hlt) (Nat.div_mul_le_self _ _)
    obtain ⟨i, hi, htaken⟩ : ∃ i, i < length ∧ free (block * length + i) = false := by
      by_contra hnone
      simp only [not_exists, not_and, Bool.not_eq_false] at hnone
      exact h _ ⟨hend, hnone⟩
    refine ⟨block * length + i, ?_, ?_⟩
    · rw [Finset.coe_filter]
      exact ⟨Finset.mem_range.mpr (by omega), htaken⟩
    · change (block * length + i) / length = block
      rw [Nat.mul_comm, Nat.mul_add_div hlength, Nat.div_eq_of_lt hi, Nat.add_zero]
  have hcard := Finset.card_le_card_of_surjOn _ hsurj
  rwa [Finset.card_range] at hcard

namespace Bitmap

variable {bitmap : Bitmap} {granules pages index : Nat}

/-- The pages with an allocated granule. -/
def usedPages (bitmap : Bitmap) : Finset Nat :=
  (Finset.range Layout.bitmapWords).filter fun index ↦ bitmap.word index ≠ 0#_

/-! ### Where a search fails -/

/-- Without room for a small request every word has a set bit for each block of its length. -/
theorem div_le_cpop_word (hpos : 0 < granules)
    (h : ∀ first, ¬ bitmap.HasRoom (.small granules) first) (hindex : index < Layout.bitmapWords) :
    Layout.granulesPerPage / granules ≤ (bitmap.word index).cpop.toNat := by
  have htaken := div_le_card_taken hpos fun start hrun ↦
    h _ ((isRun_getLsbD_word_iff hindex hpos).mp hrun).2
  simp only [Bool.not_eq_false'] at htaken
  rwa [toNat_cpop_word, countP_range_eq_card]

/-- Without room for a large request there is a page in use for each block of its length. -/
theorem div_le_card_usedPages (hpos : 0 < pages)
    (h : ∀ first, ¬ bitmap.HasRoom (.large pages) first) :
    Layout.bitmapWords / pages ≤ bitmap.usedPages.card := by
  have htaken := div_le_card_taken hpos fun page hrun ↦ h _ ((isRun_word_iff hpos).mp hrun)
  simp only [beq_eq_false_iff_ne] at htaken
  exact htaken

/-! ### What that says about the counts -/

/-- What every word has at least, the heap has once for each word. -/
theorem mul_le_allocated {least : Nat}
    (h : ∀ index, index < Layout.bitmapWords → least ≤ (bitmap.word index).cpop.toNat) :
    Layout.bitmapWords * least ≤ bitmap.allocated := by
  have hwords : ∀ count ∈ (List.range Layout.bitmapWords).map
      fun index ↦ (bitmap.word index).cpop.toNat, least ≤ count := by
    intro count hmem
    obtain ⟨index, hindex, rfl⟩ := List.mem_map.mp hmem
    exact h index (List.mem_range.mp hindex)
  have hsum := List.card_nsmul_le_sum _ _ hwords
  rwa [List.length_map, List.length_range, Nat.nsmul_eq_mul, List.sum_eq_foldl] at hsum

/-- Each page in use has an allocated granule of its own. -/
theorem card_usedPages_le_allocated (bitmap : Bitmap) :
    bitmap.usedPages.card ≤ bitmap.allocated := by
  rw [allocated_eq_card]
  refine Finset.card_le_card_of_surjOn (fun granule ↦ granule / Layout.granulesPerPage) ?_
  intro index hused
  obtain ⟨_, hword⟩ := Finset.mem_filter.mp hused
  simp only [ne_eq, word_eq_zero_iff, not_forall, Bool.not_eq_false] at hword
  obtain ⟨bit, hbit, hset⟩ := hword
  refine ⟨_, mem_granules_iff.mpr hset, ?_⟩
  change (index * Layout.granulesPerPage + bit) / Layout.granulesPerPage = index
  simp only [Layout.granulesPerPage] at *
  omega

/-- Where there is room, its granules are free. -/
theorem HasRoom.granuleCount_le_free {sizeClass : SizeClass} {first : Nat}
    (h : bitmap.HasRoom sizeClass first) : sizeClass.granuleCount ≤ bitmap.free := by
  have hfill := allocated_fill h.inHeap h.2.2.2
  have hle := (bitmap.fill (sizeClass.window first)).allocated_le
  have hfree := bitmap.free_add_allocated
  rw [SizeClass.window] at hfill hle
  dsimp only at hfill
  omega

/-- There is no room for a single granule if no granule is free. -/
theorem not_hasRoom_granule_iff :
    (∀ first, ¬ bitmap.HasRoom (.small 1) first) ↔ bitmap.free = 0 := by
  constructor
  · intro hroom
    have hall := mul_le_allocated fun index hindex ↦ div_le_cpop_word Nat.one_pos hroom hindex
    have hfree := bitmap.free_add_allocated
    rw [Nat.div_one, ← Layout.heapGranules] at hall
    omega
  · intro hfree first hroom
    have hle := hroom.granuleCount_le_free
    rw [hfree] at hle
    exact absurd hle (by decide)

end Bitmap

namespace Heap

variable {heap : Heap} {align size : Nat}

/-- Only a request for some bytes with a supported alignment is refused for want of room. -/
theorem request_of_exhausted
    (h : (heap.allocate align size).outcome = .refused (.outOfMemory size)) :
    align ∈ [1, 2, 4, 8] ∧ 0 < size := by
  rw [outcome_allocate] at h
  cases hsupported : Alignment.ofNat? align with
  | none =>
    rw [Bitmap.allocate, Bitmap.resize_of_unsupported _ _ _ _ hsupported] at h
    cases h
  | some alignment =>
    refine ⟨?_, Nat.pos_of_ne_zero fun hzero ↦ ?_⟩
    · rw [← Alignment.bytes_of_ofNat? hsupported]
      cases alignment <;> decide
    · rw [hzero, Bitmap.allocate_eq_place _ hsupported, Bitmap.place_zero] at h
      cases h

/-- The words that are not zero are those of the pages in use. -/
theorem filter_word?_eq_usedPages (heap : Heap) :
    ((Finset.range Layout.bitmapWords).filter fun index ↦ heap.word? index ≠ some 0#_) =
      heap.bitmap.usedPages := by
  refine Finset.filter_congr fun index hindex ↦ ?_
  rw [heap.word?_of_lt (Finset.mem_range.mp hindex), ne_eq, Option.some.injEq]

/-- A request of one granule is refused for want of room if no granule is free and its alignment is
supported. -/
theorem exhausted_iff_of_le_granuleBytes (heap : Heap) (align : Nat) (hsize : 0 < size)
    (hgranule : size ≤ Layout.granuleBytes) :
    (heap.allocate align size).outcome = .refused (.outOfMemory size) ↔
      align ∈ [1, 2, 4, 8] ∧ heap.free = 0 := by
  have hone : SizeClass.ofSize size = .small 1 := by
    rw [Layout.granuleBytes] at hgranule
    rw [SizeClass.ofSize_of_lt (by rw [Layout.pageBytes_eq]; omega)]
    congr 1
    omega
  have hroom : align ∈ [1, 2, 4, 8] →
      ((heap.allocate align size).outcome = .refused (.outOfMemory size) ↔ heap.free = 0) := by
    intro halign
    rw [outcome_allocate_eq_refused_iff heap halign hsize, hone,
      Bitmap.not_hasRoom_granule_iff, free]
  constructor
  · intro hexhausted
    obtain ⟨halign, _⟩ := request_of_exhausted hexhausted
    exact ⟨halign, (hroom halign).mp hexhausted⟩
  · rintro ⟨halign, hfree⟩
    exact (hroom halign).mpr hfree

/-- A heap that refuses a request for want of room is full enough. Whatever the bitmap holds: if the
request is for less than a page, `n = ⌈size / 8⌉` granules, then every word has at least `⌊64 / n⌋`
bits set, so at least `64 * ⌊64 / n⌋` granules are allocated; if it is for `p = ⌈size / 512⌉` pages,
then at least `⌊64 / p⌋` words are not zero, so at least as many granules are allocated. A request
of at most 8 bytes is refused so exactly when no granule is free and its alignment is supported. -/
theorem occupied_of_exhausted (heap : Heap) (align size : Nat) :
    ((heap.allocate align size).outcome = .refused (.outOfMemory size) →
      (size < Layout.pageBytes →
        (∀ index word, heap.word? index = some word →
          64 / ((size + 7) / 8) ≤ word.cpop.toNat) ∧
        64 * (64 / ((size + 7) / 8)) ≤ heap.allocated) ∧
      (Layout.pageBytes ≤ size →
        64 / ((size + 511) / 512) ≤ ((Finset.range Layout.bitmapWords).filter fun index ↦
          heap.word? index ≠ some 0#_).card ∧
        64 / ((size + 511) / 512) ≤ heap.allocated)) ∧
    (0 < size → size ≤ 8 →
      ((heap.allocate align size).outcome = .refused (.outOfMemory size) ↔
        align ∈ [1, 2, 4, 8] ∧ heap.free = 0)) := by
  refine ⟨fun hexhausted ↦ ?_, heap.exhausted_iff_of_le_granuleBytes align⟩
  obtain ⟨halign, hsize⟩ := request_of_exhausted hexhausted
  have hroom := (heap.outcome_allocate_eq_refused_iff halign hsize).mp hexhausted
  constructor
  · intro hsmall
    rw [SizeClass.ofSize_of_lt hsmall] at hroom
    have hpos : 0 < (size + 7) / 8 := by omega
    have hwords : ∀ index, index < Layout.bitmapWords →
        64 / ((size + 7) / 8) ≤ (heap.bitmap.word index).cpop.toNat :=
      fun _ ↦ Bitmap.div_le_cpop_word hpos hroom
    refine ⟨fun index word hword ↦ ?_, Bitmap.mul_le_allocated hwords⟩
    have hindex : index < Layout.bitmapWords := by
      by_contra hbeyond
      rw [word?_eq_none_iff.mpr (Nat.le_of_not_lt hbeyond)] at hword
      cases hword
    rw [heap.word?_of_lt hindex, Option.some.injEq] at hword
    exact hword ▸ hwords index hindex
  · intro hlarge
    rw [SizeClass.ofSize_of_le hlarge] at hroom
    have hpos : 0 < (size + 511) / 512 := by omega
    have hused := Bitmap.div_le_card_usedPages hpos hroom
    refine ⟨?_, Nat.le_trans hused heap.bitmap.card_usedPages_le_allocated⟩
    rwa [filter_word?_eq_usedPages]

/-- In each page, the last granule of every three is allocated, 21 of 64; a request for three
granules is refused. In every second page one granule is allocated, 32 in all; a request for two
pages is refused. So neither bound can be raised. In a full heap a request for one byte is refused.
-/
theorem occupied_of_exhausted_least :
    let thirds := zeroed.setBitmap ⟨BitVec.replicate 64 0x4924924924924924#64⟩
    let pages := zeroed.setBitmap ⟨BitVec.replicate 32 (1#128 <<< 64)⟩
    let full := zeroed.setBitmap ⟨BitVec.allOnes _⟩
    ((thirds.allocate 8 24).outcome = .refused (.outOfMemory 24) ∧ 24 < Layout.pageBytes ∧
      64 * 21 ≤ thirds.allocated ∧ thirds.allocated = 64 * 21) ∧
    ((pages.allocate 8 1024).outcome = .refused (.outOfMemory 1024) ∧ Layout.pageBytes ≤ 1024 ∧
      32 ≤ pages.allocated ∧ pages.allocated = 32) ∧
    (0 < 1 ∧ 1 ≤ 8 ∧ 8 ∈ [1, 2, 4, 8] ∧ full.free = 0 ∧
      (full.allocate 8 1).outcome = .refused (.outOfMemory 1)) := by
  intro thirds pages full
  have hthirds : thirds.bitmap = ⟨BitVec.replicate 64 0x4924924924924924#64⟩ :=
    bitmap_setBitmap _ _
  have hpages : pages.bitmap = ⟨BitVec.replicate 32 (1#128 <<< 64)⟩ := bitmap_setBitmap _ _
  have hfull : full.bitmap = ⟨BitVec.allOnes _⟩ := bitmap_setBitmap _ _
  have hsmall : (thirds.allocate 8 24).outcome = .refused (.outOfMemory 24) := by
    rw [outcome_allocate, hthirds]
    decide +kernel
  have hlarge : (pages.allocate 8 1024).outcome = .refused (.outOfMemory 1024) := by
    rw [outcome_allocate, hpages]
    decide +kernel
  have hthirdsCount : thirds.allocated = 64 * 21 := by
    rw [allocated, hthirds]
    decide +kernel
  have hpagesCount : pages.allocated = 32 := by
    rw [allocated, hpages]
    decide +kernel
  have hnone : full.free = 0 := by
    rw [free, hfull]
    decide +kernel
  refine ⟨⟨hsmall, by decide, ?_, hthirdsCount⟩, ⟨hlarge, by decide, ?_, hpagesCount⟩, by decide,
    by decide, by decide, hnone, ?_⟩
  · exact (((thirds.occupied_of_exhausted 8 24).1 hsmall).1 (by decide)).2
  · exact (((pages.occupied_of_exhausted 8 1024).1 hlarge).2 (by decide)).2
  · exact ((full.occupied_of_exhausted 8 1).2 (by decide) (by decide)).mpr ⟨by decide, hnone⟩

/-- In a full heap a request for one byte is not always refused for want of room: an alignment that
is not supported comes first. -/
theorem not_exhausted_of_unsupported :
    let full := zeroed.setBitmap ⟨BitVec.allOnes _⟩
    0 < 1 ∧ 1 ≤ 8 ∧ full.free = 0 ∧
      (full.allocate 3 1).outcome = .refused (.unsupportedAlign 3) ∧
      ¬ ((full.allocate 3 1).outcome = .refused (.outOfMemory 1) ↔ full.free = 0) := by
  intro full
  have hnone : full.free = 0 := by
    rw [free, bitmap_setBitmap]
    decide +kernel
  have hfirst : (full.allocate 3 1).outcome = .refused (.unsupportedAlign 3) := by
    rw [outcome_allocate, Bitmap.allocate, Bitmap.resize_of_unsupported _ _ _ _ rfl]
  refine ⟨by decide, by decide, hnone, hfirst, fun h ↦ ?_⟩
  have hroom := h.mpr hnone
  rw [hfirst] at hroom
  cases hroom

end Heap

end LinearHeap
