import Mathlib.Order.Bounds.Defs
import LinearHeap.Proofs.Effects

/-!
# A request is given the least room

`Heap.FreeRun` and `Heap.FreePages` say, through the inspection of a heap, where a small and a large
request would fit. `Heap.allocate_isLeast` is the law of first fit: a request is answered with the
least place of its kind, and refused exactly when there is none. Neither the words that the search
passes over nor the counters that it sets back are visible in this answer.
-/

set_option autoImplicit false
set_option relaxedAutoImplicit false

namespace LinearHeap

namespace Heap

/-- So many granules from this one on lie in one page, and none of them is allocated. -/
def FreeRun (heap : Heap) (count granule : Nat) : Prop :=
  granule < Layout.heapGranules ∧
    granule % Layout.granulesPerPage + count ≤ Layout.granulesPerPage ∧
      ∀ i, i < count → heap.isAllocated (granule + i) = false

/-- So many words from this one on are words of the bitmap, and all of them are zero. -/
def FreePages (heap : Heap) (count page : Nat) : Prop :=
  page + count ≤ Layout.bitmapWords ∧ ∀ i, i < count → heap.word? (page + i) = some 0#_

variable {heap : Heap} {granules pages size first : Nat}

/-- Room for a small request is a free run of granules. -/
theorem hasRoom_small_iff :
    heap.bitmap.HasRoom (.small granules) first ↔ heap.FreeRun granules first := by
  simp only [Bitmap.HasRoom, FreeRun, SizeClass.unit, SizeClass.Admits, SizeClass.window,
    SizeClass.granuleCount, Window.InOnePage, Bitmap.isFree_iff, Window.mem_iff, isAllocated,
    Nat.mul_mod_left, true_and]
  refine and_congr_right fun _ ↦ and_congr_right fun _ ↦ ?_
  constructor
  · intro hfree i hi
    exact hfree (first + i) (by omega)
  · intro hfree granule hmem
    have hgranule := hfree (granule - first) (by omega)
    rwa [Nat.add_sub_of_le hmem.1] at hgranule

/-- Room for a large request is a free run of pages. -/
theorem hasRoom_large_iff (hpages : 0 < pages) {page : Nat} :
    heap.bitmap.HasRoom (.large pages) (page * Layout.granulesPerPage) ↔
      heap.FreePages pages page := by
  rw [← Bitmap.isRun_word_iff hpages, IsRun, FreePages]
  refine and_congr_right fun hbound ↦ forall_congr' fun i ↦ imp_congr_right fun hi ↦ ?_
  rw [word?, Bitmap.word?, if_pos (by omega), Option.some.injEq, beq_iff_eq]

/-- Room for a large request starts with a page. -/
theorem exists_page_of_hasRoom (h : heap.bitmap.HasRoom (.large pages) first) :
    ∃ page, first = page * Layout.granulesPerPage := by
  have hunit := h.2.1
  refine ⟨first / Layout.granulesPerPage, ?_⟩
  simp only [SizeClass.unit, Layout.pageBytes_eq, Layout.granuleBytes,
    Layout.granulesPerPage] at *
  omega

/-- The search for a size class finds the least granule with room for it. -/
theorem firstFit?_eq_some_iff_isLeast {sizeClass : SizeClass} (h : sizeClass.Searchable) :
    heap.bitmap.firstFit? sizeClass = some first ↔
      IsLeast {granule | heap.bitmap.HasRoom sizeClass granule} first := by
  rw [Bitmap.firstFit?_eq_some_iff h]
  refine and_congr_right fun _ ↦ ⟨?_, ?_⟩
  · intro hleast other hother
    exact Nat.le_of_not_lt fun hlt ↦ hleast other hlt hother
  · intro hlower other hlt hother
    exact Nat.not_le_of_lt hlt (hlower hother)

/-- The least room for a large request, counted in pages. -/
theorem isLeast_hasRoom_large_iff (hpages : 0 < pages) {page : Nat} :
    IsLeast {granule | heap.bitmap.HasRoom (.large pages) granule}
        (page * Layout.granulesPerPage) ↔ IsLeast {page | heap.FreePages pages page} page := by
  refine and_congr (hasRoom_large_iff hpages) ⟨?_, ?_⟩
  · intro hlower other hother
    have hle := hlower ((hasRoom_large_iff hpages).mpr hother)
    exact Nat.le_of_mul_le_mul_right hle (by decide)
  · intro hlower granule hroom
    obtain ⟨other, rfl⟩ := exists_page_of_hasRoom hroom
    exact Nat.mul_le_mul_right _ (hlower ((hasRoom_large_iff hpages).mp hroom))

/-- A request for some bytes is answered by the search for its size class. -/
theorem outcome_allocate_eq_firstFit? {align : Nat} (halign : align ∈ [1, 2, 4, 8])
    (hsize : 0 < size) :
    (heap.allocate align size).outcome =
      match heap.bitmap.firstFit? (.ofSize size) with
      | some first => .ok (Layout.granuleOffset first)
      | none => .refused (.outOfMemory size) := by
  obtain ⟨alignment, hsupported⟩ := Alignment.exists_ofNat?_eq_some halign
  rw [outcome_allocate, Bitmap.allocate_eq_place _ hsupported]
  cases hfound : heap.bitmap.firstFit? (.ofSize size) with
  | some first => rw [Bitmap.place_of_some alignment none hsize hfound]
  | none =>
    rw [Bitmap.place_of_none alignment hsize hfound
      (show heap.bitmap.putBack none = .ok heap.bitmap from rfl)]

/-- An answer to a request for some bytes is what first fit finds, and fills it. -/
theorem exists_firstFit?_of_allocate {align offset : Nat} (hsize : 0 < size)
    (h : (heap.allocate align size).outcome = .ok offset) :
    ∃ first, heap.bitmap.firstFit? (.ofSize size) = some first ∧
      offset = Layout.granuleOffset first ∧
        (heap.allocate align size).state.bitmap =
          heap.bitmap.fill ((SizeClass.ofSize size).window first) := by
  rw [outcome_allocate] at h
  have hgranted := Bitmap.granted_of_allocate h
  rw [Allocation.named?_of_pos hsize] at hgranted
  obtain ⟨_, ⟨first, hfound, hoffset⟩, hafter⟩ := hgranted
  change offset = Layout.granuleOffset first at hoffset
  subst hoffset
  rw [Allocation.window_mk_granuleOffset] at hafter
  exact ⟨first, hfound, rfl, by rw [state_allocate, bitmap_setBitmap, hafter]⟩

/-- A request is answered with a granule if that is the least one with room. -/
theorem outcome_allocate_eq_ok_iff (heap : Heap) {align : Nat} (halign : align ∈ [1, 2, 4, 8])
    (hsize : 0 < size) (first : Nat) :
    (heap.allocate align size).outcome = .ok (Layout.granuleOffset first) ↔
      IsLeast {granule | heap.bitmap.HasRoom (.ofSize size) granule} first := by
  rw [outcome_allocate_eq_firstFit? halign hsize,
    ← firstFit?_eq_some_iff_isLeast (SizeClass.searchable_ofSize hsize)]
  cases heap.bitmap.firstFit? (.ofSize size) with
  | some found =>
    simp only [Outcome.ok.injEq, Option.some.injEq, Layout.granuleOffset_eq]
    omega
  | none => simp only [reduceCtorEq]

/-- A request is refused if no granule has room. -/
theorem outcome_allocate_eq_refused_iff (heap : Heap) {align : Nat}
    (halign : align ∈ [1, 2, 4, 8]) (hsize : 0 < size) :
    (heap.allocate align size).outcome = .refused (.outOfMemory size) ↔
      ∀ first, ¬ heap.bitmap.HasRoom (.ofSize size) first := by
  rw [outcome_allocate_eq_firstFit? halign hsize,
    ← Bitmap.firstFit?_eq_none_iff (SizeClass.searchable_ofSize hsize)]
  cases heap.bitmap.firstFit? (.ofSize size) with
  | some found => simp only [reduceCtorEq]
  | none => simp only

/-- First fit. A request for `size` bytes with a supported alignment, less than a page, is answered
with the granule `g` at which the least free run of `⌈size / 8⌉` granules inside one page starts,
and is refused if there is no such run. A larger one is answered with the page at which the least
run of `⌈size / 512⌉` free pages starts, and is refused if there is no such run, as there is none
of more than 64. Assumes: a supported alignment and a positive size. -/
theorem allocate_isLeast (heap : Heap) {align size : Nat} (halign : align ∈ [1, 2, 4, 8])
    (hsize : 0 < size) :
    (size < Layout.pageBytes →
      (∀ granule, (heap.allocate align size).outcome = .ok (Layout.heapStart + 8 * granule) ↔
        IsLeast {granule | heap.FreeRun ((size + 7) / 8) granule} granule) ∧
      ((heap.allocate align size).outcome = .refused (.outOfMemory size) ↔
        ∀ granule, ¬ heap.FreeRun ((size + 7) / 8) granule)) ∧
    (Layout.pageBytes ≤ size →
      (∀ page, (heap.allocate align size).outcome = .ok (Layout.heapStart + 512 * page) ↔
        IsLeast {page | heap.FreePages ((size + 511) / 512) page} page) ∧
      ((heap.allocate align size).outcome = .refused (.outOfMemory size) ↔
        ∀ page, ¬ heap.FreePages ((size + 511) / 512) page) ∧
      (64 < (size + 511) / 512 →
        (heap.allocate align size).outcome = .refused (.outOfMemory size))) := by
  have hok := outcome_allocate_eq_ok_iff heap halign hsize
  have hrefused := outcome_allocate_eq_refused_iff heap halign hsize
  constructor
  · intro hsmall
    rw [SizeClass.ofSize_of_lt hsmall] at hrefused
    simp only [SizeClass.ofSize_of_lt hsmall, hasRoom_small_iff] at hok hrefused
    refine ⟨fun granule ↦ ?_, hrefused⟩
    rw [← hok granule, Layout.granuleOffset_eq, Layout.heapStart_eq]
  · intro hlarge
    have hpages : 0 < (size + 511) / 512 := by
      rw [Layout.pageBytes_eq] at hlarge
      omega
    have hnone : (heap.allocate align size).outcome = .refused (.outOfMemory size) ↔
        ∀ page, ¬ heap.FreePages ((size + 511) / 512) page := by
      rw [hrefused, SizeClass.ofSize_of_le hlarge]
      refine ⟨fun h page hfree ↦ h _ ((hasRoom_large_iff hpages).mpr hfree), ?_⟩
      intro h first hroom
      obtain ⟨page, rfl⟩ := exists_page_of_hasRoom hroom
      exact h page ((hasRoom_large_iff hpages).mp hroom)
    refine ⟨fun page ↦ ?_, hnone, fun htoo ↦ hnone.mpr ?_⟩
    · rw [← isLeast_hasRoom_large_iff hpages, ← SizeClass.ofSize_of_le hlarge, ← hok,
        ← Layout.pageOffset, Layout.pageOffset_eq, Layout.heapStart_eq]
    · rintro page ⟨hbound, _⟩
      rw [Layout.bitmapWords_eq] at hbound
      omega

/-- With the first page full and granules 69, 70 and 71 free in the second one, a request for 16
bytes is answered with granule 69, and one for 1024 bytes with page 2. -/
theorem allocate_isLeast_after_full_page :
    let heap := zeroed.setBitmap ((Bitmap.empty.fill ⟨0, 69⟩).fill ⟨72, 56⟩)
    (8 ∈ [1, 2, 4, 8] ∧ 0 < 16 ∧ 16 < Layout.pageBytes ∧
      (heap.allocate 8 16).outcome = .ok (Layout.heapStart + 8 * 69) ∧
        IsLeast {granule | heap.FreeRun 2 granule} 69) ∧
    Layout.pageBytes ≤ 1024 ∧
      (heap.allocate 8 1024).outcome = .ok (Layout.heapStart + 512 * 2) ∧
        IsLeast {page | heap.FreePages 2 page} 2 := by
  intro heap
  have hbitmap : heap.bitmap = (Bitmap.empty.fill ⟨0, 69⟩).fill ⟨72, 56⟩ := bitmap_setBitmap _ _
  have hsmall : (heap.allocate 8 16).outcome = .ok (Layout.heapStart + 8 * 69) := by
    rw [outcome_allocate, hbitmap]
    decide +kernel
  have hlarge : (heap.allocate 8 1024).outcome = .ok (Layout.heapStart + 512 * 2) := by
    rw [outcome_allocate, hbitmap]
    decide +kernel
  refine ⟨⟨by decide, by decide, by decide, hsmall, ?_⟩, by decide, hlarge, ?_⟩
  · exact (((allocate_isLeast heap (by decide) (by decide)).1 (by decide)).1 69).mp hsmall
  · exact (((allocate_isLeast heap (by decide) (by decide)).2 (by decide)).1 2).mp hlarge

end Heap

end LinearHeap
