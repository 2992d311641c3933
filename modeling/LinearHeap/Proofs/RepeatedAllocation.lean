import LinearHeap.Proofs.MaximalRuns
import LinearHeap.Proofs.MonotoneAllocation

/-!
# Repeated allocation packs every free run

The same request is made again and again until it is refused (`Heap.RunsOut`). Then nothing that is
free was passed over: every maximal run of free bits, or of free pages, was used up from its left
end until what was left of it is too short.

`Bitmap.roomCount` is how often a size class fits into the maximal runs of its kind. First fit takes
the least run that is long enough, so each answer lowers this count by one
(`Bitmap.roomCount_fill`), and a refusal comes just when it is zero (`Bitmap.roomCount_eq_zero`). An
answer leaves no room at or before the space that it handed out (`Bitmap.HasRoom.of_fill`), which is
why the offsets increase. `Heap.repeated_allocation_packs_runs` puts the steps of a run together.
-/

set_option autoImplicit false
set_option relaxedAutoImplicit false

namespace LinearHeap

namespace Bitmap

variable {bitmap : Bitmap}

/-- The bits of a word that are zero. -/
def zeroBits (bitmap : Bitmap) (index bit : Nat) : Bool := !(bitmap.word index).getLsbD bit

/-- The words that are zero. -/
def zeroWords (bitmap : Bitmap) (index : Nat) : Bool := bitmap.word index == 0#_

/-- How often space of a size class fits into the free runs: granules into the runs of zero bits of
each word, and pages into the runs of zero words. -/
def roomCount (bitmap : Bitmap) : SizeClass → Nat
  | .small granules =>
    ∑ index ∈ Finset.range Layout.bitmapWords,
      packing (bitmap.zeroBits index) granules Layout.granulesPerPage
  | .large pages => packing bitmap.zeroWords pages Layout.bitmapWords

theorem zeroBits_eq_true_iff {index bit : Nat} :
    bitmap.zeroBits index bit = true ↔
      (bit < Layout.granulesPerPage →
        bitmap.isSet (index * Layout.granulesPerPage + bit) = false) := by
  rw [zeroBits, Bool.not_eq_true', getLsbD_word, Bool.and_eq_false_iff, decide_eq_false_iff_not,
    imp_iff_not_or]

theorem zeroWords_eq_true_iff {index : Nat} :
    bitmap.zeroWords index = true ↔ ∀ bit, bit < Layout.granulesPerPage →
      bitmap.isSet (index * Layout.granulesPerPage + bit) = false := by
  rw [zeroWords, beq_iff_eq, word_eq_zero_iff]

/-! ### What a filled window takes -/

/-- A window inside one page lies in the heap. -/
theorem inHeap_of_page {index bit granules : Nat} (hindex : index < Layout.bitmapWords)
    (hbit : bit + granules ≤ Layout.granulesPerPage) :
    Window.InHeap ⟨index * Layout.granulesPerPage + bit, granules⟩ := by
  simp only [Window.InHeap, Window.stop, Layout.granulesPerPage, Layout.bitmapWords_eq,
    Layout.heapGranules_eq] at *
  omega

theorem isSet_fill_eq_false_iff {window : Window} (hheap : window.InHeap) {granule : Nat} :
    (bitmap.fill window).isSet granule = false ↔
      bitmap.isSet granule = false ∧ granule ∉ window := by
  rw [isSet_fill_of_inHeap _ hheap, Bool.or_eq_false_iff, decide_eq_false_iff_not]

section Fill

variable {granules pages index bit page : Nat}

/-- A window inside one page takes a run of its word. -/
theorem zeroBits_fill_self (hindex : index < Layout.bitmapWords)
    (hbit : bit + granules ≤ Layout.granulesPerPage) :
    (bitmap.fill ⟨index * Layout.granulesPerPage + bit, granules⟩).zeroBits index =
      without (bitmap.zeroBits index) granules bit := by
  have hheap := inHeap_of_page hindex hbit
  funext place
  rw [Bool.eq_iff_iff, without_eq_true_iff, zeroBits_eq_true_iff, zeroBits_eq_true_iff]
  simp only [isSet_fill_eq_false_iff hheap, Window.mem_iff]
  constructor
  · intro h
    refine ⟨fun hlt ↦ (h hlt).1, ?_⟩
    by_cases hlt : place < Layout.granulesPerPage
    · have hout := (h hlt).2
      omega
    · omega
  · rintro ⟨hfree, hout⟩ hlt
    exact ⟨hfree hlt, by omega⟩

/-- A window inside one page leaves the other words alone. -/
theorem zeroBits_fill_of_ne (hindex : index < Layout.bitmapWords)
    (hbit : bit + granules ≤ Layout.granulesPerPage) {other : Nat} (hne : other ≠ index) :
    (bitmap.fill ⟨index * Layout.granulesPerPage + bit, granules⟩).zeroBits other =
      bitmap.zeroBits other := by
  have hheap := inHeap_of_page hindex hbit
  funext place
  rw [Bool.eq_iff_iff, zeroBits_eq_true_iff, zeroBits_eq_true_iff]
  refine imp_congr_right fun hlt ↦ ?_
  rw [isSet_fill_eq_false_iff hheap, Window.mem_iff, and_iff_left]
  simp only [Layout.granulesPerPage] at *
  omega

/-- A window of whole pages takes a run of the words. -/
theorem zeroWords_fill (hpage : page + pages ≤ Layout.bitmapWords) :
    (bitmap.fill ⟨page * Layout.granulesPerPage, pages * Layout.granulesPerPage⟩).zeroWords =
      without bitmap.zeroWords pages page := by
  have hheap : Window.InHeap ⟨page * Layout.granulesPerPage, pages * Layout.granulesPerPage⟩ := by
    rw [Window.InHeap, Window.stop, ← Nat.add_mul]
    exact Nat.mul_le_mul_right _ hpage
  funext index
  rw [Bool.eq_iff_iff, without_eq_true_iff, zeroWords_eq_true_iff, zeroWords_eq_true_iff]
  simp only [isSet_fill_eq_false_iff hheap, Window.mem_iff]
  rw [Layout.granulesPerPage]
  constructor
  · intro h
    have hfirst := (h 0 (by omega)).2
    exact ⟨fun bit hbit ↦ (h bit hbit).1, by omega⟩
  · rintro ⟨hfree, hout⟩ bit hbit
    exact ⟨hfree bit hbit, by omega⟩

end Fill

/-! ### First fit and the packing -/

section FirstFit

variable {sizeClass : SizeClass} {first : Nat}

/-- Where there is no room, nothing fits. -/
theorem roomCount_eq_zero (hsearchable : sizeClass.Searchable)
    (h : ∀ first, ¬ bitmap.HasRoom sizeClass first) : bitmap.roomCount sizeClass = 0 := by
  cases sizeClass with
  | small granules =>
    refine Finset.sum_eq_zero fun index hmem ↦ packing_eq_zero fun bit hrun ↦ ?_
    have hindex := Finset.mem_range.mp hmem
    exact h _ ((isRun_getLsbD_word_iff hindex hsearchable.1).mp hrun).2
  | large pages =>
    exact packing_eq_zero fun page hrun ↦ h _ ((isRun_word_iff hsearchable).mp hrun)

/-- First fit takes the least run of a word. -/
theorem exists_isRun_zeroBits {granules : Nat} (hsearchable : (SizeClass.small granules).Searchable)
    (hfound : bitmap.firstFit? (.small granules) = some first) :
    ∃ index bit, index < Layout.bitmapWords ∧ first = index * Layout.granulesPerPage + bit ∧
      IsRun (bitmap.zeroBits index) granules Layout.granulesPerPage bit ∧
        ∀ other, other < bit →
          ¬ IsRun (bitmap.zeroBits index) granules Layout.granulesPerPage other := by
  obtain ⟨hroom, hleast⟩ := (firstFit?_eq_some_iff hsearchable).mp hfound
  have hindex : first / Layout.granulesPerPage < Layout.bitmapWords :=
    Nat.div_lt_of_lt_mul (Nat.mul_comm _ _ ▸ hroom.1)
  have hsplit : first / Layout.granulesPerPage * Layout.granulesPerPage +
      first % Layout.granulesPerPage = first := Nat.div_add_mod' _ _
  refine ⟨first / Layout.granulesPerPage, first % Layout.granulesPerPage, hindex, hsplit.symm,
    ?_, fun other hother hrun ↦ ?_⟩
  · refine (isRun_getLsbD_word_iff hindex hsearchable.1).mpr ⟨Nat.mod_lt _ (by decide), ?_⟩
    rwa [hsplit]
  · have hearlier := ((isRun_getLsbD_word_iff hindex hsearchable.1).mp hrun).2
    exact hleast _ (by omega) hearlier

/-- Handing out what first fit finds lowers the count by one. -/
theorem roomCount_fill (hsearchable : sizeClass.Searchable)
    (hfound : bitmap.firstFit? sizeClass = some first) :
    bitmap.roomCount sizeClass =
      (bitmap.fill (sizeClass.window first)).roomCount sizeClass + 1 := by
  cases sizeClass with
  | small granules =>
    obtain ⟨index, bit, hindex, rfl, hrun, hleast⟩ := exists_isRun_zeroBits hsearchable hfound
    have hmem : index ∈ Finset.range Layout.bitmapWords := Finset.mem_range.mpr hindex
    -- The other words keep their packing.
    have hothers : ∀ other ∈ (Finset.range Layout.bitmapWords).erase index,
        packing (bitmap.zeroBits other) granules Layout.granulesPerPage =
          packing ((bitmap.fill ⟨index * Layout.granulesPerPage + bit, granules⟩).zeroBits other)
            granules Layout.granulesPerPage := by
      intro other hother
      rw [zeroBits_fill_of_ne hindex hrun.1 (Finset.ne_of_mem_erase hother)]
    simp only [roomCount, SizeClass.window, SizeClass.granuleCount]
    rw [← Finset.add_sum_erase _ _ hmem, ← Finset.add_sum_erase _ _ hmem,
      Finset.sum_congr rfl hothers, zeroBits_fill_self hindex hrun.1,
      packing_eq_packing_without_add_one hsearchable.1 hrun hleast]
    exact Nat.add_right_comm _ _ _
  | large pages =>
    obtain ⟨page, hpage, rfl⟩ := Option.map_eq_some_iff.mp hfound
    obtain ⟨hrun, hleast⟩ := (firstRun?_eq_some_iff hsearchable).mp hpage
    simp only [roomCount, SizeClass.window, SizeClass.granuleCount]
    rw [zeroWords_fill hrun.1]
    exact packing_eq_packing_without_add_one hsearchable hrun hleast

/-- After handing out what first fit finds, there is room only further up, where there was room
before. -/
theorem HasRoom.of_fill {size other : Nat} (hsize : 0 < size)
    (hfound : bitmap.firstFit? (.ofSize size) = some first)
    (h : (bitmap.fill ((SizeClass.ofSize size).window first)).HasRoom (.ofSize size) other) :
    bitmap.HasRoom (.ofSize size) other ∧ first < other := by
  have hsearchable := SizeClass.searchable_ofSize hsize
  obtain ⟨hroom, hleast⟩ := (firstFit?_eq_some_iff hsearchable).mp hfound
  have hbefore : bitmap.HasRoom (.ofSize size) other := by
    refine h.mono (Nat.le_refl size) fun granule hset ↦ ?_
    rw [isSet_fill, hset, Bool.true_or]
  refine ⟨hbefore, Nat.lt_of_le_of_ne (Nat.le_of_not_lt fun hlt ↦ hleast other hlt hbefore) ?_⟩
  rintro rfl
  have hpos := hsearchable.granuleCount_pos
  have hmem : first ∈ (SizeClass.ofSize size).window first :=
    ⟨Nat.le_refl _, Nat.lt_add_of_pos_right hpos⟩
  exact ((isSet_fill_eq_false_iff hroom.inHeap).mp (isFree_iff.mp h.2.2.2 first hmem)).2 hmem

end FirstFit

end Bitmap

namespace Heap

variable {heap : Heap} {align size offset : Nat} {offsets : List Nat}

/-- The same request is answered with these offsets, one after the other, and then refused for want
of room. -/
def RunsOut (align size : Nat) : Heap → List Nat → Prop
  | heap, [] => (heap.allocate align size).outcome = .refused (.outOfMemory size)
  | heap, offset :: rest => (heap.allocate align size).outcome = .ok offset ∧
      RunsOut align size (heap.allocate align size).state rest

/-! ### Runs of one request -/

/-- Repeated requests come to an end. -/
theorem exists_runsOut (heap : Heap) (halign : align ∈ [1, 2, 4, 8]) (hsize : 0 < size) :
    ∃ offsets, heap.RunsOut align size offsets := by
  induction hcount : heap.bitmap.roomCount (.ofSize size) using Nat.strongRecOn
    generalizing heap with
  | ind count ih =>
    have houtcome := heap.outcome_allocate_eq_firstFit? halign hsize
    cases hfound : heap.bitmap.firstFit? (.ofSize size) with
    | none =>
      rw [hfound] at houtcome
      exact ⟨[], houtcome⟩
    | some first =>
      rw [hfound] at houtcome
      obtain ⟨_, htaken, _, hstate⟩ := exists_firstFit?_of_allocate hsize houtcome
      have hless := Bitmap.roomCount_fill (SizeClass.searchable_ofSize hsize) htaken
      rw [← hstate, hcount] at hless
      obtain ⟨rest, hrest⟩ := ih _ (Nat.lt_of_lt_of_eq (Nat.lt_succ_self _) hless.symm) _ rfl
      exact ⟨_ :: rest, houtcome, hrest⟩

/-- All offsets of a run had room at its start. -/
theorem RunsOut.hasRoom (h : heap.RunsOut align size offsets) (hsize : 0 < size) :
    ∀ offset ∈ offsets, ∃ first, heap.bitmap.HasRoom (.ofSize size) first ∧
      offset = Layout.granuleOffset first := by
  induction offsets generalizing heap with
  | nil => exact nofun
  | cons offset rest ih =>
    obtain ⟨first, hfound, hoffset, hstate⟩ := exists_firstFit?_of_allocate hsize h.1
    have hroom := ((Bitmap.firstFit?_eq_some_iff (SizeClass.searchable_ofSize hsize)).mp hfound).1
    refine List.forall_mem_cons.mpr ⟨⟨first, hroom, hoffset⟩, fun later hmem ↦ ?_⟩
    obtain ⟨other, hother, hlater⟩ := ih h.2 later hmem
    rw [hstate] at hother
    exact ⟨other, (hother.of_fill hsize hfound).1, hlater⟩

/-- The offsets of a run increase. -/
theorem RunsOut.pairwise_lt (h : heap.RunsOut align size offsets) (hsize : 0 < size) :
    offsets.Pairwise (· < ·) := by
  induction offsets generalizing heap with
  | nil => exact List.Pairwise.nil
  | cons offset rest ih =>
    obtain ⟨first, hfound, rfl, hstate⟩ := exists_firstFit?_of_allocate hsize h.1
    refine List.pairwise_cons.mpr ⟨fun later hmem ↦ ?_, ih h.2⟩
    obtain ⟨other, hother, rfl⟩ := h.2.hasRoom hsize later hmem
    rw [hstate] at hother
    have hlt := (hother.of_fill hsize hfound).2
    rw [Layout.granuleOffset_eq, Layout.granuleOffset_eq]
    omega

/-- A run has as many answers as the request fits into the heap at its start. -/
theorem RunsOut.length_eq (h : heap.RunsOut align size offsets) (halign : align ∈ [1, 2, 4, 8])
    (hsize : 0 < size) : offsets.length = heap.bitmap.roomCount (.ofSize size) := by
  have hsearchable := SizeClass.searchable_ofSize hsize
  induction offsets generalizing heap with
  | nil =>
    have hroom := (heap.outcome_allocate_eq_refused_iff halign hsize).mp h
    exact (Bitmap.roomCount_eq_zero hsearchable hroom).symm
  | cons offset rest ih =>
    obtain ⟨first, hfound, _, hstate⟩ := exists_firstFit?_of_allocate hsize h.1
    rw [List.length_cons, ih h.2, hstate, ← Bitmap.roomCount_fill hsearchable hfound]

/-- An answer is followed by the answers of the heap after it. -/
theorem allocateMany_of_ok (h : (heap.allocate align size).outcome = .ok offset) (times : Nat) :
    let later := (heap.allocate align size).state.allocateMany align size times
    heap.allocateMany align size (times + 1) =
      (offset :: later.1, later.2.after (heap.allocate align size).journal) := by
  rw [outcome_allocate] at h
  simp only [allocateMany, Bitmap.allocateMany, h, state_allocate, bitmap_setBitmap,
    setBitmap_setBitmap]
  rfl

/-- A refusal ends the run. -/
theorem allocateMany_of_refused {refusal : Refusal}
    (h : (heap.allocate align size).outcome = .refused refusal) (times : Nat) :
    heap.allocateMany align size (times + 1) =
      ([], ⟨.refused refusal, (heap.allocate align size).state,
        (heap.allocate align size).journal⟩) := by
  rw [outcome_allocate] at h
  simp only [allocateMany, Bitmap.allocateMany, h]
  rfl

/-- Asking often enough is asking until the refusal. -/
theorem RunsOut.allocateMany_eq (h : heap.RunsOut align size offsets) {times : Nat}
    (htimes : offsets.length < times) :
    (heap.allocateMany align size times).1 = offsets ∧
      (heap.allocateMany align size times).2.outcome = .refused (.outOfMemory size) := by
  induction offsets generalizing heap times with
  | nil =>
    obtain ⟨times, rfl⟩ := Nat.exists_eq_add_one.mpr htimes
    rw [allocateMany_of_refused h]
    exact ⟨rfl, rfl⟩
  | cons offset rest ih =>
    obtain ⟨times, rfl⟩ := Nat.exists_eq_add_one.mpr (Nat.zero_lt_of_lt htimes)
    obtain ⟨hoffsets, houtcome⟩ := ih h.2 (Nat.lt_of_succ_lt_succ htimes)
    rw [allocateMany_of_ok h.1]
    exact ⟨congrArg (offset :: ·) hoffsets, houtcome⟩

/-- Repeated allocation packs every free run completely. Whatever the bitmap holds, requests for
`size` bytes are answered with increasing offsets until one is refused for want of room, and this is
what asking more often than that gives. The number of answers is, for less than a page, the sum over
the words, and over the maximal runs of zero bits in each word, of the run's length divided by
`⌈size / 8⌉`; for a page or more it is the sum over the maximal runs of zero words of the run's
length divided by `⌈size / 512⌉`. Assumes: a supported alignment and a positive size. -/
theorem repeated_allocation_packs_runs (heap : Heap) (halign : align ∈ [1, 2, 4, 8])
    (hsize : 0 < size) :
    ∃ offsets, heap.RunsOut align size offsets ∧
      (∀ times, offsets.length < times →
        (heap.allocateMany align size times).1 = offsets ∧
          (heap.allocateMany align size times).2.outcome = .refused (.outOfMemory size)) ∧
      offsets.Pairwise (· < ·) ∧
      (size < Layout.pageBytes → offsets.length = ∑ index ∈ Finset.range Layout.bitmapWords,
        ∑ run ∈ maximalRuns (heap.bitmap.zeroBits index) Layout.granulesPerPage,
          run.2 / ((size + 7) / 8)) ∧
      (Layout.pageBytes ≤ size → offsets.length =
        ∑ run ∈ maximalRuns heap.bitmap.zeroWords Layout.bitmapWords,
          run.2 / ((size + 511) / 512)) := by
  obtain ⟨offsets, hruns⟩ := heap.exists_runsOut halign hsize
  have hlength := hruns.length_eq halign hsize
  refine ⟨offsets, hruns, fun times ↦ hruns.allocateMany_eq, hruns.pairwise_lt hsize,
    fun hsmall ↦ ?_, fun hlarge ↦ ?_⟩
  · rw [hlength, SizeClass.ofSize_of_lt hsmall]
    rfl
  · rw [hlength, SizeClass.ofSize_of_le hlarge]
    rfl

/-- With five pages free in a row, and two more further up, 1024 bytes are had three times; the
fifth page of the first run is left over. -/
theorem repeated_allocation_packs_runs_of_pages :
    let heap := zeroed.setBitmap
      (((Bitmap.empty.fill ⟨0, 4096⟩).clear ⟨192, 320⟩).clear ⟨640, 128⟩)
    8 ∈ [1, 2, 4, 8] ∧ 0 < 1024 ∧ Layout.pageBytes ≤ 1024 ∧
      ∃ offsets, heap.RunsOut 8 1024 offsets ∧ offsets.Pairwise (· < ·) ∧ offsets.length = 3 := by
  intro heap
  have hbitmap : heap.bitmap =
      ((Bitmap.empty.fill ⟨0, 4096⟩).clear ⟨192, 320⟩).clear ⟨640, 128⟩ := bitmap_setBitmap _ _
  have hcount : ∑ run ∈ maximalRuns heap.bitmap.zeroWords Layout.bitmapWords,
      run.2 / ((1024 + 511) / 512) = 3 := by
    rw [hbitmap]
    decide +kernel
  obtain ⟨offsets, hruns, _, hsorted, _, hlength⟩ :=
    repeated_allocation_packs_runs heap (show 8 ∈ [1, 2, 4, 8] by decide)
      (show 0 < 1024 by decide)
  exact ⟨by decide, by decide, by decide, offsets, hruns, hsorted,
    (hlength (by decide)).trans hcount⟩

end Heap

end LinearHeap
