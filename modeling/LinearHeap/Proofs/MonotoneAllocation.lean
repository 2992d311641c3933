import LinearHeap.Proofs.LeastRoom

/-!
# Smaller requests in emptier heaps

Where a request has room, a request for no more bytes has room too, and so it has in every bitmap
that sets no further granules (`Bitmap.HasRoom.mono`). This holds across the two size classes: a run
of free pages begins with a free run inside one page. First fit answers with the least room, so the
smaller request is answered, and not later in the heap than the larger one
(`Bitmap.exists_firstFit?_le`).

`Heap.allocate_mono` is the law for heaps: neither a release nor a smaller size can turn an answer
into a refusal or move it up.
-/

set_option autoImplicit false
set_option relaxedAutoImplicit false

namespace LinearHeap

namespace SizeClass

variable {size larger : Nat}

/-- A larger request needs no fewer granules. -/
theorem granuleCount_ofSize_mono (hle : size ≤ larger) :
    (ofSize size).granuleCount ≤ (ofSize larger).granuleCount := by
  unfold ofSize
  split <;> split <;>
    simp only [granuleCount, Layout.pageBytes_eq, Layout.granuleBytes,
      Layout.granulesPerPage] at * <;>
    omega

/-- What lies on a unit of a larger request lies on one of a smaller. -/
theorem unit_ofSize_dvd (hle : size ≤ larger) : (ofSize size).unit ∣ (ofSize larger).unit := by
  by_cases hsmall : size < Layout.pageBytes
  · rw [ofSize_of_lt hsmall]
    cases ofSize larger with
    | small granules => exact Nat.dvd_refl _
    | large pages => exact Nat.dvd_mul_right _ _
  · rw [ofSize_of_le (Nat.le_of_not_lt hsmall),
      ofSize_of_le (Nat.le_trans (Nat.le_of_not_lt hsmall) hle)]
    exact Nat.dvd_refl _

/-- A granule from which a larger request may have its window is one from which a smaller may. -/
theorem Admits.mono {first : Nat} (hle : size ≤ larger)
    (hunit : first * Layout.granuleBytes % (ofSize larger).unit = 0)
    (h : (ofSize larger).Admits ((ofSize larger).window first)) :
    (ofSize size).Admits ((ofSize size).window first) := by
  have hcount := granuleCount_ofSize_mono hle
  by_cases hsmall : size < Layout.pageBytes
  · have hpage : (ofSize size).granuleCount ≤ Layout.granulesPerPage := by
      have hunits := count_ofSize_le hsmall
      rw [ofSize_of_lt hsmall] at hunits ⊢
      exact hunits
    rw [ofSize_of_lt hsmall] at hcount hpage ⊢
    by_cases hlarger : larger < Layout.pageBytes
    · rw [ofSize_of_lt hlarger] at hcount h
      exact Nat.le_trans (Nat.add_le_add_left hcount _) h
    · -- The larger window starts on a page, so the smaller one has the page to itself.
      rw [ofSize_of_le (Nat.le_of_not_lt hlarger)] at hunit
      simp only [unit, Admits, window, Window.InOnePage, Layout.pageBytes_eq, Layout.granuleBytes,
        Layout.granulesPerPage] at *
      omega
  · rw [ofSize_of_le (Nat.le_of_not_lt hsmall)] at hcount ⊢
    rw [ofSize_of_le (Nat.le_trans (Nat.le_of_not_lt hsmall) hle)] at hcount h
    exact Nat.le_trans (Nat.add_le_add_left hcount _) h

end SizeClass

namespace Bitmap

variable {emptier fuller : Bitmap} {size larger first : Nat}

/-- A part of a free window is free, also in a bitmap that sets no further granules. -/
theorem isFree_mono (hset : ∀ granule, emptier.isSet granule = true → fuller.isSet granule = true)
    {inner outer : Window} (hsub : ∀ granule, granule ∈ inner → granule ∈ outer)
    (h : fuller.isFree outer = true) : emptier.isFree inner = true := by
  rw [isFree_iff] at h ⊢
  intro granule hmem
  rw [Bool.eq_false_iff]
  intro hallocated
  have hfree := h granule (hsub granule hmem)
  rw [hset granule hallocated] at hfree
  cases hfree

/-- Room for a larger request in a fuller bitmap is room for a smaller one in an emptier bitmap. -/
theorem HasRoom.mono (hle : size ≤ larger)
    (hset : ∀ granule, emptier.isSet granule = true → fuller.isSet granule = true)
    (h : fuller.HasRoom (.ofSize larger) first) : emptier.HasRoom (.ofSize size) first := by
  obtain ⟨hfirst, hunit, hadmits, hfree⟩ := h
  refine ⟨hfirst, ?_, hadmits.mono hle hunit, isFree_mono hset ?_ hfree⟩
  · exact Nat.mod_eq_zero_of_dvd
      (Nat.dvd_trans (SizeClass.unit_ofSize_dvd hle) (Nat.dvd_of_mod_eq_zero hunit))
  · intro granule hmem
    have hcount := SizeClass.granuleCount_ofSize_mono hle
    exact ⟨hmem.1, Nat.lt_of_lt_of_le hmem.2 (Nat.add_le_add_left hcount _)⟩

/-- First fit answers a request that has room somewhere, and not later than there. -/
theorem HasRoom.exists_firstFit?_le {bitmap : Bitmap} (hsize : 0 < size)
    (h : bitmap.HasRoom (.ofSize size) first) :
    ∃ found, bitmap.firstFit? (.ofSize size) = some found ∧ found ≤ first := by
  have hsearchable := SizeClass.searchable_ofSize hsize
  cases hsearch : bitmap.firstFit? (.ofSize size) with
  | none => exact absurd h ((firstFit?_eq_none_iff hsearchable).mp hsearch first)
  | some found =>
    refine ⟨found, rfl, Nat.le_of_not_lt fun hlt ↦ ?_⟩
    exact ((firstFit?_eq_some_iff hsearchable).mp hsearch).2 first hlt h

/-- Where first fit finds room for a larger request in a fuller bitmap, or before that, it finds
room for a smaller one in an emptier bitmap. -/
theorem exists_firstFit?_le (hsize : 0 < size) (hle : size ≤ larger)
    (hset : ∀ granule, emptier.isSet granule = true → fuller.isSet granule = true)
    (hfound : fuller.firstFit? (.ofSize larger) = some first) :
    ∃ found, emptier.firstFit? (.ofSize size) = some found ∧ found ≤ first := by
  have hlarger := SizeClass.searchable_ofSize (Nat.lt_of_lt_of_le hsize hle)
  have hroom := ((firstFit?_eq_some_iff hlarger).mp hfound).1
  exact (hroom.mono hle hset).exists_firstFit?_le hsize

end Bitmap

namespace Heap

/-- Allocation is monotone in the request and in the free space. If a heap answers a request with
some offset, a heap in which no further granule is allocated answers a request for no more bytes
with an offset that is not larger. Assumes: a positive size and a supported alignment of the smaller
request; the larger one has them because it is answered. -/
theorem allocate_mono {emptier fuller : Heap}
    (hset : ∀ granule, emptier.isAllocated granule = true → fuller.isAllocated granule = true)
    {size larger : Nat} (hsize : 0 < size) (hle : size ≤ larger) {align align' : Nat}
    (halign : align ∈ [1, 2, 4, 8]) {offset' : Nat}
    (hok : (fuller.allocate align' larger).outcome = .ok offset') :
    ∃ offset, (emptier.allocate align size).outcome = .ok offset ∧ offset ≤ offset' := by
  rw [outcome_allocate] at hok
  have hgranted := Bitmap.granted_of_allocate hok
  rw [Allocation.named?_of_pos (Nat.lt_of_lt_of_le hsize hle)] at hgranted
  obtain ⟨_, ⟨first, hfound, hoffset⟩, _⟩ := hgranted
  obtain ⟨found, hsearch, hbefore⟩ := Bitmap.exists_firstFit?_le hsize hle hset hfound
  refine ⟨Layout.granuleOffset found, ?_, ?_⟩
  · rw [outcome_allocate_eq_firstFit? halign hsize, hsearch]
  · change offset' = Layout.granuleOffset first at hoffset
    rw [hoffset, Layout.granuleOffset_eq, Layout.granuleOffset_eq]
    omega

/-- In the fuller heap the first 69 granules are allocated and 520 bytes are found on the page at
offset 1536; in the emptier one granules 3 and 4 are free besides, and 16 bytes are found there. -/
theorem allocate_mono_two_granules :
    let emptier := zeroed.setBitmap ((Bitmap.empty.fill ⟨0, 3⟩).fill ⟨5, 64⟩)
    let fuller := zeroed.setBitmap (Bitmap.empty.fill ⟨0, 69⟩)
    (∀ granule, emptier.isAllocated granule = true → fuller.isAllocated granule = true) ∧
      0 < 16 ∧ 16 ≤ 520 ∧ 2 ∈ [1, 2, 4, 8] ∧
      (fuller.allocate 8 520).outcome = .ok 1536 ∧
      (emptier.allocate 2 16).outcome = .ok 536 ∧
      ∃ offset, (emptier.allocate 2 16).outcome = .ok offset ∧ offset ≤ 1536 := by
  intro emptier fuller
  have hemptier : emptier.bitmap = (Bitmap.empty.fill ⟨0, 3⟩).fill ⟨5, 64⟩ := bitmap_setBitmap _ _
  have hfuller : fuller.bitmap = Bitmap.empty.fill ⟨0, 69⟩ := bitmap_setBitmap _ _
  have hset : ∀ granule, emptier.isAllocated granule = true →
      fuller.isAllocated granule = true := by
    intro granule
    simp only [isAllocated, hemptier, hfuller, Bitmap.isSet_fill, Bitmap.isSet_empty,
      Bool.false_or, Bool.or_eq_true, decide_eq_true_eq, Window.mem_iff]
    omega
  have hok : (fuller.allocate 8 520).outcome = .ok 1536 := by
    rw [outcome_allocate, hfuller]
    decide +kernel
  have hok' : (emptier.allocate 2 16).outcome = .ok 536 := by
    rw [outcome_allocate, hemptier]
    decide +kernel
  exact ⟨hset, by decide, by decide, by decide, hok, hok',
    allocate_mono hset (by decide) (by decide) (by decide) hok⟩

end Heap

end LinearHeap
