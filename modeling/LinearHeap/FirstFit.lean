import LinearHeap.Bitmap
import LinearHeap.SizeClass

/-!
# First fit

A request is placed at the first run of free space that is long enough. Both searches are one scan
(`firstRun?`) that counts the free places seen since the last taken one: over the bits of a word for
small requests, and over the words for large ones. `firstRun?_eq_some_iff` and
`firstRun?_eq_none_iff` say that the scan finds the least start of a run and misses none.

`Bitmap.HasRoom` says where space of a size class can start, in terms of granules alone. The search
finds the least such granule (`Bitmap.firstFit?_eq_some_iff`) and fails only if there is none
(`Bitmap.firstFit?_eq_none_iff`).
-/

set_option autoImplicit false
set_option relaxedAutoImplicit false

namespace LinearHeap

/-- The places `start, …, start + length - 1` lie below a bound and are free. -/
def IsRun (free : Nat → Bool) (length bound start : Nat) : Prop :=
  start + length ≤ bound ∧ ∀ i, i < length → free (start + i) = true

/-- Looks at `remaining` places from `position` on, with `count` free ones just before them. -/
def scanRun (free : Nat → Bool) (length : Nat) :
    (remaining position count : Nat) → Option Nat
  | 0, _, _ => none
  | remaining + 1, position, count =>
    if free position then
      if count + 1 = length then some (position - count)
      else scanRun free length remaining (position + 1) (count + 1)
    else scanRun free length remaining (position + 1) 0

/-- The least start of so many free places below a bound. -/
def firstRun? (free : Nat → Bool) (length bound : Nat) : Option Nat :=
  scanRun free length bound 0 0

namespace Bitmap

/-- The first granule of the first run of free granules inside one page. Pages without a free
granule are passed over. -/
def firstGranules? (bitmap : Bitmap) (granules : Nat) : Option Nat :=
  (List.range Layout.bitmapWords).findSome? fun index ↦
    let word := bitmap.word index
    if word = BitVec.allOnes _ then none
    else (firstRun? (fun bit ↦ !word.getLsbD bit) granules Layout.granulesPerPage).map
      (index * Layout.granulesPerPage + ·)

/-- The first page of the first run of pages without an allocated granule. -/
def firstPages? (bitmap : Bitmap) (pages : Nat) : Option Nat :=
  firstRun? (fun index ↦ bitmap.word index == 0#_) pages Layout.bitmapWords

/-- The first granule of the space that a request of a size class is given. -/
def firstFit? (bitmap : Bitmap) : SizeClass → Option Nat
  | .small granules => bitmap.firstGranules? granules
  | .large pages => (bitmap.firstPages? pages).map (· * Layout.granulesPerPage)

/-- Space of a size class can start at a granule: it lies on a unit of the class, the class admits
the window from there on, and the window is free. -/
def HasRoom (bitmap : Bitmap) (sizeClass : SizeClass) (first : Nat) : Prop :=
  first < Layout.heapGranules ∧ first * Layout.granuleBytes % sizeClass.unit = 0 ∧
    sizeClass.Admits (sizeClass.window first) ∧ bitmap.isFree (sizeClass.window first) = true

end Bitmap

/-! ## What the scan finds -/

/-- What the scan knows at a position: so many places before it are free, fewer than are looked for,
and no run that starts before those reaches up to it. -/
private structure ScanState (free : Nat → Bool) (length position count : Nat) : Prop where
  count_le : count ≤ position
  count_lt : count < length
  free_before : ∀ i, i < count → free (position - count + i) = true
  blocked : ∀ start, start < position - count →
    ∃ i, i < length ∧ start + i < position ∧ free (start + i) = false

private theorem ScanState.taken {free : Nat → Bool} {length position count : Nat}
    (h : ScanState free length position count) (hfree : free position = false) :
    ScanState free length (position + 1) 0 where
  count_le := Nat.zero_le _
  count_lt := Nat.lt_of_le_of_lt (Nat.zero_le _) h.count_lt
  free_before := fun i hi ↦ absurd hi (Nat.not_lt_zero i)
  blocked := by
    intro start hstart
    by_cases hbefore : start < position - count
    · obtain ⟨i, hi, hlt, htaken⟩ := h.blocked start hbefore
      exact ⟨i, hi, by omega, htaken⟩
    · have hle := h.count_le
      have hlt := h.count_lt
      refine ⟨position - start, by omega, by omega, ?_⟩
      rw [show start + (position - start) = position by omega]
      exact hfree

private theorem ScanState.counted {free : Nat → Bool} {length position count : Nat}
    (h : ScanState free length position count) (hfree : free position = true)
    (hlength : count + 1 ≠ length) : ScanState free length (position + 1) (count + 1) where
  count_le := Nat.succ_le_succ h.count_le
  count_lt := by
    have hlt := h.count_lt
    omega
  free_before := by
    intro i hi
    rw [Nat.add_sub_add_right]
    have hle := h.count_le
    by_cases hlast : i = count
    · rw [hlast, Nat.sub_add_cancel hle]
      exact hfree
    · exact h.free_before i (by omega)
  blocked := by
    intro start hstart
    rw [Nat.add_sub_add_right] at hstart
    obtain ⟨i, hi, hlt, htaken⟩ := h.blocked start hstart
    exact ⟨i, hi, by omega, htaken⟩

private theorem scanRun_sound {free : Nat → Bool} {length remaining position count start : Nat}
    (h : ScanState free length position count)
    (hscan : scanRun free length remaining position count = some start) :
    IsRun free length (position + remaining) start ∧
      ∀ other, other < start → ¬ IsRun free length (position + remaining) other := by
  induction remaining generalizing position count with
  | zero => simp [scanRun] at hscan
  | succ remaining ih =>
    rw [Nat.add_succ, ← Nat.succ_add]
    rw [scanRun] at hscan
    split at hscan
    · next hfree =>
      split at hscan
      · next hlength =>
        injection hscan with hstart
        have hle := h.count_le
        subst hstart
        refine ⟨⟨by omega, ?_⟩, ?_⟩
        · intro i hi
          by_cases hlast : i = count
          · rw [hlast, Nat.sub_add_cancel hle]
            exact hfree
          · exact h.free_before i (by omega)
        · rintro other hother ⟨_, hrun⟩
          obtain ⟨i, hi, _, htaken⟩ := h.blocked other hother
          rw [hrun i hi] at htaken
          exact Bool.noConfusion htaken
      · next hlength => exact ih (h.counted hfree hlength) hscan
    · next hfree => exact ih (h.taken (Bool.eq_false_iff.mpr hfree)) hscan

private theorem scanRun_complete {free : Nat → Bool} {length remaining position count : Nat}
    (h : ScanState free length position count)
    (hscan : scanRun free length remaining position count = none) (start : Nat) :
    ¬ IsRun free length (position + remaining) start := by
  induction remaining generalizing position count with
  | zero =>
    rintro ⟨hbound, hrun⟩
    have hlt := h.count_lt
    obtain ⟨i, hi, _, htaken⟩ := h.blocked start (by omega)
    rw [hrun i hi] at htaken
    exact Bool.noConfusion htaken
  | succ remaining ih =>
    rw [Nat.add_succ, ← Nat.succ_add]
    rw [scanRun] at hscan
    split at hscan
    · next hfree =>
      split at hscan
      · contradiction
      · next hlength => exact ih (h.counted hfree hlength) hscan
    · next hfree => exact ih (h.taken (Bool.eq_false_iff.mpr hfree)) hscan

private theorem ScanState.initial (free : Nat → Bool) {length : Nat} (h : 0 < length) :
    ScanState free length 0 0 where
  count_le := Nat.le_refl 0
  count_lt := h
  free_before := fun i hi ↦ absurd hi (Nat.not_lt_zero i)
  blocked := fun start hstart ↦ absurd hstart (Nat.not_lt_zero start)

/-- No run is missed. -/
theorem firstRun?_eq_none_iff {free : Nat → Bool} {length bound : Nat} (hlength : 0 < length) :
    firstRun? free length bound = none ↔ ∀ start, ¬ IsRun free length bound start := by
  constructor
  · intro h start
    have hcomplete := scanRun_complete (ScanState.initial free hlength) h start
    rwa [Nat.zero_add] at hcomplete
  · intro h
    cases hscan : firstRun? free length bound with
    | none => rfl
    | some start =>
      have hsound := (scanRun_sound (ScanState.initial free hlength) hscan).1
      rw [Nat.zero_add] at hsound
      exact absurd hsound (h start)

/-- The run that is found is the one with the least start. -/
theorem firstRun?_eq_some_iff {free : Nat → Bool} {length bound start : Nat}
    (hlength : 0 < length) :
    firstRun? free length bound = some start ↔
      IsRun free length bound start ∧ ∀ other, other < start → ¬ IsRun free length bound other := by
  constructor
  · intro h
    have hsound := scanRun_sound (ScanState.initial free hlength) h
    rwa [Nat.zero_add] at hsound
  · rintro ⟨hrun, hleast⟩
    cases hscan : firstRun? free length bound with
    | none => exact absurd hrun ((firstRun?_eq_none_iff hlength).mp hscan start)
    | some found =>
      have hsound := scanRun_sound (ScanState.initial free hlength) hscan
      rw [Nat.zero_add] at hsound
      congr 1
      apply Nat.le_antisymm
      · exact Nat.le_of_not_lt fun hlt ↦ hsound.2 start hlt hrun
      · exact Nat.le_of_not_lt fun hlt ↦ hleast found hlt hsound.1

/-! ## Where a request is placed -/

private theorem findSome?_range_eq_some_iff {α : Type} {f : Nat → Option α} {n : Nat} {a : α} :
    (List.range n).findSome? f = some a ↔
      ∃ i, i < n ∧ f i = some a ∧ ∀ j, j < i → f j = none := by
  induction n with
  | zero => simp
  | succ n ih =>
    rw [List.range_succ, List.findSome?_append, List.findSome?_singleton]
    cases hfound : (List.range n).findSome? f with
    | some b =>
      rw [hfound] at ih
      rw [Option.some_or]
      constructor
      · intro h
        obtain ⟨i, hi, hsome, hnone⟩ := ih.mp h
        exact ⟨i, by omega, hsome, hnone⟩
      · rintro ⟨i, hi, hsome, hnone⟩
        by_cases hlast : i = n
        · subst hlast
          have hall : (List.range i).findSome? f = none :=
            List.findSome?_eq_none_iff.mpr fun j hj ↦ hnone j (List.mem_range.mp hj)
          rw [hall] at hfound
          cases hfound
        · exact ih.mpr ⟨i, by omega, hsome, hnone⟩
    | none =>
      rw [Option.none_or]
      rw [List.findSome?_eq_none_iff] at hfound
      constructor
      · intro h
        exact ⟨n, Nat.lt_succ_self n, h, fun j hj ↦ hfound j (List.mem_range.mpr hj)⟩
      · rintro ⟨i, hi, hsome, hnone⟩
        by_cases hlast : i = n
        · rwa [← hlast]
        · rw [hfound i (List.mem_range.mpr (by omega))] at hsome
          cases hsome

namespace Bitmap

/-- A run of free bits of a word is room inside its page. -/
theorem isRun_getLsbD_word_iff {bitmap : Bitmap} {granules index start : Nat}
    (hindex : index < Layout.bitmapWords) (hpos : 0 < granules) :
    IsRun (fun bit ↦ !(bitmap.word index).getLsbD bit) granules Layout.granulesPerPage start ↔
      start < Layout.granulesPerPage ∧
        bitmap.HasRoom (.small granules) (index * Layout.granulesPerPage + start) := by
  simp only [IsRun, Bool.not_eq_true', HasRoom, SizeClass.Admits, SizeClass.window,
    SizeClass.granuleCount, SizeClass.unit, Window.InOnePage, isFree_iff, Window.mem_iff,
    getLsbD_word]
  simp only [Layout.granulesPerPage, Layout.granuleBytes, Layout.bitmapWords_eq,
    Layout.heapGranules_eq] at *
  constructor
  · rintro ⟨hbound, hfree⟩
    refine ⟨by omega, by omega, by omega, by omega, ?_⟩
    rintro granule ⟨hlow, hhigh⟩
    have hgranule := hfree (granule - (index * 64 + start)) (by omega)
    have hbit : start + (granule - (index * 64 + start)) < 64 := by omega
    simp only [hbit, decide_true, Bool.true_and] at hgranule
    rwa [show index * 64 + (start + (granule - (index * 64 + start))) = granule by omega]
      at hgranule
  · rintro ⟨hstart, hheap, _, hpage, hfree⟩
    have hbound : start + granules ≤ 64 := by omega
    refine ⟨hbound, fun i hi ↦ ?_⟩
    rw [hfree _ (by omega), Bool.and_false]

/-- A run of free pages is room for whole pages. -/
theorem isRun_word_iff {bitmap : Bitmap} {pages start : Nat} (hpos : 0 < pages) :
    IsRun (fun index ↦ bitmap.word index == 0#_) pages Layout.bitmapWords start ↔
      bitmap.HasRoom (.large pages) (start * Layout.granulesPerPage) := by
  simp only [IsRun, beq_iff_eq, word_eq_zero_iff, HasRoom, SizeClass.Admits, SizeClass.window,
    SizeClass.granuleCount, SizeClass.unit, Window.InHeap, Window.stop, isFree_iff, Window.mem_iff]
  simp only [Layout.granulesPerPage, Layout.granuleBytes, Layout.pageBytes_eq,
    Layout.bitmapWords_eq, Layout.heapGranules_eq]
  constructor
  · rintro ⟨hbound, hfree⟩
    refine ⟨by omega, by omega, by omega, ?_⟩
    rintro granule ⟨hlow, hhigh⟩
    have hgranule := hfree (granule / 64 - start) (by omega) (granule % 64) (by omega)
    rwa [show (start + (granule / 64 - start)) * 64 + granule % 64 = granule by omega] at hgranule
  · rintro ⟨_, _, hheap, hfree⟩
    refine ⟨by omega, fun i hi bit hbit ↦ hfree _ (by omega)⟩

private theorem firstGranules?_eq_findSome? (bitmap : Bitmap) {granules : Nat}
    (hpos : 0 < granules) :
    bitmap.firstGranules? granules = (List.range Layout.bitmapWords).findSome? fun index ↦
      (firstRun? (fun bit ↦ !(bitmap.word index).getLsbD bit) granules
        Layout.granulesPerPage).map (index * Layout.granulesPerPage + ·) := by
  rw [firstGranules?]
  congr 1
  funext index
  dsimp only
  split
  · next hfull =>
    have hnone : firstRun? (fun bit ↦ !(bitmap.word index).getLsbD bit) granules
        Layout.granulesPerPage = none := by
      rw [firstRun?_eq_none_iff hpos]
      rintro start ⟨hbound, hfree⟩
      have hbit := hfree 0 hpos
      have hlt : start + 0 < Layout.granulesPerPage := by omega
      simp only [hfull, BitVec.getLsbD_allOnes, hlt, decide_true, Bool.not_true] at hbit
      cases hbit
    rw [hnone]
    rfl
  · rfl

private theorem firstGranules?_eq_some_iff {bitmap : Bitmap} {granules first : Nat}
    (hpos : 0 < granules) :
    bitmap.firstGranules? granules = some first ↔
      bitmap.HasRoom (.small granules) first ∧
        ∀ other, other < first → ¬ bitmap.HasRoom (.small granules) other := by
  rw [firstGranules?_eq_findSome? bitmap hpos, findSome?_range_eq_some_iff]
  simp only [Option.map_eq_some_iff, Option.map_eq_none_iff, firstRun?_eq_some_iff hpos,
    firstRun?_eq_none_iff hpos]
  constructor
  · rintro ⟨index, hindex, ⟨start, ⟨hrun, hleast⟩, rfl⟩, hnone⟩
    refine ⟨((isRun_getLsbD_word_iff hindex hpos).mp hrun).2, ?_⟩
    intro other hother hroom
    have hstart := ((isRun_getLsbD_word_iff hindex hpos).mp hrun).1
    have hmod : other % Layout.granulesPerPage < Layout.granulesPerPage :=
      Nat.mod_lt _ (by decide)
    have hsplit : other / Layout.granulesPerPage * Layout.granulesPerPage +
        other % Layout.granulesPerPage = other := Nat.div_add_mod' _ _
    have hlt := hroom.1
    simp only [Layout.granulesPerPage, Layout.bitmapWords_eq, Layout.heapGranules_eq] at *
    have hother : IsRun (fun bit ↦ !(bitmap.word (other / 64)).getLsbD bit) granules 64
        (other % 64) := by
      refine (isRun_getLsbD_word_iff (by rw [Layout.bitmapWords_eq]; omega) hpos).mpr ⟨hmod, ?_⟩
      rwa [Layout.granulesPerPage, hsplit]
    by_cases hbefore : other / 64 < index
    · exact hnone _ hbefore _ hother
    · have hsame : other / 64 = index := by omega
      rw [hsame] at hother
      exact hleast _ (by omega) hother
  · rintro ⟨hroom, hleast⟩
    have hlt := hroom.1
    have hmod : first % Layout.granulesPerPage < Layout.granulesPerPage :=
      Nat.mod_lt _ (by decide)
    have hsplit : first / Layout.granulesPerPage * Layout.granulesPerPage +
        first % Layout.granulesPerPage = first := Nat.div_add_mod' _ _
    have hindex : first / Layout.granulesPerPage < Layout.bitmapWords := by
      simp only [Layout.granulesPerPage, Layout.bitmapWords_eq, Layout.heapGranules_eq] at *
      omega
    refine ⟨first / Layout.granulesPerPage, hindex,
      ⟨first % Layout.granulesPerPage, ⟨?_, ?_⟩, hsplit⟩, ?_⟩
    · exact (isRun_getLsbD_word_iff hindex hpos).mpr ⟨hmod, by rwa [hsplit]⟩
    · intro start hstart hrun
      exact hleast _ (by omega) ((isRun_getLsbD_word_iff hindex hpos).mp hrun).2
    · intro index hbefore start hrun
      have hroom := (isRun_getLsbD_word_iff (Nat.lt_trans hbefore hindex) hpos).mp hrun
      refine hleast _ ?_ hroom.2
      have hstart := hroom.1
      simp only [Layout.granulesPerPage] at *
      omega

private theorem firstPages?_eq_some_iff {bitmap : Bitmap} {pages first : Nat} (hpos : 0 < pages) :
    (bitmap.firstPages? pages).map (· * Layout.granulesPerPage) = some first ↔
      bitmap.HasRoom (.large pages) first ∧
        ∀ other, other < first → ¬ bitmap.HasRoom (.large pages) other := by
  have hpage : ∀ granule, bitmap.HasRoom (.large pages) granule →
      granule / Layout.granulesPerPage * Layout.granulesPerPage = granule := by
    intro granule hroom
    have hunit := hroom.2.1
    simp only [SizeClass.unit, Layout.pageBytes_eq, Layout.granuleBytes,
      Layout.granulesPerPage] at *
    omega
  simp only [firstPages?, Option.map_eq_some_iff, firstRun?_eq_some_iff hpos, isRun_word_iff hpos]
  constructor
  · rintro ⟨page, ⟨hroom, hleast⟩, rfl⟩
    refine ⟨hroom, ?_⟩
    intro other hother hroom
    have hsplit := hpage other hroom
    rw [← hsplit] at hroom
    refine hleast _ ?_ hroom
    simp only [Layout.granulesPerPage] at *
    omega
  · rintro ⟨hroom, hleast⟩
    have hsplit := hpage first hroom
    refine ⟨first / Layout.granulesPerPage, ⟨by rwa [hsplit], ?_⟩, hsplit⟩
    intro page hbefore
    refine hleast _ ?_
    simp only [Layout.granulesPerPage] at *
    omega

/-- A request is placed at the least granule that has room for it. -/
theorem firstFit?_eq_some_iff {bitmap : Bitmap} {sizeClass : SizeClass} {first : Nat}
    (h : sizeClass.Searchable) :
    bitmap.firstFit? sizeClass = some first ↔
      bitmap.HasRoom sizeClass first ∧
        ∀ other, other < first → ¬ bitmap.HasRoom sizeClass other := by
  cases sizeClass with
  | small granules => exact firstGranules?_eq_some_iff h.1
  | large pages => exact firstPages?_eq_some_iff h

/-- The search fails only if no granule has room. -/
theorem firstFit?_eq_none_iff {bitmap : Bitmap} {sizeClass : SizeClass} (h : sizeClass.Searchable) :
    bitmap.firstFit? sizeClass = none ↔ ∀ first, ¬ bitmap.HasRoom sizeClass first := by
  constructor
  · intro hnone first
    induction first using Nat.strongRecOn with
    | ind first ih =>
      intro hroom
      have hsome := (firstFit?_eq_some_iff h).mpr ⟨hroom, ih⟩
      rw [hnone] at hsome
      cases hsome
  · intro hroom
    cases hfound : bitmap.firstFit? sizeClass with
    | none => rfl
    | some first => exact absurd ((firstFit?_eq_some_iff h).mp hfound).1 (hroom first)

end Bitmap

end LinearHeap
