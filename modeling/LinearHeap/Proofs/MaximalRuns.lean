import Mathlib.Algebra.BigOperators.Group.Finset.Basic
import Mathlib.Data.Finset.Prod
import Mathlib.Data.Nat.Find
import LinearHeap.FirstFit

/-!
# Maximal runs of free places

A run of free places is maximal if neither of its ends can be moved outwards. `packing` adds up,
over all maximal runs, how many runs of a length fit into each side by side.

Taking the least run of that length lowers the packing by one
(`packing_eq_packing_without_add_one`). A least run starts where a maximal one starts, since it
could otherwise start a place earlier (`IsRun.taken_before`). So what is taken is the left end of
one maximal run: this run loses the length, or vanishes if there was no more of it, and the other
maximal runs stay as they are (`maximalRuns_without`). When there is no run of the length, every
maximal run is shorter and nothing is packed into it (`packing_eq_zero`).
-/

set_option autoImplicit false
set_option relaxedAutoImplicit false

namespace LinearHeap

variable {free : Nat → Bool} {length bound start : Nat}

theorem IsRun.free_of_mem (h : IsRun free length bound start) {place : Nat}
    (hlow : start ≤ place) (hhigh : place < start + length) : free place = true := by
  have hfree := h.2 (place - start) (by omega)
  rwa [Nat.add_sub_of_le hlow] at hfree

theorem isRun_iff_all : IsRun free length bound start ↔
    start + length ≤ bound ∧ (List.range' start length).all free = true := by
  simp only [List.all_eq_true, List.mem_range'_1]
  constructor
  · intro h
    exact ⟨h.1, fun place hmem ↦ h.free_of_mem hmem.1 hmem.2⟩
  · rintro ⟨hbound, hfree⟩
    exact ⟨hbound, fun i hi ↦ hfree _ ⟨Nat.le_add_right _ _, Nat.add_lt_add_left hi _⟩⟩

/-- Looks at the places in order, up to the first that is taken. -/
instance (free : Nat → Bool) (length bound start : Nat) :
    Decidable (IsRun free length bound start) :=
  decidable_of_iff' _ isRun_iff_all

/-- A run of free places that begins after a taken place, or at the first place, and ends before a
taken place, or at the bound. -/
structure IsMaximalRun (free : Nat → Bool) (length bound start : Nat) : Prop where
  length_pos : 0 < length
  isRun : IsRun free length bound start
  before : 0 < start → free (start - 1) = false
  after : start + length < bound → free (start + length) = false

instance (free : Nat → Bool) (length bound start : Nat) :
    Decidable (IsMaximalRun free length bound start) :=
  decidable_of_iff (0 < length ∧ IsRun free length bound start ∧
      (0 < start → free (start - 1) = false) ∧
        (start + length < bound → free (start + length) = false))
    ⟨fun ⟨hpos, hrun, hbefore, hafter⟩ ↦ ⟨hpos, hrun, hbefore, hafter⟩,
      fun h ↦ ⟨h.length_pos, h.isRun, h.before, h.after⟩⟩

/-- The maximal runs below a bound, each given by its start and its length. -/
def maximalRuns (free : Nat → Bool) (bound : Nat) : Finset (Nat × Nat) :=
  (Finset.range bound ×ˢ Finset.range (bound + 1)).filter fun run ↦
    IsMaximalRun free run.2 bound run.1

/-- How many runs of a length fit side by side into the maximal runs. -/
def packing (free : Nat → Bool) (length bound : Nat) : Nat :=
  ∑ run ∈ maximalRuns free bound, run.2 / length

/-- The places that are still free when those of a run are taken. -/
def without (free : Nat → Bool) (length start : Nat) (place : Nat) : Bool :=
  free place && !decide (start ≤ place ∧ place < start + length)

theorem mem_maximalRuns_iff :
    (start, length) ∈ maximalRuns free bound ↔ IsMaximalRun free length bound start := by
  rw [maximalRuns, Finset.mem_filter, Finset.mem_product, Finset.mem_range, Finset.mem_range]
  refine and_iff_right_of_imp fun h ↦ ?_
  have hpos := h.length_pos
  have hbound := h.isRun.1
  dsimp only at *
  omega

theorem without_eq_true_iff {place : Nat} :
    without free length start place = true ↔
      free place = true ∧ (place < start ∨ start + length ≤ place) := by
  rw [without, Bool.and_eq_true, Bool.not_eq_true', decide_eq_false_iff_not]
  refine and_congr_right fun _ ↦ ?_
  omega

theorem without_eq_false_iff {place : Nat} :
    without free length start place = false ↔
      free place = false ∨ (start ≤ place ∧ place < start + length) := by
  rw [without, Bool.and_eq_false_iff, Bool.not_eq_false', decide_eq_true_iff]

/-! ### Runs and maximal runs -/

/-- A least run starts after a taken place. -/
theorem IsRun.taken_before (h : IsRun free length bound start)
    (hleast : ∀ other, other < start → ¬ IsRun free length bound other) (hpos : 0 < start) :
    free (start - 1) = false := by
  rw [Bool.eq_false_iff]
  intro hfree
  have hbound := h.1
  refine hleast (start - 1) (by omega) ⟨by omega, fun i hi ↦ ?_⟩
  by_cases hzero : i = 0
  · rwa [hzero]
  · exact h.free_of_mem (by omega) (by omega)

/-- No run is longer than the maximal one with its start. -/
theorem IsMaximalRun.length_le (h : IsMaximalRun free length bound start) {other : Nat}
    (hrun : IsRun free other bound start) : other ≤ length := by
  by_contra hlonger
  have hbound := hrun.1
  have htaken := h.after (by omega)
  rw [hrun.free_of_mem (by omega) (by omega)] at htaken
  cases htaken

/-- Two maximal runs with one start have one length. -/
theorem IsMaximalRun.length_eq {other : Nat} (h : IsMaximalRun free length bound start)
    (hother : IsMaximalRun free other bound start) : length = other :=
  Nat.le_antisymm (hother.length_le h.isRun) (h.length_le hother.isRun)

/-- A run that starts before a maximal one ends before it, with a taken place between the two. -/
theorem IsMaximalRun.end_lt (h : IsMaximalRun free length bound start) {other first : Nat}
    (hrun : IsRun free other bound first) (hlt : first < start) : first + other < start := by
  by_contra hreaches
  have htaken := h.before (by omega)
  rw [hrun.free_of_mem (by omega) (by omega)] at htaken
  cases htaken

/-- A run after a taken place begins a maximal one. -/
theorem IsRun.exists_isMaximalRun (h : IsRun free length bound start) (hpos : 0 < length)
    (hbefore : 0 < start → free (start - 1) = false) :
    ∃ whole, length ≤ whole ∧ IsMaximalRun free whole bound start := by
  let whole := Nat.findGreatest (fun whole ↦ IsRun free whole bound start) bound
  have hbound : length ≤ bound := Nat.le_trans (Nat.le_add_left _ _) h.1
  have hle : length ≤ whole := Nat.le_findGreatest hbound h
  have hrun : IsRun free whole bound start :=
    Nat.findGreatest_spec (P := fun whole ↦ IsRun free whole bound start) hbound h
  refine ⟨whole, hle, Nat.lt_of_lt_of_le hpos hle, hrun, hbefore, fun hmore ↦ ?_⟩
  rw [Bool.eq_false_iff]
  intro hfree
  -- One more free place would make a longer run than the longest.
  have hlonger : IsRun free (whole + 1) bound start := by
    refine ⟨hmore, fun i hi ↦ ?_⟩
    by_cases hlast : i = whole
    · rwa [hlast]
    · exact hrun.2 i (by omega)
  exact Nat.findGreatest_is_greatest (Nat.lt_succ_self whole) (by omega) hlonger

/-! ### Taking the left end of a maximal run -/

variable {whole : Nat}

/-- A run is left where another one is taken if it lies to one side of it. -/
theorem isRun_without_iff {other first : Nat} (hpos : 0 < length) (hother : 0 < other) :
    IsRun (without free length start) other bound first ↔
      IsRun free other bound first ∧ (first + other ≤ start ∨ start + length ≤ first) := by
  simp only [IsRun, without_eq_true_iff]
  constructor
  · rintro ⟨hbound, hfree⟩
    refine ⟨⟨hbound, fun i hi ↦ (hfree i hi).1⟩, ?_⟩
    have hfirst := (hfree 0 hother).2
    by_contra hacross
    -- The run begins before the taken one and reaches into it.
    have htaken := (hfree (start - first) (by omega)).2
    omega
  · rintro ⟨⟨hbound, hfree⟩, hside⟩
    exact ⟨hbound, fun i hi ↦ ⟨hfree i hi, by omega⟩⟩

/-- Other maximal runs than the one whose left end is taken stay maximal. -/
theorem IsMaximalRun.without_of_ne (hmax : IsMaximalRun free whole bound start)
    (hpos : 0 < length) (hle : length ≤ whole) {other first : Nat}
    (h : IsMaximalRun free other bound first) (hne : first ≠ start) :
    IsMaximalRun (without free length start) other bound first := by
  have hapart : first + other < start ∨ start + whole < first := by
    rcases Nat.lt_or_gt_of_ne hne with hlt | hlt
    · exact Or.inl (hmax.end_lt h.isRun hlt)
    · exact Or.inr (h.end_lt hmax.isRun hlt)
  refine ⟨h.length_pos, ?_, fun hzero ↦ ?_, fun hend ↦ ?_⟩
  · exact (isRun_without_iff hpos h.length_pos).mpr ⟨h.isRun, by omega⟩
  · exact without_eq_false_iff.mpr (Or.inl (h.before hzero))
  · exact without_eq_false_iff.mpr (Or.inl (h.after hend))

/-- What is left of the run whose left end is taken is maximal. -/
theorem IsMaximalRun.rest (hmax : IsMaximalRun free whole bound start) (hpos : 0 < length)
    (hlt : length < whole) :
    IsMaximalRun (without free length start) (whole - length) bound (start + length) := by
  have hbound := hmax.isRun.1
  refine ⟨by omega, ⟨by omega, fun i hi ↦ ?_⟩, fun _ ↦ ?_, fun hend ↦ ?_⟩
  · exact without_eq_true_iff.mpr ⟨hmax.isRun.free_of_mem (by omega) (by omega), by omega⟩
  · exact without_eq_false_iff.mpr (Or.inr (by omega))
  · rw [Nat.add_assoc, Nat.add_sub_of_le (Nat.le_of_lt hlt)] at hend ⊢
    exact without_eq_false_iff.mpr (Or.inl (hmax.after hend))

/-- A maximal run after the taken left end is all that is left. -/
theorem IsMaximalRun.length_add_eq (hmax : IsMaximalRun free whole bound start)
    (hle : length ≤ whole) {other : Nat}
    (h : IsMaximalRun (without free length start) other bound (start + length)) :
    length + other = whole := by
  have hfree : ∀ i, i < other → free (start + length + i) = true := fun i hi ↦
    (without_eq_true_iff.mp (h.isRun.2 i hi)).1
  have hjoined : IsMaximalRun free (length + other) bound start := by
    refine ⟨Nat.add_pos_right _ h.length_pos, ⟨?_, fun i hi ↦ ?_⟩, hmax.before, fun hend ↦ ?_⟩
    · rw [← Nat.add_assoc]
      exact h.isRun.1
    · by_cases hleft : i < length
      · exact hmax.isRun.2 i (by omega)
      · have hright := hfree (i - length) (by omega)
        rwa [Nat.add_assoc, Nat.add_sub_of_le (by omega)] at hright
    · rw [← Nat.add_assoc] at hend ⊢
      exact (without_eq_false_iff.mp (h.after hend)).resolve_right (by omega)
  exact hjoined.length_eq hmax

/-- When the left end of a maximal run is taken, the maximal runs are the other ones and what is
left of it. -/
theorem isMaximalRun_without_iff (hmax : IsMaximalRun free whole bound start) (hpos : 0 < length)
    (hle : length ≤ whole) {other first : Nat} :
    IsMaximalRun (without free length start) other bound first ↔
      (IsMaximalRun free other bound first ∧ first ≠ start) ∨
        (length < whole ∧ first = start + length ∧ other = whole - length) := by
  constructor
  · intro h
    have hother := h.length_pos
    by_cases hrest : first = start + length
    · subst hrest
      have hwhole := hmax.length_add_eq hle h
      exact Or.inr ⟨by omega, rfl, by omega⟩
    · -- No end of the run touches what is taken, so its ends are those it had before.
      obtain ⟨hrun, hside⟩ := (isRun_without_iff hpos hother).mp h.isRun
      have hapart : first + other < start ∨ start + length < first := by
        by_cases hlt : first < start
        · exact Or.inl (hmax.end_lt hrun hlt)
        · omega
      refine Or.inl ⟨⟨hother, hrun, fun hzero ↦ ?_, fun hend ↦ ?_⟩, by omega⟩
      · exact (without_eq_false_iff.mp (h.before hzero)).resolve_right (by omega)
      · exact (without_eq_false_iff.mp (h.after hend)).resolve_right (by omega)
  · rintro (⟨h, hne⟩ | ⟨hlt, rfl, rfl⟩)
    · exact hmax.without_of_ne hpos hle h hne
    · exact hmax.rest hpos hlt

/-- The maximal runs when the left end of one of them is taken. -/
theorem maximalRuns_without (hmax : IsMaximalRun free whole bound start) (hpos : 0 < length)
    (hle : length ≤ whole) :
    maximalRuns (without free length start) bound =
      if length < whole then
        insert (start + length, whole - length) ((maximalRuns free bound).erase (start, whole))
      else (maximalRuns free bound).erase (start, whole) := by
  ext ⟨first, other⟩
  have hmem : (first, other) ∈ (maximalRuns free bound).erase (start, whole) ↔
      IsMaximalRun free other bound first ∧ first ≠ start := by
    rw [Finset.mem_erase, mem_maximalRuns_iff, and_comm]
    refine and_congr_right fun h ↦ not_congr ⟨fun heq ↦ congrArg Prod.fst heq, fun heq ↦ ?_⟩
    subst heq
    rw [h.length_eq hmax]
  rw [mem_maximalRuns_iff, isMaximalRun_without_iff hmax hpos hle]
  split
  · next hlt =>
    rw [Finset.mem_insert, hmem, or_comm, Prod.mk.injEq, and_iff_right hlt]
  · next hlt =>
    rw [hmem]
    exact or_iff_left fun h ↦ hlt h.1

/-! ### The packing -/

/-- Nothing is packed into runs that are all too short. -/
theorem packing_eq_zero (h : ∀ start, ¬ IsRun free length bound start) :
    packing free length bound = 0 := by
  refine Finset.sum_eq_zero fun run hmem ↦ Nat.div_eq_of_lt ?_
  have hmax := mem_maximalRuns_iff.mp hmem
  refine Nat.lt_of_not_le fun hle ↦ h run.1 ⟨?_, fun i hi ↦ ?_⟩
  · exact Nat.le_trans (Nat.add_le_add_left hle _) hmax.isRun.1
  · exact hmax.isRun.2 i (Nat.lt_of_lt_of_le hi hle)

/-- Taking the least run of a length lowers the packing by one. -/
theorem packing_eq_packing_without_add_one (hpos : 0 < length)
    (hrun : IsRun free length bound start)
    (hleast : ∀ other, other < start → ¬ IsRun free length bound other) :
    packing free length bound = packing (without free length start) length bound + 1 := by
  obtain ⟨whole, hle, hmax⟩ := hrun.exists_isMaximalRun hpos (hrun.taken_before hleast)
  have hmem : (start, whole) ∈ maximalRuns free bound := mem_maximalRuns_iff.mpr hmax
  have hrest : packing (without free length start) length bound =
      (whole - length) / length +
        ∑ run ∈ (maximalRuns free bound).erase (start, whole), run.2 / length := by
    by_cases hlt : length < whole
    · rw [packing, maximalRuns_without hmax hpos hle, if_pos hlt, Finset.sum_insert]
      rw [Finset.mem_erase, mem_maximalRuns_iff]
      rintro ⟨_, hnew⟩
      have htaken := hnew.before (by omega)
      rw [hmax.isRun.free_of_mem (by omega) (by omega)] at htaken
      cases htaken
    · rw [packing, maximalRuns_without hmax hpos hle, if_neg hlt,
        Nat.sub_eq_zero_of_le (Nat.le_of_not_lt hlt), Nat.zero_div, Nat.zero_add]
  have hdiv : whole / length = (whole - length) / length + 1 := by
    rw [← Nat.add_div_right _ hpos, Nat.sub_add_cancel hle]
  rw [hrest, packing, ← Finset.add_sum_erase _ _ hmem, hdiv]
  exact Nat.add_right_comm _ _ _

end LinearHeap
