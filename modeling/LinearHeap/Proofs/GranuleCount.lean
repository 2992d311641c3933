import Mathlib.Data.Finset.Card
import Mathlib.Order.Interval.Finset.Nat
import LinearHeap.Bitmap

/-!
# Counting granules

The number of allocated granules is the number of set bits (`Bitmap.allocated_eq_card`). Filling a
free window adds as many as the window has (`Bitmap.allocated_fill`), and clearing a full one takes
as many away (`Bitmap.allocated_clear`).
-/

set_option autoImplicit false
set_option relaxedAutoImplicit false

namespace LinearHeap.Bitmap

variable {bitmap : Bitmap} {window : Window}

/-- The granules that are allocated. -/
def granules (bitmap : Bitmap) : Finset Nat :=
  (Finset.range Layout.heapGranules).filter fun granule ↦ bitmap.isSet granule = true

theorem mem_granules_iff {granule : Nat} :
    granule ∈ bitmap.granules ↔ bitmap.isSet granule = true := by
  rw [granules, Finset.mem_filter, Finset.mem_range]
  exact and_iff_right_of_imp lt_of_isSet

/-- Counting below a bound, as the size of the set of what is counted. -/
theorem countP_range_eq_card (p : Nat → Bool) (n : Nat) :
    (List.range n).countP p = ((Finset.range n).filter fun i ↦ p i = true).card := by
  rw [List.countP_eq_length_filter, Finset.card_def, Finset.filter_val, Finset.range_val,
    Multiset.range, Multiset.filter_coe, Multiset.coe_card]
  simp only [Bool.decide_eq_true]

theorem allocated_eq_card (bitmap : Bitmap) : bitmap.allocated = bitmap.granules.card := by
  rw [allocated_eq_countP, countP_range_eq_card, granules]

/-- Filling a window of the heap allocates its granules. -/
theorem granules_fill (hheap : window.InHeap) :
    (bitmap.fill window).granules = bitmap.granules ∪ Finset.Ico window.first window.stop := by
  ext granule
  rw [Finset.mem_union, Finset.mem_Ico, mem_granules_iff, mem_granules_iff,
    isSet_fill_of_inHeap _ hheap, Bool.or_eq_true, decide_eq_true_iff]
  rfl

/-- Filling a free window allocates as many granules as the window has. -/
theorem allocated_fill (hheap : window.InHeap) (hfree : bitmap.isFree window = true) :
    (bitmap.fill window).allocated = bitmap.allocated + window.count := by
  have hdisjoint : Disjoint bitmap.granules (Finset.Ico window.first window.stop) := by
    rw [Finset.disjoint_left]
    intro granule hset hmem
    rw [mem_granules_iff, isFree_iff.mp hfree granule (Finset.mem_Ico.mp hmem)] at hset
    cases hset
  rw [allocated_eq_card, allocated_eq_card, granules_fill hheap,
    Finset.card_union_of_disjoint hdisjoint, Nat.card_Ico, Window.stop, Nat.add_sub_cancel_left]

/-- Clearing a full window takes as many granules back as the window has. -/
theorem allocated_clear (hheap : window.InHeap) (hfull : bitmap.isFull window = true) :
    (bitmap.clear window).allocated + window.count = bitmap.allocated := by
  rw [← allocated_fill hheap (bitmap.isFree_clear window), fill_clear hheap hfull]

end LinearHeap.Bitmap
