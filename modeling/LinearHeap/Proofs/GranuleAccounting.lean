import Mathlib.Algebra.Ring.Nat
import LinearHeap.Proofs.Calls
import LinearHeap.Proofs.GranuleCount

/-!
# Granule accounting

Every call that succeeds changes the number of allocated granules by what it asks for less what it
gives back, and every other call leaves it as it is (`Heap.allocated_perform`). The count is a sum
of set bits, but a grant fills a window that was free and a release clears one that was full, so
each changes the count by the size of the window (`Bitmap.Granted.allocated_eq`,
`Bitmap.GivenBack.allocated_add`). Nothing is asked of the calls: a release of a part of an
allocation, or of several at once, is accounted for in the same way.

`Heap.allocated_performAll` adds this up over a run.
-/

set_option autoImplicit false
set_option relaxedAutoImplicit false

namespace LinearHeap

/-- The granules set aside for so many bytes, none for no bytes. -/
def granulesFor (size : Nat) : Nat :=
  if size = 0 then 0 else (SizeClass.ofSize size).footprint / Layout.granuleBytes

theorem granulesFor_zero : granulesFor 0 = 0 := if_pos rfl

theorem granulesFor_of_pos {size : Nat} (h : 0 < size) :
    granulesFor size = (SizeClass.ofSize size).granuleCount := by
  rw [granulesFor, if_neg (Nat.ne_of_gt h), SizeClass.footprint_eq]
  exact Nat.mul_div_cancel _ (by decide)

namespace Bitmap

variable {before after : Bitmap} {offset size : Nat}

/-- A release takes its granules off the count. -/
theorem GivenBack.allocated_add (h : before.GivenBack (Allocation.named? offset size) after) :
    after.allocated + granulesFor size = before.allocated := by
  by_cases hsize : size = 0
  · subst hsize
    rw [show after = before from h, granulesFor_zero, Nat.add_zero]
  · have hpos := Nat.pos_of_ne_zero hsize
    rw [Allocation.named?_of_pos hpos] at h
    obtain ⟨hheap, hfull⟩ := isFull_of_releasable h.1
    rw [h.2, granulesFor_of_pos hpos]
    exact allocated_clear hheap hfull

/-- A grant adds its granules to the count. -/
theorem Granted.allocated_eq (h : before.Granted (Allocation.named? offset size) after) :
    after.allocated = before.allocated + granulesFor size := by
  by_cases hsize : size = 0
  · subst hsize
    rw [show after = before from h, granulesFor_zero, Nat.add_zero]
  · have hpos := Nat.pos_of_ne_zero hsize
    rw [Allocation.named?_of_pos hpos] at h
    obtain ⟨hfree, hplaced⟩ := h.isFree_and_placed
    rw [h.2.2, granulesFor_of_pos hpos]
    exact allocated_fill hplaced.window_inHeap hfree

end Bitmap

namespace Heap

/-- One call changes the count by what it asks for less what it gives back if it succeeds, and is
refused and changes nothing otherwise. -/
theorem allocated_perform (heap : Heap) (call : Call) :
    (∃ refusal, (heap.perform call).outcome = .refused refusal ∧
      (heap.perform call).state = heap) ∨
    ∃ settlement, (heap.perform call).outcome = .ok settlement ∧
      (heap.perform call).state.allocated + granulesFor call.returned =
        heap.allocated + granulesFor call.requested := by
  rcases heap.perform_cases call with hrefused | ⟨settlement, middle, hok, hgiven, hgranted⟩
  · exact Or.inl hrefused
  · refine Or.inr ⟨settlement, hok, ?_⟩
    obtain ⟨hreturned, _, hrequested⟩ := settlement_of_perform hok
    rw [hreturned] at hgiven
    rw [hrequested] at hgranted
    have hless := hgiven.allocated_add
    have hmore := hgranted.allocated_eq
    simp only [allocated]
    omega

/-- The heap after some calls. -/
def performAll (heap : Heap) (calls : List Call) : Heap :=
  calls.foldl (fun heap call ↦ (heap.perform call).state) heap

/-- The calls of a run that succeed. -/
def served (heap : Heap) : List Call → List Call
  | [] => []
  | call :: rest =>
    match (heap.perform call).outcome with
    | .ok _ => call :: (heap.perform call).state.served rest
    | .refused _ | .fault _ => (heap.perform call).state.served rest

/-- The granules that some calls ask for. -/
def requestedGranules (calls : List Call) : Nat :=
  (calls.map fun call ↦ granulesFor call.requested).sum

/-- The granules that some calls give back. -/
def returnedGranules (calls : List Call) : Nat :=
  (calls.map fun call ↦ granulesFor call.returned).sum

/-- What a run takes off the count and what it adds to it. -/
theorem allocated_performAll (heap : Heap) (calls : List Call) :
    (heap.performAll calls).allocated + returnedGranules (heap.served calls) =
      heap.allocated + requestedGranules (heap.served calls) := by
  induction calls generalizing heap with
  | nil => rfl
  | cons call rest ih =>
    have hrest := ih (heap.perform call).state
    rw [performAll, List.foldl_cons, ← performAll, served]
    rcases heap.allocated_perform call with ⟨refusal, hrefused, hstate⟩ | ⟨settlement, hok, hstep⟩
    · rw [hrefused]
      rwa [hstate] at hrest ⊢
    · rw [hok]
      simp only [requestedGranules, returnedGranules, List.map_cons, List.sum_cons] at hrest ⊢
      omega

/-- Granule accounting. Whatever the bitmap holds, and for any calls with any arguments: at every
point of the run the number of allocated granules is the one at its start, plus the granules of all
positive sizes that the calls so far asked for with success, less those of all positive sizes that
they gave back with success, where a resize does both. It never exceeds the granules of the heap. -/
theorem granule_accounting (heap : Heap) (calls : List Call) (count : Nat) :
    let done := calls.take count
    (heap.performAll done).allocated + returnedGranules (heap.served done) =
        heap.allocated + requestedGranules (heap.served done) ∧
      (heap.performAll done).allocated ≤ Layout.heapGranules := by
  intro done
  exact ⟨heap.allocated_performAll done, (heap.performAll done).bitmap.allocated_le⟩

end Heap

end LinearHeap
