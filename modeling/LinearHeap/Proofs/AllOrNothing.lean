import LinearHeap.Proofs.Effects

/-!
# Refused requests change nothing

A request that is refused leaves the whole region as it was, whatever the bitmap holds
(`Reply.AllOrNothing`). The only refusal that comes after a change is the one of a resize whose old
space is already given back when the new space cannot be found; marking the old window again then
undoes exactly the release, because a release only clears windows that are allocated throughout.

The boundary adds no change of its own: it refuses negative arguments before the heap sees the
request, and hands on the refusals of the heap. `Heap.all_or_nothing` puts the requests of both
layers together.
-/

set_option autoImplicit false
set_option relaxedAutoImplicit false

namespace LinearHeap

/-- If the request was refused, the heap after it is the heap before it. -/
def Reply.AllOrNothing {ε α : Type} (reply : Reply Heap ε α) (before : Heap) : Prop :=
  ∀ refusal, reply.outcome = .refused refusal → reply.state = before

namespace Heap

/-- A refused resize changes nothing. -/
theorem resize_allOrNothing (heap : Heap) (oldOffset oldSize align newSize : Nat) :
    (heap.resize oldOffset oldSize align newSize).AllOrNothing heap := by
  intro refusal hrefused
  rw [outcome_resize] at hrefused
  rw [state_resize]
  rcases heap.bitmap.resize_cases oldOffset oldSize align newSize with
    ⟨_, _, hstate⟩ | ⟨offset, _, hok, _⟩
  · rw [hstate, setBitmap_bitmap]
  · rw [hok] at hrefused
    cases hrefused

/-- A refused request for space changes nothing. -/
theorem allocate_allOrNothing (heap : Heap) (align size : Nat) :
    (heap.allocate align size).AllOrNothing heap :=
  heap.resize_allOrNothing 0 0 align size

/-- A refused release changes nothing. -/
theorem release_allOrNothing (heap : Heap) (offset size align : Nat) :
    (heap.release offset size align).AllOrNothing heap := by
  intro refusal hrefused
  rw [outcome_release] at hrefused
  rw [state_release]
  rcases heap.bitmap.release_cases offset size align with ⟨_, _, hstate⟩ | ⟨hok, _⟩
  · rw [hstate, setBitmap_bitmap]
  · rw [hok] at hrefused
    cases hrefused

/-- A resize that has given back its old space and finds no new space is refused, and marking the
old window again makes up for its release. -/
theorem resize_restores (heap : Heap) {oldOffset oldSize align newSize : Nat} {window : Window}
    (halign : align ∈ [1, 2, 4, 8]) (hold : 0 < oldSize) (hnew : 0 < newSize)
    (hchecks : heap.bitmap.releasable oldOffset oldSize = .ok window)
    (hfull : (heap.bitmap.clear window).firstFit? (.ofSize newSize) = none) :
    (heap.resize oldOffset oldSize align newSize).outcome = .refused (.outOfMemory newSize) ∧
      (heap.bitmap.clear window).putBack (some window) = .ok heap.bitmap := by
  obtain ⟨alignment, hsupported⟩ := Alignment.exists_ofNat?_eq_some halign
  have hback := Bitmap.putBack_clear hchecks
  refine ⟨?_, hback⟩
  rw [outcome_resize, Bitmap.resize_of_ok hsupported hold hchecks,
    Bitmap.place_of_none alignment hnew hfull hback]
  rfl

end Heap

namespace Boundary

/-- A refused request for space at the boundary changes nothing. -/
theorem realloc_allOrNothing (heap : Heap) (oldOffset : UInt32) (oldSize align newSize : Int32) :
    (realloc heap oldOffset oldSize align newSize).AllOrNothing heap := by
  intro refusal
  unfold realloc
  dsimp only
  split
  · exact fun _ ↦ rfl
  · split
    · split <;> exact nofun
    · next hrefused =>
      exact fun _ ↦ heap.resize_allOrNothing _ _ _ _ _ hrefused
    · exact nofun

/-- A refused release at the boundary changes nothing. -/
theorem free_allOrNothing (heap : Heap) (offset : UInt32) (size align : Int32) :
    (free heap offset size align).AllOrNothing heap := by
  intro refusal
  unfold free
  dsimp only
  split
  · exact fun _ ↦ rfl
  · split
    · exact nofun
    · next hrefused =>
      exact fun _ ↦ heap.release_allOrNothing _ _ _ _ hrefused
    · exact nofun

end Boundary

/-- All or nothing. Whatever a heap holds and whatever the arguments are, a request of the heap or
of the boundary that is refused leaves the whole region as it was. In particular a resize that has
given back its old window and then finds no room is refused, and marking the window again gives the
bitmap that it started from. -/
theorem Heap.all_or_nothing (heap : Heap) :
    ((∀ align size, (heap.allocate align size).AllOrNothing heap) ∧
      (∀ oldOffset oldSize align newSize,
        (heap.resize oldOffset oldSize align newSize).AllOrNothing heap) ∧
      ∀ offset size align, (heap.release offset size align).AllOrNothing heap) ∧
    ((∀ oldOffset oldSize align newSize,
        (Boundary.realloc heap oldOffset oldSize align newSize).AllOrNothing heap) ∧
      (∀ offset size align, (Boundary.free heap offset size align).AllOrNothing heap) ∧
      (∀ oldOffset oldSize align newSize,
        (Boundary.canonicalRealloc heap oldOffset oldSize align newSize).AllOrNothing heap) ∧
      (∀ offset size align, (Boundary.canonicalFree heap offset size align).AllOrNothing heap) ∧
      ∀ size align, (Boundary.malloc heap size align).AllOrNothing heap) ∧
    ∀ oldOffset oldSize align newSize window, align ∈ [1, 2, 4, 8] → 0 < oldSize → 0 < newSize →
      heap.bitmap.releasable oldOffset oldSize = .ok window →
      (heap.bitmap.clear window).firstFit? (.ofSize newSize) = none →
        (heap.resize oldOffset oldSize align newSize).outcome = .refused (.outOfMemory newSize) ∧
          (heap.bitmap.clear window).putBack (some window) = .ok heap.bitmap := by
  refine ⟨⟨heap.allocate_allOrNothing, heap.resize_allOrNothing, heap.release_allOrNothing⟩,
    ⟨Boundary.realloc_allOrNothing heap, Boundary.free_allOrNothing heap,
      Boundary.realloc_allOrNothing heap, Boundary.free_allOrNothing heap, ?_⟩, ?_⟩
  · exact fun size align ↦ Boundary.realloc_allOrNothing heap 0 0 align size
  · intro oldOffset oldSize align newSize window halign hold hnew hchecks hfull
    exact heap.resize_restores halign hold hnew hchecks hfull

/-- In a heap that is allocated throughout, the 24 bytes at offset 512 can be released, a resize of
them to 600 bytes is refused, and the heap after it is the heap before it. -/
theorem Heap.all_or_nothing_full :
    let heap := Heap.zeroed.setBitmap (Bitmap.empty.fill ⟨0, 4096⟩)
    heap.bitmap.releasable 512 24 = .ok ⟨0, 3⟩ ∧
      (heap.bitmap.clear ⟨0, 3⟩).firstFit? (.ofSize 600) = none ∧
      (heap.resize 512 24 8 600).outcome = .refused (.outOfMemory 600) ∧
      (heap.resize 512 24 8 600).state = heap ∧
      (heap.bitmap.clear ⟨0, 3⟩).putBack (some ⟨0, 3⟩) = .ok heap.bitmap := by
  intro heap
  have hbitmap : heap.bitmap = Bitmap.empty.fill ⟨0, 4096⟩ := bitmap_setBitmap _ _
  have hchecks : heap.bitmap.releasable 512 24 = .ok ⟨0, 3⟩ := by
    rw [hbitmap]
    decide +kernel
  have hfull : (heap.bitmap.clear ⟨0, 3⟩).firstFit? (.ofSize 600) = none := by
    rw [hbitmap]
    decide +kernel
  obtain ⟨⟨_, hresize, _⟩, _, hrestores⟩ := all_or_nothing heap
  have hback := hrestores 512 24 8 600 ⟨0, 3⟩ (by decide) (by decide) (by decide) hchecks hfull
  exact ⟨hchecks, hfull, hback.1, hresize 512 24 8 600 _ hback.1, hback.2⟩

end LinearHeap
