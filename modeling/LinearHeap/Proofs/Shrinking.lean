import LinearHeap.Proofs.MonotoneAllocation
import LinearHeap.Proofs.ResizeSequence
import LinearHeap.Proofs.RoundTrip

/-!
# Shrinking always succeeds

Space that was given back takes any request that is not larger than its footprint
(`Bitmap.GivenBack.hasRoom`). The request may be of the other size class: a run of 64 granules that
was requested with less than 512 bytes has room for a whole page, and whole pages have room for a
run of granules. Seen as space of its whole footprint, which may be released just the same, the old
space is in the class of the largest such request, and a smaller one has room wherever a larger one
has.

First fit takes the least room there is, which may lie before the old space but not after it. With a
resize being a release followed by a request for space, `Heap.shrink_succeeds` follows.
-/

set_option autoImplicit false
set_option relaxedAutoImplicit false

namespace LinearHeap

/-- The footprint of a request can be requested as such, and is its own footprint. -/
theorem SizeClass.footprint_ofSize_footprint (size : Nat) :
    (ofSize (ofSize size).footprint).footprint = (ofSize size).footprint := by
  by_cases hsmall : size < Layout.pageBytes
  · have hcount := count_ofSize_le hsmall
    rw [ofSize_of_lt hsmall] at hcount ⊢
    unfold ofSize
    split <;>
      simp only [footprint, count, unit, Layout.pageBytes_eq, Layout.granuleBytes] at * <;>
      omega
  · rw [ofSize_of_le (Nat.le_of_not_lt hsmall)]
    unfold ofSize
    split <;>
      simp only [footprint, count, unit, Layout.pageBytes_eq, Layout.granuleBytes] at * <;>
      omega

namespace Bitmap

variable {bitmap after : Bitmap} {returned : Allocation} {size : Nat}

/-- Space that was given back has room for any request not larger than its footprint. -/
theorem GivenBack.hasRoom (h : bitmap.GivenBack (some returned) after) (hsize : 0 < size)
    (hle : size ≤ returned.footprint) :
    after.HasRoom (.ofSize size) returned.window.first := by
  obtain ⟨hplaced, hfull⟩ := h.placed_and_isFull
  -- The same space, named by all of its bytes.
  let whole : Allocation := ⟨returned.offset, returned.footprint⟩
  have hsame : whole.SameSpace returned :=
    ⟨rfl, SizeClass.footprint_ofSize_footprint returned.size⟩
  have hwindow := hsame.window_eq
  have hpos : 0 < whole.size := Nat.lt_of_lt_of_le hsize hle
  have hreleasable := (releasable_iff_placed hpos).mpr
    ⟨hplaced.of_sameSpace hsame hpos, hwindow.symm ▸ hfull⟩
  have hroom := hasRoom_clear_of_releasable hpos hreleasable
  rw [hwindow, ← h.2] at hroom
  exact hroom.mono hle fun _ hset ↦ hset

end Bitmap

namespace Heap

variable {heap : Heap} {offset size align newSize : Nat}

/-- Shrinking, and resizing to the same size, never fails and never moves up. If a release of some
bytes would be accepted, a resize of them to any positive number of bytes up to the footprint is
served at an offset of the heap that is not above the old one, and so is a request for so many bytes
after the release, at the same offset. The heap may hold anything, and the alignment is a supported
one because the release is accepted. -/
theorem shrink_succeeds (hsize : 0 < size)
    (hrelease : (heap.release offset size align).outcome = .ok ()) (hnew : 0 < newSize)
    (hle : newSize ≤ (SizeClass.ofSize size).footprint) :
    ∃ offset', Layout.heapStart ≤ offset' ∧ offset' ≤ offset ∧
      (heap.resize offset size align newSize).outcome = .ok offset' ∧
        ((heap.release offset size align).state.allocate align newSize).outcome = .ok offset' := by
  have hsequence := (resize_of_release_ok newSize hrelease).1
  rw [outcome_release] at hrelease
  have halign := Bitmap.align_of_release_ok hrelease
  have hgiven : heap.bitmap.GivenBack (some ⟨offset, size⟩)
      (heap.bitmap.release offset size align).state :=
    Allocation.named?_of_pos hsize offset ▸ Bitmap.givenBack_of_release hrelease
  have hoffset := hgiven.placed_and_isFull.1.granuleOffset_first
  obtain ⟨found, hfound, hbefore⟩ := (hgiven.hasRoom hnew hle).exists_firstFit?_le hnew
  have hallocated : ((heap.release offset size align).state.allocate align newSize).outcome =
      .ok (Layout.granuleOffset found) := by
    rw [outcome_allocate_eq_firstFit? halign hnew, state_release, bitmap_setBitmap, hfound]
  refine ⟨Layout.granuleOffset found, ?_, ?_, hsequence.trans hallocated, hallocated⟩
  · exact Nat.le_add_right _ _
  · change _ = offset at hoffset
    rw [← hoffset]
    exact Nat.add_le_add_left (Nat.mul_le_mul_right _ hbefore) _

/-- With the first page in use except for granules 3 to 7, and the second page taken by 505 bytes,
these are resized to the 512 bytes of their footprint, which takes the same page. -/
theorem shrink_succeeds_across_classes :
    let heap := zeroed.setBitmap ((Bitmap.empty.fill ⟨0, 3⟩).fill ⟨8, 120⟩)
    0 < 505 ∧ (heap.release 1024 505 8).outcome = .ok () ∧ 0 < 512 ∧
      512 ≤ (SizeClass.ofSize 505).footprint ∧
      ∃ offset', Layout.heapStart ≤ offset' ∧ offset' ≤ 1024 ∧
        (heap.resize 1024 505 8 512).outcome = .ok offset' ∧
          ((heap.release 1024 505 8).state.allocate 8 512).outcome = .ok offset' := by
  intro heap
  have hbitmap : heap.bitmap = (Bitmap.empty.fill ⟨0, 3⟩).fill ⟨8, 120⟩ := bitmap_setBitmap _ _
  have hrelease : (heap.release 1024 505 8).outcome = .ok () := by
    rw [outcome_release, hbitmap]
    decide +kernel
  exact ⟨by decide, hrelease, by decide, by decide,
    shrink_succeeds (by decide) hrelease (by decide) (by decide)⟩

end Heap

end LinearHeap
