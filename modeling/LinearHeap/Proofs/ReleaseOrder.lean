import Mathlib.Algebra.Ring.Nat
import LinearHeap.Proofs.GranuleCount
import LinearHeap.Proofs.RoundTrip

/-!
# Releases in any order

Releases that are accepted one after the other are accepted in every order and lead to the same heap
(`Heap.releases_in_any_order`), whatever the heap holds and whatever the releases name.

An accepted release clears a window that is allocated throughout, so filling the window again undoes
it. From the last bitmap the windows of all releases can therefore be filled one after the other, up
to the first bitmap (`Heap.exists_stacks_of_accepts`). Their order does not matter for that, so each
order of the releases is the reverse of one in which the windows can be filled, and then every
release undoes the filling before it. Windows that can be filled one after the other have no granule
in common (`Bitmap.Stacks.pairwise`), and each adds its own to the count
(`Bitmap.Stacks.allocated_fillAll`).
-/

set_option autoImplicit false
set_option relaxedAutoImplicit false

namespace LinearHeap

namespace Bitmap

variable {bitmap : Bitmap} {window : Window} {windows : List Window}

/-- A window that can be filled after others is free before them. -/
theorem Stacks.isFree_of_mem (h : bitmap.Stacks windows) (hmem : window ∈ windows) :
    bitmap.isFree window = true := by
  induction windows generalizing bitmap with
  | nil => cases hmem
  | cons head rest ih =>
    rcases List.mem_cons.mp hmem with rfl | hrest
    · exact h.1
    · exact (isFree_fill_iff.mp (ih h.2 hrest)).1

/-- Windows that can be filled one after the other have no granule in common. -/
theorem Stacks.pairwise (h : bitmap.Stacks windows) (hheap : ∀ window ∈ windows, window.InHeap) :
    windows.Pairwise fun first second ↦ ∀ granule, granule ∈ first → granule ∉ second := by
  induction windows generalizing bitmap with
  | nil => exact List.Pairwise.nil
  | cons head rest ih =>
    obtain ⟨hhead, hrest⟩ := List.forall_mem_cons.mp hheap
    refine List.pairwise_cons.mpr ⟨fun window hmem granule hgranule ↦ ?_, ih h.2 hrest⟩
    have hapart := (isFree_fill_iff.mp (h.2.isFree_of_mem hmem)).2
    exact hapart granule (Nat.lt_of_lt_of_le hgranule.2 hhead) hgranule

/-- Windows that are filled one after the other add all of their granules to the count. -/
theorem Stacks.allocated_fillAll (h : bitmap.Stacks windows)
    (hheap : ∀ window ∈ windows, window.InHeap) :
    (bitmap.fillAll windows).allocated = bitmap.allocated + (windows.map Window.count).sum := by
  induction windows generalizing bitmap with
  | nil => rw [fillAll, List.foldl_nil, List.map_nil, List.sum_nil, Nat.add_zero]
  | cons head rest ih =>
    obtain ⟨hhead, hrest⟩ := List.forall_mem_cons.mp hheap
    rw [List.map_cons, List.sum_cons, ← Nat.add_assoc, ← allocated_fill hhead h.1]
    exact ih h.2 hrest

end Bitmap

namespace Heap

variable {heap : Heap} {transfer : Transfer} {releases : List Transfer}

/-- An accepted release names a supported alignment and well-placed space that is all allocated, and
clears the window of that space. -/
theorem accept_of_accepts (hsize : 0 < transfer.space.size) (h : heap.Accepts transfer) :
    (transfer.align ∈ [1, 2, 4, 8] ∧ transfer.space.Placed) ∧
      heap.bitmap.isFull transfer.window = true ∧
        heap.accept transfer = heap.setBitmap (heap.bitmap.clear transfer.window) := by
  rw [Accepts, outcome_release] at h
  have hgiven := Bitmap.givenBack_of_release h
  rw [Allocation.named?_of_pos hsize] at hgiven
  obtain ⟨hplaced, hfull⟩ := hgiven.placed_and_isFull
  exact ⟨⟨Bitmap.align_of_release_ok h, hplaced⟩, hfull, congrArg heap.setBitmap hgiven.2⟩

/-- The windows of accepted releases can be filled one after the other from the bitmap after them,
and that gives the bitmap before them. -/
theorem exists_stacks_of_accepts (hsize : ∀ transfer ∈ releases, 0 < transfer.space.size)
    (haccepted : AdmitsAll accept Accepts heap releases) :
    (∀ transfer ∈ releases, transfer.align ∈ [1, 2, 4, 8] ∧ transfer.space.Placed) ∧
      ∃ bitmap : Bitmap, bitmap.Stacks (releases.map Transfer.window) ∧
        bitmap.fillAll (releases.map Transfer.window) = heap.bitmap ∧
          releases.foldl accept heap = heap.setBitmap bitmap := by
  induction releases generalizing heap with
  | nil => exact ⟨nofun, heap.bitmap, trivial, rfl, heap.setBitmap_bitmap.symm⟩
  | cons transfer rest ih =>
    obtain ⟨hpos, hsize⟩ := List.forall_mem_cons.mp hsize
    obtain ⟨hnamed, hfull, hstate⟩ := accept_of_accepts hpos haccepted.1
    obtain ⟨hrest, bitmap, hstacks, hfilled, hfinal⟩ := ih hsize haccepted.2
    rw [hstate, bitmap_setBitmap] at hfilled
    rw [hstate, setBitmap_setBitmap] at hfinal
    -- The window of the first release is the last one to be filled.
    have hlast : bitmap.Stacks (rest.map Transfer.window ++ [transfer.window]) := by
      rw [Bitmap.stacks_append_singleton_iff, hfilled]
      exact ⟨hstacks, heap.bitmap.isFree_clear _⟩
    have hperm := List.perm_append_singleton transfer.window (rest.map Transfer.window)
    refine ⟨List.forall_mem_cons.mpr ⟨hnamed, hrest⟩, bitmap, hlast.perm hperm, ?_, ?_⟩
    · rw [List.map_cons, ← Bitmap.fillAll_perm hperm, Bitmap.fillAll_append_singleton, hfilled]
      exact Bitmap.fill_clear hnamed.2.window_inHeap hfull
    · rw [List.foldl_cons, hstate, hfinal]

/-- Releases do not depend on their order. If some releases of a positive number of bytes are
accepted one after the other, then they are accepted in any other order, and the heap after them is
the same, the whole region included. No two of their footprints have a byte in common, and they free
as many granules as their footprints have together. Assumes: positive sizes, and releases that are
accepted in the order given. -/
theorem releases_in_any_order (hsize : ∀ transfer ∈ releases, 0 < transfer.space.size)
    (haccepted : AdmitsAll accept Accepts heap releases) :
    (∀ order : List Transfer, order.Perm releases → AdmitsAll accept Accepts heap order ∧
      order.foldl accept heap = releases.foldl accept heap) ∧
    (releases.map Transfer.space).Pairwise Allocation.Apart ∧
    (releases.foldl accept heap).free = heap.free +
      (releases.map fun transfer ↦ transfer.space.footprint / Layout.granuleBytes).sum := by
  obtain ⟨hnamed, bitmap, hstacks, hfilled, hfinal⟩ := exists_stacks_of_accepts hsize haccepted
  have hheap : ∀ window ∈ releases.map Transfer.window, window.InHeap :=
    List.forall_mem_map.mpr fun transfer hmem ↦ (hnamed transfer hmem).2.window_inHeap
  refine ⟨fun order horder ↦ ?_, ?_, ?_⟩
  · have hperm : (releases.map Transfer.window).Perm (order.map Transfer.window).reverse :=
      (horder.symm.map _).trans (List.reverse_perm _).symm
    obtain ⟨hall, hsame⟩ := heap.accepts_reverse
      (fun transfer hmem ↦ hnamed transfer (horder.mem_iff.mp hmem)) (hstacks.perm hperm)
    rw [← Bitmap.fillAll_perm hperm, hfilled, setBitmap_bitmap] at hall hsame
    exact ⟨hall, hsame.trans hfinal.symm⟩
  · refine List.pairwise_map.mpr ((List.pairwise_map.mp (hstacks.pairwise hheap)).imp_of_mem ?_)
    intro first second hfirst hsecond hwindows
    exact Allocation.apart_of_forall_not_mem (hnamed first hfirst).2 (hnamed second hsecond).2
      hwindows
  · have hcount : (releases.map fun transfer ↦ transfer.space.footprint / Layout.granuleBytes) =
        (releases.map Transfer.window).map Window.count := by
      rw [List.map_map]
      refine List.map_congr_left fun transfer _ ↦ ?_
      rw [Allocation.footprint_eq, Nat.mul_div_cancel _ (by decide)]
      rfl
    have hallocated := hstacks.allocated_fillAll hheap
    have hbefore := heap.bitmap.free_add_allocated
    have hafter := bitmap.free_add_allocated
    rw [hfinal, free, free, bitmap_setBitmap, hcount]
    rw [hfilled] at hallocated
    omega

/-- In a heap with its first four pages allocated, 24 bytes on the first page, the two pages after
it, and 505 bytes on the fourth are released, in this order or in the reverse; 195 more granules are
free after that. -/
theorem releases_in_any_order_three_kinds :
    let heap := zeroed.setBitmap (Bitmap.empty.fill ⟨0, 256⟩)
    let releases : List Transfer := [⟨8, ⟨512, 24⟩⟩, ⟨1, ⟨1024, 1024⟩⟩, ⟨2, ⟨2048, 505⟩⟩]
    let order : List Transfer := [⟨2, ⟨2048, 505⟩⟩, ⟨1, ⟨1024, 1024⟩⟩, ⟨8, ⟨512, 24⟩⟩]
    (∀ transfer ∈ releases, 0 < transfer.space.size) ∧ AdmitsAll accept Accepts heap releases ∧
      order.Perm releases ∧ AdmitsAll accept Accepts heap order ∧
        order.foldl accept heap = releases.foldl accept heap ∧
          (releases.map Transfer.space).Pairwise Allocation.Apart ∧
            (releases.foldl accept heap).free = heap.free + 195 := by
  intro heap releases order
  have hbitmap : heap.bitmap = Bitmap.empty.fill ⟨0, 256⟩ := bitmap_setBitmap _ _
  have hsize : ∀ transfer ∈ releases, 0 < transfer.space.size := by decide
  have hone : ((Bitmap.empty.fill ⟨0, 256⟩).release 512 24 8).state =
      (Bitmap.empty.fill ⟨0, 256⟩).clear ⟨0, 3⟩ := by decide +kernel
  have htwo : (((Bitmap.empty.fill ⟨0, 256⟩).clear ⟨0, 3⟩).release 1024 1024 1).state =
      ((Bitmap.empty.fill ⟨0, 256⟩).clear ⟨0, 3⟩).clear ⟨64, 128⟩ := by decide +kernel
  have haccepted : AdmitsAll accept Accepts heap releases := by
    refine ⟨?_, ?_, ?_, trivial⟩
    · rw [Accepts, outcome_release, hbitmap]
      decide +kernel
    · rw [Accepts, outcome_release, accept, state_release, bitmap_setBitmap, hbitmap, hone]
      decide +kernel
    · rw [Accepts, outcome_release, accept, state_release, bitmap_setBitmap, accept, state_release,
        bitmap_setBitmap, hbitmap, hone, htwo]
      decide +kernel
  have horder : order.Perm releases := List.reverse_perm releases
  obtain ⟨hany, hapart, hfreed⟩ := releases_in_any_order hsize haccepted
  obtain ⟨hall, hsame⟩ := hany order horder
  have hsum : (releases.map fun transfer ↦
      transfer.space.footprint / Layout.granuleBytes).sum = 195 := by decide
  rw [hsum] at hfreed
  exact ⟨hsize, haccepted, horder, hall, hsame, hapart, hfreed⟩

end Heap

end LinearHeap
