import Mathlib.Data.List.Forall2
import LinearHeap.Proofs.ReleaseAcceptance

/-!
# Round trips

Some space is requested from a heap, and later all of it is given back, in any order. Each piece may
be given back under another size than it was requested with, as long as the footprint is the same;
one page can so change between the two size classes. `Heap.round_trip` says that every release is
accepted and that the heap at the end is the heap at the start.

Windows that are filled one after the other, each of them free when its turn comes, can be filled in
any order with the same result (`Bitmap.Stacks.perm`, `Bitmap.fillAll_perm`). So whatever the order
of the releases is, the requests might have been served in the reverse of it, and then every release
undoes the request before it (`Heap.accepts_reverse`).
-/

set_option autoImplicit false
set_option relaxedAutoImplicit false

namespace LinearHeap

open Allocation

/-- Where an allocation can lie, another one with the same offset and footprint can lie too. The two
may differ in their class if the footprint is one page. -/
theorem Allocation.Placed.of_sameSpace {first second : Allocation} (h : first.Placed)
    (hsame : second.SameSpace first) (hsize : 0 < second.size) : second.Placed := by
  obtain ⟨hoffset, hfootprint⟩ := hsame
  have hsmall : ∀ allocation : Allocation, allocation.size < Layout.pageBytes →
      allocation.footprint ≤ Layout.pageBytes := by
    intro allocation hlt
    have hcount := SizeClass.count_ofSize_le hlt
    simp only [footprint, sizeClass, SizeClass.ofSize_of_lt hlt, SizeClass.footprint,
      SizeClass.count, SizeClass.unit, Layout.pageBytes_eq, Layout.granuleBytes] at *
    omega
  have hlarge := second.size_le_footprint
  have hlarge' := first.size_le_footprint
  refine ⟨hsize, hoffset ▸ h.heapStart_le, ?_, hoffset ▸ h.granuleBytes_dvd, fun hlt ↦ ?_,
    fun hle ↦ ?_⟩
  · rw [hoffset, hfootprint]
    exact h.le_capacity
  · rw [hoffset, hfootprint]
    by_cases hfirst : first.size < Layout.pageBytes
    · exact h.insideWord hfirst
    · have hpage := h.wholePages (Nat.le_of_not_lt hfirst)
      have hbound := hsmall second hlt
      have hstart := h.heapStart_le
      have hend := h.le_capacity
      refine ⟨(first.offset - Layout.heapStart) / Layout.pageBytes, ?_⟩
      simp only [Layout.heapStart_eq, Layout.capacity_eq, Layout.pageBytes_eq,
        Layout.bitmapWords_eq, Layout.pageOffset_eq] at *
      omega
  · rw [hoffset, hfootprint]
    by_cases hfirst : first.size < Layout.pageBytes
    · obtain ⟨index, _, hlow, hhigh⟩ := h.insideWord hfirst
      have hbound := hsmall first hfirst
      simp only [Layout.pageBytes_eq, Layout.pageOffset_eq] at *
      omega
    · exact h.wholePages (Nat.le_of_not_lt hfirst)

namespace Bitmap

variable {bitmap : Bitmap} {windows : List Window}

/-! ### Windows filled one after the other -/

/-- Marks the granules of some windows as allocated. -/
def fillAll (bitmap : Bitmap) (windows : List Window) : Bitmap := windows.foldl fill bitmap

/-- The windows can be filled one after the other: each is free when its turn comes. -/
def Stacks (bitmap : Bitmap) : List Window → Prop
  | [] => True
  | window :: rest => bitmap.isFree window = true ∧ (bitmap.fill window).Stacks rest

theorem fill_right_comm (bitmap : Bitmap) (first second : Window) :
    (bitmap.fill first).fill second = (bitmap.fill second).fill first := by
  apply ext
  intro granule
  simp only [isSet_fill]
  exact Bool.or_right_comm _ _ _

theorem fillAll_perm {other : List Window} (h : windows.Perm other) (bitmap : Bitmap) :
    bitmap.fillAll windows = bitmap.fillAll other :=
  h.foldl_eq' (fun _ _ _ _ _ ↦ fill_right_comm _ _ _) bitmap

/-- Whether windows can be filled one after the other does not depend on their order. -/
theorem Stacks.perm {other : List Window} (h : windows.Perm other)
    (hstacks : bitmap.Stacks windows) :
    bitmap.Stacks other := by
  induction h generalizing bitmap with
  | nil => exact hstacks
  | cons window _ ih => exact ⟨hstacks.1, ih hstacks.2⟩
  | swap first second rest =>
    obtain ⟨hsecond, hfirst, hrest⟩ := hstacks
    obtain ⟨hfree, hapart⟩ := isFree_fill_iff.mp hfirst
    refine ⟨hfree, isFree_fill_iff.mpr ⟨hsecond, ?_⟩, ?_⟩
    · exact fun granule hheap hmem hmem' ↦ hapart granule hheap hmem' hmem
    · rwa [fill_right_comm]
  | trans _ _ ih ih' => exact ih' (ih hstacks)

theorem fillAll_append_singleton (bitmap : Bitmap) (windows : List Window) (last : Window) :
    bitmap.fillAll (windows ++ [last]) = (bitmap.fillAll windows).fill last := by
  rw [fillAll, List.foldl_append]
  rfl

theorem stacks_append_singleton_iff {last : Window} : bitmap.Stacks (windows ++ [last]) ↔
    bitmap.Stacks windows ∧ (bitmap.fillAll windows).isFree last = true := by
  induction windows generalizing bitmap with
  | nil =>
    rw [List.nil_append, Stacks, Stacks, fillAll, List.foldl_nil, and_comm]
    rfl
  | cons window rest ih =>
    rw [List.cons_append, Stacks, ih, Stacks, and_assoc]
    rfl

/-- Space that can lie where it says and is all allocated is given back. -/
theorem release_of_placed {allocation : Allocation} {align : Nat} (halign : align ∈ [1, 2, 4, 8])
    (hplaced : allocation.Placed) (hfull : bitmap.isFull allocation.window = true) :
    (bitmap.release allocation.offset allocation.size align).outcome = .ok () ∧
      (bitmap.release allocation.offset allocation.size align).state =
        bitmap.clear allocation.window := by
  have hok := (outcome_release_eq_ok_iff halign hplaced.size_pos).mpr
    ((releasable_iff_placed hplaced.size_pos).mpr ⟨hplaced, hfull⟩)
  have hgiven := givenBack_of_release hok
  rw [Allocation.named?_of_pos hplaced.size_pos] at hgiven
  exact ⟨hok, hgiven.2⟩

end Bitmap

/-! ### Requests and releases -/

/-- Space that changes hands in a call, and the alignment that the call names. -/
structure Transfer where
  align : Nat
  space : Allocation
  deriving DecidableEq, Repr

/-- The granules of the space. -/
def Transfer.window (transfer : Transfer) : Window := transfer.space.window

/-- A transfer gives back the space of another one: the call names a supported alignment and a
positive size, and the space has the same offset and footprint. -/
def Transfer.Returns (returned granted : Transfer) : Prop :=
  returned.align ∈ [1, 2, 4, 8] ∧ 0 < returned.space.size ∧
    returned.space.SameSpace granted.space

namespace Transfer

variable {returned order : List Transfer}

/-- Space that returns other space has the same window. -/
theorem map_window_eq (h : List.Forall₂ Returns returned order) :
    returned.map window = order.map window := by
  rw [← List.forall₂_eq_eq_eq, List.forall₂_map_left_iff, List.forall₂_map_right_iff]
  exact h.imp fun _ _ hreturns ↦ hreturns.2.2.window_eq

/-- Space that returns well-placed space is well placed. -/
theorem placed_of_returns (h : List.Forall₂ Returns returned order)
    (hplaced : ∀ transfer ∈ order, transfer.space.Placed) :
    ∀ transfer ∈ returned, transfer.align ∈ [1, 2, 4, 8] ∧ transfer.space.Placed := by
  induction h with
  | nil => exact nofun
  | cons hreturns _ ih =>
    obtain ⟨hhead, hrest⟩ := List.forall_mem_cons.mp hplaced
    obtain ⟨halign, hsize, hsame⟩ := hreturns
    exact List.forall_mem_cons.mpr ⟨⟨halign, hhead.of_sameSpace hsame hsize⟩, ih hrest⟩

end Transfer

namespace Heap

/-- The heap after a request for space of this size. -/
def grant (heap : Heap) (transfer : Transfer) : Heap :=
  (heap.allocate transfer.align transfer.space.size).state

/-- A request for space of this size is answered with this space. -/
def Grants (heap : Heap) (transfer : Transfer) : Prop :=
  (heap.allocate transfer.align transfer.space.size).outcome = .ok transfer.space.offset

/-- The heap after a release of this space. -/
def accept (heap : Heap) (transfer : Transfer) : Heap :=
  (heap.release transfer.space.offset transfer.space.size transfer.align).state

/-- A release of this space is accepted. -/
def Accepts (heap : Heap) (transfer : Transfer) : Prop :=
  (heap.release transfer.space.offset transfer.space.size transfer.align).outcome = .ok ()

/-- Requests fill the windows of the space that they are answered with, one after the other. -/
theorem fillAll_of_grants {heap : Heap} {granted : List Transfer}
    (hsize : ∀ transfer ∈ granted, 0 < transfer.space.size)
    (hgranted : AdmitsAll grant Grants heap granted) :
    (∀ transfer ∈ granted, transfer.space.Placed) ∧
      heap.bitmap.Stacks (granted.map Transfer.window) ∧
        granted.foldl grant heap =
          heap.setBitmap (heap.bitmap.fillAll (granted.map Transfer.window)) := by
  induction granted generalizing heap with
  | nil => exact ⟨nofun, trivial, heap.setBitmap_bitmap.symm⟩
  | cons transfer rest ih =>
    obtain ⟨hhead, hrest⟩ := hgranted
    obtain ⟨hpos, hsize⟩ := List.forall_mem_cons.mp hsize
    rw [Grants, outcome_allocate] at hhead
    have hgrant := Bitmap.granted_of_allocate hhead
    rw [Allocation.named?_of_pos hpos] at hgrant
    obtain ⟨hfree, hplaced⟩ := hgrant.isFree_and_placed
    have hstate : heap.grant transfer =
        heap.setBitmap (heap.bitmap.fill transfer.window) :=
      congrArg heap.setBitmap hgrant.2.2
    obtain ⟨hplacedRest, hstacks, hfinal⟩ := ih hsize hrest
    rw [hstate, bitmap_setBitmap] at hstacks hfinal
    rw [setBitmap_setBitmap] at hfinal
    refine ⟨List.forall_mem_cons.mpr ⟨hplaced, hplacedRest⟩, ⟨hfree, hstacks⟩, ?_⟩
    rw [List.foldl_cons, hstate, hfinal]
    rfl

/-- Space that was handed out in the reverse order is given back: every release undoes the filling
of the window that was filled last. -/
theorem accepts_reverse (heap : Heap) {bitmap : Bitmap} {returned : List Transfer}
    (hplaced : ∀ transfer ∈ returned, transfer.align ∈ [1, 2, 4, 8] ∧ transfer.space.Placed)
    (hstacks : bitmap.Stacks (returned.map Transfer.window).reverse) :
    let filled := heap.setBitmap (bitmap.fillAll (returned.map Transfer.window).reverse)
    AdmitsAll accept Accepts filled returned ∧
      returned.foldl accept filled = heap.setBitmap bitmap := by
  induction returned with
  | nil => exact ⟨trivial, rfl⟩
  | cons transfer rest ih =>
    obtain ⟨⟨halign, hhead⟩, hrest⟩ := List.forall_mem_cons.mp hplaced
    rw [List.map_cons, List.reverse_cons] at hstacks ⊢
    obtain ⟨hbefore, hfree⟩ := Bitmap.stacks_append_singleton_iff.mp hstacks
    rw [Bitmap.fillAll_append_singleton]
    intro filled
    have hbitmap : filled.bitmap = _ := bitmap_setBitmap _ _
    have hfull : filled.bitmap.isFull transfer.window = true := by
      rw [hbitmap]
      exact Bitmap.isFull_fill _ hhead.window_inHeap
    obtain ⟨hok, hclear⟩ := Bitmap.release_of_placed halign hhead hfull
    have hstate : filled.accept transfer =
        heap.setBitmap (bitmap.fillAll (rest.map Transfer.window).reverse) := by
      rw [accept, state_release, hclear, hbitmap, setBitmap_setBitmap]
      exact congrArg heap.setBitmap (Bitmap.clear_fill hfree)
    obtain ⟨haccepted, hfinal⟩ := ih hrest hbefore
    rw [AdmitsAll, List.foldl_cons, hstate]
    exact ⟨⟨hok, haccepted⟩, hfinal⟩

/-- A round trip. Some requests for a positive number of bytes are served one after the other, and
then all of their space is given back, in any order, each piece with any supported alignment and
under any size of the same footprint: every release is accepted, and the region is as it was before
the requests, with the same bitmap. Assumes: requests that are served, and releases that name the
same space in some order. -/
theorem round_trip (heap : Heap) {granted returned order : List Transfer}
    (hsize : ∀ transfer ∈ granted, 0 < transfer.space.size)
    (hgranted : AdmitsAll grant Grants heap granted) (horder : order.Perm granted)
    (hreturned : List.Forall₂ Transfer.Returns returned order) :
    let filled := granted.foldl grant heap
    AdmitsAll accept Accepts filled returned ∧
      returned.foldl accept filled = heap ∧
        (returned.foldl accept filled).bitmap = heap.bitmap := by
  intro filled
  obtain ⟨hplaced, hstacks, hfilled⟩ := fillAll_of_grants hsize hgranted
  have hperm : (granted.map Transfer.window).Perm (returned.map Transfer.window).reverse := by
    rw [Transfer.map_window_eq hreturned]
    exact (horder.map _).symm.trans (List.reverse_perm _).symm
  have hnamed := Transfer.placed_of_returns hreturned
    fun transfer hmem ↦ hplaced transfer (horder.mem_iff.mp hmem)
  obtain ⟨haccepted, hfinal⟩ := heap.accepts_reverse hnamed (hstacks.perm hperm)
  rw [Bitmap.fillAll_perm hperm] at hfilled
  rw [← hfilled] at haccepted hfinal
  rw [setBitmap_bitmap] at hfinal
  exact ⟨haccepted, hfinal, congrArg bitmap hfinal⟩

/-- Beside an allocated granule in the first page, 505 bytes and 512 bytes are requested, which take
up the second page and the third. Then they are given back the first requested last, the one as
512 bytes and the other as 505. -/
theorem round_trip_two_pages :
    let heap := zeroed.setBitmap (Bitmap.empty.fill ⟨0, 1⟩)
    let granted : List Transfer := [⟨8, ⟨1024, 505⟩⟩, ⟨1, ⟨1536, 512⟩⟩]
    let order : List Transfer := [⟨1, ⟨1536, 512⟩⟩, ⟨8, ⟨1024, 505⟩⟩]
    let returned : List Transfer := [⟨2, ⟨1536, 505⟩⟩, ⟨4, ⟨1024, 512⟩⟩]
    let filled := granted.foldl grant heap
    (∀ transfer ∈ granted, 0 < transfer.space.size) ∧ AdmitsAll grant Grants heap granted ∧
      order.Perm granted ∧ List.Forall₂ Transfer.Returns returned order ∧
        AdmitsAll accept Accepts filled returned ∧ returned.foldl accept filled = heap ∧
          (returned.foldl accept filled).bitmap = Bitmap.empty.fill ⟨0, 1⟩ := by
  intro heap granted order returned filled
  have hbitmap : heap.bitmap = Bitmap.empty.fill ⟨0, 1⟩ := bitmap_setBitmap _ _
  have hsize : ∀ transfer ∈ granted, 0 < transfer.space.size := by decide
  have hgranted : AdmitsAll grant Grants heap granted := by
    refine ⟨?_, ?_, trivial⟩
    · rw [Grants, outcome_allocate, hbitmap]
      decide +kernel
    · rw [Grants, outcome_allocate, grant, state_allocate, bitmap_setBitmap, hbitmap]
      decide +kernel
  have horder : order.Perm granted := List.Perm.swap _ _ _
  have hreturned : List.Forall₂ Transfer.Returns returned order :=
    .cons ⟨by decide, by decide, by decide⟩ (.cons ⟨by decide, by decide, by decide⟩ .nil)
  obtain ⟨haccepted, hfinal, hsame⟩ := round_trip heap hsize hgranted horder hreturned
  exact ⟨hsize, hgranted, horder, hreturned, haccepted, hfinal, hsame.trans hbitmap⟩

end Heap

end LinearHeap
