import LinearHeap.Proofs.ResizeSequence

/-!
# The effect of a request on the region

A request that is served changes the bits of the space that it is about and nothing else in the
region. A grant finds all granules of its space free and leaves them allocated (`Heap.Takes`), and a
release finds all granules of its space allocated and leaves them free (`Heap.Vacates`). A resize
does the one after the other, so the new space may overlap the old, but no other granule that was
allocated (`Heap.Vacates.covers_of_takes`). Space of no bytes covers no granule, so the same words
say what a request for no bytes does.

The region has no side door: the bytes behind the bitmap stay as they are, those past the managed
part included, and so does its length (`Heap.SamePayload`). `Heap.effect_of_success` says this for
every request, and that reading, masking and writing back single words comes to the same bytes.
-/

set_option autoImplicit false
set_option relaxedAutoImplicit false

namespace LinearHeap

/-- Space of no bytes covers no granule. -/
theorem Allocation.Covers.size_pos {allocation : Allocation} {granule : Nat}
    (h : allocation.Covers granule) : 0 < allocation.size := by
  obtain ⟨hlow, hhigh⟩ := h
  rw [Layout.granuleBytes] at hhigh
  exact size_pos_of_footprint_pos (by omega)

namespace Heap

/-- Two heaps have regions of the same length with the same bytes behind the bitmap. -/
structure SamePayload (first second : Heap) : Prop where
  size_eq : second.region.size = first.region.size
  byte_eq : ∀ i : Nat, Layout.heapStart ≤ i →
    second.region.bytes[i]? = first.region.bytes[i]?

/-- Some space is taken: if it has any bytes, it is well placed; its granules were all free, the
allocated granules afterwards are those and the ones before, and nothing else has changed. -/
structure Takes (before : Heap) (space : Allocation) (after : Heap) : Prop where
  placed : 0 < space.size → space.Placed
  free_before : ∀ granule, space.Covers granule → before.isAllocated granule = false
  allocated_iff : ∀ granule, after.isAllocated granule = true ↔
    before.isAllocated granule = true ∨ space.Covers granule
  payload : before.SamePayload after

/-- Some space is vacated: if it has any bytes, it is well placed; its granules were all allocated,
the allocated granules afterwards are those before without them, and nothing else has changed. -/
structure Vacates (before : Heap) (space : Allocation) (after : Heap) : Prop where
  placed : 0 < space.size → space.Placed
  allocated_before : ∀ granule, space.Covers granule → before.isAllocated granule = true
  allocated_iff : ∀ granule, after.isAllocated granule = true ↔
    before.isAllocated granule = true ∧ ¬ space.Covers granule
  payload : before.SamePayload after

variable {heap before middle after : Heap} {bitmap : Bitmap} {space old new : Allocation}
  {offset size : Nat}

theorem samePayload_setBitmap (heap : Heap) (bitmap : Bitmap) :
    heap.SamePayload (heap.setBitmap bitmap) where
  size_eq := heap.size_setBitmap bitmap
  byte_eq := fun _ h ↦ heap.getElem?_setBitmap_of_le bitmap h

theorem isAllocated_setBitmap (heap : Heap) (bitmap : Bitmap) (granule : Nat) :
    (heap.setBitmap bitmap).isAllocated granule = bitmap.isSet granule := by
  rw [isAllocated, bitmap_setBitmap]

theorem SamePayload.refl (heap : Heap) : heap.SamePayload heap :=
  ⟨rfl, fun _ _ ↦ rfl⟩

/-! ### Space of no bytes -/

theorem takes_nothing (heap : Heap) (offset : Nat) : heap.Takes ⟨offset, 0⟩ heap where
  placed := fun h ↦ absurd h (Nat.lt_irrefl 0)
  free_before := fun _ h ↦ absurd h.size_pos (Nat.lt_irrefl 0)
  allocated_iff := fun _ ↦ (or_iff_left fun h ↦ absurd h.size_pos (Nat.lt_irrefl 0)).symm
  payload := SamePayload.refl heap

theorem vacates_nothing (heap : Heap) (offset : Nat) : heap.Vacates ⟨offset, 0⟩ heap where
  placed := fun h ↦ absurd h (Nat.lt_irrefl 0)
  allocated_before := fun _ h ↦ absurd h.size_pos (Nat.lt_irrefl 0)
  allocated_iff := fun _ ↦ (and_iff_left fun h ↦ absurd h.size_pos (Nat.lt_irrefl 0)).symm
  payload := SamePayload.refl heap

/-! ### Grants and releases -/

/-- A grant takes the space that it hands out. -/
theorem takes_of_granted (h : heap.bitmap.Granted (Allocation.named? offset size) bitmap) :
    heap.Takes ⟨offset, size⟩ (heap.setBitmap bitmap) := by
  by_cases hzero : size = 0
  · subst hzero
    rw [show bitmap = heap.bitmap from h, setBitmap_bitmap]
    exact heap.takes_nothing offset
  · rw [Allocation.named?_of_pos (Nat.pos_of_ne_zero hzero)] at h
    obtain ⟨hfree, hplaced⟩ := h.isFree_and_placed
    have hcovers : ∀ granule, _ ↔ granule ∈ Allocation.window ⟨offset, size⟩ := fun granule ↦
      Allocation.covers_iff_mem_window hplaced
    refine ⟨fun _ ↦ hplaced, fun granule hgranule ↦ ?_, fun granule ↦ ?_,
      heap.samePayload_setBitmap bitmap⟩
    · exact Bitmap.isFree_iff.mp hfree granule ((hcovers granule).mp hgranule)
    · rw [isAllocated_setBitmap, h.2.2, Bitmap.isSet_fill_of_inHeap _ hplaced.window_inHeap,
        Bool.or_eq_true, decide_eq_true_iff, hcovers]
      rfl

/-- A release vacates the space that it gives back. -/
theorem vacates_of_givenBack (h : heap.bitmap.GivenBack (Allocation.named? offset size) bitmap) :
    heap.Vacates ⟨offset, size⟩ (heap.setBitmap bitmap) := by
  by_cases hzero : size = 0
  · subst hzero
    rw [show bitmap = heap.bitmap from h, setBitmap_bitmap]
    exact heap.vacates_nothing offset
  · rw [Allocation.named?_of_pos (Nat.pos_of_ne_zero hzero)] at h
    obtain ⟨hplaced, hfull⟩ := h.placed_and_isFull
    have hcovers : ∀ granule, _ ↔ granule ∈ Allocation.window ⟨offset, size⟩ := fun granule ↦
      Allocation.covers_iff_mem_window hplaced
    refine ⟨fun _ ↦ hplaced, fun granule hgranule ↦ ?_, fun granule ↦ ?_,
      heap.samePayload_setBitmap bitmap⟩
    · exact (Bitmap.isFull_iff hplaced.window_inHeap).mp hfull granule
        ((hcovers granule).mp hgranule)
    · rw [isAllocated_setBitmap, h.2, Bitmap.isSet_clear, Bool.and_eq_true, Bool.not_eq_true',
        decide_eq_false_iff_not, hcovers]
      rfl

/-- Space that is taken after other space was vacated overlaps no granule that was allocated
outside of that. -/
theorem Vacates.covers_of_takes (hold : before.Vacates old middle) (hnew : middle.Takes new after)
    {granule : Nat} (hcovers : new.Covers granule)
    (hallocated : before.isAllocated granule = true) :
    old.Covers granule := by
  by_contra houtside
  have hmiddle := (hold.allocated_iff granule).mpr ⟨hallocated, houtside⟩
  rw [hnew.free_before granule hcovers] at hmiddle
  cases hmiddle

/-! ### Requests that are served -/

theorem takes_of_allocate {align : Nat} (h : (heap.allocate align size).outcome = .ok offset) :
    heap.Takes ⟨offset, size⟩ (heap.allocate align size).state := by
  rw [outcome_allocate] at h
  rw [state_allocate]
  exact takes_of_granted (Bitmap.granted_of_allocate h)

theorem vacates_of_release {align : Nat} (h : (heap.release offset size align).outcome = .ok ()) :
    heap.Vacates ⟨offset, size⟩ (heap.release offset size align).state := by
  rw [outcome_release] at h
  rw [state_release]
  exact vacates_of_givenBack (Bitmap.givenBack_of_release h)

theorem vacates_takes_of_resize {oldOffset oldSize align newSize : Nat}
    (h : (heap.resize oldOffset oldSize align newSize).outcome = .ok offset) :
    ∃ middle, heap.Vacates ⟨oldOffset, oldSize⟩ middle ∧
      middle.Takes ⟨offset, newSize⟩ (heap.resize oldOffset oldSize align newSize).state := by
  rw [outcome_resize] at h
  rw [state_resize]
  obtain ⟨cleared, hgiven, hgranted⟩ := Bitmap.exists_granted_of_resize h
  have hmiddle : (heap.setBitmap cleared).bitmap.Granted _ _ :=
    (heap.bitmap_setBitmap cleared).symm ▸ hgranted
  have htakes := takes_of_granted hmiddle
  rw [setBitmap_setBitmap] at htakes
  exact ⟨heap.setBitmap cleared, vacates_of_givenBack hgiven, htakes⟩

/-- A request for no bytes changes nothing, refused or not. -/
theorem state_allocate_zero (heap : Heap) (align : Nat) : (heap.allocate align 0).state = heap := by
  cases halign : Alignment.ofNat? align with
  | none =>
    rw [state_allocate, Bitmap.allocate, heap.bitmap.resize_of_unsupported 0 0 0 halign]
    exact heap.setBitmap_bitmap
  | some alignment => exact (heap.allocate_zero halign).2

end Heap

/-- A computation in single steps on the region ends with the bytes of a heap. -/
def Checked.EndsWith {ε α : Type} (computation : Checked (Reply Region ε α)) (after : Heap) :
    Prop :=
  ∃ reply, computation = .ok reply ∧ reply.state = after.region

theorem Checked.RunsThrough.endsWith {ε α : Type} {computation : Checked (Reply Region ε α)}
    {reply : Reply Heap ε α} (h : RunsThrough computation reply) :
    EndsWith computation reply.state :=
  ⟨_, h.eq_ok, rfl⟩

namespace Heap

/-- The effect of the requests that are served, whatever the heap holds. A request for space finds
the granules of the footprint at its answer free and leaves exactly them allocated besides. A
release finds the granules of the footprint it names allocated and leaves exactly them free. A
resize does the second for its old space and then the first for its new space, which may overlap the
old space but no other granule that was allocated. All bytes behind the bitmap stay as they are, and
so does the length of the region. A request or a release of no bytes changes nothing, and a resize
to no bytes what the release of its old space changes. Done word by word, with masks and shifts on
words of 64 bits that are read from the region and written back, each of the three ends with the
same bytes. -/
theorem effect_of_success (heap : Heap) :
    (∀ align size offset, (heap.allocate align size).outcome = .ok offset →
      heap.Takes ⟨offset, size⟩ (heap.allocate align size).state) ∧
    (∀ offset size align, (heap.release offset size align).outcome = .ok () →
      heap.Vacates ⟨offset, size⟩ (heap.release offset size align).state) ∧
    (∀ oldOffset oldSize align newSize offset,
      (heap.resize oldOffset oldSize align newSize).outcome = .ok offset →
      (∃ middle, heap.Vacates ⟨oldOffset, oldSize⟩ middle ∧
        middle.Takes ⟨offset, newSize⟩ (heap.resize oldOffset oldSize align newSize).state) ∧
      (∀ granule, (Allocation.mk offset newSize).Covers granule →
        heap.isAllocated granule = true → (Allocation.mk oldOffset oldSize).Covers granule) ∧
      heap.SamePayload (heap.resize oldOffset oldSize align newSize).state) ∧
    ((∀ align, (heap.allocate align 0).state = heap) ∧
      (∀ offset align, (heap.release offset 0 align).state = heap) ∧
      ∀ oldOffset oldSize align, (heap.resize oldOffset oldSize align 0).state =
        (heap.release oldOffset oldSize align).state) ∧
    (∀ align size : UInt64, Checked.EndsWith
      (Checked.allocate heap.region align.toNat size.toNat)
      (heap.allocate align.toNat size.toNat).state) ∧
    (∀ offset size align : UInt64, Checked.EndsWith
      (Checked.release heap.region offset.toNat size.toNat align.toNat)
      (heap.release offset.toNat size.toNat align.toNat).state) ∧
    ∀ oldOffset oldSize align newSize : UInt64, Checked.EndsWith
      (Checked.resize heap.region oldOffset.toNat oldSize.toNat align.toNat newSize.toNat)
      (heap.resize oldOffset.toNat oldSize.toNat align.toNat newSize.toNat).state := by
  refine ⟨fun align size offset hok ↦ takes_of_allocate hok,
    fun offset size align hok ↦ vacates_of_release hok, ?_,
    ⟨heap.state_allocate_zero, heap.state_release_zero,
      fun oldOffset oldSize align ↦ (heap.resize_to_zero oldOffset oldSize align).1⟩,
    fun align size ↦ (Checked.resize_runsThrough heap 0 0 align size).endsWith,
    fun offset size align ↦ (Checked.release_runsThrough heap offset size align).endsWith,
    fun oldOffset oldSize align newSize ↦
      (Checked.resize_runsThrough heap oldOffset oldSize align newSize).endsWith⟩
  intro oldOffset oldSize align newSize offset hok
  obtain ⟨middle, hvacates, htakes⟩ := vacates_takes_of_resize hok
  exact ⟨⟨middle, hvacates, htakes⟩, fun granule ↦ hvacates.covers_of_takes htakes,
    heap.samePayload_setBitmap _⟩

/-- In a page with granules 3 and 4 free and all others allocated, 16 bytes are put there, or the
first 24 bytes are released, or these are resized to 40 bytes, which are found at the same place and
so overlap the old space from granule 0 on. -/
theorem effect_of_success_in_one_page :
    let heap := zeroed.setBitmap ((Bitmap.empty.fill ⟨0, 3⟩).fill ⟨5, 59⟩)
    ((heap.allocate 8 16).outcome = .ok 536 ∧
      heap.Takes ⟨536, 16⟩ (heap.allocate 8 16).state) ∧
    ((heap.release 512 24 4).outcome = .ok () ∧
      heap.Vacates ⟨512, 24⟩ (heap.release 512 24 4).state) ∧
    (heap.resize 512 24 1 40).outcome = .ok 512 ∧
      (∃ middle, heap.Vacates ⟨512, 24⟩ middle ∧
        middle.Takes ⟨512, 40⟩ (heap.resize 512 24 1 40).state) ∧
      (Allocation.mk 512 40).Covers 0 ∧ heap.isAllocated 0 = true ∧
        (Allocation.mk 512 24).Covers 0 := by
  intro heap
  have hbitmap : heap.bitmap = (Bitmap.empty.fill ⟨0, 3⟩).fill ⟨5, 59⟩ := bitmap_setBitmap _ _
  have hallocate : (heap.allocate 8 16).outcome = .ok 536 := by
    rw [outcome_allocate, hbitmap]
    decide +kernel
  have hrelease : (heap.release 512 24 4).outcome = .ok () := by
    rw [outcome_release, hbitmap]
    decide +kernel
  have hresize : (heap.resize 512 24 1 40).outcome = .ok 512 := by
    rw [outcome_resize, hbitmap]
    decide +kernel
  have hcovers : (Allocation.mk 512 40).Covers 0 := ⟨by decide, by decide⟩
  have hset : heap.isAllocated 0 = true := by
    rw [isAllocated, hbitmap]
    decide +kernel
  obtain ⟨htakes, hvacates, hresized, _⟩ := effect_of_success heap
  obtain ⟨hsteps, hoverlap, _⟩ := hresized 512 24 1 40 512 hresize
  exact ⟨⟨hallocate, htakes 8 16 536 hallocate⟩, ⟨hrelease, hvacates 512 24 4 hrelease⟩, hresize,
    hsteps, hcovers, hset, hoverlap 0 hcovers hset⟩

end Heap

end LinearHeap
