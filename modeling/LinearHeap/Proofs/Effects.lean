import LinearHeap.Boundary
import LinearHeap.Proofs.Allocation

/-!
# What requests do

A release clears the window of the space that it names (`Bitmap.GivenBack`), and a request for space
fills the first window that has room (`Bitmap.Granted`). A resize does the one and then the other.
`Bitmap.Answers` lists what a request can be answered, with the records that go with each answer: it
does this or is refused and leaves the bitmap as it was. `Bitmap.release_answers` and
`Bitmap.resize_answers` are the two inversions that proofs about requests start from; that no
internal check fails on the way is part of them.

`Bitmap.releasable_eq_ok_iff` says when a release is accepted. The whole reply in each case is given
by equations for releases (`Bitmap.release_of_ok`), for resizes (`Bitmap.resize_of_ok`) and for the
request for space that a resize ends with (`Bitmap.place_of_some`).
-/

set_option autoImplicit false
set_option relaxedAutoImplicit false

namespace LinearHeap

/-- The numbers 1, 2, 4 and 8 are alignments. -/
theorem Alignment.exists_ofNat?_eq_some {n : Nat} (h : n ∈ [1, 2, 4, 8]) :
    ∃ alignment, Alignment.ofNat? n = some alignment := by
  cases halign : Alignment.ofNat? n with
  | some alignment => exact ⟨alignment, rfl⟩
  | none =>
    obtain ⟨hone, htwo, hfour, height⟩ := Alignment.ofNat?_eq_none_iff.mp halign
    simp only [List.mem_cons, hone, htwo, hfour, height, List.not_mem_nil, or_self] at h

namespace Bitmap

/-- The first bitmap becomes the second when the named space, if there is any, is given back. -/
def GivenBack (before : Bitmap) : Option Allocation → Bitmap → Prop
  | none, after => after = before
  | some allocation, after =>
    before.releasable allocation.offset allocation.size = .ok allocation.window ∧
      after = before.clear allocation.window

/-- The first bitmap becomes the second when the named space, if there is any, is handed out. -/
def Granted (before : Bitmap) : Option Allocation → Bitmap → Prop
  | none, after => after = before
  | some allocation, after =>
    0 < allocation.size ∧ (∃ first, before.firstFit? allocation.sizeClass = some first ∧
      allocation.offset = Layout.granuleOffset first) ∧ after = before.fill allocation.window

end Bitmap

/-- The record of a release of the named space, if there is any. -/
def Record.ofReturned : Option Allocation → List Record
  | none => []
  | some allocation => [.released allocation.size allocation.offset]

/-- The record of a grant of the named space, if there is any. -/
def Record.ofGranted : Option Allocation → List Record
  | none => []
  | some allocation => [.allocated allocation.size allocation.offset allocation.sizeClass]

namespace Bitmap

/-- What is answered to a request to give back some space, if any is named, and then to hand out
some, if the answer names any. The bitmap of a request that is refused is the old one; what its
records tell is another matter, since a release is written down before it is known to last. -/
inductive Answers {α : Type} (bitmap : Bitmap) (returned : Option Allocation)
    (granted : α → Option Allocation) : Reply Bitmap Refusal α → Prop
  /-- The alignment is looked at before anything is done. -/
  | unsupported (align : Nat) :
    Answers bitmap returned granted ⟨.refused (.unsupportedAlign align), bitmap, []⟩
  /-- The checks of the release find fault with it. -/
  | rejected {offset size : Nat} {refusal : Refusal} (hsize : 0 < size)
    (hchecks : bitmap.releasable offset size = .refused refusal) :
    Answers bitmap returned granted ⟨.refused refusal, bitmap, [.rejected refusal]⟩
  /-- There is no room, and what was given back is taken again. -/
  | exhausted {middle : Bitmap} (size : Nat) (hgiven : bitmap.GivenBack returned middle) :
    Answers bitmap returned granted
      ⟨.refused (.outOfMemory size), bitmap,
        Record.ofReturned returned ++ [.exhausted size bitmap.free]⟩
  | served {middle after : Bitmap} (value : α) (hgiven : bitmap.GivenBack returned middle)
    (hgranted : middle.Granted (granted value) after) :
    Answers bitmap returned granted
      ⟨.ok value, after, Record.ofReturned returned ++ Record.ofGranted (granted value)⟩

/-! ### Releases -/

section Release

variable {bitmap : Bitmap} {offset size : Nat} {window : Window} {refusal : Refusal}

/-- A range of the heap starts with a granule of the heap. -/
theorem first_lt_heapGranules (hstart : Layout.heapStart ≤ offset)
    (hend : offset + size ≤ Layout.capacity) (hsize : 0 < size) :
    (offset - Layout.heapStart) / Layout.granuleBytes < Layout.heapGranules := by
  simp only [Layout.heapStart_eq, Layout.capacity_eq, Layout.granuleBytes,
    Layout.heapGranules_eq] at *
  omega

/-- The checks of a release of a positive number of bytes, in their order. -/
theorem releasable_eq (bitmap : Bitmap) (offset : Nat) (hsize : 0 < size) :
    bitmap.releasable offset size =
      if offset < Layout.heapStart ∨ Layout.capacity < offset + size then
        .refused (.outOfBounds offset size)
      else if (offset - Layout.heapStart) % (SizeClass.ofSize size).unit ≠ 0 then
        .refused (.misaligned offset (SizeClass.ofSize size).unit)
      else if (SizeClass.ofSize size).Admits (Allocation.mk offset size).window ∧
          bitmap.isFull (Allocation.mk offset size).window then
        .ok (Allocation.mk offset size).window
      else .refused (.notAllocated offset size) := by
  rw [releasable]
  split
  · rfl
  · next hbounds =>
    have hfirst : ¬ Layout.heapGranules ≤ (offset - Layout.heapStart) / Layout.granuleBytes :=
      Nat.not_le.mpr (first_lt_heapGranules (by omega) (by omega) hsize)
    rw [SizeClass.ofRequest_of_pos hsize]
    dsimp only
    rw [if_neg (show ¬ Layout.heapGranules ≤ ((SizeClass.ofSize size).window
      ((offset - Layout.heapStart) / Layout.granuleBytes)).first from hfirst)]
    rfl

/-- A release is accepted if its range lies in the heap and starts on a unit of its size class, and
its granules are of a shape that the class can have and all allocated. -/
theorem releasable_eq_ok_iff (hsize : 0 < size) :
    bitmap.releasable offset size = .ok window ↔
      (Layout.heapStart ≤ offset ∧ offset + size ≤ Layout.capacity) ∧
        (offset - Layout.heapStart) % (SizeClass.ofSize size).unit = 0 ∧
          (SizeClass.ofSize size).Admits window ∧ bitmap.isFull window = true ∧
            window = (Allocation.mk offset size).window := by
  rw [releasable_eq bitmap offset hsize]
  constructor
  · intro h
    split at h
    · cases h
    · next hbounds =>
      split at h
      · cases h
      · next hunit =>
        split at h
        · next hfull =>
          injection h with hwindow
          subst hwindow
          exact ⟨by omega, by omega, hfull.1, hfull.2, rfl⟩
        · cases h
  · rintro ⟨hbounds, hunit, hadmits, hfull, rfl⟩
    rw [if_neg (by omega), if_neg (by omega), if_pos ⟨hadmits, hfull⟩]

/-- The checks of a release never break off. -/
theorem releasable_ne_fault (bitmap : Bitmap) (offset : Nat) (hsize : 0 < size) (cause : Fault) :
    bitmap.releasable offset size ≠ .fault cause := by
  rw [releasable_eq bitmap offset hsize]
  split
  · exact nofun
  · split
    · exact nofun
    · split <;> exact nofun

/-- The faults that the checks of a release find. -/
theorem refusal_of_releasable (hsize : 0 < size)
    (h : bitmap.releasable offset size = .refused refusal) :
    refusal = .outOfBounds offset size ∨ (∃ unit, refusal = .misaligned offset unit) ∨
      refusal = .notAllocated offset size := by
  rw [releasable_eq bitmap offset hsize] at h
  split at h
  · exact Or.inl (Outcome.refused.inj h).symm
  · split at h
    · exact Or.inr (Or.inl ⟨_, (Outcome.refused.inj h).symm⟩)
    · split at h
      · cases h
      · exact Or.inr (Or.inr (Outcome.refused.inj h).symm)

theorem giveBack_of_ok (h : bitmap.releasable offset size = .ok window) :
    bitmap.giveBack offset size = ⟨.ok window, bitmap.clear window, [.released size offset]⟩ := by
  rw [giveBack, h]

theorem giveBack_of_refused (h : bitmap.releasable offset size = .refused refusal) :
    bitmap.giveBack offset size = ⟨.refused refusal, bitmap, [.rejected refusal]⟩ := by
  rw [giveBack, h]

/-! The replies of a release, by what its arguments are found to be. -/

variable {align : Nat} {alignment : Alignment}

theorem release_of_unsupported (bitmap : Bitmap) (offset size : Nat)
    (halign : Alignment.ofNat? align = none) :
    bitmap.release offset size align = ⟨.refused (.unsupportedAlign align), bitmap, []⟩ := by
  rw [release, halign]

theorem release_zero (bitmap : Bitmap) (offset : Nat)
    (halign : Alignment.ofNat? align = some alignment) :
    bitmap.release offset 0 align = ⟨.ok (), bitmap, []⟩ := by
  rw [release, halign]
  rfl

theorem release_of_ok (halign : Alignment.ofNat? align = some alignment) (hsize : 0 < size)
    (h : bitmap.releasable offset size = .ok window) :
    bitmap.release offset size align =
      ⟨.ok (), bitmap.clear window, [.released size offset]⟩ := by
  rw [release, halign]
  dsimp only
  rw [if_neg (Nat.ne_of_gt hsize), giveBack_of_ok h]

theorem release_of_refused (halign : Alignment.ofNat? align = some alignment) (hsize : 0 < size)
    (h : bitmap.releasable offset size = .refused refusal) :
    bitmap.release offset size align = ⟨.refused refusal, bitmap, [.rejected refusal]⟩ := by
  rw [release, halign]
  dsimp only
  rw [if_neg (Nat.ne_of_gt hsize), giveBack_of_refused h]

/-- What was given back can be taken again. -/
theorem GivenBack.putBack_eq {after : Bitmap} {returned : Option Allocation}
    (h : bitmap.GivenBack returned after) :
    after.putBack (returned.map Allocation.window) = .ok bitmap := by
  cases returned with
  | none =>
    rw [show after = bitmap from h]
    rfl
  | some allocation =>
    rw [h.2]
    exact putBack_clear h.1

/-- A release gives back the space that it names and hands out none. -/
theorem release_answers (bitmap : Bitmap) (offset size align : Nat) :
    bitmap.Answers (Allocation.named? offset size) (fun _ ↦ none)
      (bitmap.release offset size align) := by
  cases halign : Alignment.ofNat? align with
  | none =>
    rw [release_of_unsupported bitmap offset size halign]
    exact .unsupported align
  | some _ =>
    by_cases hzero : size = 0
    · subst hzero
      rw [release_zero bitmap offset halign]
      exact .served () rfl rfl
    · have hsize := Nat.pos_of_ne_zero hzero
      rw [Allocation.named?_of_pos hsize]
      cases hchecks : bitmap.releasable offset size with
      | ok window =>
        have hwindow := ((releasable_eq_ok_iff hsize).mp hchecks).2.2.2.2
        rw [release_of_ok halign hsize hchecks]
        subst hwindow
        exact .served () ⟨hchecks, rfl⟩ rfl
      | refused refusal =>
        rw [release_of_refused halign hsize hchecks]
        exact .rejected hsize hchecks
      | fault cause => exact absurd hchecks (releasable_ne_fault bitmap offset hsize cause)

/-- A release gives back the space that it names, or is refused and changes nothing. -/
theorem release_cases (bitmap : Bitmap) (offset size align : Nat) :
    (∃ refusal, (bitmap.release offset size align).outcome = .refused refusal ∧
      (bitmap.release offset size align).state = bitmap) ∨
    ((bitmap.release offset size align).outcome = .ok () ∧
      bitmap.GivenBack (Allocation.named? offset size)
        (bitmap.release offset size align).state) := by
  have hanswers := bitmap.release_answers offset size align
  generalize bitmap.release offset size align = reply at hanswers ⊢
  cases hanswers with
  | unsupported | rejected | exhausted => exact Or.inl ⟨_, rfl, rfl⟩
  | served _ hgiven hgranted => exact Or.inr ⟨rfl, hgranted ▸ hgiven⟩

/-- A release that is accepted gives back the space that it names. -/
theorem givenBack_of_release {align : Nat}
    (h : (bitmap.release offset size align).outcome = .ok ()) :
    bitmap.GivenBack (Allocation.named? offset size) (bitmap.release offset size align).state := by
  rcases bitmap.release_cases offset size align with ⟨refusal, hrefused, _⟩ | ⟨_, hgiven⟩
  · rw [hrefused] at h
    cases h
  · exact hgiven

end Release

/-! ### Requests for space -/

section Placement

variable {bitmap restored : Bitmap} {released : Option Window} {size first : Nat}

theorem place_zero (bitmap : Bitmap) (align : Alignment) (released : Option Window) :
    bitmap.place align 0 released = ⟨.ok Layout.capacity, bitmap, []⟩ := by
  rw [place, if_pos rfl, Alignment.sentinel_eq]

theorem place_of_some (align : Alignment) (released : Option Window) (hsize : 0 < size)
    (hfound : bitmap.firstFit? (.ofSize size) = some first) :
    bitmap.place align size released =
      ⟨.ok (Layout.granuleOffset first), bitmap.fill ((SizeClass.ofSize size).window first),
        [.allocated size (Layout.granuleOffset first) (.ofSize size)]⟩ := by
  rw [place, if_neg (Nat.ne_of_gt hsize), grant_eq bitmap hsize, hfound]
  rfl

theorem place_of_none (align : Alignment) (hsize : 0 < size)
    (hfound : bitmap.firstFit? (.ofSize size) = none)
    (hback : bitmap.putBack released = .ok restored) :
    bitmap.place align size released =
      ⟨.refused (.outOfMemory size), restored, [.exhausted size restored.free]⟩ := by
  rw [place, if_neg (Nat.ne_of_gt hsize), grant_eq bitmap hsize, hfound]
  dsimp only [Option.map_none]
  rw [hback]

/-- A request for space is granted, or is refused for want of room once the released window is back
in its place. -/
theorem place_cases (align : Alignment) (size : Nat)
    (hback : bitmap.putBack released = .ok restored) :
    bitmap.place align size released =
        ⟨.refused (.outOfMemory size), restored, [.exhausted size restored.free]⟩ ∨
    ∃ offset after,
      bitmap.place align size released =
        ⟨.ok offset, after, Record.ofGranted (Allocation.named? offset size)⟩ ∧
      bitmap.Granted (Allocation.named? offset size) after := by
  by_cases hzero : size = 0
  · subst hzero
    exact Or.inr ⟨_, _, place_zero bitmap align released, rfl⟩
  · have hsize := Nat.pos_of_ne_zero hzero
    cases hfound : bitmap.firstFit? (.ofSize size) with
    | none => exact Or.inl (place_of_none align hsize hfound hback)
    | some first =>
      refine Or.inr ⟨Layout.granuleOffset first,
        bitmap.fill ((SizeClass.ofSize size).window first), ?_⟩
      rw [place_of_some align released hsize hfound, Allocation.named?_of_pos hsize]
      refine ⟨rfl, hsize, ⟨first, hfound, rfl⟩, ?_⟩
      rw [Allocation.window_mk_granuleOffset]

/-- A request for space after a release answers for both. -/
theorem GivenBack.place_answers {middle : Bitmap} {returned : Option Allocation}
    (hgiven : bitmap.GivenBack returned middle) (align : Alignment) (size : Nat) :
    bitmap.Answers returned (fun offset ↦ Allocation.named? offset size)
      ((middle.place align size (returned.map Allocation.window)).after
        (Record.ofReturned returned)) := by
  rcases place_cases align size hgiven.putBack_eq with hplace | ⟨offset, after, hplace, hgranted⟩
  · rw [hplace]
    exact .exhausted size hgiven
  · rw [hplace]
    exact .served offset hgiven hgranted

/-! The replies of a resize, by what its arguments are found to be. -/

variable {oldOffset oldSize align : Nat} {alignment : Alignment} {window : Window}

theorem resize_of_unsupported (bitmap : Bitmap) (oldOffset oldSize newSize : Nat)
    (halign : Alignment.ofNat? align = none) :
    bitmap.resize oldOffset oldSize align newSize =
      ⟨.refused (.unsupportedAlign align), bitmap, []⟩ := by
  rw [resize, halign]

/-- Without old space there is nothing to put back. -/
theorem resize_zero_eq_place (bitmap : Bitmap) (oldOffset newSize : Nat)
    (halign : Alignment.ofNat? align = some alignment) :
    bitmap.resize oldOffset 0 align newSize = bitmap.place alignment newSize none := by
  rw [resize, halign]
  rfl

theorem resize_of_ok (halign : Alignment.ofNat? align = some alignment) (hold : 0 < oldSize)
    (h : bitmap.releasable oldOffset oldSize = .ok window) (newSize : Nat) :
    bitmap.resize oldOffset oldSize align newSize =
      ((bitmap.clear window).place alignment newSize (some window)).after
        [.released oldSize oldOffset] := by
  rw [resize, halign]
  dsimp only
  rw [if_neg (Nat.ne_of_gt hold), giveBack_of_ok h]

theorem resize_of_refused {refusal : Refusal} (halign : Alignment.ofNat? align = some alignment)
    (hold : 0 < oldSize) (h : bitmap.releasable oldOffset oldSize = .refused refusal)
    (newSize : Nat) :
    bitmap.resize oldOffset oldSize align newSize =
      ⟨.refused refusal, bitmap, [.rejected refusal]⟩ := by
  rw [resize, halign]
  dsimp only
  rw [if_neg (Nat.ne_of_gt hold), giveBack_of_refused h]

/-- A request for space alone has nothing to put back. -/
theorem allocate_eq_place (bitmap : Bitmap) (halign : Alignment.ofNat? align = some alignment)
    (size : Nat) : bitmap.allocate align size = bitmap.place alignment size none :=
  bitmap.resize_zero_eq_place 0 size halign

/-- Space that is handed out was free and is well placed. -/
theorem Granted.isFree_and_placed {before after : Bitmap} {allocation : Allocation}
    (h : before.Granted (some allocation) after) :
    before.isFree allocation.window = true ∧ allocation.Placed := by
  obtain ⟨offset, size⟩ := allocation
  obtain ⟨hsize, ⟨first, hfound, hoffset⟩, _⟩ := h
  have hroom := ((firstFit?_eq_some_iff (SizeClass.searchable_ofSize hsize)).mp hfound).1
  change offset = Layout.granuleOffset first at hoffset
  subst hoffset
  refine ⟨?_, hroom.placed hsize⟩
  rw [Allocation.window_mk_granuleOffset]
  exact hroom.2.2.2

end Placement

/-- A resize gives back the old space and hands out the new. -/
theorem resize_answers (bitmap : Bitmap) (oldOffset oldSize align newSize : Nat) :
    bitmap.Answers (Allocation.named? oldOffset oldSize)
      (fun offset ↦ Allocation.named? offset newSize)
      (bitmap.resize oldOffset oldSize align newSize) := by
  cases halign : Alignment.ofNat? align with
  | none =>
    rw [resize_of_unsupported bitmap oldOffset oldSize newSize halign]
    exact .unsupported align
  | some alignment =>
    by_cases hzero : oldSize = 0
    · subst hzero
      rw [resize_zero_eq_place bitmap oldOffset newSize halign]
      have hgiven : bitmap.GivenBack none bitmap := rfl
      exact hgiven.place_answers alignment newSize
    · have hold := Nat.pos_of_ne_zero hzero
      rw [Allocation.named?_of_pos hold]
      cases hchecks : bitmap.releasable oldOffset oldSize with
      | ok window =>
        have hwindow := ((releasable_eq_ok_iff hold).mp hchecks).2.2.2.2
        rw [resize_of_ok halign hold hchecks]
        subst hwindow
        have hgiven : bitmap.GivenBack (some ⟨oldOffset, oldSize⟩) _ := ⟨hchecks, rfl⟩
        exact hgiven.place_answers alignment newSize
      | refused refusal =>
        rw [resize_of_refused halign hold hchecks]
        exact .rejected hold hchecks
      | fault cause => exact absurd hchecks (releasable_ne_fault bitmap oldOffset hold cause)

/-- A resize gives back the old space and is then granted the new, or is refused and changes
nothing. -/
theorem resize_cases (bitmap : Bitmap) (oldOffset oldSize align newSize : Nat) :
    (∃ refusal, (bitmap.resize oldOffset oldSize align newSize).outcome = .refused refusal ∧
      (bitmap.resize oldOffset oldSize align newSize).state = bitmap) ∨
    ∃ offset middle, (bitmap.resize oldOffset oldSize align newSize).outcome = .ok offset ∧
      bitmap.GivenBack (Allocation.named? oldOffset oldSize) middle ∧
        middle.Granted (Allocation.named? offset newSize)
          (bitmap.resize oldOffset oldSize align newSize).state := by
  have hanswers := bitmap.resize_answers oldOffset oldSize align newSize
  generalize bitmap.resize oldOffset oldSize align newSize = reply at hanswers ⊢
  cases hanswers with
  | unsupported | rejected | exhausted => exact Or.inl ⟨_, rfl, rfl⟩
  | served offset hgiven hgranted => exact Or.inr ⟨offset, _, rfl, hgiven, hgranted⟩

/-- A resize that is served gives back the old space and hands out the new. -/
theorem exists_granted_of_resize {bitmap : Bitmap} {oldOffset oldSize align newSize offset : Nat}
    (h : (bitmap.resize oldOffset oldSize align newSize).outcome = .ok offset) :
    ∃ middle, bitmap.GivenBack (Allocation.named? oldOffset oldSize) middle ∧
      middle.Granted (Allocation.named? offset newSize)
        (bitmap.resize oldOffset oldSize align newSize).state := by
  rcases bitmap.resize_cases oldOffset oldSize align newSize with
    ⟨refusal, hrefused, _⟩ | ⟨found, middle, hok, hgiven, hgranted⟩
  · rw [hrefused] at h
    cases h
  · rw [hok, Outcome.ok.injEq] at h
    exact ⟨middle, hgiven, h ▸ hgranted⟩

/-- A request that is served with some space hands it out. -/
theorem granted_of_allocate {bitmap : Bitmap} {align offset size : Nat}
    (h : (bitmap.allocate align size).outcome = .ok offset) :
    bitmap.Granted (Allocation.named? offset size) (bitmap.allocate align size).state := by
  obtain ⟨middle, hgiven, hgranted⟩ := exists_granted_of_resize h
  rw [show middle = bitmap from hgiven] at hgranted
  exact hgranted

end Bitmap

/-! ### Requests of a heap -/

namespace Heap

variable (heap : Heap) (offset oldOffset oldSize align size newSize : Nat)

theorem outcome_allocate :
    (heap.allocate align size).outcome = (heap.bitmap.allocate align size).outcome :=
  outcome_serve _ _

theorem outcome_resize : (heap.resize oldOffset oldSize align newSize).outcome =
    (heap.bitmap.resize oldOffset oldSize align newSize).outcome :=
  outcome_serve _ _

theorem outcome_release :
    (heap.release offset size align).outcome = (heap.bitmap.release offset size align).outcome :=
  outcome_serve _ _

theorem state_allocate :
    (heap.allocate align size).state = heap.setBitmap (heap.bitmap.allocate align size).state :=
  rfl

theorem state_resize : (heap.resize oldOffset oldSize align newSize).state =
    heap.setBitmap (heap.bitmap.resize oldOffset oldSize align newSize).state :=
  rfl

theorem state_release :
    (heap.release offset size align).state =
      heap.setBitmap (heap.bitmap.release offset size align).state :=
  rfl

end Heap

end LinearHeap
