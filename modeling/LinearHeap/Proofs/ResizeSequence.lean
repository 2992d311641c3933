import LinearHeap.Proofs.AllOrNothing
import LinearHeap.Proofs.ReleaseAcceptance
import LinearHeap.Proofs.ReleaseOutcome

/-!
# A resize is a release followed by a request for space

A resize checks its old space, clears it, and searches before it decides whether to keep what it has
cleared. Seen from outside it does nothing that a release and a request for space do not do one
after the other: it is refused if the release is (`Bitmap.outcome_resize_of_release_refused`), and
otherwise answers as the request does on the bitmap that the release leaves
(`Bitmap.resize_of_release_ok`). Only after a refusal for want of room do the two ways differ, since
the release by itself would last.

What is put back plays no part in a request that is served (`Bitmap.place_eq_or_refused`): this is
where the order of the steps could have mattered.
-/

set_option autoImplicit false
set_option relaxedAutoImplicit false

namespace LinearHeap

namespace Bitmap

variable {bitmap restored kept : Bitmap} {released other : Option Window}
  {oldOffset oldSize align newSize : Nat} {refusal : Refusal}

/-- Which window would be put back makes a difference only to what a refused request leaves. -/
theorem place_eq_or_refused (alignment : Alignment) (size : Nat)
    (hback : bitmap.putBack released = .ok restored) (hback' : bitmap.putBack other = .ok kept) :
    bitmap.place alignment size released = bitmap.place alignment size other ∨
      (bitmap.place alignment size released).outcome = .refused (.outOfMemory size) ∧
        (bitmap.place alignment size other).outcome = .refused (.outOfMemory size) := by
  by_cases hzero : size = 0
  · subst hzero
    rw [place_zero, place_zero]
    exact Or.inl rfl
  · have hsize := Nat.pos_of_ne_zero hzero
    cases hfound : bitmap.firstFit? (.ofSize size) with
    | some first =>
      rw [place_of_some alignment released hsize hfound, place_of_some alignment other hsize hfound]
      exact Or.inl rfl
    | none =>
      rw [place_of_none alignment hsize hfound hback, place_of_none alignment hsize hfound hback']
      exact Or.inr ⟨rfl, rfl⟩

/-- A resize is refused if a release of its old space is, and for the same reason. -/
theorem outcome_resize_of_release_refused (newSize : Nat)
    (h : (bitmap.release oldOffset oldSize align).outcome = .refused refusal) :
    (bitmap.resize oldOffset oldSize align newSize).outcome = .refused refusal :=
  ((bitmap.resize_refused_iff oldOffset oldSize align newSize refusal).mpr h).1

/-- A resize whose old space can be released answers as a request for space does after the release,
and leaves the same bitmap if it is served. -/
theorem resize_of_release_ok (newSize : Nat)
    (h : (bitmap.release oldOffset oldSize align).outcome = .ok ()) :
    let resized := bitmap.resize oldOffset oldSize align newSize
    let allocated := (bitmap.release oldOffset oldSize align).state.allocate align newSize
    resized.outcome = allocated.outcome ∧
      ∀ offset, resized.outcome = .ok offset → resized.state = allocated.state := by
  intro resized allocated
  cases halign : Alignment.ofNat? align with
  | none =>
    rw [release_of_unsupported bitmap oldOffset oldSize halign] at h
    cases h
  | some alignment =>
    by_cases hzero : oldSize = 0
    · subst hzero
      have hresized : resized = allocated := by
        change bitmap.resize oldOffset 0 align newSize =
          (bitmap.release oldOffset 0 align).state.allocate align newSize
        rw [release_zero bitmap oldOffset halign, allocate_eq_place _ halign,
          resize_zero_eq_place bitmap oldOffset newSize halign]
      rw [hresized]
      exact ⟨rfl, fun _ _ ↦ rfl⟩
    · have hold := Nat.pos_of_ne_zero hzero
      rw [outcome_release_eq_map halign hold] at h
      obtain ⟨window, hchecks, _⟩ := Outcome.map_eq_ok_iff.mp h
      have hallocated : allocated = (bitmap.clear window).place alignment newSize none := by
        change (bitmap.release oldOffset oldSize align).state.allocate align newSize = _
        rw [release_of_ok halign hold hchecks, allocate_eq_place _ halign]
      have hresized : resized = _ := resize_of_ok halign hold hchecks newSize
      have hplaces := place_eq_or_refused alignment newSize (putBack_clear hchecks)
        (show (bitmap.clear window).putBack none = .ok (bitmap.clear window) from rfl)
      rw [hresized, hallocated, Reply.outcome_after, Reply.state_after]
      rcases hplaces with hsame | ⟨hrefused, hrefused'⟩
      · rw [hsame]
        exact ⟨rfl, fun _ _ ↦ rfl⟩
      · rw [hrefused, hrefused']
        exact ⟨rfl, fun _ hok ↦ by cases hok⟩

end Bitmap

namespace Heap

variable {heap : Heap} {oldOffset oldSize align newSize : Nat} {refusal : Refusal}

/-- A resize of a heap whose old space can be released answers as a request for space does after the
release, and leaves the same region if it is served. -/
theorem resize_of_release_ok (newSize : Nat)
    (h : (heap.release oldOffset oldSize align).outcome = .ok ()) :
    let resized := heap.resize oldOffset oldSize align newSize
    let allocated := (heap.release oldOffset oldSize align).state.allocate align newSize
    resized.outcome = allocated.outcome ∧
      ∀ offset, resized.outcome = .ok offset → resized.state = allocated.state := by
  intro resized allocated
  rw [outcome_release] at h
  obtain ⟨houtcome, hstate⟩ := Bitmap.resize_of_release_ok newSize h
  have hresized : resized.outcome = _ := heap.outcome_resize oldOffset oldSize align newSize
  have hallocated : allocated.outcome = _ := outcome_allocate _ align newSize
  rw [state_release, bitmap_setBitmap] at hallocated
  refine ⟨hresized.trans (houtcome.trans hallocated.symm), fun offset hok ↦ ?_⟩
  change heap.setBitmap _ = ((heap.release oldOffset oldSize align).state.setBitmap _)
  rw [hstate offset (hresized.symm.trans hok), state_release, setBitmap_setBitmap,
    bitmap_setBitmap]

theorem outcome_resize_of_release_refused (newSize : Nat)
    (h : (heap.release oldOffset oldSize align).outcome = .refused refusal) :
    (heap.resize oldOffset oldSize align newSize).outcome = .refused refusal := by
  rw [outcome_release] at h
  rw [outcome_resize]
  exact Bitmap.outcome_resize_of_release_refused newSize h

/-- Without old space a resize is a request for space, whatever its old offset is. -/
theorem resize_zero_eq_allocate (heap : Heap) (oldOffset align newSize : Nat) :
    heap.resize oldOffset 0 align newSize = heap.allocate align newSize := by
  have hbitmap : ∀ bitmap : Bitmap,
      bitmap.resize oldOffset 0 align newSize = bitmap.allocate align newSize := by
    intro bitmap
    rw [Bitmap.allocate, Bitmap.resize, Bitmap.resize]
    cases Alignment.ofNat? align <;> rfl
  exact congrArg heap.serve (funext hbitmap)

/-- A request for no bytes is answered with the sentinel of its alignment and changes nothing. -/
theorem allocate_zero (heap : Heap) {alignment : Alignment}
    (halign : Alignment.ofNat? align = some alignment) :
    (heap.allocate align 0).outcome = .ok alignment.sentinel ∧
      (heap.allocate align 0).state = heap := by
  rw [outcome_allocate, state_allocate, Bitmap.allocate_eq_place _ halign, Bitmap.place_zero,
    Alignment.sentinel_eq]
  exact ⟨rfl, heap.setBitmap_bitmap⟩

/-- A release is accepted, or the resize it belongs to is refused as well and nothing changes. -/
theorem release_ok_or_resize_refused (heap : Heap) (oldOffset oldSize align newSize : Nat) :
    (heap.release oldOffset oldSize align).outcome = .ok () ∨
      ∃ refusal, (heap.release oldOffset oldSize align).outcome = .refused refusal ∧
        (heap.release oldOffset oldSize align).state = heap ∧
          (heap.resize oldOffset oldSize align newSize).outcome = .refused refusal ∧
            (heap.resize oldOffset oldSize align newSize).state = heap := by
  rcases heap.release_ok_or_refused oldOffset oldSize align with hok | ⟨refusal, hrefused, hsame⟩
  · exact Or.inl hok
  · have hresized := outcome_resize_of_release_refused newSize hrefused
    exact Or.inr ⟨refusal, hrefused, hsame, hresized,
      heap.resize_allOrNothing oldOffset oldSize align newSize refusal hresized⟩

/-- A resize is served as the request for space after its release is. -/
theorem resize_ok_iff (heap : Heap) (oldOffset oldSize align newSize offset : Nat) (after : Heap) :
    let resized := heap.resize oldOffset oldSize align newSize
    let released := heap.release oldOffset oldSize align
    let allocated := released.state.allocate align newSize
    resized.outcome = .ok offset ∧ resized.state = after ↔
      released.outcome = .ok () ∧ allocated.outcome = .ok offset ∧ allocated.state = after := by
  intro resized released allocated
  rcases heap.release_ok_or_resize_refused oldOffset oldSize align newSize with
    hok | ⟨refusal, hrefused, _, hresized, _⟩
  · obtain ⟨houtcome, hstate⟩ := resize_of_release_ok newSize hok
    constructor
    · rintro ⟨hserved, rfl⟩
      exact ⟨hok, houtcome.symm.trans hserved, (hstate offset hserved).symm⟩
    · rintro ⟨_, hserved, rfl⟩
      have hresized : resized.outcome = .ok offset := houtcome.trans hserved
      exact ⟨hresized, hstate offset hresized⟩
  · constructor
    · rintro ⟨hserved, _⟩
      cases hresized.symm.trans hserved
    · rintro ⟨hserved, _⟩
      cases hrefused.symm.trans hserved

/-- A resize is refused as its release is, or as the request for space after that is. -/
theorem resize_refused_iff (heap : Heap) (oldOffset oldSize align newSize : Nat)
    (refusal : Refusal) :
    let released := heap.release oldOffset oldSize align
    (heap.resize oldOffset oldSize align newSize).outcome = .refused refusal ↔
      released.outcome = .refused refusal ∨ released.outcome = .ok () ∧
        (released.state.allocate align newSize).outcome = .refused refusal := by
  intro released
  rcases heap.release_ok_or_resize_refused oldOffset oldSize align newSize with
    hok | ⟨reason, hrefused, _, hresized, _⟩
  · rw [(resize_of_release_ok newSize hok).1, show released.outcome = .ok () from hok]
    simp only [reduceCtorEq, false_or, true_and, released]
  · rw [hresized, show released.outcome = .refused reason from hrefused]
    simp only [reduceCtorEq, false_and, or_false, Outcome.refused.injEq]

/-- A resize to no bytes leaves what a release leaves, and so is refused when that is; otherwise it
is answered with the sentinel of its alignment. -/
theorem resize_to_zero (heap : Heap) (oldOffset oldSize align : Nat) :
    let resized := heap.resize oldOffset oldSize align 0
    let released := heap.release oldOffset oldSize align
    resized.state = released.state ∧
    (∀ refusal, resized.outcome = .refused refusal ↔ released.outcome = .refused refusal) ∧
    ∀ offset, resized.outcome = .ok offset ↔ released.outcome = .ok () ∧
      ∃ alignment : Alignment, alignment.bytes = align ∧ offset = alignment.sentinel := by
  intro resized released
  rcases heap.release_ok_or_resize_refused oldOffset oldSize align 0 with
    hok | ⟨refusal, hrefused, hsame, hresized, hkept⟩
  · obtain ⟨alignment, halign⟩ :=
      Alignment.exists_ofNat?_eq_some (Bitmap.align_of_release_ok hok)
    obtain ⟨houtcome, hstate⟩ := resize_of_release_ok 0 hok
    obtain ⟨hsentinel, hsame⟩ := released.state.allocate_zero halign
    have hresized : resized.outcome = .ok alignment.sentinel := houtcome.trans hsentinel
    refine ⟨(hstate _ hresized).trans hsame, fun refusal ↦ ?_, fun offset ↦ ?_⟩
    · rw [hresized, show released.outcome = .ok () from hok]
      exact ⟨nofun, nofun⟩
    · rw [hresized, Outcome.ok.injEq, and_iff_right (show released.outcome = .ok () from hok)]
      constructor
      · exact fun hoffset ↦ ⟨alignment, Alignment.bytes_of_ofNat? halign, hoffset.symm⟩
      · rintro ⟨other, _, rfl⟩
        rw [Alignment.sentinel_eq, Alignment.sentinel_eq]
  · have hresized : resized.outcome = .refused refusal := hresized
    refine ⟨hkept.trans hsame.symm, fun other ↦ ?_, fun offset ↦ ?_⟩
    · rw [hresized, show released.outcome = .refused refusal from hrefused, Outcome.refused.injEq,
        Outcome.refused.injEq]
    · rw [hresized, show released.outcome = .refused refusal from hrefused]
      exact ⟨nofun, nofun⟩

/-- A resize is a release followed by a request for space. Whatever the heap holds and whatever the
arguments are: a resize is served with some offset and leaves some heap exactly when the release of
its old space is accepted and a request for its new space, made on the heap after that release, is
served with that offset and leaves that heap. It is refused for some reason exactly when the release
is refused for it, or the release is accepted and the request after it is refused for it. Without
old space the old offset plays no part, and a resize to no bytes does what the release does, is
refused as the release is, and is answered with the sentinel of its alignment. -/
theorem resize_is_release_then_allocate (heap : Heap) (oldOffset oldSize align newSize : Nat) :
    let resized := heap.resize oldOffset oldSize align newSize
    let released := heap.release oldOffset oldSize align
    let allocated := released.state.allocate align newSize
    (∀ offset after, resized.outcome = .ok offset ∧ resized.state = after ↔
      released.outcome = .ok () ∧ allocated.outcome = .ok offset ∧ allocated.state = after) ∧
    (∀ refusal, resized.outcome = .refused refusal ↔
      released.outcome = .refused refusal ∨
        released.outcome = .ok () ∧ allocated.outcome = .refused refusal) ∧
    (∀ other, heap.resize other 0 align newSize = heap.allocate align newSize) ∧
    let emptied := heap.resize oldOffset oldSize align 0
    emptied.state = released.state ∧
    (∀ refusal, emptied.outcome = .refused refusal ↔ released.outcome = .refused refusal) ∧
    ∀ offset, emptied.outcome = .ok offset ↔ released.outcome = .ok () ∧
      ∃ alignment : Alignment, alignment.bytes = align ∧ offset = alignment.sentinel := by
  intro resized released allocated
  exact ⟨heap.resize_ok_iff oldOffset oldSize align newSize,
    heap.resize_refused_iff oldOffset oldSize align newSize,
    fun other ↦ heap.resize_zero_eq_allocate other align newSize,
    heap.resize_to_zero oldOffset oldSize align⟩

end Heap

end LinearHeap
