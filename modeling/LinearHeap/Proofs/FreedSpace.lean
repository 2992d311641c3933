import LinearHeap.Proofs.Indistinguishable
import LinearHeap.Proofs.ReleaseAcceptance

/-!
# Freed space stays free until it is handed out

Space that was given back is free, and it stays so as long as no request is granted a byte of it
(`Heap.HasFree.react`). A release only clears granules, and a grant that keeps off the space fills
others; a refused request changes nothing, also if it had already given back other space; and a copy
into the heap proper leaves the bitmap alone.

While the space is free, no release can touch it. An accepted release names granules that are all
allocated, so it shares no byte with space of which none is (`Bitmap.GivenBack.not_meets`).
`Heap.freed_space_stays_free` puts this together for runs of any length with any arguments.
-/

set_option autoImplicit false
set_option relaxedAutoImplicit false

namespace LinearHeap

namespace Allocation

variable {first second : Allocation}

/-- Two footprints have a byte in common. -/
def Meets (first second : Allocation) : Prop :=
  ∃ byte, (first.offset ≤ byte ∧ byte < first.offset + first.footprint) ∧
    second.offset ≤ byte ∧ byte < second.offset + second.footprint

theorem Apart.not_meets (h : first.Apart second) : ¬ first.Meets second := by
  rintro ⟨byte, hfirst, hsecond⟩
  rw [Apart] at h
  omega

/-- Well-placed allocations that have no byte in common lie one before the other. -/
theorem Placed.apart_of_not_meets (hfirst : first.Placed) (hsecond : second.Placed)
    (h : ¬ first.Meets second) : first.Apart second := by
  have hpos := Nat.lt_of_lt_of_le hfirst.size_pos first.size_le_footprint
  have hpos' := Nat.lt_of_lt_of_le hsecond.size_pos second.size_le_footprint
  rw [Apart]
  by_contra hoverlap
  -- Overlapping footprints share the later of their first bytes.
  exact h ⟨max first.offset second.offset, by omega, by omega⟩

/-- Only a request for some bytes has a footprint that meets another. -/
theorem Meets.size_pos (h : first.Meets second) : 0 < first.size := by
  obtain ⟨byte, hfirst, _⟩ := h
  exact size_pos_of_footprint_pos (by omega)

end Allocation

namespace Bitmap

variable {before after : Bitmap} {returned freed : Allocation} {window : Window}

/-- A release shares no byte with free space. -/
theorem GivenBack.not_meets (h : before.GivenBack (some returned) after) (hfreed : freed.Placed)
    (hfree : before.isFree freed.window = true) : ¬ returned.Meets freed := by
  obtain ⟨hplaced, hfull⟩ := h.placed_and_isFull
  refine (Allocation.apart_of_forall_not_mem hplaced hfreed fun granule hmem hmem' ↦ ?_).not_meets
  have hset := (isFull_iff hplaced.window_inHeap).mp hfull granule hmem
  rw [isFree_iff.mp hfree granule hmem'] at hset
  cases hset

/-- Giving back some space leaves a free window free. -/
theorem GivenBack.isFree {space : Option Allocation} (h : before.GivenBack space after)
    (hfree : before.isFree window = true) : after.isFree window = true := by
  cases space with
  | none => rwa [show after = before from h]
  | some returned =>
    rw [h.2, isFree_iff]
    intro granule hmem
    rw [isSet_clear, isFree_iff.mp hfree granule hmem, Bool.false_and]

/-- Handing out some space leaves other space free. -/
theorem Granted.isFree {space : Option Allocation} (h : before.Granted space after)
    (hfreed : freed.Placed) (hoff : ∀ granted, space = some granted → ¬ granted.Meets freed)
    (hfree : before.isFree freed.window = true) : after.isFree freed.window = true := by
  cases space with
  | none => rwa [show after = before from h]
  | some granted =>
    have hplaced := h.isFree_and_placed.2
    have hapart := hplaced.apart_of_not_meets hfreed (hoff granted rfl)
    rw [h.2.2, isFree_fill_iff]
    exact ⟨hfree, fun granule _ hmem ↦ hapart.not_mem_window hplaced hfreed hmem⟩

end Bitmap

namespace Heap

variable {heap : Heap} {freed : Allocation} {interaction : Interaction}

/-- The interaction leaves freed space to itself: a call that succeeds is granted no byte of it, and
a copy stores nothing in the bitmap. -/
def KeepsOff (freed : Allocation) (heap : Heap) : Interaction → Prop
  | .ask (.call call) => ∀ settlement, (heap.perform call).outcome = .ok settlement →
      ∀ granted, settlement.granted = some granted → ¬ granted.Meets freed
  | .ask (.word _) | .ask (.isAllocated _) | .ask .allocated | .ask .free => True
  | .copy copy => copy.SparesBitmap

theorem keepsOff_of_ok {call : Call} {settlement : Settlement}
    (h : (heap.perform call).outcome = .ok settlement)
    (hoff : ∀ granted, settlement.granted = some granted → ¬ granted.Meets freed) :
    heap.KeepsOff freed (.ask (.call call)) := by
  intro other hother
  rw [h, Outcome.ok.injEq] at hother
  exact hother ▸ hoff

theorem keepsOff_of_refused {call : Call} {refusal : Refusal}
    (h : (heap.perform call).outcome = .refused refusal) :
    heap.KeepsOff freed (.ask (.call call)) := by
  intro other hother
  rw [h] at hother
  cases hother

/-- No granule of some space is allocated. -/
def HasFree (space : Allocation) (heap : Heap) : Prop := heap.bitmap.isFree space.window = true

/-- A call that gives back some space and is granted none leaves this space free. -/
theorem hasFree_of_freed {call : Call}
    (h : (heap.perform call).outcome = .ok ⟨some freed, none⟩) :
    freed.Placed ∧ (heap.perform call).state.HasFree freed := by
  rcases heap.perform_cases call with
    ⟨refusal, hrefused, _⟩ | ⟨settlement, middle, hok, hgiven, hgranted⟩
  · rw [hrefused] at h
    cases h
  · rw [hok, Outcome.ok.injEq] at h
    subst h
    have hafter : (heap.perform call).state.bitmap = middle := hgranted
    rw [HasFree, hafter, hgiven.2]
    exact ⟨hgiven.placed_and_isFull.1, heap.bitmap.isFree_clear _⟩

/-- One interaction that keeps off free space leaves it free. -/
theorem HasFree.react (hfree : heap.HasFree freed) (hfreed : freed.Placed)
    (hoff : heap.KeepsOff freed interaction) : (heap.react interaction).HasFree freed := by
  cases interaction with
  | copy copy =>
    rw [HasFree, Heap.react, bitmap_copy hoff]
    exact hfree
  | ask question =>
    cases question with
    | word _ | isAllocated _ | allocated | free => exact hfree
    | call call =>
      rw [Heap.react]
      rcases heap.perform_cases call with
        ⟨refusal, hrefused, hstate⟩ | ⟨settlement, middle, hok, hgiven, hgranted⟩
      · rwa [hstate]
      · exact hgranted.isFree hfreed (hoff settlement hok) (hgiven.isFree hfree)

/-- A release that names a byte of free space is refused and changes nothing. -/
theorem HasFree.release_refused (hfree : heap.HasFree freed) (hfreed : freed.Placed)
    {offset size : Nat} (hmeets : (Allocation.mk offset size).Meets freed) (align : Nat) :
    ∃ refusal, (heap.release offset size align).outcome = .refused refusal ∧
      (heap.release offset size align).state = heap := by
  rw [outcome_release, state_release]
  rcases heap.bitmap.release_cases offset size align with ⟨refusal, hrefused, hstate⟩ | ⟨_, hgiven⟩
  · rw [hstate, setBitmap_bitmap]
    exact ⟨refusal, hrefused, rfl⟩
  · rw [Allocation.named?_of_pos hmeets.size_pos] at hgiven
    exact absurd hmeets (hgiven.not_meets hfreed hfree)

/-- A resize whose old space has a byte of free space is refused and changes nothing. -/
theorem HasFree.resize_refused (hfree : heap.HasFree freed) (hfreed : freed.Placed)
    {oldOffset oldSize : Nat} (hmeets : (Allocation.mk oldOffset oldSize).Meets freed)
    (align newSize : Nat) :
    ∃ refusal, (heap.resize oldOffset oldSize align newSize).outcome = .refused refusal ∧
      (heap.resize oldOffset oldSize align newSize).state = heap := by
  rw [outcome_resize, state_resize]
  rcases heap.bitmap.resize_cases oldOffset oldSize align newSize with
    ⟨refusal, hrefused, hstate⟩ | ⟨_, _, _, hgiven, _⟩
  · rw [hstate, setBitmap_bitmap]
    exact ⟨refusal, hrefused, rfl⟩
  · rw [Allocation.named?_of_pos hmeets.size_pos] at hgiven
    exact absurd hmeets (hgiven.not_meets hfreed hfree)

/-- Freed space stays free until it is handed out again. A call has given back some space and was
granted none: a release of a positive number of bytes, or a resize of some to none. After any later
run, all granules of that space are free, and every release and every resize whose old space has a
byte in common with it is refused and changes nothing, with any arguments otherwise. Assumes: a run
in which no call that succeeds is granted a byte of the space, and no copy stores anything in the
bitmap. -/
theorem freed_space_stays_free {call : Call}
    (hcall : (heap.perform call).outcome = .ok ⟨some freed, none⟩) {later : List Interaction}
    (hoff : AdmitsAll react (KeepsOff freed) (heap.perform call).state later) :
    let after := later.foldl react (heap.perform call).state
    (∀ granule, freed.Covers granule → after.isAllocated granule = false) ∧
    (∀ offset size align, (Allocation.mk offset size).Meets freed →
      ∃ refusal, (after.release offset size align).outcome = .refused refusal ∧
        (after.release offset size align).state = after) ∧
    ∀ oldOffset oldSize align newSize, (Allocation.mk oldOffset oldSize).Meets freed →
      ∃ refusal, (after.resize oldOffset oldSize align newSize).outcome = .refused refusal ∧
        (after.resize oldOffset oldSize align newSize).state = after := by
  intro after
  obtain ⟨hfreed, hstart⟩ := hasFree_of_freed hcall
  have hfree : after.HasFree freed :=
    hoff.invariant (fun _ _ hfree hkeeps ↦ hfree.react hfreed hkeeps) hstart
  refine ⟨fun granule hcovers ↦ ?_, fun offset size align hmeets ↦ ?_,
    fun oldOffset oldSize align newSize hmeets ↦ ?_⟩
  · have hmem := (Allocation.covers_iff_mem_window hfreed).mp hcovers
    exact Bitmap.isFree_iff.mp hfree granule hmem
  · exact hfree.release_refused hfreed hmeets align
  · exact hfree.resize_refused hfreed hmeets align newSize

/-- With only granule 3 allocated, a resize of it to more than the heap has fails after it has
given the granule back, 512 bytes are granted on the second page, and a byte is written into
granule 0. -/
private theorem admitsAll_keepsOff {heap : Heap}
    (hbitmap : heap.bitmap = (Bitmap.empty.fill ⟨0, 4⟩).clear ⟨0, 3⟩) :
    AdmitsAll react (KeepsOff ⟨512, 24⟩) heap [.ask (.call (.resize 536 8 8 40000)),
      .ask (.call (.allocate 8 512)), .copy (.write .uint8 512 [7])] := by
  have hrefused : (heap.perform (.resize 536 8 8 40000)).outcome =
      .refused (.outOfMemory 40000) := by
    simp only [perform, Reply.map, outcome_resize, hbitmap]
    decide +kernel
  have hsame : (heap.react (.ask (.call (.resize 536 8 8 40000)))).bitmap = heap.bitmap := by
    rw [react, perform, Reply.map, state_resize, bitmap_setBitmap, hbitmap]
    decide +kernel
  refine ⟨keepsOff_of_refused hrefused, ?_, Or.inr (Nat.le_refl _), trivial⟩
  generalize heap.react (.ask (.call (.resize 536 8 8 40000))) = restored at hsame
  have hok : (restored.perform (.allocate 8 512)).outcome = .ok ⟨none, some ⟨1024, 512⟩⟩ := by
    simp only [perform, Reply.map, outcome_allocate, hsame, hbitmap]
    decide +kernel
  refine keepsOff_of_ok hok fun granted hgranted ↦ ?_
  rw [← Option.some.inj hgranted]
  exact Allocation.Apart.not_meets (Or.inr (by decide))

/-- Of four allocated granules the first three are released. After a failed resize of the fourth, a
grant of another page and a write into the first, a release of the second granule is refused, and so
is a resize of all four. -/
theorem freed_space_stays_free_three_granules :
    let heap := zeroed.setBitmap (Bitmap.empty.fill ⟨0, 4⟩)
    let later : List Interaction := [.ask (.call (.resize 536 8 8 40000)),
      .ask (.call (.allocate 8 512)), .copy (.write .uint8 512 [7])]
    let released := (heap.perform (.release 512 24 8)).state
    let after := later.foldl react released
    (heap.perform (.release 512 24 8)).outcome = .ok ⟨some ⟨512, 24⟩, none⟩ ∧
      AdmitsAll react (KeepsOff ⟨512, 24⟩) released later ∧
      (Allocation.mk 520 8).Meets ⟨512, 24⟩ ∧ (Allocation.mk 512 32).Meets ⟨512, 24⟩ ∧
      after.isAllocated 0 = false ∧
      (∃ refusal, (after.release 520 8 8).outcome = .refused refusal ∧
        (after.release 520 8 8).state = after) ∧
      ∃ refusal, (after.resize 512 32 8 16).outcome = .refused refusal ∧
        (after.resize 512 32 8 16).state = after := by
  intro heap later released after
  have hbitmap : heap.bitmap = Bitmap.empty.fill ⟨0, 4⟩ := bitmap_setBitmap _ _
  have hcall : (heap.perform (.release 512 24 8)).outcome = .ok ⟨some ⟨512, 24⟩, none⟩ := by
    simp only [perform, Reply.map, outcome_release, hbitmap]
    decide +kernel
  have hreleased : released.bitmap = (Bitmap.empty.fill ⟨0, 4⟩).clear ⟨0, 3⟩ := by
    change (heap.perform (.release 512 24 8)).state.bitmap = _
    rw [perform, Reply.map, state_release, bitmap_setBitmap, hbitmap]
    decide +kernel
  have hoff := admitsAll_keepsOff hreleased
  have hpart : (Allocation.mk 520 8).Meets ⟨512, 24⟩ := ⟨520, by decide, by decide⟩
  have hall : (Allocation.mk 512 32).Meets ⟨512, 24⟩ := ⟨512, by decide, by decide⟩
  obtain ⟨hfree, hrelease, hresize⟩ := freed_space_stays_free hcall hoff
  exact ⟨hcall, hoff, hpart, hall, hfree 0 ⟨Nat.le_refl _, by decide⟩, hrelease 520 8 8 hpart,
    hresize 512 32 8 16 hall⟩

end Heap

end LinearHeap
