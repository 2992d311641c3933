import Mathlib.Data.List.Pairwise
import Mathlib.Logic.ExistsUnique
import LinearHeap.Proofs.Calls

/-!
# The live set

The heap keeps no list of its allocations, only one bit per granule. A ledger keeps that list beside
the heap: a call that succeeds strikes out what it gives back and enters what it is granted. If the
calls that give back space name live allocations, by their offset and footprint, the bitmap and the
list say the same after every call (`Bitmap.Reflects`): the set bits are the granules of the live
allocations, no two of which share any.

One call keeps this (`Ledger.Balanced.step`), because a release clears exactly the window of the
allocation it names (`Bitmap.Reflects.givenBack`) and a grant fills a window that was free
(`Bitmap.Reflects.granted`). `Ledger.live_set_of_run` is the result for whole runs.
-/

set_option autoImplicit false
set_option relaxedAutoImplicit false

namespace LinearHeap

namespace Allocation

/-- Two allocations have the same offset and the same footprint. -/
def SameSpace (first second : Allocation) : Prop :=
  first.offset = second.offset ∧ first.footprint = second.footprint

instance (first second : Allocation) : Decidable (first.SameSpace second) :=
  inferInstanceAs (Decidable (_ ∧ _))

/-- The same space has the same window. -/
theorem SameSpace.window_eq {first second : Allocation} (h : first.SameSpace second) :
    first.window = second.window := by
  have hcount := h.2
  rw [footprint_eq, footprint_eq] at hcount
  have hfirst : first.window.first = second.window.first := by
    simp only [window, SizeClass.window, h.1]
  exact (Window.mk.injEq _ _ _ _).mpr ⟨hfirst, Nat.eq_of_mul_eq_mul_right (by decide) hcount⟩

instance : Std.Symm Apart := ⟨fun _ _ ↦ Apart.symm⟩

/-- A list of live allocations without those that take up the returned space. -/
def strike (live : List Allocation) : Option Allocation → List Allocation
  | none => live
  | some returned => live.filter fun allocation ↦ ¬ allocation.SameSpace returned

/-- A list of live allocations with the granted one. -/
def enter (live : List Allocation) : Option Allocation → List Allocation
  | none => live
  | some granted => granted :: live

/-- A list of live allocations has one at the returned space. -/
def Names (live : List Allocation) (returned : Allocation) : Prop :=
  ∃ allocation ∈ live, allocation.SameSpace returned

end Allocation

open Allocation

/-! ### What the bitmap says about the live set -/

/-- The set bits of a bitmap are the granules of some well-placed allocations that are apart. -/
structure Bitmap.Reflects (bitmap : Bitmap) (live : List Allocation) : Prop where
  placed : ∀ allocation ∈ live, allocation.Placed
  apart : live.Pairwise Apart
  isSet_iff : ∀ granule, bitmap.isSet granule = true ↔
    ∃ allocation ∈ live, granule ∈ allocation.window

namespace Bitmap.Reflects

variable {bitmap after : Bitmap} {live : List Allocation}

theorem empty : Bitmap.empty.Reflects [] where
  placed := fun _ h ↦ absurd h List.not_mem_nil
  apart := List.Pairwise.nil
  isSet_iff := fun granule ↦ by
    rw [isSet_empty]
    exact ⟨fun h ↦ Bool.noConfusion h, fun ⟨_, h, _⟩ ↦ absurd h List.not_mem_nil⟩

/-- A granule belongs to one live allocation at most. -/
theorem not_mem_window_of_ne (h : bitmap.Reflects live) {first second : Allocation}
    (hfirst : first ∈ live) (hsecond : second ∈ live) (hne : first ≠ second) {granule : Nat}
    (hmem : granule ∈ first.window) : granule ∉ second.window :=
  (h.apart.forall hfirst hsecond hne).not_mem_window (h.placed first hfirst)
    (h.placed second hsecond) hmem

/-- Giving back the space of a live allocation strikes that allocation out. -/
theorem givenBack (h : bitmap.Reflects live) {returned : Option Allocation}
    (hgiven : bitmap.GivenBack returned after)
    (hnames : ∀ allocation, returned = some allocation → Names live allocation) :
    after.Reflects (strike live returned) := by
  cases returned with
  | none =>
    rw [show after = bitmap from hgiven]
    exact h
  | some returned =>
    obtain ⟨_, hafter⟩ := hgiven
    obtain ⟨named, hnamed, hsame⟩ := hnames returned rfl
    have hwindow := hsame.window_eq
    have hmem : ∀ allocation, allocation ∈ strike live (some returned) ↔
        allocation ∈ live ∧ ¬ allocation.SameSpace returned := by
      intro allocation
      rw [strike, List.mem_filter, decide_eq_true_iff]
    refine ⟨fun allocation hallocation ↦ h.placed _ ((hmem allocation).mp hallocation).1,
      h.apart.filter _, fun granule ↦ ?_⟩
    rw [hafter, isSet_clear, Bool.and_eq_true, h.isSet_iff, Bool.not_eq_true',
      decide_eq_false_iff_not]
    constructor
    · rintro ⟨⟨allocation, hlive, hgranule⟩, houtside⟩
      refine ⟨allocation, (hmem allocation).mpr ⟨hlive, fun hsame' ↦ ?_⟩, hgranule⟩
      rw [hsame'.window_eq] at hgranule
      exact houtside hgranule
    · rintro ⟨allocation, hstruck, hgranule⟩
      obtain ⟨hlive, hdifferent⟩ := (hmem allocation).mp hstruck
      refine ⟨⟨allocation, hlive, hgranule⟩, ?_⟩
      rw [← hwindow]
      refine h.not_mem_window_of_ne hlive hnamed ?_ hgranule
      intro heq
      rw [heq] at hdifferent
      exact hdifferent hsame

/-- Handing out free space enters an allocation that is apart from all others. -/
theorem granted (h : bitmap.Reflects live) {granted : Option Allocation}
    (hgranted : bitmap.Granted granted after) : after.Reflects (enter live granted) := by
  cases granted with
  | none =>
    rw [show after = bitmap from hgranted]
    exact h
  | some granted =>
    obtain ⟨hfree, hplaced⟩ := hgranted.isFree_and_placed
    obtain ⟨_, _, hafter⟩ := hgranted
    have hnew : ∀ allocation ∈ live, granted.Apart allocation := by
      intro allocation hlive
      refine apart_of_forall_not_mem hplaced (h.placed allocation hlive) ?_
      intro granule hgranule hother
      have hset := (h.isSet_iff granule).mpr ⟨allocation, hlive, hother⟩
      rw [isFree_iff.mp hfree granule hgranule] at hset
      exact Bool.noConfusion hset
    refine ⟨?_, List.pairwise_cons.mpr ⟨hnew, h.apart⟩, fun granule ↦ ?_⟩
    · intro allocation hmem
      rcases List.mem_cons.mp hmem with rfl | hlive
      · exact hplaced
      · exact h.placed allocation hlive
    · rw [hafter, isSet_fill_of_inHeap _ hplaced.window_inHeap, Bool.or_eq_true, h.isSet_iff,
        decide_eq_true_iff]
      constructor
      · rintro (⟨allocation, hlive, hgranule⟩ | hgranule)
        · exact ⟨allocation, List.mem_cons_of_mem _ hlive, hgranule⟩
        · exact ⟨granted, List.mem_cons_self, hgranule⟩
      · rintro ⟨allocation, hmem, hgranule⟩
        rcases List.mem_cons.mp hmem with rfl | hlive
        · exact Or.inr hgranule
        · exact Or.inl ⟨allocation, hlive, hgranule⟩

end Bitmap.Reflects

/-- A heap without allocations grants its first three granules to a request for 24 bytes. -/
theorem Heap.perform_allocate_first (heap : Heap) (hbitmap : heap.bitmap = Bitmap.empty) :
    (heap.perform (.allocate 8 24)).outcome = .ok ⟨none, some ⟨512, 24⟩⟩ ∧
      (heap.perform (.allocate 8 24)).state.bitmap = Bitmap.empty.fill ⟨0, 3⟩ := by
  simp only [Heap.perform, Reply.map, Heap.outcome_allocate, Heap.state_allocate,
    Heap.bitmap_setBitmap, hbitmap]
  exact ⟨by decide +kernel, by decide +kernel⟩

/-! ### Runs -/

/-- A heap and the list of the allocations that are live in it. -/
structure Ledger where
  heap : Heap
  live : List Allocation

namespace Ledger

/-- One call: if it succeeds, what it gave back is struck out and what it was granted is entered,
and if it does not, the list stays as it is. -/
def step (ledger : Ledger) (call : Call) : Ledger :=
  ⟨(ledger.heap.perform call).state,
    match (ledger.heap.perform call).outcome with
    | .ok settlement => enter (strike ledger.live settlement.returned) settlement.granted
    | .refused _ | .fault _ => ledger.live⟩

/-- If the call succeeds and gives back some space, that is the space of a live allocation. -/
def Admits (ledger : Ledger) (call : Call) : Prop :=
  ∀ settlement, (ledger.heap.perform call).outcome = .ok settlement →
    ∀ returned, settlement.returned = some returned → Names ledger.live returned

/-- The bitmap and the list say the same. -/
def Balanced (ledger : Ledger) : Prop := ledger.heap.bitmap.Reflects ledger.live

/-- A heap that was just made and the empty list are balanced. -/
theorem Balanced.of_fresh {heap : Heap} (h : heap.Fresh) : (Ledger.mk heap []).Balanced := by
  rw [Balanced, h.bitmap_eq]
  exact Bitmap.Reflects.empty

/-- Serves a list of calls, the first one first. -/
def run (ledger : Ledger) (calls : List Call) : Ledger := calls.foldl step ledger

variable {ledger : Ledger} {call : Call} {settlement : Settlement}

theorem step_of_ok (ledger : Ledger) (h : (ledger.heap.perform call).outcome = .ok settlement) :
    ledger.step call = ⟨(ledger.heap.perform call).state,
      enter (strike ledger.live settlement.returned) settlement.granted⟩ := by
  rw [step, h]

theorem step_of_refused (ledger : Ledger) {refusal : Refusal}
    (h : (ledger.heap.perform call).outcome = .refused refusal) :
    ledger.step call = ⟨(ledger.heap.perform call).state, ledger.live⟩ := by
  rw [step, h]

theorem admits_of_ok (h : (ledger.heap.perform call).outcome = .ok settlement)
    (hnames : ∀ returned, settlement.returned = some returned → Names ledger.live returned) :
    ledger.Admits call := by
  intro other hother
  rw [h, Outcome.ok.injEq] at hother
  exact hother ▸ hnames

theorem admits_allocate {align size : Nat} : ledger.Admits (.allocate align size) := by
  intro settlement hok returned hreturned
  rw [Heap.returned_of_perform_allocate hok] at hreturned
  cases hreturned

/-- One call keeps the bitmap and the list together. Assumes: a call that gives back only the space
of a live allocation. -/
theorem Balanced.step (h : ledger.Balanced) (hadmits : ledger.Admits call) :
    (ledger.step call).Balanced := by
  rcases ledger.heap.perform_cases call with
    ⟨refusal, hrefused, hstate⟩ | ⟨settlement, middle, hok, hgiven, hgranted⟩
  · rw [ledger.step_of_refused hrefused, hstate]
    exact h
  · rw [ledger.step_of_ok hok]
    exact (Bitmap.Reflects.givenBack h hgiven (hadmits settlement hok)).granted hgranted

/-- A heap without allocations grants granules 0, 1 and 2 to a request for 24 bytes, and takes them
back under another size of the same footprint. -/
private theorem admitsAll_grant_release {heap : Heap} (hbitmap : heap.bitmap = Bitmap.empty) :
    AdmitsAll step Admits ⟨heap, []⟩ [.allocate 8 24, .release 512 20 8] ∧
      (run ⟨heap, []⟩ [.allocate 8 24]).live = [⟨512, 24⟩] := by
  obtain ⟨hgrant, hgranted⟩ := heap.perform_allocate_first hbitmap
  have hstep : step ⟨heap, []⟩ (.allocate 8 24) =
      ⟨(heap.perform (.allocate 8 24)).state, [⟨512, 24⟩]⟩ :=
    step_of_ok ⟨heap, []⟩ hgrant
  refine ⟨?_, congrArg live hstep⟩
  rw [AdmitsAll, AdmitsAll, hstep]
  refine ⟨admits_allocate, ?_, trivial⟩
  generalize (heap.perform (.allocate 8 24)).state = granted at hgranted
  have hrelease : (granted.perform (.release 512 20 8)).outcome = .ok ⟨some ⟨512, 20⟩, none⟩ := by
    simp only [Heap.perform, Reply.map, Heap.outcome_release, hgranted]
    decide +kernel
  refine admits_of_ok hrelease fun returned hreturned ↦ ?_
  rw [← Option.some.inj hreturned]
  exact ⟨⟨512, 24⟩, List.mem_cons_self, by decide⟩

/-- The live set of a run. After every call, a granule is allocated if and only if it lies in the
footprint of a live allocation, and then in that of exactly one; footprints have no byte in common,
and every live allocation is well placed: in the heap, on a granule, inside the page of one word if
it is small, and made of whole pages if it is large. Assumes: a heap that was just made, and a list
of calls of which each that succeeds in giving back some space names a live allocation of the same
offset and footprint. Calls that fail may have any arguments. -/
theorem live_set_of_run {start : Heap} (hfresh : start.Fresh) {calls : List Call}
    (hadmits : AdmitsAll step Admits ⟨start, []⟩ calls) {done : List Call}
    (hdone : done <+: calls) :
    let ledger := run ⟨start, []⟩ done
    (∀ granule, ledger.heap.isAllocated granule = true ↔
      ∃! allocation, allocation ∈ ledger.live ∧ allocation.Covers granule) ∧
    ledger.live.Pairwise Apart ∧ ∀ allocation ∈ ledger.live, allocation.Placed := by
  intro ledger
  have hbalanced : ledger.Balanced :=
    (hadmits.of_prefix hdone).invariant (fun _ _ ↦ Balanced.step) (.of_fresh hfresh)
  have h : ledger.heap.bitmap.Reflects ledger.live := hbalanced
  refine ⟨fun granule ↦ ?_, h.apart, h.placed⟩
  rw [Heap.isAllocated, h.isSet_iff]
  constructor
  · rintro ⟨allocation, hlive, hgranule⟩
    refine ⟨allocation, ⟨hlive, (covers_iff_mem_window (h.placed _ hlive)).mpr hgranule⟩, ?_⟩
    rintro other ⟨hother, hcovers⟩
    by_contra hne
    have hmem := (covers_iff_mem_window (h.placed other hother)).mp hcovers
    exact h.not_mem_window_of_ne hother hlive hne hmem hgranule
  · rintro ⟨allocation, ⟨hlive, hcovers⟩, _⟩
    exact ⟨allocation, hlive, (covers_iff_mem_window (h.placed _ hlive)).mp hcovers⟩

/-- A run of two calls: between them granules 0, 1 and 2 are live. -/
theorem live_set_of_run_two_calls :
    let ledger := run ⟨Heap.zeroed, []⟩ [.allocate 8 24]
    Heap.zeroed.Fresh ∧
      AdmitsAll step Admits ⟨Heap.zeroed, []⟩ [.allocate 8 24, .release 512 20 8] ∧
      [Call.allocate 8 24] <+: [.allocate 8 24, .release 512 20 8] ∧
      ledger.live = [⟨512, 24⟩] ∧
      (∀ granule, ledger.heap.isAllocated granule = true ↔
        ∃! allocation, allocation ∈ ledger.live ∧ allocation.Covers granule) ∧
      ledger.live.Pairwise Apart ∧ ∀ allocation ∈ ledger.live, allocation.Placed := by
  obtain ⟨hadmits, hlive⟩ := admitsAll_grant_release Heap.bitmap_zeroed
  have hprefix : [Call.allocate 8 24] <+: [.allocate 8 24, .release 512 20 8] :=
    List.prefix_append _ _
  exact ⟨Or.inl rfl, hadmits, hprefix, hlive, live_set_of_run (Or.inl rfl) hadmits hprefix⟩

end Ledger

end LinearHeap
