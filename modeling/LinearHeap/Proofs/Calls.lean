import LinearHeap.Proofs.Effects

/-!
# Calls

The three requests of a heap as one kind of call, so that a run is a list of them. The reply to a
call that succeeds is its settlement: the space that was given back and the space that was handed
out for it. `Heap.perform_answers` says that the reply to a call is an answer of the bitmap,
`Heap.perform_cases` what this means for the heap, and `Heap.perform_eq_setBitmap` that a call
touches the bitmap only.

A run is admitted when each of its events is at its time, and `AdmitsAll.invariant` is the induction
over such a run.
-/

set_option autoImplicit false
set_option relaxedAutoImplicit false

namespace LinearHeap

/-- A call of a client. -/
inductive Call where
  | allocate (align size : Nat)
  | resize (oldOffset oldSize align newSize : Nat)
  | release (offset size align : Nat)
  deriving DecidableEq, Repr

/-- What changes hands in a call that succeeds: space that is given back, and then space that is
handed out. -/
structure Settlement where
  returned : Option Allocation
  granted : Option Allocation
  deriving DecidableEq, Repr

section Map

variable {σ ε α β : Type}

/-- The same outcome, with another account of what was had. -/
def Outcome.map (f : α → β) : Outcome ε α → Outcome ε β
  | ok value => ok (f value)
  | refused refusal => refused refusal
  | fault cause => fault cause

/-- The same reply, with another account of what was had. -/
def Reply.map (f : α → β) (reply : Reply σ ε α) : Reply σ ε β :=
  ⟨reply.outcome.map f, reply.state, reply.journal⟩

theorem Outcome.map_eq_ok_iff {outcome : Outcome ε α} {f : α → β} {value : β} :
    outcome.map f = .ok value ↔ ∃ had, outcome = .ok had ∧ f had = value := by
  cases outcome with
  | ok had =>
    constructor
    · exact fun h ↦ ⟨had, rfl, Outcome.ok.inj h⟩
    · rintro ⟨_, hok, rfl⟩
      rw [Outcome.ok.inj hok]
      rfl
  | refused refusal => exact ⟨nofun, nofun⟩
  | fault cause => exact ⟨nofun, nofun⟩

/-- An answer stays one when its value is told in another way that names the same grant. -/
theorem Bitmap.Answers.map {bitmap : Bitmap} {returned : Option Allocation}
    {granted : α → Option Allocation} {told : β → Option Allocation}
    {reply : Reply Bitmap Refusal α} (h : bitmap.Answers returned granted reply) (f : α → β)
    (htold : ∀ value, granted value = told (f value)) :
    bitmap.Answers returned told (reply.map f) := by
  cases h with
  | unsupported align => exact .unsupported align
  | rejected hsize hchecks => exact .rejected hsize hchecks
  | exhausted size hgiven => exact .exhausted size hgiven
  | served value hgiven hgranted =>
    rw [htold] at hgranted ⊢
    exact .served (f value) hgiven hgranted

end Map

/-- The bytes that a call asks for. -/
def Call.requested : Call → Nat
  | allocate _ size => size
  | resize _ _ _ newSize => newSize
  | release _ _ _ => 0

/-- The bytes that a call gives back. -/
def Call.returned : Call → Nat
  | allocate _ _ => 0
  | resize _ oldSize _ _ => oldSize
  | release _ size _ => size

/-- Where the bytes are that a call gives back. -/
def Call.oldOffset : Call → Nat
  | allocate _ _ => 0
  | resize oldOffset _ _ _ => oldOffset
  | release offset _ _ => offset

namespace Heap

/-- Serves a call and tells what changed hands. A size of zero stands for no space. -/
def perform (heap : Heap) : Call → Reply Heap Refusal Settlement
  | .allocate align size =>
    (heap.allocate align size).map fun offset ↦ ⟨none, Allocation.named? offset size⟩
  | .resize oldOffset oldSize align newSize =>
    (heap.resize oldOffset oldSize align newSize).map fun offset ↦
      ⟨Allocation.named? oldOffset oldSize, Allocation.named? offset newSize⟩
  | .release offset size align =>
    (heap.release offset size align).map fun _ ↦ ⟨Allocation.named? offset size, none⟩

/-- A heap that was just made, over zeros or over a region that is large enough. -/
def Fresh (heap : Heap) : Prop := heap = zeroed ∨ ∃ region, ofRegion region = .ok heap

theorem Fresh.bitmap_eq {heap : Heap} (h : heap.Fresh) : heap.bitmap = Bitmap.empty := by
  rcases h with rfl | ⟨region, hregion⟩
  · exact bitmap_zeroed
  · exact bitmap_of_ofRegion hregion

/-- A call that succeeds gives back just the space that it names, and hands out as many bytes as it
asks for. -/
theorem settlement_of_perform {heap : Heap} {call : Call} {settlement : Settlement}
    (h : (heap.perform call).outcome = .ok settlement) :
    settlement.returned = Allocation.named? call.oldOffset call.returned ∧
      ∃ offset, settlement.granted = Allocation.named? offset call.requested := by
  cases call with
  | allocate align size =>
    obtain ⟨offset, _, rfl⟩ := Outcome.map_eq_ok_iff.mp h
    exact ⟨rfl, offset, rfl⟩
  | resize oldOffset oldSize align newSize =>
    obtain ⟨offset, _, rfl⟩ := Outcome.map_eq_ok_iff.mp h
    exact ⟨rfl, offset, rfl⟩
  | release offset size align =>
    obtain ⟨_, _, rfl⟩ := Outcome.map_eq_ok_iff.mp h
    exact ⟨rfl, 0, rfl⟩

/-- A call for space alone gives nothing back. -/
theorem returned_of_perform_allocate {heap : Heap} {align size : Nat} {settlement : Settlement}
    (h : (heap.perform (.allocate align size)).outcome = .ok settlement) :
    settlement.returned = none :=
  (settlement_of_perform h).1

/-- No call touches anything but the bitmap. -/
theorem perform_eq_setBitmap (heap : Heap) (call : Call) :
    (heap.perform call).state = heap.setBitmap (heap.perform call).state.bitmap := by
  have hlens : ∃ bitmap, (heap.perform call).state = heap.setBitmap bitmap := by
    cases call <;> exact ⟨_, rfl⟩
  obtain ⟨bitmap, hstate⟩ := hlens
  rw [hstate, bitmap_setBitmap]

/-- A call leaves the bytes of the heap proper alone. -/
theorem getElem?_perform (heap : Heap) (call : Call) {i : Nat} (h : Layout.heapStart ≤ i) :
    (heap.perform call).state.region.bytes[i]? = heap.region.bytes[i]? := by
  rw [perform_eq_setBitmap]
  exact heap.getElem?_setBitmap_of_le _ h

/-- A heap replies to a call with an answer of its bitmap. -/
theorem perform_answers (heap : Heap) (call : Call) :
    ∃ reply, heap.bitmap.Answers (Allocation.named? call.oldOffset call.returned)
        Settlement.granted reply ∧
      heap.perform call = reply.withState (heap.setBitmap reply.state) := by
  cases call with
  | allocate align size =>
    exact ⟨_, (heap.bitmap.resize_answers 0 0 align size).map
      (fun offset ↦ ⟨none, Allocation.named? offset size⟩) fun _ ↦ rfl, rfl⟩
  | resize oldOffset oldSize align newSize =>
    exact ⟨_, (heap.bitmap.resize_answers oldOffset oldSize align newSize).map
      (fun offset ↦ ⟨Allocation.named? oldOffset oldSize, Allocation.named? offset newSize⟩)
      fun _ ↦ rfl, rfl⟩
  | release offset size align =>
    exact ⟨_, (heap.bitmap.release_answers offset size align).map
      (fun _ ↦ ⟨Allocation.named? offset size, none⟩) fun _ ↦ rfl, rfl⟩

/-- A call that succeeds gives back what its settlement says and is then granted what it says, and
any other call is refused and changes nothing. -/
theorem perform_cases (heap : Heap) (call : Call) :
    (∃ refusal, (heap.perform call).outcome = .refused refusal ∧
      (heap.perform call).state = heap) ∨
    ∃ settlement middle, (heap.perform call).outcome = .ok settlement ∧
      heap.bitmap.GivenBack settlement.returned middle ∧
        middle.Granted settlement.granted (heap.perform call).state.bitmap := by
  have hsettled := @settlement_of_perform heap call
  obtain ⟨reply, hanswers, hperform⟩ := heap.perform_answers call
  rw [hperform] at hsettled ⊢
  cases hanswers with
  | unsupported | rejected | exhausted => exact Or.inl ⟨_, rfl, heap.setBitmap_bitmap⟩
  | @served middle _ settlement hgiven hgranted =>
    refine Or.inr ⟨settlement, middle, rfl, ?_, ?_⟩
    · rw [(hsettled rfl).1]
      exact hgiven
    · rw [Reply.state_withState, bitmap_setBitmap]
      exact hgranted

end Heap

/-! ### Runs -/

section Runs

variable {State Event : Type} {step : State → Event → State} {Admits : State → Event → Prop}
  {state : State} {events : List Event}

/-- Every event of a list is admitted in the state that the ones before it lead to. -/
def AdmitsAll (step : State → Event → State) (Admits : State → Event → Prop) :
    State → List Event → Prop
  | _, [] => True
  | state, event :: rest => Admits state event ∧ AdmitsAll step Admits (step state event) rest

/-- The condition on a run is one on all of its first parts. -/
theorem AdmitsAll.of_prefix {done : List Event} (h : done <+: events)
    (hadmits : AdmitsAll step Admits state events) : AdmitsAll step Admits state done := by
  obtain ⟨rest, rfl⟩ := h
  induction done generalizing state with
  | nil => exact trivial
  | cons event done ih => exact ⟨hadmits.1, ih hadmits.2⟩

/-- What every admitted event keeps, an admitted run keeps. -/
theorem AdmitsAll.invariant {Invariant : State → Prop}
    (hstep : ∀ state event, Invariant state → Admits state event → Invariant (step state event))
    (hadmits : AdmitsAll step Admits state events) (h : Invariant state) :
    Invariant (events.foldl step state) := by
  induction events generalizing state with
  | nil => exact h
  | cons event rest ih => exact ih hadmits.2 (hstep state event h hadmits.1)

end Runs

end LinearHeap
