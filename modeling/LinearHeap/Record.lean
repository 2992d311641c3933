import LinearHeap.BoundaryRefusal
import LinearHeap.SizeClass

/-!
# Records of the journal

Every grant, every release, every request that failed for want of space and every rejected release
leaves a record, and so does every refusal of the heap that crosses the boundary. A request that
fails for want of space after its old space was released leaves two: the release, and then the
failure, which takes the release back.
-/

set_option autoImplicit false
set_option relaxedAutoImplicit false

namespace LinearHeap

/-- One record of the journal. -/
inductive Record where
  /-- So many bytes were set aside at an offset. -/
  | allocated (size offset : Nat) (sizeClass : SizeClass)
  /-- So many bytes at an offset were given back. -/
  | released (size offset : Nat)
  /-- A release was refused. -/
  | rejected (refusal : Refusal)
  /-- A request for so many bytes found no room, with so many granules free. -/
  | exhausted (size free : Nat)
  /-- A request for space failed at the boundary. -/
  | reallocFailed (refusal : BoundaryRefusal)
  /-- A release failed at the boundary. -/
  | freeFailed (refusal : BoundaryRefusal)
  deriving DecidableEq, Repr

/-- How much attention a record asks for. -/
inductive Level where
  | debug
  | trace
  deriving DecidableEq, Repr

/-- The layer that a record comes from. -/
inductive Origin where
  | heap
  | boundary
  deriving DecidableEq, Repr

def Level.text : Level → String
  | debug => "DEBUG"
  | trace => "TRACE"

namespace Record

/-- Changes of the heap are traced; refusals are there for debugging. -/
def level : Record → Level
  | allocated _ _ _ | released _ _ => .trace
  | rejected _ | exhausted _ _ | reallocFailed _ | freeFailed _ => .debug

def origin : Record → Origin
  | allocated _ _ _ | released _ _ | rejected _ | exhausted _ _ => .heap
  | reallocFailed _ | freeFailed _ => .boundary

/-- The text of a record. -/
def message : Record → String
  | allocated size offset sizeClass =>
    "allocated " ++ toString size ++ " bytes at " ++ hexadecimal offset ++
      " (" ++ sizeClass.text ++ ")"
  | released size offset =>
    "released " ++ toString size ++ " bytes at " ++ hexadecimal offset
  | rejected refusal => "rejected release: " ++ refusal.message
  | exhausted size free =>
    "out of memory: " ++ toString size ++ " bytes requested, " ++ toString free ++ " granules free"
  | reallocFailed refusal => "cabi_realloc failed: " ++ refusal.message
  | freeFailed refusal => "cabi_free failed: " ++ refusal.message

end Record

end LinearHeap
