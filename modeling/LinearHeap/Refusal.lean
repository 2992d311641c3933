import LinearHeap.Hexadecimal
import LinearHeap.Layout

/-!
# Refusals of the heap

Each refusal carries what its text shows. Callers who only tell bad arguments from exhaustion look
at its kind.
-/

set_option autoImplicit false
set_option relaxedAutoImplicit false

namespace LinearHeap

/-- The two ways in which a request can fail. -/
inductive RefusalKind where
  | invalidArgument
  | outOfMemory
  deriving DecidableEq, Repr

namespace RefusalKind

/-- The kind in words. -/
def text : RefusalKind → String
  | invalidArgument => "invalid argument"
  | outOfMemory => "out of memory"

/-- The kind as one name. -/
def name : RefusalKind → String
  | invalidArgument => "InvalidArgument"
  | outOfMemory => "OutOfMemory"

end RefusalKind

/-- Why the heap refused a request. -/
inductive Refusal where
  /-- The alignment is not 1, 2, 4 or 8. -/
  | unsupportedAlign (align : Nat)
  /-- The range to release does not lie inside the heap. -/
  | outOfBounds (offset size : Nat)
  /-- The range to release does not start on the unit of its size class. -/
  | misaligned (offset unit : Nat)
  /-- The range to release is not marked as allocated throughout. -/
  | notAllocated (offset size : Nat)
  /-- No free run is long enough. -/
  | outOfMemory (size : Nat)
  /-- A region is too small to be managed. -/
  | regionTooSmall (length : Nat)
  deriving DecidableEq, Repr

namespace Refusal

def kind : Refusal → RefusalKind
  | outOfMemory _ => .outOfMemory
  | unsupportedAlign _ | outOfBounds _ _ | misaligned _ _ | notAllocated _ _ | regionTooSmall _ =>
    .invalidArgument

/-- The text of a refusal. -/
def message : Refusal → String
  | unsupportedAlign align =>
    "unsupported alignment " ++ toString align ++ ", expected 1, 2, 4 or 8"
  | outOfBounds offset size =>
    "range " ++ hexadecimal offset ++ "+" ++ toString size ++ " lies outside the heap region"
  | misaligned offset unit =>
    "offset " ++ hexadecimal offset ++ " is not on a " ++ toString unit ++ "-byte boundary"
  | notAllocated offset size =>
    "no live " ++ toString size ++ "-byte allocation at offset " ++ hexadecimal offset
  | outOfMemory size => "no free run large enough for " ++ toString size ++ " bytes"
  | regionTooSmall length =>
    "linear memory holds " ++ toString length ++ " bytes, at least " ++ toString Layout.capacity ++
      " required"

theorem kind_eq_outOfMemory_iff {refusal : Refusal} :
    refusal.kind = .outOfMemory ↔ ∃ size, refusal = .outOfMemory size := by
  cases refusal <;> simp [kind]

end Refusal

end LinearHeap
