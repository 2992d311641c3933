import LinearHeap.Refusal

/-!
# Refusals at the boundary

Sizes and alignments cross the boundary as signed numbers. A negative one is refused there; every
other refusal is the heap's.
-/

set_option autoImplicit false
set_option relaxedAutoImplicit false

namespace LinearHeap

/-- Why the boundary refused a request. -/
inductive BoundaryRefusal where
  | negativeSize (size : Int32)
  | negativeAlign (align : Int32)
  | heap (cause : Refusal)
  deriving DecidableEq, Repr

namespace BoundaryRefusal

def kind : BoundaryRefusal → RefusalKind
  | negativeSize _ | negativeAlign _ => .invalidArgument
  | heap cause => cause.kind

/-- The text of a refusal. -/
def message : BoundaryRefusal → String
  | negativeSize size => "negative size " ++ toString size.toInt
  | negativeAlign align => "negative alignment " ++ toString align.toInt
  | heap cause => "heap operation failed: " ++ cause.message

/-- The refusal of the heap behind one of the boundary, if there is one. -/
def cause? : BoundaryRefusal → Option Refusal
  | negativeSize _ | negativeAlign _ => none
  | heap cause => some cause

end BoundaryRefusal

end LinearHeap
