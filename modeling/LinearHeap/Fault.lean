import LinearHeap.Hexadecimal

/-!
# Faults

A fault is not an answer to a request but the end of one: an internal check that failed, or an
access outside a region or a buffer. Refusals, which callers are meant to handle, are `Refusal`
and `BoundaryRefusal`.
-/

set_option autoImplicit false
set_option relaxedAutoImplicit false

namespace LinearHeap

/-- What broke off an operation. -/
inductive Fault where
  /-- A request for no bytes was asked for its size class. -/
  | emptyRequest
  /-- A page was searched for no granules, or for more than it has. -/
  | granuleRun (granules : Nat)
  /-- The heap was searched for no pages. -/
  | emptyPageRun
  /-- A word was named that the bitmap does not have. -/
  | noWord (index : Nat)
  /-- Granules were to be marked that are not all free. -/
  | granulesInUse
  /-- A page was to be marked that is not free. -/
  | pageInUse (page : Nat)
  /-- An allocation would end after the region does. -/
  | overrun (offset size : Nat)
  /-- An offset too large to be handed across the boundary. -/
  | pastRegion (offset : Nat)
  /-- An element outside the region was to be read or written. -/
  | outsideRegion (offset width : Nat)
  /-- A part of a buffer was named that the buffer does not have. -/
  | outsideBuffer (start length : Nat)
  deriving DecidableEq, Repr

/-- The text of an internal check that failed. An access outside a region or a buffer has none. -/
def Fault.message : Fault → String
  | emptyRequest => "zero-sized requests have no size class"
  | granuleRun granules => "small run of " ++ toString granules ++ " granules"
  | emptyPageRun => "large run of zero pages"
  | noWord index => "bitmap word " ++ toString index ++ " out of range"
  | granulesInUse => "granule run already in use"
  | pageInUse page => "page " ++ toString page ++ " already in use"
  | overrun offset size =>
    "allocation " ++ hexadecimal offset ++ "+" ++ toString size ++ " overruns the heap"
  | pastRegion offset => "offset " ++ hexadecimal offset ++ " past the region"
  | outsideRegion _ _ | outsideBuffer _ _ => ""

end LinearHeap
