import LinearHeap.Heap

/-!
# The 32-bit boundary

Callers outside see offsets as unsigned and sizes and alignments as signed 32-bit numbers. A
negative argument is refused before the heap sees the request, and the first one in the order of
the arguments decides; every other request is the heap's, and its refusals are passed on and written
down. The two entry points have an older name each.
-/

set_option autoImplicit false
set_option relaxedAutoImplicit false

namespace LinearHeap.Boundary

/-- A size from outside, which must not be negative. -/
def naturalSize (size : Int32) : Except BoundaryRefusal Nat :=
  if size < 0 then .error (.negativeSize size) else .ok size.toInt.toNat

/-- An alignment from outside, which must not be negative. -/
def naturalAlign (align : Int32) : Except BoundaryRefusal Nat :=
  if align < 0 then .error (.negativeAlign align) else .ok align.toInt.toNat

/-- An offset for outside. No offset of a heap lies past the region. -/
def outerOffset (offset : Nat) : Except Fault UInt32 :=
  if offset ≤ Layout.capacity then .ok (UInt32.ofNat offset) else .error (.pastRegion offset)

/-- Gives back the old space, if there is any, and then asks for new space. -/
def realloc (heap : Heap) (oldOffset : UInt32) (oldSize align newSize : Int32) :
    Reply Heap BoundaryRefusal UInt32 :=
  let arguments : Except BoundaryRefusal (Nat × Nat × Nat) := do
    let oldSize ← naturalSize oldSize
    let newSize ← naturalSize newSize
    let align ← naturalAlign align
    return (oldSize, newSize, align)
  match arguments with
  | .error refusal => ⟨.refused refusal, heap, []⟩
  | .ok (oldSize, newSize, align) =>
    let reply := heap.resize oldOffset.toNat oldSize align newSize
    match reply.outcome with
    | .ok offset =>
      match outerOffset offset with
      | .ok offset => ⟨.ok offset, reply.state, reply.journal⟩
      | .error fault => ⟨.fault fault, reply.state, reply.journal⟩
    | .refused refusal =>
      ⟨.refused (.heap refusal), reply.state, reply.journal ++ [.reallocFailed (.heap refusal)]⟩
    | .fault cause => ⟨.fault cause, reply.state, reply.journal⟩

/-- Gives back space. -/
def free (heap : Heap) (offset : UInt32) (size align : Int32) : Reply Heap BoundaryRefusal Unit :=
  let arguments : Except BoundaryRefusal (Nat × Nat) := do
    let size ← naturalSize size
    let align ← naturalAlign align
    return (size, align)
  match arguments with
  | .error refusal => ⟨.refused refusal, heap, []⟩
  | .ok (size, align) =>
    let reply := heap.release offset.toNat size align
    match reply.outcome with
    | .ok () => ⟨.ok (), reply.state, reply.journal⟩
    | .refused refusal =>
      ⟨.refused (.heap refusal), reply.state, reply.journal ++ [.freeFailed (.heap refusal)]⟩
    | .fault cause => ⟨.fault cause, reply.state, reply.journal⟩

/-- Asks for space. -/
def malloc (heap : Heap) (size align : Int32) : Reply Heap BoundaryRefusal UInt32 :=
  realloc heap 0 0 align size

/-- The older name of `realloc`. -/
def canonicalRealloc (heap : Heap) (oldOffset : UInt32) (oldSize align newSize : Int32) :
    Reply Heap BoundaryRefusal UInt32 :=
  realloc heap oldOffset oldSize align newSize

/-- The older name of `free`. -/
def canonicalFree (heap : Heap) (offset : UInt32) (size align : Int32) :
    Reply Heap BoundaryRefusal Unit :=
  free heap offset size align

/-! ## Arguments and results -/

theorem naturalSize_of_nonneg {size : Int32} (h : ¬ size < 0) :
    naturalSize size = .ok size.toInt.toNat :=
  if_neg h

theorem naturalAlign_of_nonneg {align : Int32} (h : ¬ align < 0) :
    naturalAlign align = .ok align.toInt.toNat :=
  if_neg h

/-- An offset goes outside unchanged. -/
theorem toNat_of_outerOffset {offset : Nat} {result : UInt32}
    (h : outerOffset offset = .ok result) : result.toNat = offset := by
  unfold outerOffset at h
  split at h
  · next hle =>
    injection h with h
    subst h
    rw [Layout.capacity_eq] at hle
    rw [UInt32.toNat_ofNat']
    omega
  · cases h

end LinearHeap.Boundary
