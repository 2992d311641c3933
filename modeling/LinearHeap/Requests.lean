import LinearHeap.Alignment
import LinearHeap.FirstFit
import LinearHeap.Reply

/-!
# Requests

What a heap does with a request depends on its bitmap alone. A request for space is placed by first
fit, a release must cover granules that are all allocated, and a resize is a release followed by a
request for space that puts the old space back if the new one cannot be had.

Callers name an allocation by its offset and size only. The checks of a release come in a fixed
order: the range lies in the heap, it starts on a unit of its size class, its granules are all
allocated.

Internal checks that no request should fail are faults, so that their absence can be stated:
`grant_eq` does for the search and the marking of what it finds, and `putBack_clear` for the way
back, which leaves the bitmap as it was before the release.
-/

set_option autoImplicit false
set_option relaxedAutoImplicit false

namespace LinearHeap

/-- Space that was found for a request: where it is, and the bitmap with it marked. -/
structure Grant where
  offset : Nat
  sizeClass : SizeClass
  bitmap : Bitmap
  deriving DecidableEq, Repr

namespace Bitmap

/-! ## Taking and giving back windows -/

/-- Marks a window, which has to be free. -/
def reserve (bitmap : Bitmap) (window : Window) : Except Fault Bitmap :=
  if window.InHeap then
    if bitmap.isFree window then .ok (bitmap.fill window) else .error .granulesInUse
  else .error (.noWord (max (window.first / Layout.granulesPerPage) Layout.bitmapWords))

/-- Finds and marks space for a positive number of bytes, if there is any. -/
def grant (bitmap : Bitmap) (size : Nat) : Except Fault (Option Grant) := do
  let sizeClass ← SizeClass.ofRequest size
  if sizeClass.Searchable then
    match bitmap.firstFit? sizeClass with
    | none => return none
    | some first =>
      let marked ← bitmap.reserve (sizeClass.window first)
      let offset := Layout.granuleOffset first
      if offset + size ≤ Layout.capacity then return some ⟨offset, sizeClass, marked⟩
      else throw (.overrun offset size)
  else throw sizeClass.runFault

/-- The window that a release of a positive number of bytes at an offset gives back. -/
def releasable (bitmap : Bitmap) (offset size : Nat) : Outcome Refusal Window :=
  if offset < Layout.heapStart ∨ Layout.capacity < offset + size then
    .refused (.outOfBounds offset size)
  else
    match SizeClass.ofRequest size with
    | .error fault => .fault fault
    | .ok sizeClass =>
      let relative := offset - Layout.heapStart
      let window := sizeClass.window (relative / Layout.granuleBytes)
      if relative % sizeClass.unit ≠ 0 then .refused (.misaligned offset sizeClass.unit)
      else if Layout.heapGranules ≤ window.first then
        .fault (.noWord (window.first / Layout.granulesPerPage))
      else if sizeClass.Admits window ∧ bitmap.isFull window then .ok window
      else .refused (.notAllocated offset size)

/-! ## Requests -/

/-- Gives back a positive number of bytes at an offset and writes down how that went. -/
def giveBack (bitmap : Bitmap) (offset size : Nat) : Reply Bitmap Refusal Window :=
  match bitmap.releasable offset size with
  | .ok window => ⟨.ok window, bitmap.clear window, [.released size offset]⟩
  | .refused refusal => ⟨.refused refusal, bitmap, [.rejected refusal]⟩
  | .fault cause => ⟨.fault cause, bitmap, []⟩

/-- Marks again the window that was given back, if one was. -/
def putBack (bitmap : Bitmap) : Option Window → Except Fault Bitmap
  | none => .ok bitmap
  | some window => bitmap.reserve window

/-- Serves a request for space, of which a window may just have been given back. A request for no
bytes is answered by the end of the region; one without room puts the window back. -/
def place (bitmap : Bitmap) (align : Alignment) (size : Nat) (released : Option Window) :
    Reply Bitmap Refusal Nat :=
  if size = 0 then ⟨.ok align.sentinel, bitmap, []⟩
  else
    match bitmap.grant size with
    | .ok (some grant) =>
      ⟨.ok grant.offset, grant.bitmap, [.allocated size grant.offset grant.sizeClass]⟩
    | .ok none =>
      match bitmap.putBack released with
      | .ok restored =>
        ⟨.refused (.outOfMemory size), restored, [.exhausted size restored.free]⟩
      | .error fault => ⟨.fault fault, bitmap, []⟩
    | .error fault => ⟨.fault fault, bitmap, []⟩

/-- Gives back the old space, if there is any, and then asks for new space. On a refusal the bitmap
is the old one. Contents do not move. -/
def resize (bitmap : Bitmap) (oldOffset oldSize align newSize : Nat) :
    Reply Bitmap Refusal Nat :=
  match Alignment.ofNat? align with
  | none => ⟨.refused (.unsupportedAlign align), bitmap, []⟩
  | some alignment =>
    if oldSize = 0 then bitmap.place alignment newSize none
    else
      let released := bitmap.giveBack oldOffset oldSize
      match released.outcome with
      | .ok window =>
        (released.state.place alignment newSize (some window)).after released.journal
      | .refused refusal => ⟨.refused refusal, released.state, released.journal⟩
      | .fault cause => ⟨.fault cause, released.state, released.journal⟩

/-- Asks for space. -/
def allocate (bitmap : Bitmap) (align size : Nat) : Reply Bitmap Refusal Nat :=
  bitmap.resize 0 0 align size

/-- Gives back space. Giving back no bytes is always right and changes nothing. -/
def release (bitmap : Bitmap) (offset size align : Nat) : Reply Bitmap Refusal Unit :=
  match Alignment.ofNat? align with
  | none => ⟨.refused (.unsupportedAlign align), bitmap, []⟩
  | some _ =>
    if size = 0 then ⟨.ok (), bitmap, []⟩
    else
      let released := bitmap.giveBack offset size
      match released.outcome with
      | .ok _ => ⟨.ok (), released.state, released.journal⟩
      | .refused refusal => ⟨.refused refusal, released.state, released.journal⟩
      | .fault cause => ⟨.fault cause, released.state, released.journal⟩

/-- Asks for the same space again and again, at most so many times and until a request fails: the
offsets that were had, and how it ended. -/
def allocateMany (bitmap : Bitmap) (align size : Nat) :
    (times : Nat) → List Nat × Reply Bitmap Refusal Unit
  | 0 => ([], ⟨.ok (), bitmap, []⟩)
  | times + 1 =>
    let reply := bitmap.allocate align size
    match reply.outcome with
    | .ok offset =>
      let (offsets, rest) := reply.state.allocateMany align size times
      (offset :: offsets, rest.after reply.journal)
    | .refused refusal => ([], ⟨.refused refusal, reply.state, reply.journal⟩)
    | .fault cause => ([], ⟨.fault cause, reply.state, reply.journal⟩)

/-! ## What a request is given -/

theorem reserve_of_isFree {bitmap : Bitmap} {window : Window} (hheap : window.InHeap)
    (hfree : bitmap.isFree window = true) : bitmap.reserve window = .ok (bitmap.fill window) := by
  rw [reserve, if_pos hheap, if_pos hfree]

theorem HasRoom.inHeap {bitmap : Bitmap} {sizeClass : SizeClass} {first : Nat}
    (h : bitmap.HasRoom sizeClass first) : (sizeClass.window first).InHeap :=
  h.2.2.1.inHeap h.1

/-- Space that fits into the heap ends inside the region. -/
theorem HasRoom.offset_add_le {bitmap : Bitmap} {size first : Nat}
    (h : bitmap.HasRoom (.ofSize size) first) :
    Layout.granuleOffset first + size ≤ Layout.capacity := by
  have hheap := h.inHeap
  have hsize := SizeClass.le_footprint_ofSize size
  rw [SizeClass.footprint_eq] at hsize
  simp only [Window.InHeap, Window.stop, SizeClass.window, Layout.heapGranules_eq,
    Layout.granuleBytes] at *
  rw [Layout.granuleOffset_eq, Layout.capacity_eq]
  omega

/-- None of the checks on the way from a search to its grant fails: what is found is marked. -/
theorem grant_eq (bitmap : Bitmap) {size : Nat} (h : 0 < size) :
    bitmap.grant size =
      .ok ((bitmap.firstFit? (.ofSize size)).map fun first ↦
        ⟨Layout.granuleOffset first, .ofSize size,
          bitmap.fill ((SizeClass.ofSize size).window first)⟩) := by
  have hsearchable := SizeClass.searchable_ofSize h
  rw [grant, SizeClass.ofRequest_of_pos h]
  change (if (SizeClass.ofSize size).Searchable then _ else _) = _
  rw [if_pos hsearchable]
  cases hfound : bitmap.firstFit? (.ofSize size) with
  | none => rfl
  | some first =>
    have hroom := ((firstFit?_eq_some_iff hsearchable).mp hfound).1
    dsimp only
    rw [reserve_of_isFree hroom.inHeap hroom.2.2.2]
    change (if Layout.granuleOffset first + size ≤ Layout.capacity then _ else _) = _
    rw [if_pos hroom.offset_add_le]
    rfl

/-! ## What a release needs -/

/-- Only a window of the heap that is allocated throughout can be given back. -/
theorem isFull_of_releasable {bitmap : Bitmap} {offset size : Nat} {window : Window}
    (h : bitmap.releasable offset size = .ok window) :
    window.InHeap ∧ bitmap.isFull window = true := by
  unfold releasable at h
  split at h
  · cases h
  · split at h
    · cases h
    · dsimp only at h
      split at h
      · cases h
      · split at h
        · cases h
        · next hfirst =>
          split at h
          · next hcovered =>
            injection h with hwindow
            subst hwindow
            exact ⟨hcovered.1.inHeap (Nat.lt_of_not_le hfirst), hcovered.2⟩
          · cases h

/-- What was given back can be marked again, and then nothing has changed. -/
theorem putBack_clear {bitmap : Bitmap} {offset size : Nat} {window : Window}
    (h : bitmap.releasable offset size = .ok window) :
    (bitmap.clear window).putBack (some window) = .ok bitmap := by
  obtain ⟨hheap, hfull⟩ := isFull_of_releasable h
  rw [putBack, reserve_of_isFree hheap (bitmap.isFree_clear window), fill_clear hheap hfull]

end Bitmap

end LinearHeap
