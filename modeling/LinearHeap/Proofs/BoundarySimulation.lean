import LinearHeap.Proofs.Effects

/-!
# The boundary does what the heap does

An entry point of the boundary refuses the first negative argument, in a fixed order, and leaves the
heap alone. In every other case it hands the reply of the heap on (`Boundary.HandsOn`) and so
answers as the heap does (`Boundary.AnswersAs`): the heap after it is the same, a refusal of the
heap is handed on as it is, and an offset crosses the boundary without loss. It never breaks off,
because the offsets of a heap, and the one that stands for no bytes, end with the region
(`Bitmap.resize_offset`), and so fit into 32 bits.

`Boundary.entry_points_answer_as_heap` says this of all five entry points.
-/

set_option autoImplicit false
set_option relaxedAutoImplicit false

namespace LinearHeap

/-- A request for no bytes is answered by the end of the region, and any other one by space inside
the heap that starts on a granule. -/
theorem Bitmap.resize_offset {bitmap : Bitmap} {oldOffset oldSize align newSize offset : Nat}
    (h : (bitmap.resize oldOffset oldSize align newSize).outcome = .ok offset) :
    if newSize = 0 then offset = Layout.capacity
    else Layout.granuleBytes ∣ offset ∧ Layout.heapStart ≤ offset ∧
      offset + newSize ≤ Layout.capacity := by
  split
  · next hzero =>
    subst hzero
    unfold resize at h
    dsimp only at h
    split at h
    · cases h
    · split at h
      · rw [place_zero, Outcome.ok.injEq] at h
        exact h.symm
      · split at h
        · rw [Reply.outcome_after, place_zero, Outcome.ok.injEq] at h
          exact h.symm
        · cases h
        · cases h
  · next hpos =>
    rcases bitmap.resize_cases oldOffset oldSize align newSize with
      ⟨refusal, hrefused, _⟩ | ⟨found, middle, hok, _, hgranted⟩
    · rw [hrefused] at h
      cases h
    · rw [hok, Outcome.ok.injEq] at h
      rw [Allocation.named?_of_pos (Nat.pos_of_ne_zero hpos), h] at hgranted
      have hplaced := hgranted.isFree_and_placed.2
      have hsize := Allocation.size_le_footprint ⟨offset, newSize⟩
      exact ⟨hplaced.granuleBytes_dvd, hplaced.heapStart_le,
        Nat.le_trans (Nat.add_le_add_left hsize offset) hplaced.le_capacity⟩

namespace Boundary

variable {α β : Type}

/-- A signed argument of an entry point. -/
inductive Argument where
  | size (value : Int32)
  | align (value : Int32)
  deriving DecidableEq, Repr

/-- The refusal of an argument that is negative. -/
def Argument.refusal? : Argument → Option BoundaryRefusal
  | size value => if value < 0 then some (.negativeSize value) else none
  | align value => if value < 0 then some (.negativeAlign value) else none

/-- The signed number of an argument. -/
def Argument.value : Argument → Int32
  | size value | align value => value

/-- The number that an argument that is not negative stands for. -/
def natural (value : Int32) : Nat := value.toInt.toNat

/-- The refusal of the first of some arguments that is negative. -/
def firstRefusal? (arguments : List Argument) : Option BoundaryRefusal :=
  arguments.findSome? Argument.refusal?

/-- A reply of the boundary says what one of the heap says: both are served with the same value, or
both are refused, the one because the other is, and the heap after them is the same. -/
structure Mirrors (outer : Reply Heap BoundaryRefusal α) (inner : Reply Heap Refusal β)
    (value : α → β) : Prop where
  state_eq : outer.state = inner.state
  outcome : (∃ result, outer.outcome = .ok result ∧ inner.outcome = .ok (value result)) ∨
    ∃ refusal, outer.outcome = .refused (.heap refusal) ∧ inner.outcome = .refused refusal

/-- A reply of the boundary hands one of the heap on. The heap after it is the same, a value is told
in another way, and a refusal is told as the heap's and written down after what the heap has
written. -/
inductive HandsOn (inner : Reply Heap Refusal β) (value : α → β)
    (failed : BoundaryRefusal → Record) : Reply Heap BoundaryRefusal α → Prop
  | ok (result : α) (h : inner.outcome = .ok (value result)) :
    HandsOn inner value failed ⟨.ok result, inner.state, inner.journal⟩
  | refused (refusal : Refusal) (h : inner.outcome = .refused refusal) :
    HandsOn inner value failed
      ⟨.refused (.heap refusal), inner.state, inner.journal ++ [failed (.heap refusal)]⟩

/-- An entry point with these arguments, in the order in which they are looked at, answers as the
heap does: it never breaks off, a negative argument is refused and the heap left alone, the first
one before all others, and in any other case its reply mirrors that of the heap. -/
structure AnswersAs (heap : Heap) (arguments : List Argument) (inner : Reply Heap Refusal β)
    (value : α → β) (outer : Reply Heap BoundaryRefusal α) : Prop where
  ne_fault : ∀ cause, outer.outcome ≠ .fault cause
  of_negative : ∀ refusal, firstRefusal? arguments = some refusal →
    outer = ⟨.refused refusal, heap, []⟩
  of_nonneg : firstRefusal? arguments = none → Mirrors outer inner value

/-- The offset that answers a request for some bytes: the end of the region if and only if these are
none, and a granule of the heap from which on they fit otherwise. -/
def OffsetFits (newSize : Int32) (outer : Reply Heap BoundaryRefusal UInt32) : Prop :=
  ∀ result, outer.outcome = .ok result →
    (result.toNat = Layout.capacity ↔ newSize = 0) ∧
      (newSize ≠ 0 → Layout.granuleBytes ∣ result.toNat ∧ Layout.heapStart ≤ result.toNat ∧
        result.toNat + natural newSize ≤ Layout.capacity)

/-- An entry point gives back old space and asks for new space as the heap does. -/
def ServesResize (heap : Heap)
    (entry : UInt32 → Int32 → Int32 → Int32 → Reply Heap BoundaryRefusal UInt32) : Prop :=
  ∀ oldOffset oldSize align newSize,
    AnswersAs heap [.size oldSize, .size newSize, .align align]
      (heap.resize oldOffset.toNat (natural oldSize) (natural align) (natural newSize))
      UInt32.toNat (entry oldOffset oldSize align newSize) ∧
    OffsetFits newSize (entry oldOffset oldSize align newSize)

/-- An entry point gives back space as the heap does. -/
def ServesRelease (heap : Heap)
    (entry : UInt32 → Int32 → Int32 → Reply Heap BoundaryRefusal Unit) : Prop :=
  ∀ offset size align,
    AnswersAs heap [.size size, .align align]
      (heap.release offset.toNat (natural size) (natural align)) id (entry offset size align)

/-- An entry point asks for space as the heap does. -/
def ServesAllocate (heap : Heap)
    (entry : Int32 → Int32 → Reply Heap BoundaryRefusal UInt32) : Prop :=
  ∀ size align,
    AnswersAs heap [.size size, .align align] (heap.allocate (natural align) (natural size))
      UInt32.toNat (entry size align) ∧
    OffsetFits size (entry size align)

/-! ### Arguments -/

section Argument

variable {argument : Argument} {arguments : List Argument} {refusal : BoundaryRefusal}

theorem firstRefusal?_cons_of_some (h : argument.refusal? = some refusal) :
    firstRefusal? (argument :: arguments) = some refusal := by
  rw [firstRefusal?, List.findSome?_cons, h]

theorem firstRefusal?_cons_of_none (h : argument.refusal? = none) :
    firstRefusal? (argument :: arguments) = firstRefusal? arguments := by
  rw [firstRefusal?, List.findSome?_cons, h, firstRefusal?]

theorem Argument.refusal?_eq_none_iff : argument.refusal? = none ↔ ¬ argument.value < 0 := by
  cases argument <;> simp only [refusal?, value, ite_eq_right_iff, reduceCtorEq, imp_false]

/-- No argument is refused just when none is negative. -/
theorem firstRefusal?_eq_none_iff :
    firstRefusal? arguments = none ↔ ∀ argument ∈ arguments, ¬ argument.value < 0 := by
  simp only [firstRefusal?, List.findSome?_eq_none_iff, Argument.refusal?_eq_none_iff]

end Argument

/-! ### Replies -/

section Reply

variable {heap : Heap} {arguments : List Argument} {inner : Reply Heap Refusal β} {value : α → β}
  {outer : Reply Heap BoundaryRefusal α} {refusal : BoundaryRefusal}

theorem HandsOn.mirrors {failed : BoundaryRefusal → Record}
    (h : HandsOn inner value failed outer) : Mirrors outer inner value := by
  cases h with
  | ok result hinner => exact ⟨rfl, Or.inl ⟨result, rfl, hinner⟩⟩
  | refused refusal hinner => exact ⟨rfl, Or.inr ⟨refusal, rfl, hinner⟩⟩

theorem Mirrors.ne_fault (h : Mirrors outer inner value) (cause : Fault) :
    outer.outcome ≠ .fault cause := by
  rcases h.outcome with ⟨result, hok, _⟩ | ⟨refusal, hrefused, _⟩
  · rw [hok]
    exact nofun
  · rw [hrefused]
    exact nofun

theorem AnswersAs.of_firstRefusal? (hfirst : firstRefusal? arguments = some refusal)
    (h : outer = ⟨.refused refusal, heap, []⟩) : AnswersAs heap arguments inner value outer where
  ne_fault := fun _ ↦ by
    rw [h]
    exact nofun
  of_negative := fun other hother ↦ by
    rw [hfirst, Option.some.injEq] at hother
    rw [← hother, h]
  of_nonneg := fun hnone ↦ by
    rw [hfirst] at hnone
    cases hnone

theorem AnswersAs.of_mirrors (hfirst : firstRefusal? arguments = none)
    (h : Mirrors outer inner value) : AnswersAs heap arguments inner value outer where
  ne_fault := h.ne_fault
  of_negative := fun refusal hrefusal ↦ by
    rw [hfirst] at hrefusal
    cases hrefusal
  of_nonneg := fun _ ↦ h

/-- An offset that ends with the region or before crosses the boundary as it is. -/
theorem exists_outerOffset {offset : Nat} (h : offset ≤ Layout.capacity) :
    ∃ result, outerOffset offset = .ok result ∧ result.toNat = offset :=
  ⟨_, if_pos h, toNat_of_outerOffset (if_pos h)⟩

end Reply

/-! ### Entry points -/

section Entry

variable {heap : Heap} {oldSize align newSize size : Int32}

/-- No offset of a heap lies past the region. -/
theorem offset_le_capacity {oldOffset oldSize align newSize offset : Nat}
    (h : (heap.resize oldOffset oldSize align newSize).outcome = .ok offset) :
    offset ≤ Layout.capacity := by
  have hoffset := Bitmap.resize_offset h
  split at hoffset
  · exact Nat.le_of_eq hoffset
  · exact Nat.le_trans (Nat.le_add_right _ _) hoffset.2.2

/-- A request for space whose arguments are not negative is the heap's. -/
theorem realloc_handsOn (heap : Heap) (oldOffset : UInt32)
    (hfirst : firstRefusal? [.size oldSize, .size newSize, .align align] = none) :
    HandsOn (heap.resize oldOffset.toNat (natural oldSize) (natural align) (natural newSize))
      UInt32.toNat .reallocFailed (realloc heap oldOffset oldSize align newSize) := by
  have hnonneg := firstRefusal?_eq_none_iff.mp hfirst
  simp only [List.forall_mem_cons, Argument.value] at hnonneg
  obtain ⟨hold, hnew, halign, _⟩ := hnonneg
  have holdArgument : naturalSize oldSize = .ok (natural oldSize) := naturalSize_of_nonneg hold
  have hnewArgument : naturalSize newSize = .ok (natural newSize) := naturalSize_of_nonneg hnew
  have halignArgument : naturalAlign align = .ok (natural align) := naturalAlign_of_nonneg halign
  rw [realloc, holdArgument, hnewArgument, halignArgument]
  dsimp only [bind, Except.bind, pure, Except.pure]
  rcases heap.bitmap.resize_cases oldOffset.toNat (natural oldSize) (natural align)
      (natural newSize) with ⟨refusal, hinner, _⟩ | ⟨offset, _, hinner, _⟩
  · rw [← Heap.outcome_resize] at hinner
    rw [hinner]
    exact .refused refusal hinner
  · rw [← Heap.outcome_resize] at hinner
    obtain ⟨result, houter, hresult⟩ := exists_outerOffset (offset_le_capacity hinner)
    rw [hinner]
    dsimp only
    rw [houter]
    exact .ok result (hresult ▸ hinner)

/-- A release whose arguments are not negative is the heap's. -/
theorem free_handsOn (heap : Heap) (offset : UInt32)
    (hfirst : firstRefusal? [.size size, .align align] = none) :
    HandsOn (heap.release offset.toNat (natural size) (natural align)) id .freeFailed
      (free heap offset size align) := by
  have hnonneg := firstRefusal?_eq_none_iff.mp hfirst
  simp only [List.forall_mem_cons, Argument.value] at hnonneg
  obtain ⟨hsize, halign, _⟩ := hnonneg
  have hsizeArgument : naturalSize size = .ok (natural size) := naturalSize_of_nonneg hsize
  have halignArgument : naturalAlign align = .ok (natural align) := naturalAlign_of_nonneg halign
  rw [free, hsizeArgument, halignArgument]
  dsimp only [bind, Except.bind, pure, Except.pure]
  rcases heap.bitmap.release_cases offset.toNat (natural size) (natural align) with
    ⟨refusal, hinner, _⟩ | ⟨hinner, _⟩
  · rw [← Heap.outcome_release] at hinner
    rw [hinner]
    exact .refused refusal hinner
  · rw [← Heap.outcome_release] at hinner
    rw [hinner]
    exact .ok () hinner

/-- A request for space at the boundary is refused for its first negative argument, and answered as
the heap answers it if there is none. -/
theorem realloc_answersAs (heap : Heap) (oldOffset : UInt32) (oldSize align newSize : Int32) :
    AnswersAs heap [.size oldSize, .size newSize, .align align]
      (heap.resize oldOffset.toNat (natural oldSize) (natural align) (natural newSize))
      UInt32.toNat (realloc heap oldOffset oldSize align newSize) := by
  by_cases hold : oldSize < 0
  · refine .of_firstRefusal? (firstRefusal?_cons_of_some (if_pos hold)) ?_
    simp only [realloc, naturalSize, if_pos hold]
    rfl
  have hpassOld : (Argument.size oldSize).refusal? = none := if_neg hold
  by_cases hnew : newSize < 0
  · refine .of_firstRefusal? ((firstRefusal?_cons_of_none hpassOld).trans
      (firstRefusal?_cons_of_some (if_pos hnew))) ?_
    simp only [realloc, naturalSize, if_neg hold, if_pos hnew]
    rfl
  have hpassNew : (Argument.size newSize).refusal? = none := if_neg hnew
  have hpass : firstRefusal? [.size oldSize, .size newSize, .align align] =
      firstRefusal? [.align align] :=
    (firstRefusal?_cons_of_none hpassOld).trans (firstRefusal?_cons_of_none hpassNew)
  by_cases halign : align < 0
  · refine .of_firstRefusal? (hpass.trans (firstRefusal?_cons_of_some (if_pos halign))) ?_
    simp only [realloc, naturalSize, naturalAlign, if_neg hold, if_neg hnew, if_pos halign]
    rfl
  · have hfirst := hpass.trans (firstRefusal?_cons_of_none (if_neg halign))
    exact .of_mirrors hfirst (realloc_handsOn heap oldOffset hfirst).mirrors

/-- A release at the boundary is refused for its first negative argument, and answered as the heap
answers it if there is none. -/
theorem free_answersAs (heap : Heap) (offset : UInt32) (size align : Int32) :
    AnswersAs heap [.size size, .align align]
      (heap.release offset.toNat (natural size) (natural align)) id
      (free heap offset size align) := by
  by_cases hsize : size < 0
  · refine .of_firstRefusal? (firstRefusal?_cons_of_some (if_pos hsize)) ?_
    simp only [free, naturalSize, if_pos hsize]
    rfl
  have hpass : firstRefusal? [.size size, .align align] = firstRefusal? [.align align] :=
    firstRefusal?_cons_of_none (if_neg hsize)
  by_cases halign : align < 0
  · refine .of_firstRefusal? (hpass.trans (firstRefusal?_cons_of_some (if_pos halign))) ?_
    simp only [free, naturalSize, naturalAlign, if_neg hsize, if_pos halign]
    rfl
  · have hfirst := hpass.trans (firstRefusal?_cons_of_none (if_neg halign))
    exact .of_mirrors hfirst (free_handsOn heap offset hfirst).mirrors

/-- Of the sizes that are not negative only zero stands for no bytes. -/
theorem natural_eq_zero_iff (h : ¬ size < 0) : natural size = 0 ↔ size = 0 := by
  rw [Int32.not_lt, Int32.le_iff_toInt_le] at h
  rw [natural, ← Int32.toInt_inj]
  simp only [Int32.toInt_zero] at h ⊢
  omega

/-- The offset that a request for space is answered by outside says whether bytes were asked for,
and where they are. -/
theorem realloc_offsetFits (heap : Heap) (oldOffset : UInt32) (oldSize align newSize : Int32) :
    OffsetFits newSize (realloc heap oldOffset oldSize align newSize) := by
  intro result hresult
  have hanswers := realloc_answersAs heap oldOffset oldSize align newSize
  cases hfirst : firstRefusal? [.size oldSize, .size newSize, .align align] with
  | some refusal =>
    rw [hanswers.of_negative refusal hfirst] at hresult
    cases hresult
  | none =>
    have hnew : ¬ newSize < 0 :=
      firstRefusal?_eq_none_iff.mp hfirst (.size newSize)
        (List.mem_cons_of_mem _ List.mem_cons_self)
    rcases (hanswers.of_nonneg hfirst).outcome with ⟨_, hok, hinner⟩ | ⟨_, hrefused, _⟩
    · rw [hok, Outcome.ok.injEq] at hresult
      subst hresult
      have hzero := natural_eq_zero_iff hnew
      have hoffset := Bitmap.resize_offset hinner
      split at hoffset
      · next hnone =>
        exact ⟨iff_of_true hoffset (hzero.mp hnone), fun hne ↦ absurd (hzero.mp hnone) hne⟩
      · next hsome => exact ⟨iff_of_false (by omega) (mt hzero.mpr hsome), fun _ ↦ hoffset⟩
    · rw [hrefused] at hresult
      cases hresult

end Entry

/-- The boundary does what the heap does. For every heap, whatever its bitmap holds, and all
arguments: the entry points, under both of their names, refuse the first negative argument and leave
the heap alone, and otherwise end with the heap, the refusal or the offset that the heap gives for
the same numbers. -/
theorem entry_points_answer_as_heap (heap : Heap) :
    ServesResize heap (realloc heap) ∧ ServesResize heap (canonicalRealloc heap) ∧
      ServesRelease heap (free heap) ∧ ServesRelease heap (canonicalFree heap) ∧
        ServesAllocate heap (malloc heap) := by
  have hresize : ServesResize heap (realloc heap) := fun oldOffset oldSize align newSize ↦
    ⟨realloc_answersAs heap oldOffset oldSize align newSize,
      realloc_offsetFits heap oldOffset oldSize align newSize⟩
  have hrelease : ServesRelease heap (free heap) := free_answersAs heap
  refine ⟨hresize, hresize, hrelease, hrelease, ?_⟩
  intro size align
  -- A request for space alone has an old size of zero, which is never the one refused.
  obtain ⟨⟨hne, hnegative, hnonneg⟩, hfits⟩ := hresize 0 0 align size
  have hzero : (Argument.size 0).refusal? = none := rfl
  rw [firstRefusal?_cons_of_none hzero] at hnegative hnonneg
  exact ⟨⟨hne, hnegative, hnonneg⟩, hfits⟩

/-- On a fresh heap 24 bytes are found at the start of the heap, and of two negative arguments the
size is the one that is refused. -/
theorem entry_points_answer_as_heap_zeroed :
    (∃ result, (malloc Heap.zeroed 24 8).outcome = .ok result ∧ result.toNat = 512) ∧
      malloc Heap.zeroed (-1) (-2) = ⟨.refused (.negativeSize (-1)), Heap.zeroed, []⟩ := by
  obtain ⟨_, _, _, _, hmalloc⟩ := entry_points_answer_as_heap Heap.zeroed
  have hinner : (Heap.zeroed.allocate 8 24).outcome = .ok 512 := by
    rw [Heap.outcome_allocate, Heap.bitmap_zeroed]
    decide +kernel
  refine ⟨?_, (hmalloc (-1) (-2)).1.of_negative _ rfl⟩
  rcases ((hmalloc 24 8).1.of_nonneg rfl).outcome with ⟨result, houter, hok⟩ | ⟨_, _, hrefused⟩
  · have hresult := hok.symm.trans hinner
    rw [Outcome.ok.injEq] at hresult
    exact ⟨result, houter, hresult⟩
  · have himpossible := hrefused.symm.trans hinner
    cases himpossible

end Boundary

end LinearHeap
