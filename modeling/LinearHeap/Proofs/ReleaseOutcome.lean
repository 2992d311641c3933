import LinearHeap.Proofs.Calls
import LinearHeap.Proofs.Checked.Requests

/-!
# What a release is answered

`Heap.releaseOutcome` is the whole answer to a release, read off the heap through its inspection and
plain arithmetic: the alignment is looked at first, a release of no bytes is then always right, and
for any other the range, its unit and its bits are looked at in this order.
`Heap.release_first_failed_check` says that this is what a release does, also when it is done word
by word with sums that could overflow.

The bits are the part with an argument in it. A window inside one page is full when all its granules
are allocated (`Heap.fullRun_iff`), and whole pages are full when their words are all ones
(`Heap.fullPages_iff`); whole pages of a range that ends inside the heap never run off it
(`Heap.filled_iff`).

A resize looks at its old space as a release does, so the two are refused for the same reasons,
except for want of room (`Bitmap.resize_refused_iff`).
-/

set_option autoImplicit false
set_option relaxedAutoImplicit false

namespace LinearHeap

namespace Heap

/-- So many granules from this one on lie in one page, and all of them are allocated. -/
def FullRun (heap : Heap) (count granule : Nat) : Prop :=
  granule % Layout.granulesPerPage + count ≤ Layout.granulesPerPage ∧
    ∀ i, i < count → heap.isAllocated (granule + i) = true

instance (heap : Heap) (count granule : Nat) : Decidable (heap.FullRun count granule) :=
  inferInstanceAs (Decidable (_ ∧ _))

/-- So many words from this one on are words of the bitmap, and all of them are all ones. -/
def FullPages (heap : Heap) (count page : Nat) : Prop :=
  ∀ i, i < count → heap.word? (page + i) = some (BitVec.allOnes _)

instance (heap : Heap) (count page : Nat) : Decidable (heap.FullPages count page) :=
  inferInstanceAs (Decidable (∀ _, _ → _))

/-- The space that so many bytes at an offset name is allocated throughout: granules of one page if
the bytes are less than a page, and whole pages otherwise. -/
def Filled (heap : Heap) (offset size : Nat) : Prop :=
  (size < Layout.pageBytes →
    heap.FullRun ((size + 7) / 8) ((offset - Layout.heapStart) / 8)) ∧
  (Layout.pageBytes ≤ size →
    heap.FullPages ((size + 511) / 512) ((offset - Layout.heapStart) / 512))

instance (heap : Heap) (offset size : Nat) : Decidable (heap.Filled offset size) :=
  inferInstanceAs (Decidable (_ ∧ _))

/-- The bytes of which an offset has to be a multiple for a release of so many bytes there. -/
def releaseUnit (size : Nat) : Nat := if size < Layout.pageBytes then 8 else 512

/-- The answer to a release: the first check that fails decides. -/
def releaseOutcome (heap : Heap) (offset size align : Nat) : Outcome Refusal Unit :=
  if align ∉ [1, 2, 4, 8] then .refused (.unsupportedAlign align)
  else if size = 0 then .ok ()
  else if offset < Layout.heapStart ∨ Layout.capacity < offset + size then
    .refused (.outOfBounds offset size)
  else if ¬ releaseUnit size ∣ offset then .refused (.misaligned offset (releaseUnit size))
  else if ¬ heap.Filled offset size then .refused (.notAllocated offset size)
  else .ok ()

end Heap

theorem Alignment.ofNat?_eq_none_iff_not_mem {n : Nat} :
    ofNat? n = none ↔ n ∉ [1, 2, 4, 8] := by
  rw [ofNat?_eq_none_iff]
  simp only [List.mem_cons, List.not_mem_nil, or_false, not_or]

theorem SizeClass.unit_ofSize (size : Nat) : (ofSize size).unit = Heap.releaseUnit size := by
  unfold ofSize Heap.releaseUnit
  split <;> rfl

/-! ### Full windows -/

section Full

variable {heap : Heap} {granules pages page first offset size : Nat}

/-- A run of granules inside one page is one that a small release can name, and full. -/
theorem Heap.fullRun_iff (hfirst : first < Layout.heapGranules) :
    heap.FullRun granules first ↔
      (SizeClass.small granules).Admits ((SizeClass.small granules).window first) ∧
        heap.bitmap.isFull ((SizeClass.small granules).window first) = true := by
  refine and_congr_right fun hpage ↦ ?_
  have hinPage : ((SizeClass.small granules).window first).InOnePage := hpage
  rw [Bitmap.isFull_iff (hinPage.inHeap hfirst)]
  constructor
  · rintro hset granule ⟨hlow, hhigh⟩
    change first ≤ granule at hlow
    have hgranule := hset (granule - first) (Nat.sub_lt_left_of_lt_add hlow hhigh)
    rwa [Nat.add_sub_of_le hlow] at hgranule
  · exact fun hset i hi ↦ hset (first + i) ⟨Nat.le_add_right _ _, Nat.add_lt_add_left hi _⟩

/-- Whole pages of the heap are space that a large release can name, and are full when their words
are all ones. -/
theorem Heap.fullPages_iff (hpages : page + pages ≤ Layout.bitmapWords) :
    heap.FullPages pages page ↔
      (SizeClass.large pages).Admits
          ((SizeClass.large pages).window (page * Layout.granulesPerPage)) ∧
        heap.bitmap.isFull ((SizeClass.large pages).window (page * Layout.granulesPerPage)) =
          true := by
  have hheap : ((SizeClass.large pages).window (page * Layout.granulesPerPage)).InHeap := by
    simp only [Window.InHeap, Window.stop, SizeClass.window, SizeClass.granuleCount, ← Nat.add_mul]
    exact Nat.mul_le_mul_right _ hpages
  rw [and_iff_right (show (SizeClass.large pages).Admits _ from hheap), Bitmap.isFull_iff hheap,
    FullPages]
  have hword : ∀ i, i < pages → (heap.word? (page + i) = some (BitVec.allOnes _) ↔
      ∀ bit, bit < Layout.granulesPerPage →
        heap.bitmap.isSet ((page + i) * Layout.granulesPerPage + bit) = true) := by
    intro i hi
    rw [word?, Bitmap.word?, if_pos (by omega), Option.some.injEq, Bitmap.word_eq_allOnes_iff]
  simp only [Window.mem_iff, SizeClass.window, SizeClass.granuleCount]
  simp only [Layout.granulesPerPage] at *
  constructor
  · rintro hones granule ⟨hlow, hhigh⟩
    have hgranule := (hword (granule / 64 - page) (by omega)).mp (hones _ (by omega))
      (granule % 64) (by omega)
    rwa [show (page + (granule / 64 - page)) * 64 + granule % 64 = granule by omega] at hgranule
  · exact fun hset i hi ↦ (hword i hi).mpr fun bit hbit ↦ hset _ (by omega)

/-- The granules named by a range of the heap that starts on its unit are of a shape that its size
class can have, and full, when they are allocated throughout. -/
theorem Heap.filled_iff (hsize : 0 < size)
    (hbounds : Layout.heapStart ≤ offset ∧ offset + size ≤ Layout.capacity)
    (hunit : releaseUnit size ∣ offset) :
    heap.Filled offset size ↔
      (SizeClass.ofSize size).Admits (Allocation.mk offset size).window ∧
        heap.bitmap.isFull (Allocation.mk offset size).window = true := by
  by_cases hsmall : size < Layout.pageBytes
  · have hnot : ¬ Layout.pageBytes ≤ size := Nat.not_le.mpr hsmall
    simp only [Filled, hsmall, hnot, forall_const, false_imp_iff, and_true]
    rw [Allocation.window, Allocation.sizeClass, SizeClass.ofSize_of_lt hsmall]
    exact fullRun_iff (Bitmap.first_lt_heapGranules hbounds.1 hbounds.2 hsize)
  · have hlarge := Nat.le_of_not_lt hsmall
    obtain ⟨page, hpage⟩ : 512 ∣ offset := by
      rwa [releaseUnit, if_neg hsmall] at hunit
    simp only [Filled, hsmall, hlarge, forall_const, false_imp_iff, true_and]
    rw [Layout.pageBytes_eq] at hlarge
    rw [Layout.heapStart_eq, Layout.capacity_eq] at hbounds
    have hpages : page - 1 + (size + 511) / 512 ≤ Layout.bitmapWords := by
      rw [Layout.bitmapWords_eq]
      omega
    have hfirst : (offset - Layout.heapStart) / Layout.granuleBytes =
        (page - 1) * Layout.granulesPerPage := by
      simp only [Layout.heapStart_eq, Layout.granuleBytes, Layout.granulesPerPage]
      omega
    have hindex : (offset - Layout.heapStart) / 512 = page - 1 := by
      rw [Layout.heapStart_eq]
      omega
    rw [Allocation.window, Allocation.sizeClass, SizeClass.ofSize_of_le hlarge, hfirst, hindex]
    exact fullPages_iff hpages

end Full

/-! ### Reasons to be refused -/

namespace Bitmap

variable {bitmap restored : Bitmap} {alignment : Alignment} {released : Option Window}
  {oldOffset oldSize offset size align : Nat} {refusal : Refusal}

/-- A release of some bytes is answered by its checks. -/
theorem outcome_release_eq_map (halign : Alignment.ofNat? align = some alignment)
    (hsize : 0 < size) :
    (bitmap.release offset size align).outcome =
      (bitmap.releasable offset size).map fun _ ↦ () := by
  rw [release, halign]
  dsimp only
  rw [if_neg (Nat.ne_of_gt hsize), giveBack]
  cases bitmap.releasable offset size <;> rfl

/-- The checks of a release find fault with its arguments. -/
theorem kind_of_releasable (hsize : 0 < size)
    (h : bitmap.releasable offset size = .refused refusal) : refusal.kind = .invalidArgument := by
  rcases refusal_of_releasable hsize h with rfl | ⟨_, rfl⟩ | rfl <;> rfl

/-- Placing a request finds no fault with its arguments. -/
theorem place_not_refused (alignment : Alignment) (size : Nat)
    (hback : bitmap.putBack released = .ok restored) :
    ¬ ((bitmap.place alignment size released).outcome = .refused refusal ∧
      refusal.kind = .invalidArgument) := by
  rintro ⟨hrefused, hkind⟩
  rcases place_cases alignment size hback with hplace | ⟨_, _, hplace, _⟩
  · rw [hplace, Outcome.refused.injEq] at hrefused
    subst hrefused
    cases hkind
  · rw [hplace] at hrefused
    cases hrefused

/-- A resize is refused for a reason other than want of room just when a release of its old space
is refused, and for the same reason. -/
theorem resize_refused_iff (bitmap : Bitmap) (oldOffset oldSize align newSize : Nat)
    (refusal : Refusal) :
    (bitmap.resize oldOffset oldSize align newSize).outcome = .refused refusal ∧
        refusal.kind = .invalidArgument ↔
      (bitmap.release oldOffset oldSize align).outcome = .refused refusal := by
  cases halign : Alignment.ofNat? align with
  | none =>
    rw [resize_of_unsupported bitmap oldOffset oldSize newSize halign,
      release_of_unsupported bitmap oldOffset oldSize halign]
    simp only [Outcome.refused.injEq]
    exact and_iff_left_of_imp fun h ↦ h ▸ rfl
  | some alignment =>
    by_cases hzero : oldSize = 0
    · subst hzero
      rw [resize_zero_eq_place bitmap oldOffset newSize halign,
        release_zero bitmap oldOffset halign]
      refine iff_of_false (place_not_refused alignment newSize rfl) fun h ↦ ?_
      cases h
    · have hold := Nat.pos_of_ne_zero hzero
      cases hchecks : bitmap.releasable oldOffset oldSize with
      | ok window =>
        rw [resize_of_ok halign hold hchecks, release_of_ok halign hold hchecks]
        refine iff_of_false (place_not_refused alignment newSize (putBack_clear hchecks))
          fun h ↦ ?_
        cases h
      | refused reason =>
        rw [resize_of_refused halign hold hchecks, release_of_refused halign hold hchecks]
        simp only [Outcome.refused.injEq]
        exact and_iff_left_of_imp fun h ↦ h ▸ kind_of_releasable hold hchecks
      | fault cause => exact absurd hchecks (bitmap.releasable_ne_fault oldOffset hold cause)

end Bitmap

/-! ### The whole answer -/

namespace Heap

/-- An offset is on the unit of a size, counted from the start of the heap, if it is a multiple of
the unit. -/
theorem mod_unit_ne_zero_iff {offset : Nat} (h : Layout.heapStart ≤ offset) (size : Nat) :
    (offset - Layout.heapStart) % (SizeClass.ofSize size).unit ≠ 0 ↔
      ¬ releaseUnit size ∣ offset := by
  rw [SizeClass.unit_ofSize, releaseUnit]
  rw [Layout.heapStart_eq] at *
  split <;> omega

/-- The checks of a release of some bytes, in their order. -/
theorem releasable_map_eq (heap : Heap) (offset : Nat) {size : Nat} (hsize : 0 < size) :
    (heap.bitmap.releasable offset size).map (fun _ ↦ ()) =
      if offset < Layout.heapStart ∨ Layout.capacity < offset + size then
        .refused (.outOfBounds offset size)
      else if ¬ releaseUnit size ∣ offset then .refused (.misaligned offset (releaseUnit size))
      else if ¬ heap.Filled offset size then .refused (.notAllocated offset size)
      else .ok () := by
  rw [Bitmap.releasable_eq _ _ hsize]
  by_cases hbounds : offset < Layout.heapStart ∨ Layout.capacity < offset + size
  · rw [if_pos hbounds, if_pos hbounds]
    rfl
  · rw [if_neg hbounds, if_neg hbounds]
    have hin : Layout.heapStart ≤ offset ∧ offset + size ≤ Layout.capacity := by omega
    simp only [mod_unit_ne_zero_iff hin.1]
    by_cases hunit : releaseUnit size ∣ offset
    · rw [if_neg (not_not_intro hunit), if_neg (not_not_intro hunit)]
      have hfilled : heap.Filled offset size ↔ _ := filled_iff hsize hin hunit
      by_cases hfull : heap.Filled offset size
      · rw [if_pos (hfilled.mp hfull), if_neg (not_not_intro hfull)]
        rfl
      · rw [if_neg (mt hfilled.mpr hfull), if_pos hfull]
        rfl
    · rw [if_pos hunit, if_pos hunit, SizeClass.unit_ofSize]
      rfl

/-- All checks of a release, in their order. -/
theorem outcome_release_eq (heap : Heap) (offset size align : Nat) :
    (heap.release offset size align).outcome = heap.releaseOutcome offset size align := by
  rw [outcome_release, releaseOutcome]
  cases halign : Alignment.ofNat? align with
  | none =>
    rw [if_pos (Alignment.ofNat?_eq_none_iff_not_mem.mp halign),
      heap.bitmap.release_of_unsupported offset size halign]
  | some alignment =>
    have hsupported : ¬ align ∉ [1, 2, 4, 8] := by
      rw [← Alignment.ofNat?_eq_none_iff_not_mem, halign]
      exact Option.some_ne_none alignment
    rw [if_neg hsupported]
    by_cases hzero : size = 0
    · rw [if_pos hzero, hzero, heap.bitmap.release_zero offset halign]
    · have hsize := Nat.pos_of_ne_zero hzero
      rw [if_neg hzero, Bitmap.outcome_release_eq_map halign hsize,
        heap.releasable_map_eq offset hsize]

/-- A release of no bytes leaves the heap as it is. -/
theorem state_release_zero (heap : Heap) (offset align : Nat) :
    (heap.release offset 0 align).state = heap := by
  rw [state_release]
  rcases heap.bitmap.release_cases offset 0 align with ⟨_, _, hstate⟩ | ⟨_, hstate⟩
  · rw [hstate, setBitmap_bitmap]
  · rw [show (heap.bitmap.release offset 0 align).state = heap.bitmap from hstate,
      setBitmap_bitmap]

/-- The first failed check decides what a release is answered. Whatever the bitmap holds and
whatever the arguments are, a release is refused for an unsupported alignment, is then always right
and changes nothing if it names no bytes, and is otherwise refused for a range that does not lie in
the heap, for an offset off the unit of the size, and for granules that are not all allocated or a
run that leaves its page, in this order; it succeeds if there is none of this. Sums are exact: the
same release, done word by word on numbers of 64 bits with every sum checked, comes to the same
answer. A resize is refused for a fault of its old range just when a release of that range is
refused, with the same refusal. -/
theorem release_first_failed_check (heap : Heap) :
    (∀ offset size align,
      (heap.release offset size align).outcome = heap.releaseOutcome offset size align) ∧
    (∀ offset align, (heap.release offset 0 align).state = heap) ∧
    (∀ offset size align : UInt64, ∃ reply,
      Checked.release heap.region offset.toNat size.toNat align.toNat = .ok reply ∧
        reply.outcome = heap.releaseOutcome offset.toNat size.toNat align.toNat) ∧
    ∀ oldOffset oldSize align newSize refusal,
      (heap.resize oldOffset oldSize align newSize).outcome = .refused refusal ∧
          refusal.kind = .invalidArgument ↔
        (heap.release oldOffset oldSize align).outcome = .refused refusal := by
  refine ⟨heap.outcome_release_eq, heap.state_release_zero, fun offset size align ↦ ?_,
    fun oldOffset oldSize align newSize refusal ↦ ?_⟩
  · refine ⟨_, (Checked.release_runsThrough heap offset size align).eq_ok, ?_⟩
    rw [Reply.outcome_withState, outcome_release_eq]
  · rw [outcome_resize, outcome_release]
    exact heap.bitmap.resize_refused_iff oldOffset oldSize align newSize refusal

/-- A range past the last 64-bit number that starts off its unit is refused for its bounds. -/
example (heap : Heap) : heap.releaseOutcome 515 (2 ^ 64 - 1) 8 =
    .refused (.outOfBounds 515 (2 ^ 64 - 1)) := rfl

end Heap

end LinearHeap
