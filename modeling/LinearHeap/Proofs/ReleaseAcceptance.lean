import LinearHeap.Proofs.LiveSet

/-!
# Which releases are accepted

A release names some space by its offset and size. It is accepted if space of that size can lie
there and the granules of its footprint are all allocated (`Bitmap.releasable_iff_placed`), which
after a run means that each of them belongs to a live allocation
(`Bitmap.Reflects.releasable_iff`).

The bitmap does not say where one allocation ends and the next begins. So a release of a part of an
allocation is accepted, and so is one of a range made of several
(`Ledger.release_of_part_accepted`): the heap after one request for two granules is the heap after
two requests for one each, and only in the second does a live allocation end after the first
granule. `Ledger.release_accepted_iff` says that these are the only ways in which an accepted
release can miss the live allocations.
-/

set_option autoImplicit false
set_option relaxedAutoImplicit false

namespace LinearHeap

namespace Allocation

/-- The first footprint is a part of the second, and less than all of it. -/
def ProperPart (part whole : Allocation) : Prop :=
  whole.offset ≤ part.offset ∧ part.offset + part.footprint ≤ whole.offset + whole.footprint ∧
    part.footprint < whole.footprint

/-- A footprint shares bytes with those of two allocations of a list. -/
def MeetsTwo (allocation : Allocation) (live : List Allocation) : Prop :=
  ∃ first ∈ live, ∃ second ∈ live,
    first ≠ second ∧ ¬ allocation.Apart first ∧ ¬ allocation.Apart second

variable {allocation : Allocation}

/-- A placed allocation starts on a unit of its size class. -/
theorem Placed.mod_unit (h : allocation.Placed) :
    (allocation.offset - Layout.heapStart) % allocation.sizeClass.unit = 0 := by
  have hgranule := h.granuleBytes_dvd
  by_cases hsmall : allocation.size < Layout.pageBytes
  · rw [sizeClass, SizeClass.ofSize_of_lt hsmall]
    simp only [SizeClass.unit, Layout.heapStart_eq, Layout.granuleBytes] at *
    omega
  · have hpage := (h.wholePages (Nat.le_of_not_lt hsmall)).1
    rw [sizeClass, SizeClass.ofSize_of_le (Nat.le_of_not_lt hsmall)]
    simp only [SizeClass.unit, Layout.heapStart_eq, Layout.pageBytes_eq] at *
    omega

/-- The window of a placed allocation is one that its size class admits. -/
theorem Placed.admits_window (h : allocation.Placed) :
    allocation.sizeClass.Admits allocation.window := by
  by_cases hsmall : allocation.size < Layout.pageBytes
  · obtain ⟨index, _, hle, hend⟩ := h.insideWord hsmall
    have hfirst := h.granuleOffset_first
    rw [footprint_eq, ← hfirst] at hend
    rw [← hfirst] at hle
    rw [sizeClass, SizeClass.ofSize_of_lt hsmall]
    simp only [SizeClass.Admits, Window.InOnePage, Layout.pageOffset_eq, Layout.granuleOffset_eq,
      Layout.granuleBytes, Layout.granulesPerPage] at *
    omega
  · have hheap := h.window_inHeap
    rw [sizeClass, SizeClass.ofSize_of_le (Nat.le_of_not_lt hsmall)]
    exact hheap

/-- A placed allocation covers its first granule. -/
theorem Placed.covers_first (h : allocation.Placed) :
    allocation.Covers allocation.window.first := by
  have hpos := h.window_count_pos
  rw [covers_iff_mem_window h, Window.mem_iff]
  omega

/-- Space covers a granule together with another allocation only if the two are not apart. -/
theorem Covers.not_apart {other : Allocation} {granule : Nat} (h : allocation.Covers granule)
    (hother : other.Covers granule) : ¬ allocation.Apart other := by
  simp only [Covers, Apart, Layout.granuleBytes] at *
  omega

/-- Space whose granules an allocation covers throughout is all of that allocation or a proper part
of it. -/
theorem Placed.sameSpace_or_properPart {whole : Allocation} (h : allocation.Placed)
    (hcovers : ∀ granule, allocation.Covers granule → whole.Covers granule) :
    whole.SameSpace allocation ∨ allocation.ProperPart whole := by
  have hpos := h.window_count_pos
  have hfirst := h.granuleOffset_first
  have hlow := hcovers _ h.covers_first
  have hlast : allocation.Covers (allocation.window.first + allocation.window.count - 1) := by
    rw [covers_iff_mem_window h, Window.mem_iff]
    omega
  have hhigh := hcovers _ hlast
  simp only [SameSpace, ProperPart]
  rw [footprint_eq allocation, ← hfirst]
  simp only [Covers, Layout.granuleOffset_eq, Layout.granuleBytes] at *
  omega

end Allocation

open Allocation

namespace Bitmap

variable {bitmap : Bitmap} {allocation : Allocation}

/-- Space whose release is accepted could be handed out again right after it. -/
theorem hasRoom_clear_of_releasable (hsize : 0 < allocation.size)
    (h : bitmap.releasable allocation.offset allocation.size = .ok allocation.window) :
    (bitmap.clear allocation.window).HasRoom allocation.sizeClass allocation.window.first := by
  obtain ⟨⟨hstart, hend⟩, hunit, hadmits, _⟩ := (releasable_eq_ok_iff hsize).mp h
  refine ⟨?_, ?_, hadmits, bitmap.isFree_clear _⟩
  · simp only [window, SizeClass.window, Layout.heapStart_eq, Layout.capacity_eq,
      Layout.granuleBytes, Layout.heapGranules_eq] at *
    omega
  · change (allocation.offset - Layout.heapStart) / Layout.granuleBytes * Layout.granuleBytes %
      allocation.sizeClass.unit = 0
    change (allocation.offset - Layout.heapStart) % allocation.sizeClass.unit = 0 at hunit
    cases hclass : allocation.sizeClass with
    | small granules => exact Nat.mul_mod_left _ _
    | large pages =>
      rw [hclass] at hunit
      simp only [SizeClass.unit, Layout.pageBytes_eq, Layout.granuleBytes] at *
      omega

/-- A release is accepted if space of its size can lie where it says and its granules are all
allocated. -/
theorem releasable_iff_placed (hsize : 0 < allocation.size) :
    bitmap.releasable allocation.offset allocation.size = .ok allocation.window ↔
      allocation.Placed ∧ bitmap.isFull allocation.window = true := by
  constructor
  · intro h
    obtain ⟨⟨hstart, _⟩, hunit, _, hfull, _⟩ := (releasable_eq_ok_iff hsize).mp h
    have hplaced := (hasRoom_clear_of_releasable hsize h).placed hsize
    have hoffset : Layout.granuleOffset allocation.window.first = allocation.offset := by
      change (allocation.offset - Layout.heapStart) % allocation.sizeClass.unit = 0 at hunit
      have hgranule : Layout.granuleBytes ∣ allocation.sizeClass.unit := by
        cases allocation.sizeClass with
        | small granules => exact Nat.dvd_refl _
        | large pages => exact Nat.dvd_mul_right _ _
      have hmod := Nat.dvd_trans hgranule (Nat.dvd_of_mod_eq_zero hunit)
      simp only [window, SizeClass.window, Layout.granuleOffset_eq, Layout.heapStart_eq,
        Layout.granuleBytes] at *
      omega
    rw [hoffset] at hplaced
    exact ⟨hplaced, hfull⟩
  · rintro ⟨hplaced, hfull⟩
    have hend := Nat.le_trans (Nat.add_le_add_left allocation.size_le_footprint _)
      hplaced.le_capacity
    exact (releasable_eq_ok_iff hsize).mpr
      ⟨⟨hplaced.heapStart_le, hend⟩, hplaced.mod_unit, hplaced.admits_window, hfull, rfl⟩

/-- No release of zero bytes passes the checks. -/
theorem size_pos_of_releasable {offset size : Nat} {window : Window}
    (h : bitmap.releasable offset size = .ok window) : 0 < size := by
  refine Nat.pos_of_ne_zero ?_
  rintro rfl
  rw [releasable, SizeClass.ofRequest, if_pos rfl] at h
  split at h <;> cases h

/-- Space that is given back can lie where it says, and all of it is allocated. -/
theorem GivenBack.placed_and_isFull {after : Bitmap}
    (h : bitmap.GivenBack (some allocation) after) :
    allocation.Placed ∧ bitmap.isFull allocation.window = true :=
  (releasable_iff_placed (size_pos_of_releasable h.1)).mp h.1

/-- In terms of the live set: a release is accepted if space of its size can lie where it says and
each of its granules belongs to a live allocation. -/
theorem Reflects.releasable_iff {live : List Allocation} (h : bitmap.Reflects live)
    (hsize : 0 < allocation.size) :
    bitmap.releasable allocation.offset allocation.size = .ok allocation.window ↔
      allocation.Placed ∧ ∀ granule, allocation.Covers granule →
        ∃ owner ∈ live, owner.Covers granule := by
  rw [releasable_iff_placed hsize]
  refine and_congr_right fun hplaced ↦ ?_
  rw [isFull_iff hplaced.window_inHeap]
  refine forall_congr' fun granule ↦ imp_congr (covers_iff_mem_window hplaced).symm ?_
  rw [h.isSet_iff]
  refine exists_congr fun owner ↦ and_congr_right fun howner ↦ ?_
  exact (covers_iff_mem_window (h.placed owner howner)).symm

/-- The outcome of a release of a positive number of bytes with a supported alignment is that of its
checks. -/
theorem outcome_release_eq_ok_iff {offset size align : Nat} (halign : align ∈ [1, 2, 4, 8])
    (hsize : 0 < size) : (bitmap.release offset size align).outcome = .ok () ↔
      bitmap.releasable offset size = .ok (Allocation.mk offset size).window := by
  obtain ⟨alignment, hsupported⟩ := Alignment.exists_ofNat?_eq_some halign
  cases hchecks : bitmap.releasable offset size with
  | ok window =>
    rw [release_of_ok hsupported hsize hchecks,
      ((releasable_eq_ok_iff hsize).mp hchecks).2.2.2.2]
    simp only
  | refused refusal =>
    rw [release_of_refused hsupported hsize hchecks]
    simp only [reduceCtorEq]
  | fault cause => exact absurd hchecks (releasable_ne_fault bitmap offset hsize cause)

/-- A release with an unsupported alignment is refused. -/
theorem align_of_release_ok {offset size align : Nat}
    (h : (bitmap.release offset size align).outcome = .ok ()) : align ∈ [1, 2, 4, 8] := by
  cases halign : Alignment.ofNat? align with
  | none =>
    rw [release_of_unsupported bitmap offset size halign] at h
    cases h
  | some alignment =>
    rw [← Alignment.bytes_of_ofNat? halign]
    cases alignment <;> decide

end Bitmap

/-- A release is accepted, or it is refused and changes nothing. -/
theorem Heap.release_ok_or_refused (heap : Heap) (offset size align : Nat) :
    (heap.release offset size align).outcome = .ok () ∨
      ∃ refusal, (heap.release offset size align).outcome = .refused refusal ∧
        (heap.release offset size align).state = heap := by
  rw [outcome_release, state_release]
  rcases heap.bitmap.release_cases offset size align with ⟨refusal, hrefused, hstate⟩ | ⟨hok, _⟩
  · rw [hstate, setBitmap_bitmap]
    exact Or.inr ⟨refusal, hrefused, rfl⟩
  · exact Or.inl hok

namespace Ledger

variable {ledger : Ledger} {named : Allocation}

/-- Space whose granules all belong to live allocations is one of these, or a proper part of one, or
meets two. -/
theorem names_or_properPart_or_meetsTwo {live : List Allocation} (hplaced : named.Placed)
    (hlive : ∀ granule, named.Covers granule → ∃ owner ∈ live, owner.Covers granule) :
    Names live named ∨ (∃ whole ∈ live, named.ProperPart whole) ∨ named.MeetsTwo live := by
  obtain ⟨first, hfirst, hcovers⟩ := hlive _ hplaced.covers_first
  by_cases hinside : ∀ granule, named.Covers granule → first.Covers granule
  · rcases hplaced.sameSpace_or_properPart hinside with hsame | hpart
    · exact Or.inl ⟨first, hfirst, hsame⟩
    · exact Or.inr (Or.inl ⟨first, hfirst, hpart⟩)
  · simp only [not_forall] at hinside
    obtain ⟨granule, hgranule, houtside⟩ := hinside
    obtain ⟨second, hsecond, hcovers'⟩ := hlive granule hgranule
    refine Or.inr (Or.inr ⟨first, hfirst, second, hsecond, ?_,
      hplaced.covers_first.not_apart hcovers, hgranule.not_apart hcovers'⟩)
    rintro rfl
    exact houtside hcovers'

/-- A request for space that first fit finds room for enters it into the list. -/
theorem step_allocate (ledger : Ledger) (align size first : Nat) (halign : align ∈ [1, 2, 4, 8])
    (hsize : 0 < size) (hfound : ledger.heap.bitmap.firstFit? (.ofSize size) = some first) :
    ledger.step (.allocate align size) =
      ⟨ledger.heap.setBitmap (ledger.heap.bitmap.fill ((SizeClass.ofSize size).window first)),
        ⟨Layout.granuleOffset first, size⟩ :: ledger.live⟩ := by
  obtain ⟨alignment, hsupported⟩ := Alignment.exists_ofNat?_eq_some halign
  have hplace := Bitmap.place_of_some alignment none hsize hfound
  rw [← Bitmap.allocate_eq_place _ hsupported] at hplace
  simp only [step, Heap.perform, Reply.map, Heap.outcome_allocate, Heap.state_allocate, hplace,
    Outcome.map, Allocation.named?_of_pos hsize, strike, enter]

/-- A heap of zeros grants its first two granules to a request for 16 bytes. -/
private theorem run_allocate_first : run ⟨Heap.zeroed, []⟩ [.allocate 8 16] =
    ⟨Heap.zeroed.setBitmap (Bitmap.empty.fill ⟨0, 2⟩), [⟨512, 16⟩]⟩ := by
  have hstep := step_allocate ⟨Heap.zeroed, []⟩ 8 16 0 (by decide) (by decide)
    (by rw [Heap.bitmap_zeroed]; decide +kernel)
  rw [Heap.bitmap_zeroed] at hstep
  exact hstep

/-- A part of an allocation is released. After one request for 16 bytes the live set is one
allocation of two granules, and yet a release of 8 bytes at its offset is accepted and frees the
first of them. Nothing in the heap speaks against it: after two requests for 8 bytes the heap is the
same, and there these 8 bytes are a live allocation. -/
theorem release_of_part_accepted :
    let whole := run ⟨Heap.zeroed, []⟩ [.allocate 8 16]
    let halves := run ⟨Heap.zeroed, []⟩ [.allocate 8 8, .allocate 8 8]
    (Heap.zeroed.Fresh ∧ AdmitsAll step Admits ⟨Heap.zeroed, []⟩ [.allocate 8 16] ∧
      whole.live = [⟨512, 16⟩] ∧ 0 < 8 ∧ 8 ∈ [1, 2, 4, 8] ∧
        (whole.heap.release 512 8 8).outcome = .ok () ∧ ¬ Names whole.live ⟨512, 8⟩ ∧
          (whole.heap.release 512 8 8).state.bitmap ≠ whole.heap.bitmap) ∧
    AdmitsAll step Admits ⟨Heap.zeroed, []⟩ [.allocate 8 8, .allocate 8 8] ∧
      halves.heap = whole.heap ∧ Names halves.live ⟨512, 8⟩ := by
  intro whole halves
  have hwhole : whole = _ := run_allocate_first
  have hhalves : halves = ⟨Heap.zeroed.setBitmap ((Bitmap.empty.fill ⟨0, 1⟩).fill ⟨1, 1⟩),
      [⟨520, 8⟩, ⟨512, 8⟩]⟩ := by
    have hone := step_allocate ⟨Heap.zeroed, []⟩ 8 8 0 (by decide) (by decide)
      (by rw [Heap.bitmap_zeroed]; decide +kernel)
    have htwo := step_allocate ⟨Heap.zeroed.setBitmap (Bitmap.empty.fill ⟨0, 1⟩), [⟨512, 8⟩]⟩
      8 8 1 (by decide) (by decide) (by rw [Heap.bitmap_setBitmap]; decide +kernel)
    rw [Heap.bitmap_zeroed] at hone
    rw [Heap.bitmap_setBitmap, Heap.setBitmap_setBitmap] at htwo
    exact (congrArg (fun ledger ↦ step ledger (.allocate 8 8)) hone).trans htwo
  have hbitmap : whole.heap.bitmap = Bitmap.empty.fill ⟨0, 2⟩ := by
    rw [hwhole]
    exact Heap.bitmap_setBitmap _ _
  refine ⟨⟨Or.inl rfl, ⟨admits_allocate, trivial⟩, congrArg live hwhole, by decide, by decide,
    ?_, ?_, ?_⟩, ⟨admits_allocate, admits_allocate, trivial⟩, ?_, ?_⟩
  · rw [Heap.outcome_release, hbitmap]
    decide +kernel
  · rw [hwhole]
    rintro ⟨allocation, hlive, hsame⟩
    rw [List.mem_singleton.mp hlive] at hsame
    revert hsame
    decide
  · rw [Heap.state_release, Heap.bitmap_setBitmap, hbitmap]
    decide +kernel
  · rw [hwhole, hhalves]
    exact congrArg Heap.zeroed.setBitmap (show _ = _ by decide +kernel)
  · rw [hhalves]
    exact ⟨⟨512, 8⟩, List.mem_cons_of_mem _ List.mem_cons_self, by decide⟩

/-- Which releases are accepted after a run. A release of a positive number of bytes with a
supported alignment is accepted if and only if space of its size can lie where it says, and each
granule of its footprint belongs to a live allocation; so it names a live allocation, by offset and
footprint, or a proper part of one, or it meets two. Any other release is refused, and the heap is
as it was before. Assumes: a heap that was just made, a run in which every call that succeeds in
giving back some space names a live allocation of the same offset and footprint, a positive size and
a supported alignment. -/
theorem release_accepted_iff {start : Heap} (hfresh : start.Fresh) {calls : List Call}
    (hadmits : AdmitsAll step Admits ⟨start, []⟩ calls) (offset : Nat) {size align : Nat}
    (hsize : 0 < size) (halign : align ∈ [1, 2, 4, 8]) :
    let ledger := run ⟨start, []⟩ calls
    let named := Allocation.mk offset size
    let reply := ledger.heap.release offset size align
    (reply.outcome = .ok () ↔ named.Placed ∧
      ∀ granule, named.Covers granule → ∃ owner ∈ ledger.live, owner.Covers granule) ∧
    (reply.outcome = .ok () → Names ledger.live named ∨
      (∃ whole ∈ ledger.live, named.ProperPart whole) ∨ named.MeetsTwo ledger.live) ∧
    (reply.outcome = .ok () ∨
      ∃ refusal, reply.outcome = .refused refusal ∧ reply.state = ledger.heap) := by
  intro ledger named reply
  have hbalanced : ledger.Balanced :=
    hadmits.invariant (fun _ _ ↦ Balanced.step) (.of_fresh hfresh)
  have hreflects : ledger.heap.bitmap.Reflects ledger.live := hbalanced
  have hiff : reply.outcome = .ok () ↔ named.Placed ∧
      ∀ granule, named.Covers granule → ∃ owner ∈ ledger.live, owner.Covers granule := by
    rw [Heap.outcome_release, Bitmap.outcome_release_eq_ok_iff halign hsize]
    exact hreflects.releasable_iff (show 0 < named.size from hsize)
  refine ⟨hiff, fun hok ↦ ?_, ledger.heap.release_ok_or_refused offset size align⟩
  obtain ⟨hplaced, hlive⟩ := hiff.mp hok
  exact names_or_properPart_or_meetsTwo hplaced hlive

/-- After one request for 16 bytes a release of 9 bytes at its offset, which take up the same two
granules, is accepted, and one of 24 bytes, which take up a free granule besides, is refused. -/
theorem release_accepted_iff_two_granules :
    let ledger := run ⟨Heap.zeroed, []⟩ [.allocate 8 16]
    Heap.zeroed.Fresh ∧ AdmitsAll step Admits ⟨Heap.zeroed, []⟩ [.allocate 8 16] ∧
      ledger.live = [⟨512, 16⟩] ∧ 8 ∈ [1, 2, 4, 8] ∧
      (0 < 9 ∧ (ledger.heap.release 512 9 8).outcome = .ok ()) ∧
      0 < 24 ∧ ∃ refusal, (ledger.heap.release 512 24 8).outcome = .refused refusal ∧
        (ledger.heap.release 512 24 8).state = ledger.heap := by
  intro ledger
  have hfresh : Heap.zeroed.Fresh := Or.inl rfl
  have hadmits : AdmitsAll step Admits ⟨Heap.zeroed, []⟩ [.allocate 8 16] :=
    ⟨admits_allocate, trivial⟩
  have hlive : ledger.live = [⟨512, 16⟩] := congrArg live run_allocate_first
  have haccepted : (ledger.heap.release 512 9 8).outcome = .ok () := by
    have hiff := (release_accepted_iff hfresh hadmits 512 (show 0 < 9 by decide)
      (show 8 ∈ [1, 2, 4, 8] by decide)).1
    refine hiff.mpr ⟨?_, ?_⟩
    · exact ⟨by decide, by decide, by decide, by decide,
        fun _ ↦ ⟨0, by decide, by decide, by decide⟩, fun hpage ↦ absurd hpage (by decide)⟩
    · intro granule hcovers
      exact ⟨⟨512, 16⟩, hlive ▸ List.mem_cons_self, hcovers⟩
  have hrefused := release_accepted_iff hfresh hadmits 512 (show 0 < 24 by decide)
    (show 8 ∈ [1, 2, 4, 8] by decide)
  refine ⟨hfresh, hadmits, hlive, by decide, ⟨by decide, haccepted⟩, by decide, ?_⟩
  refine hrefused.2.2.resolve_left fun hok ↦ ?_
  -- The third of the three granules is free.
  obtain ⟨owner, howner, hcovers⟩ :=
    (hrefused.1.mp hok).2 2 ⟨show 512 ≤ 528 by decide, show 528 + 8 ≤ 512 + 24 by decide⟩
  change owner ∈ ledger.live at howner
  rw [hlive] at howner
  rw [List.mem_singleton.mp howner] at hcovers
  exact absurd hcovers.2 (show ¬ 528 + 8 ≤ 512 + 16 by decide)

end Ledger

end LinearHeap
