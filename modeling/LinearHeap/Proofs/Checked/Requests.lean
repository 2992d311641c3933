import LinearHeap.Proofs.Checked.Search
import LinearHeap.Proofs.Effects

/-!
# Requests under checks

The requests of a heap, done step by step. Every number is kept in 64 bits, the bitmap is touched
word by word in the region, and each step is checked before it is taken: sums, differences and
products, the amounts of shifts, the indices of words, the places in the region, and the internal
checks on sizes, runs, free windows and the end of an allocation, also when a window is put back
after a resize that found no room.

`no_step_is_impossible` says that none of these checks ever fails, whatever the region holds and
whatever the arguments are, and that the requests do what the heap says they do. The parts are one
equation for each: `giveBack_eq` for the checks of a release, `restore_returned` for the way back,
`place_eq` for a request for space.
-/

set_option autoImplicit false
set_option relaxedAutoImplicit false

namespace LinearHeap

namespace Checked

/-! ### Releases -/

/-- The granules or pages that were given back: the first and their number. -/
inductive Released where
  | granules (first count : Nat)
  | pages (first count : Nat)
  deriving DecidableEq, Repr

/-- Marks what was given back again. -/
def Released.restore (region : Region) : Released → Checked Region
  | granules first count => occupyGranules region first count
  | pages first count => do
    let stop ← add first count
    occupyPages region first (stop - first)

/-- Marks again what was given back, if something was. -/
def putBack (region : Region) : Option Released → Checked Region
  | none => .ok region
  | some released => released.restore region

/-- Takes back space of a size class, so many bytes behind the start of the heap, if it is all
marked. -/
def takeBack (region : Region) (relative : Nat) :
    SizeClass → Checked (Option (Released × Region))
  | .small granules => do
    let first := relative / Layout.granuleBytes
    match ← releaseGranules region first granules with
    | none => return none
    | some cleared => return some (.granules first granules, cleared)
  | .large count => do
    let first := relative / Layout.pageBytes
    match ← releasePages region first count with
    | none => return none
    | some cleared => return some (.pages first count, cleared)

/-- Gives back a positive number of bytes at an offset, or refuses to. -/
def giveBack (region : Region) (offset size : Nat) :
    Checked (Except Refusal (Released × Region)) :=
  if Layout.heapStart ≤ offset ∧ (add? offset size).any (· ≤ Layout.capacity) then do
    let relative ← sub offset Layout.heapStart
    let sizeClass ← sizeClass size
    if relative % sizeClass.unit = 0 then do
      match ← takeBack region relative sizeClass with
      | none => return .error (.notAllocated offset size)
      | some result => return .ok result
    else return .error (.misaligned offset sizeClass.unit)
  else return .error (.outOfBounds offset size)

/-! ### Requests -/

/-- Serves a request for space, before which something may have been given back. -/
def place (region : Region) (align : Alignment) (size : Nat) (released : Option Released) :
    Checked (Reply Region Refusal Nat) :=
  if size = 0 then do
    let offset ← sentinel align
    return ⟨.ok offset, region, []⟩
  else do
    match ← claim region size with
    | some (offset, sizeClass, marked) =>
      return ⟨.ok offset, marked, [.allocated size offset sizeClass]⟩
    | none => do
      let restored ← putBack region released
      let unused ← free restored
      return ⟨.refused (.outOfMemory size), restored, [.exhausted size unused]⟩

/-- Gives back the old space, if there is any, and then asks for new space. -/
def resize (region : Region) (oldOffset oldSize align newSize : Nat) :
    Checked (Reply Region Refusal Nat) :=
  match Alignment.ofNat? align with
  | none => return ⟨.refused (.unsupportedAlign align), region, []⟩
  | some alignment =>
    if oldSize = 0 then place region alignment newSize none
    else do
      match ← giveBack region oldOffset oldSize with
      | .ok (released, cleared) => do
        let reply ← place cleared alignment newSize (some released)
        return reply.after [.released oldSize oldOffset]
      | .error refusal => return ⟨.refused refusal, region, [.rejected refusal]⟩

/-- Asks for space. -/
def allocate (region : Region) (align size : Nat) : Checked (Reply Region Refusal Nat) :=
  resize region 0 0 align size

/-- Gives back space. -/
def release (region : Region) (offset size align : Nat) : Checked (Reply Region Refusal Unit) :=
  match Alignment.ofNat? align with
  | none => return ⟨.refused (.unsupportedAlign align), region, []⟩
  | some _ =>
    if size = 0 then return ⟨.ok (), region, []⟩
    else do
      match ← giveBack region offset size with
      | .ok (_, cleared) => return ⟨.ok (), cleared, [.released size offset]⟩
      | .error refusal => return ⟨.refused refusal, region, [.rejected refusal]⟩

/-! ### Space that is given back -/

/-- What is remembered of a window that was given back. -/
def returned (window : Window) : SizeClass → Released
  | .small granules => .granules window.first granules
  | .large count => .pages (window.first / Layout.granulesPerPage) count

section Release

variable {offset size : Nat} {window : Window}

private theorem bounds_iff :
    (Layout.heapStart ≤ offset ∧ (add? offset size).any (· ≤ Layout.capacity) = true) ↔
      ¬ (offset < Layout.heapStart ∨ Layout.capacity < offset + size) := by
  rw [add?]
  split
  · simp only [Option.any_some, decide_eq_true_eq]
    omega
  · next hrange =>
    have hcapacity : Layout.capacity < UInt64.size := by decide
    refine iff_of_false (fun h ↦ Bool.false_ne_true h.2) (not_not_intro (Or.inr ?_))
    exact Nat.lt_of_lt_of_le hcapacity (Nat.le_of_not_lt hrange)

private theorem count_ofSize_le_size (size : Nat) : (SizeClass.ofSize size).count ≤ size := by
  rw [SizeClass.ofSize]
  split <;> simp only [SizeClass.count, Layout.pageBytes_eq, Layout.granuleBytes] <;> omega

/-- Space of a size class is taken back if the class admits its window, and that is all marked. -/
theorem takeBack_eq (heap : Heap) {relative : Nat} {sizeClass : SizeClass}
    (hsearchable : sizeClass.Searchable) (hunit : relative % sizeClass.unit = 0)
    (hfirst : relative / Layout.granuleBytes < Layout.heapGranules)
    (hcount : sizeClass.count ≤ Layout.capacity)
    (hwindow : window = sizeClass.window (relative / Layout.granuleBytes)) :
    takeBack heap.region relative sizeClass =
      .ok (if sizeClass.Admits window ∧ heap.bitmap.isFull window = true then
        some (returned window sizeClass, (heap.setBitmap (heap.bitmap.clear window)).region)
      else none) := by
  have hstart : window.first = relative / Layout.granuleBytes := congrArg Window.first hwindow
  cases sizeClass with
  | small granules =>
    have hgranules : window.count = granules := congrArg Window.count hwindow
    have hrelease : releaseGranules heap.region window.first window.count = _ :=
      releaseGranules_eq heap (hstart ▸ hfirst) (hgranules ▸ hsearchable.2)
    rw [hstart, hgranules] at hrelease
    rw [takeBack, hrelease, ok_bind]
    by_cases hfull : window.InOnePage ∧ heap.bitmap.isFull window = true
    · rw [if_pos hfull, if_pos (show (SizeClass.small granules).Admits window ∧ _ from hfull),
        returned, hstart]
      rfl
    · rw [if_neg hfull, if_neg (show ¬ ((SizeClass.small granules).Admits window ∧ _) from hfull)]
      rfl
  | large count =>
    have hpage : relative / Layout.pageBytes * Layout.granulesPerPage =
        relative / Layout.granuleBytes := by
      simp only [SizeClass.unit, Layout.pageBytes_eq, Layout.granulesPerPage,
        Layout.granuleBytes] at *
      omega
    have hpages : pages (relative / Layout.pageBytes) count = window := by
      rw [hwindow, pages, hpage]
    have hlast : window.first / Layout.granulesPerPage = relative / Layout.pageBytes := by
      rw [hstart, ← hpage, Nat.mul_div_cancel _ (by decide)]
    have hrange : relative / Layout.pageBytes + count < UInt64.size := by
      change count ≤ Layout.capacity at hcount
      rw [Layout.capacity_eq] at hcount
      rw [Layout.heapGranules_eq, ← hpage, Layout.granulesPerPage] at hfirst
      rw [UInt64.size]
      omega
    rw [takeBack, releasePages_eq heap hrange, ok_bind, hpages]
    by_cases hfull : window.InHeap ∧ heap.bitmap.isFull window = true
    · rw [if_pos hfull, if_pos (show (SizeClass.large count).Admits window ∧ _ from hfull),
        returned, hlast]
      rfl
    · rw [if_neg hfull, if_neg (show ¬ ((SizeClass.large count).Admits window ∧ _) from hfull)]
      rfl

/-- A release passes the checks that the heap makes, in their order, and takes back the window. -/
theorem giveBack_eq (heap : Heap) (hpos : 0 < size) (hsize : size < UInt64.size) :
    giveBack heap.region offset size =
      match heap.bitmap.releasable offset size with
      | .ok window => .ok (.ok (returned window (.ofSize size),
          (heap.setBitmap (heap.bitmap.clear window)).region))
      | .refused refusal => .ok (.error refusal)
      | .fault cause => .error (.fault cause) := by
  rw [giveBack, Bitmap.releasable_eq _ _ hpos]
  by_cases hbounds : offset < Layout.heapStart ∨ Layout.capacity < offset + size
  · rw [if_neg (mt bounds_iff.mp (not_not_intro hbounds)), if_pos hbounds]
    rfl
  · rw [if_pos (bounds_iff.mpr hbounds), if_neg hbounds, sub_eq (by omega), ok_bind,
      sizeClass_eq hpos hsize, ok_bind]
    have hfirst : (offset - Layout.heapStart) / Layout.granuleBytes < Layout.heapGranules := by
      simp only [Layout.heapStart_eq, Layout.capacity_eq, Layout.granuleBytes,
        Layout.heapGranules_eq] at *
      omega
    have hcount : (SizeClass.ofSize size).count ≤ Layout.capacity :=
      Nat.le_trans (count_ofSize_le_size size) (by omega)
    by_cases hunit : (offset - Layout.heapStart) % (SizeClass.ofSize size).unit = 0
    · rw [if_pos hunit, if_neg (not_not_intro hunit),
        takeBack_eq heap (SizeClass.searchable_ofSize hpos) hunit hfirst hcount
          (show (Allocation.mk offset size).window = _ from rfl), ok_bind]
      by_cases hfull : (SizeClass.ofSize size).Admits (Allocation.mk offset size).window ∧
          heap.bitmap.isFull (Allocation.mk offset size).window = true
      · rw [if_pos hfull, if_pos hfull]
        rfl
      · rw [if_neg hfull, if_neg hfull]
        rfl
    · rw [if_neg hunit, if_pos hunit]
      rfl

/-- A free window that its size class admits is marked, whole or within one page. -/
theorem restore_eq (heap : Heap) {sizeClass : SizeClass} (hadmits : sizeClass.Admits window)
    (hfirst : window.first < Layout.heapGranules)
    (hunit : window.first * Layout.granuleBytes % sizeClass.unit = 0)
    (hcount : window.count = sizeClass.granuleCount) (hfree : heap.bitmap.isFree window = true) :
    (returned window sizeClass).restore heap.region =
      .ok (heap.setBitmap (heap.bitmap.fill window)).region := by
  cases sizeClass with
  | small granules =>
    change window.count = granules at hcount
    rw [returned, Released.restore, ← hcount, occupyGranules_eq heap hfirst hadmits hfree]
  | large count =>
    obtain ⟨page, hpage⟩ : ∃ page, window.first = page * Layout.granulesPerPage := by
      refine ⟨window.first / Layout.granulesPerPage, ?_⟩
      simp only [SizeClass.unit, Layout.pageBytes_eq, Layout.granuleBytes,
        Layout.granulesPerPage] at *
      omega
    have hpages : window = pages page count := by
      rw [pages, ← hpage]
      exact congrArg (Window.mk window.first) hcount
    subst hpages
    have hbound := inHeap_pages_iff.mp hadmits
    have hrange : page + count < UInt64.size := Nat.lt_of_le_of_lt hbound (by decide)
    rw [returned, Released.restore, hpage, Nat.mul_div_cancel _ (by decide), add_eq hrange, ok_bind,
      Nat.add_sub_cancel_left, occupyPages_eq heap hbound hfree]

private theorem granuleBytes_dvd_unit (sizeClass : SizeClass) :
    Layout.granuleBytes ∣ sizeClass.unit := by
  cases sizeClass with
  | small granules => exact Nat.dvd_refl _
  | large count => exact Nat.dvd_mul_right _ _

/-- What was given back can be marked again, and then nothing has changed. -/
theorem restore_returned (heap : Heap) (hpos : 0 < size)
    (h : heap.bitmap.releasable offset size = .ok window) :
    (returned window (.ofSize size)).restore
        (heap.setBitmap (heap.bitmap.clear window)).region = .ok heap.region := by
  obtain ⟨hbounds, hunit, hadmits, hfull, hwindow⟩ := (Bitmap.releasable_eq_ok_iff hpos).mp h
  have hheap := (Bitmap.isFull_of_releasable h).1
  have hfree : (heap.setBitmap (heap.bitmap.clear window)).bitmap.isFree window = true := by
    rw [Heap.bitmap_setBitmap]
    exact heap.bitmap.isFree_clear window
  have hfirst : window.first = (offset - Layout.heapStart) / Layout.granuleBytes :=
    congrArg Window.first hwindow
  have hwhole : window.first * Layout.granuleBytes = offset - Layout.heapStart := by
    rw [hfirst]
    exact Nat.div_mul_cancel
      (Nat.dvd_trans (granuleBytes_dvd_unit _) (Nat.dvd_of_mod_eq_zero hunit))
  have hlt : window.first < Layout.heapGranules := by
    simp only [Layout.heapStart_eq, Layout.capacity_eq, Layout.granuleBytes,
      Layout.heapGranules_eq] at *
    omega
  rw [restore_eq _ hadmits hlt (hwhole ▸ hunit) (congrArg Window.count hwindow) hfree,
    Heap.bitmap_setBitmap, Heap.setBitmap_setBitmap, Bitmap.fill_clear hheap hfull,
    Heap.setBitmap_bitmap]

end Release

/-! ### Requests as a whole -/

section Requests

variable {ε α : Type} {align size : Nat}

/-- A reply of a bitmap, told of the region that the bitmap stands in. -/
def inRegion (heap : Heap) (reply : Reply Bitmap ε α) : Reply Region ε α :=
  reply.withState (heap.setBitmap reply.state).region

/-- A reply that leaves the bitmap alone leaves the region alone. -/
theorem inRegion_bitmap (heap : Heap) (outcome : Outcome ε α) (journal : List Record) :
    inRegion heap ⟨outcome, heap.bitmap, journal⟩ = ⟨outcome, heap.region, journal⟩ := by
  rw [inRegion, Reply.withState, Heap.setBitmap_bitmap]

/-- A request for space whose steps are checked is that of the bitmap, if what was given back before
it can be put back. -/
theorem place_eq (heap : Heap) (alignment : Alignment) (hsize : size < UInt64.size)
    {released : Option Released} {window : Option Window} {restored : Bitmap}
    (hback : heap.bitmap.putBack window = .ok restored)
    (hrestore : putBack heap.region released = .ok (heap.setBitmap restored).region) :
    place heap.region alignment size released =
      .ok (inRegion heap (heap.bitmap.place alignment size window)) := by
  rw [place]
  split
  · next hzero =>
    rw [hzero, Bitmap.place_zero, sentinel_eq, ok_bind, Alignment.sentinel_eq, inRegion_bitmap]
    rfl
  · next hne =>
    have hpos := Nat.pos_of_ne_zero hne
    rw [claim_eq heap hpos hsize, ok_bind]
    cases hfound : heap.bitmap.firstFit? (.ofSize size) with
    | none =>
      rw [Bitmap.place_of_none alignment hpos hfound hback, Option.map_none]
      dsimp only
      rw [hrestore, ok_bind, free_eq, ok_bind, Heap.free, Heap.bitmap_setBitmap]
      rfl
    | some first =>
      rw [Bitmap.place_of_some alignment window hpos hfound]
      rfl

/-- A resize whose steps are checked is the resize of the heap. -/
theorem resize_eq (heap : Heap) {oldOffset oldSize newSize : Nat} (hold : oldSize < UInt64.size)
    (hnew : newSize < UInt64.size) :
    resize heap.region oldOffset oldSize align newSize =
      .ok (inRegion heap (heap.bitmap.resize oldOffset oldSize align newSize)) := by
  rw [resize, Bitmap.resize]
  cases halign : Alignment.ofNat? align with
  | none =>
    dsimp only
    rw [inRegion_bitmap]
    rfl
  | some alignment =>
    dsimp only
    split
    · exact place_eq heap alignment hnew rfl (by rw [Heap.setBitmap_bitmap]; rfl)
    · next hne =>
      have hpos := Nat.pos_of_ne_zero hne
      rw [giveBack_eq heap hpos hold]
      cases hchecks : heap.bitmap.releasable oldOffset oldSize with
      | ok window =>
        rw [Bitmap.giveBack_of_ok hchecks, ok_bind]
        dsimp only
        have hrestore : putBack (heap.setBitmap (heap.bitmap.clear window)).region
            (some (returned window (.ofSize oldSize))) = .ok
              ((heap.setBitmap (heap.bitmap.clear window)).setBitmap heap.bitmap).region := by
          rw [Heap.setBitmap_setBitmap, Heap.setBitmap_bitmap]
          exact restore_returned heap hpos hchecks
        have hback := Bitmap.putBack_clear hchecks
        rw [← heap.bitmap_setBitmap (heap.bitmap.clear window)] at hback
        rw [place_eq _ alignment hnew hback hrestore, ok_bind, inRegion, Heap.setBitmap_setBitmap,
          Heap.bitmap_setBitmap]
        rfl
      | refused refusal =>
        rw [Bitmap.giveBack_of_refused hchecks, ok_bind, inRegion_bitmap]
        rfl
      | fault cause => exact absurd hchecks (heap.bitmap.releasable_ne_fault oldOffset hpos cause)

/-- A release whose steps are checked is the release of the heap. -/
theorem release_eq (heap : Heap) {offset : Nat} (hsize : size < UInt64.size) :
    release heap.region offset size align =
      .ok (inRegion heap (heap.bitmap.release offset size align)) := by
  rw [release, Bitmap.release]
  cases halign : Alignment.ofNat? align with
  | none =>
    dsimp only
    rw [inRegion_bitmap]
    rfl
  | some alignment =>
    dsimp only
    split
    · rw [inRegion_bitmap]
      rfl
    · next hne =>
      have hpos := Nat.pos_of_ne_zero hne
      rw [giveBack_eq heap hpos hsize]
      cases hchecks : heap.bitmap.releasable offset size with
      | ok window =>
        rw [Bitmap.giveBack_of_ok hchecks]
        rfl
      | refused refusal =>
        rw [Bitmap.giveBack_of_refused hchecks, ok_bind, inRegion_bitmap]
        rfl
      | fault cause => exact absurd hchecks (heap.bitmap.releasable_ne_fault offset hpos cause)

end Requests

/-- A computation under checks comes to its end, with what a request of the heap gives; and that is
no fault. -/
structure RunsThrough {ε α : Type} (computation : Checked (Reply Region ε α))
    (reply : Reply Heap ε α) : Prop where
  eq_ok : computation = .ok (reply.withState reply.state.region)
  ne_fault : ∀ cause, reply.outcome ≠ .fault cause

theorem resize_runsThrough (heap : Heap) (oldOffset oldSize align newSize : UInt64) :
    RunsThrough (resize heap.region oldOffset.toNat oldSize.toNat align.toNat newSize.toNat)
      (heap.resize oldOffset.toNat oldSize.toNat align.toNat newSize.toNat) where
  eq_ok := resize_eq heap oldSize.toNat_lt newSize.toNat_lt
  ne_fault := fun cause ↦ by
    rw [Heap.outcome_resize]
    rcases heap.bitmap.resize_cases oldOffset.toNat oldSize.toNat align.toNat newSize.toNat with
      ⟨_, hrefused, _⟩ | ⟨_, _, hok, _⟩
    · rw [hrefused]
      exact nofun
    · rw [hok]
      exact nofun

theorem release_runsThrough (heap : Heap) (offset size align : UInt64) :
    RunsThrough (release heap.region offset.toNat size.toNat align.toNat)
      (heap.release offset.toNat size.toNat align.toNat) where
  eq_ok := release_eq heap size.toNat_lt
  ne_fault := fun cause ↦ by
    rw [Heap.outcome_release]
    rcases heap.bitmap.release_cases offset.toNat size.toNat align.toNat with
      ⟨_, hrefused, _⟩ | ⟨hok, _⟩
    · rw [hrefused]
      exact nofun
    · rw [hok]
      exact nofun

/-- No step of a request is impossible. Whatever a heap holds, and for all arguments of 64 bits:
done word by word, with every sum, difference, product, shift and access and every internal check
looked at, requests for space, resizes and releases come to an end with the outcome, the region and
the journal that the heap gives, none of which is a fault, and so do the looks at the bitmap. -/
theorem no_step_is_impossible (heap : Heap) :
    ((∀ align size : UInt64, RunsThrough (allocate heap.region align.toNat size.toNat)
        (heap.allocate align.toNat size.toNat)) ∧
      (∀ oldOffset oldSize align newSize : UInt64,
        RunsThrough
          (resize heap.region oldOffset.toNat oldSize.toNat align.toNat newSize.toNat)
          (heap.resize oldOffset.toNat oldSize.toNat align.toNat newSize.toNat)) ∧
      ∀ offset size align : UInt64,
        RunsThrough (release heap.region offset.toNat size.toNat align.toNat)
          (heap.release offset.toNat size.toNat align.toNat)) ∧
    (∀ index : UInt64, word? heap.region index.toNat = .ok (heap.word? index.toNat)) ∧
    (∀ granule : UInt64,
      isAllocated heap.region granule.toNat = .ok (heap.isAllocated granule.toNat)) ∧
    allocated heap.region = .ok heap.allocated ∧ free heap.region = .ok heap.free := by
  refine ⟨⟨fun align size ↦ ?_, resize_runsThrough heap, release_runsThrough heap⟩,
    fun index ↦ word?_eq heap index.toNat, fun granule ↦ isAllocated_eq heap granule.toNat,
    allocated_eq heap, free_eq heap⟩
  exact resize_runsThrough heap 0 0 align size

end Checked

end LinearHeap
