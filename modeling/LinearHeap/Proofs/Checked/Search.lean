import LinearHeap.FirstFit
import LinearHeap.Proofs.Checked.Pages

/-!
# Searches under checks

Space for a request is looked for bit by bit inside a page, and word by word for whole pages, and
what is found is marked at once. Each loop is the scan of `firstRun?` (`findRunFrom_eq`,
`claimGranulesFrom_eq`, `claimPagesFrom_eq`), by induction on what is left to look at. That the
space they find is free, so that it can be marked, is then a fact about first fit alone.

`claim_eq` puts the two together: a search for some bytes ends where first fit does, the heap after
it is the one with that window filled, and the offset plus the bytes does not lie past the region.
-/

set_option autoImplicit false
set_option relaxedAutoImplicit false

namespace LinearHeap

namespace Checked

/-! ### Runs of clear bits -/

/-- Looks at `remaining` bits from a place on, with `count` clear ones just before them. -/
def findRunFrom (word : Word) (length : Nat) :
    (remaining bit count : Nat) → Checked (Option Nat)
  | 0, _, _ => .ok none
  | remaining + 1, bit, count => do
    let shifted ← shiftRight word bit
    if shifted &&& 1#_ = 0#_ then do
      let count ← add count 1
      if count = length then do
        let stop ← add bit 1
        let start ← sub stop count
        return some start
      else findRunFrom word length remaining (bit + 1) count
    else findRunFrom word length remaining (bit + 1) 0

/-- The first place of a word from which on so many bits are clear. -/
def findRun (word : Word) (length : Nat) : Checked (Option Nat) :=
  findRunFrom word length Layout.granulesPerPage 0 0

/-- The search in a word is the scan for a run of clear bits. -/
theorem findRunFrom_eq {word : Word} {length remaining bit count : Nat}
    (hbit : bit + remaining ≤ Layout.granulesPerPage) (hcount : count ≤ bit) :
    findRunFrom word length remaining bit count =
      .ok (scanRun (fun bit ↦ !word.getLsbD bit) length remaining bit count) := by
  induction remaining generalizing bit count with
  | zero => rfl
  | succ remaining ih =>
    have hrange : bit + 1 < UInt64.size := by
      rw [Layout.granulesPerPage] at hbit
      rw [UInt64.size]
      omega
    rw [findRunFrom, shiftRight_eq (by omega), ok_bind, scanRun]
    by_cases hclear : word.getLsbD bit = false
    · have hfree : (!word.getLsbD bit) = true := by rw [hclear, Bool.not_false]
      rw [if_pos (shiftRight_and_one_eq_zero_iff.mpr hclear),
        add_eq (Nat.lt_of_le_of_lt (Nat.add_le_add_right hcount 1) hrange), ok_bind, if_pos hfree]
      split
      · rw [add_eq hrange, ok_bind, sub_eq (by omega), ok_bind, Nat.add_sub_add_right]
        rfl
      · exact ih (by omega) (by omega)
    · have htaken : ¬ (!word.getLsbD bit) = true := by rwa [Bool.not_eq_true']
      rw [if_neg (mt shiftRight_and_one_eq_zero_iff.mp hclear), if_neg htaken]
      exact ih (by omega) (Nat.zero_le _)

theorem findRun_eq (word : Word) (length : Nat) :
    findRun word length =
      .ok (firstRun? (fun bit ↦ !word.getLsbD bit) length Layout.granulesPerPage) :=
  findRunFrom_eq (Nat.le_of_eq (Nat.zero_add _)) (Nat.le_refl 0)

/-! ### Granules of one page -/

/-- Looks at `remaining` words from one on, for a run of granules to mark. -/
def claimGranulesFrom (region : Region) (granules : Nat) :
    (remaining index : Nat) → Checked (Option (Nat × Region))
  | 0, _ => .ok none
  | remaining + 1, index => do
    let word ← loadWord region index
    if word = BitVec.allOnes _ then claimGranulesFrom region granules remaining (index + 1)
    else do
      let found ← findRun word granules
      match found with
      | none => claimGranulesFrom region granules remaining (index + 1)
      | some start => do
        let base ← mul index Layout.granulesPerPage
        let granule ← add base start
        let marked ← occupyGranules region granule granules
        return some (granule, marked)

/-- Finds and marks the first run of granules inside a page; its first granule. -/
def claimGranules (region : Region) (granules : Nat) : Checked (Option (Nat × Region)) :=
  if 1 ≤ granules ∧ granules ≤ Layout.granulesPerPage then
    claimGranulesFrom region granules Layout.bitmapWords 0
  else .error (.fault (.granuleRun granules))

/-- What a search gives that marks the place it has found, if it has found one. -/
def markFound (found : Option Nat) (mark : Nat → Checked Region) :
    Checked (Option (Nat × Region)) :=
  match found with
  | none => .ok none
  | some place => do
    let marked ← mark place
    return some (place, marked)

section Granules

variable {heap : Heap} {granules remaining index : Nat}

/-- The search through the words is that of first fit, and marks what it finds. -/
theorem claimGranulesFrom_eq (hpos : 0 < granules)
    (hindex : index + remaining ≤ Layout.bitmapWords) :
    claimGranulesFrom heap.region granules remaining index =
      markFound ((List.range' index remaining).findSome? fun index ↦
        let word := heap.bitmap.word index
        if word = BitVec.allOnes _ then none
        else (firstRun? (fun bit ↦ !word.getLsbD bit) granules Layout.granulesPerPage).map
          (index * Layout.granulesPerPage + ·))
        (fun granule ↦ occupyGranules heap.region granule granules) := by
  induction remaining generalizing index with
  | zero => rfl
  | succ remaining ih =>
    rw [claimGranulesFrom, loadWord_eq heap (by omega), ok_bind, List.range'_succ,
      List.findSome?_cons]
    dsimp only
    split
    · exact ih (by omega)
    · rw [findRun_eq, ok_bind]
      split
      · next hnone =>
        rw [hnone]
        exact ih (by omega)
      · next start hstart =>
        have hrun := ((firstRun?_eq_some_iff hpos).mp hstart).1.1
        rw [Layout.bitmapWords_eq] at hindex
        have hbase : index * Layout.granulesPerPage < UInt64.size := by
          rw [Layout.granulesPerPage, UInt64.size]
          omega
        have hgranule : index * Layout.granulesPerPage + start < UInt64.size := by
          rw [Layout.granulesPerPage] at *
          rw [UInt64.size]
          omega
        rw [hstart, mul_eq hbase, ok_bind, add_eq hgranule]
        rfl

/-- A run of granules is found where first fit finds it, and it can be marked. -/
theorem claimGranules_eq (heap : Heap) (h : (SizeClass.small granules).Searchable) :
    claimGranules heap.region granules =
      .ok ((heap.bitmap.firstFit? (.small granules)).map fun first ↦ (first,
        (heap.setBitmap (heap.bitmap.fill ((SizeClass.small granules).window first))).region)) := by
  rw [claimGranules, if_pos (show 1 ≤ granules ∧ granules ≤ _ from h),
    claimGranulesFrom_eq h.1 (Nat.le_of_eq (Nat.zero_add _))]
  change markFound (heap.bitmap.firstFit? (.small granules)) _ = _
  cases hfound : heap.bitmap.firstFit? (.small granules) with
  | none => rfl
  | some first =>
    obtain ⟨hfirst, _, hpage, hfree⟩ := ((Bitmap.firstFit?_eq_some_iff h).mp hfound).1
    have hmark := occupyGranules_eq heap hfirst hpage hfree
    dsimp only [SizeClass.window, SizeClass.granuleCount] at hmark
    rw [markFound, hmark]
    rfl

end Granules

/-! ### Whole pages -/

/-- Looks at `remaining` words from one on, with `count` free pages just before them, for a run of
pages to mark. -/
def claimPagesFrom (region : Region) (wanted : Nat) :
    (remaining index count : Nat) → Checked (Option (Nat × Region))
  | 0, _, _ => .ok none
  | remaining + 1, index, count => do
    let word ← loadWord region index
    if word = 0#_ then do
      let count ← add count 1
      if count = wanted then do
        let stop ← add index 1
        let first ← sub stop count
        let marked ← occupyPages region first (stop - first)
        return some (first, marked)
      else claimPagesFrom region wanted remaining (index + 1) count
    else claimPagesFrom region wanted remaining (index + 1) 0

/-- Finds and marks the first run of free pages; its first page. -/
def claimPages (region : Region) (wanted : Nat) : Checked (Option (Nat × Region)) :=
  if 0 < wanted then claimPagesFrom region wanted Layout.bitmapWords 0 0
  else .error (.fault .emptyPageRun)

section Pages

variable {heap : Heap} {wanted remaining index count : Nat}

/-- The search for pages is the scan for a run of free words, and marks what it finds. -/
theorem claimPagesFrom_eq (hindex : index + remaining ≤ Layout.bitmapWords)
    (hcount : count ≤ index) :
    claimPagesFrom heap.region wanted remaining index count =
      markFound (scanRun (fun index ↦ heap.bitmap.word index == 0#_) wanted remaining index count)
        (fun first ↦ occupyPages heap.region first wanted) := by
  induction remaining generalizing index count with
  | zero => rfl
  | succ remaining ih =>
    have hrange : index + 1 < UInt64.size := by
      rw [Layout.bitmapWords_eq] at hindex
      rw [UInt64.size]
      omega
    rw [claimPagesFrom, loadWord_eq heap (by omega), ok_bind, scanRun]
    simp only [beq_iff_eq]
    split
    · rw [add_eq (Nat.lt_of_le_of_lt (Nat.add_le_add_right hcount 1) hrange), ok_bind]
      split
      · next hwanted =>
        have hpages : index + 1 - (index - count) = wanted := by omega
        rw [add_eq hrange, ok_bind, sub_eq (by omega), ok_bind, Nat.add_sub_add_right, hpages]
        rfl
      · exact ih (by omega) (by omega)
    · exact ih (by omega) (Nat.zero_le _)

/-- A run of pages is found where first fit finds it, and it can be marked. -/
theorem claimPages_eq (heap : Heap) (h : (SizeClass.large wanted).Searchable) :
    claimPages heap.region wanted =
      .ok ((heap.bitmap.firstPages? wanted).map fun first ↦ (first,
        (heap.setBitmap (heap.bitmap.fill (pages first wanted))).region)) := by
  rw [claimPages, if_pos (show 0 < wanted from h),
    claimPagesFrom_eq (Nat.le_of_eq (Nat.zero_add _)) (Nat.le_refl 0)]
  change markFound (heap.bitmap.firstPages? wanted) _ = _
  cases hfound : heap.bitmap.firstPages? wanted with
  | none => rfl
  | some first =>
    have hrun := ((firstRun?_eq_some_iff h).mp hfound).1
    obtain ⟨_, _, _, hfree⟩ := (Bitmap.isRun_word_iff h).mp hrun
    rw [markFound, occupyPages_eq heap hrun.1 hfree]
    rfl

end Pages

/-! ### Space of a size class -/

/-- Finds and marks space of a size class; its offset. -/
def claimSpace (region : Region) : SizeClass → Checked (Option (Nat × Region))
  | .small granules => do
    match ← claimGranules region granules with
    | none => return none
    | some (granule, marked) => do
      let offset ← granuleOffset granule
      return some (offset, marked)
  | .large wanted => do
    match ← claimPages region wanted with
    | none => return none
    | some (page, marked) => do
      let offset ← pageOffset page
      return some (offset, marked)

/-- Finds and marks space for a positive number of bytes; its offset and size class. -/
def claim (region : Region) (size : Nat) : Checked (Option (Nat × SizeClass × Region)) := do
  let sizeClass ← sizeClass size
  match ← claimSpace region sizeClass with
  | none => return none
  | some (offset, marked) => do
    let stop ← add offset size
    if stop ≤ Layout.capacity then return some (offset, sizeClass, marked)
    else .error (.fault (.overrun offset size))

section Claim

variable {sizeClass : SizeClass} {size : Nat}

/-- Space of a size class is found and marked where first fit finds it. -/
theorem claimSpace_eq (heap : Heap) (h : sizeClass.Searchable) :
    claimSpace heap.region sizeClass =
      .ok ((heap.bitmap.firstFit? sizeClass).map fun first ↦ (Layout.granuleOffset first,
        (heap.setBitmap (heap.bitmap.fill (sizeClass.window first))).region)) := by
  cases sizeClass with
  | small granules =>
    rw [claimSpace, claimGranules_eq heap h, ok_bind]
    cases hfound : heap.bitmap.firstFit? (.small granules) with
    | none => rfl
    | some first =>
      have hfirst := ((Bitmap.firstFit?_eq_some_iff h).mp hfound).1.1
      rw [Option.map_some]
      dsimp only
      rw [granuleOffset_eq hfirst]
      rfl
  | large wanted =>
    rw [claimSpace, claimPages_eq heap h, ok_bind, Bitmap.firstFit?]
    cases hfound : heap.bitmap.firstPages? wanted with
    | none => rfl
    | some page =>
      have hbound := ((firstRun?_eq_some_iff h).mp hfound).1.1
      have hpage : page < Layout.bitmapWords :=
        Nat.lt_of_lt_of_le (Nat.lt_add_of_pos_right h) hbound
      rw [Option.map_some]
      dsimp only
      rw [pageOffset_eq hpage]
      rfl

/-- Space for some bytes is found and marked where first fit finds it, and it ends inside the
region. -/
theorem claim_eq (heap : Heap) (hpos : 0 < size) (hsize : size < UInt64.size) :
    claim heap.region size =
      .ok ((heap.bitmap.firstFit? (.ofSize size)).map fun first ↦
        (Layout.granuleOffset first, .ofSize size,
          (heap.setBitmap (heap.bitmap.fill ((SizeClass.ofSize size).window first))).region)) := by
  have hsearchable := SizeClass.searchable_ofSize hpos
  rw [claim, sizeClass_eq hpos hsize, ok_bind, claimSpace_eq heap hsearchable, ok_bind]
  cases hfound : heap.bitmap.firstFit? (.ofSize size) with
  | none => rfl
  | some first =>
    have hend := ((Bitmap.firstFit?_eq_some_iff hsearchable).mp hfound).1.offset_add_le
    rw [Option.map_some]
    dsimp only
    rw [add_eq (Nat.lt_of_le_of_lt hend (by decide)), ok_bind, if_pos hend]
    rfl

end Claim

end Checked

end LinearHeap
