import LinearHeap.Proofs.Checked.Words

/-!
# Whole pages under checks

Whole pages are marked, tested and cleared word by word. Each of these loops is one operation on the
window of all the pages (`occupyPages_eq`, `fullPages_eq`, `clearPages_eq`), by induction on their
number: the first page is one word (`storeWord_allOnes`, `storeWord_zero`), and windows of pages
split into the first page and the rest (`fill_pages_succ`, `forall_mem_pages_succ`). A release of
pages (`releasePages_eq`) looks at all of them before it clears any.
-/

set_option autoImplicit false
set_option relaxedAutoImplicit false

namespace LinearHeap

namespace Checked

/-- The granules of so many pages from one on. -/
def pages (page count : Nat) : Window :=
  (SizeClass.large count).window (page * Layout.granulesPerPage)

/-- Marks so many pages from one on, each of which has to be free. -/
def occupyPages (region : Region) (page : Nat) : (count : Nat) → Checked Region
  | 0 => .ok region
  | count + 1 => do
    let word ← loadWord region page
    if word = 0#_ then do
      let marked ← storeWord region page (BitVec.allOnes _)
      occupyPages marked (page + 1) count
    else .error (.fault (.pageInUse page))

/-- So many pages from one on are all marked. -/
def fullPages (region : Region) (page : Nat) : (count : Nat) → Checked Bool
  | 0 => .ok true
  | count + 1 => do
    let word ← loadWord region page
    if word = BitVec.allOnes _ then fullPages region (page + 1) count else return false

/-- Takes back so many pages from one on. -/
def clearPages (region : Region) (page : Nat) : (count : Nat) → Checked Region
  | 0 => .ok region
  | count + 1 => do
    let cleared ← storeWord region page 0#_
    clearPages cleared (page + 1) count

/-- Takes whole pages back, if there are so many from the first on and all are marked. -/
def releasePages (region : Region) (first count : Nat) : Checked (Option Region) := do
  let stop ← add first count
  if stop ≤ Layout.bitmapWords then do
    let full ← fullPages region first (stop - first)
    if full then do
      let cleared ← clearPages region first (stop - first)
      return some cleared
    else return none
  else return none

section Pages

variable {bitmap : Bitmap} {page count : Nat}

theorem mem_pages_iff {granule : Nat} :
    granule ∈ pages page count ↔ page * 64 ≤ granule ∧ granule < (page + count) * 64 := by
  rw [Nat.add_mul]
  exact Iff.rfl

theorem inHeap_pages_iff : (pages page count).InHeap ↔ page + count ≤ Layout.bitmapWords := by
  rw [Window.InHeap, Layout.heapGranules_eq, Layout.bitmapWords_eq]
  change page * 64 + count * 64 ≤ 4096 ↔ _
  omega

theorem fill_pages_zero (bitmap : Bitmap) (page : Nat) : bitmap.fill (pages page 0) = bitmap := by
  apply Bitmap.ext
  intro granule
  have hout : ¬ granule ∈ pages page 0 := by
    rw [mem_pages_iff]
    omega
  exact bitmap.isSet_fill_of_not_mem hout

theorem clear_pages_zero (bitmap : Bitmap) (page : Nat) : bitmap.clear (pages page 0) = bitmap := by
  apply Bitmap.ext
  intro granule
  have hout : ¬ granule ∈ pages page 0 := by
    rw [mem_pages_iff]
    omega
  exact bitmap.isSet_clear_of_not_mem hout

/-- Filling pages one after the other fills them all. -/
theorem fill_pages_succ (bitmap : Bitmap) (page count : Nat) :
    (bitmap.fill (pages page 1)).fill (pages (page + 1) count) =
      bitmap.fill (pages page (count + 1)) := by
  apply Bitmap.ext
  intro granule
  simp only [Bitmap.isSet_fill, mem_pages_iff, Bool.or_assoc, ← Bool.decide_or]
  congr 2
  rw [eq_iff_iff]
  omega

/-- Clearing pages one after the other clears them all. -/
theorem clear_pages_succ (bitmap : Bitmap) (page count : Nat) :
    (bitmap.clear (pages page 1)).clear (pages (page + 1) count) =
      bitmap.clear (pages page (count + 1)) := by
  apply Bitmap.ext
  intro granule
  simp only [Bitmap.isSet_clear, mem_pages_iff, Bool.and_assoc, ← decide_not, ← Bool.decide_and]
  congr 2
  rw [eq_iff_iff]
  omega

/-- The granules of one page are the bits of its word. -/
theorem forall_mem_pages_one {p : Nat → Prop} :
    (∀ granule, granule ∈ pages page 1 → p granule) ↔
      ∀ bit, bit < Layout.granulesPerPage → p (page * Layout.granulesPerPage + bit) := by
  simp only [mem_pages_iff, Layout.granulesPerPage]
  constructor
  · exact fun h bit hbit ↦ h _ (by omega)
  · intro h granule hin
    have hsplit : page * 64 + granule % 64 = granule := by omega
    rw [← hsplit]
    exact h _ (Nat.mod_lt _ (by decide))

theorem isFull_pages_one (h : page < Layout.bitmapWords) :
    bitmap.isFull (pages page 1) = true ↔ bitmap.word page = BitVec.allOnes _ := by
  rw [Bitmap.isFull_iff (inHeap_pages_iff.mpr h), Bitmap.word_eq_allOnes_iff, forall_mem_pages_one]

theorem isFree_pages_one : bitmap.isFree (pages page 1) = true ↔ bitmap.word page = 0#_ := by
  rw [Bitmap.isFree_iff, Bitmap.word_eq_zero_iff, forall_mem_pages_one]

/-- A property of all granules of some pages is one of the first page and of those after it. -/
theorem forall_mem_pages_succ {p : Nat → Prop} :
    (∀ granule, granule ∈ pages page (count + 1) → p granule) ↔
      (∀ granule, granule ∈ pages page 1 → p granule) ∧
        ∀ granule, granule ∈ pages (page + 1) count → p granule := by
  simp only [mem_pages_iff]
  constructor
  · exact fun h ↦ ⟨fun granule hin ↦ h granule (by omega), fun granule hin ↦ h granule (by omega)⟩
  · rintro ⟨hfirst, hrest⟩ granule hin
    by_cases hpage : granule < (page + 1) * 64
    · exact hfirst granule (by omega)
    · exact hrest granule (by omega)

theorem isFree_pages_succ :
    bitmap.isFree (pages page (count + 1)) = true ↔
      bitmap.word page = 0#_ ∧ bitmap.isFree (pages (page + 1) count) = true := by
  rw [← isFree_pages_one]
  simp only [Bitmap.isFree_iff]
  exact forall_mem_pages_succ

theorem isFull_pages_succ (h : page + (count + 1) ≤ Layout.bitmapWords) :
    bitmap.isFull (pages page (count + 1)) = true ↔
      bitmap.word page = BitVec.allOnes _ ∧ bitmap.isFull (pages (page + 1) count) = true := by
  rw [← isFull_pages_one (by omega), Bitmap.isFull_iff (inHeap_pages_iff.mpr h),
    Bitmap.isFull_iff (inHeap_pages_iff.mpr (by omega)),
    Bitmap.isFull_iff (inHeap_pages_iff.mpr (by omega))]
  exact forall_mem_pages_succ

private theorem first_pages (page count : Nat) :
    (pages page count).first / Layout.granulesPerPage = page :=
  Nat.mul_div_cancel page (by decide)

private theorem inOnePage_pages_one (page : Nat) : (pages page 1).InOnePage := by
  change page * 64 % 64 + 1 * 64 ≤ 64
  omega

private theorem first_pages_lt (h : page < Layout.bitmapWords) :
    (pages page 1).first < Layout.heapGranules :=
  Nat.mul_lt_mul_of_pos_right h (by decide)

/-- One page is marked by one word. -/
theorem storeWord_allOnes (heap : Heap) (h : page < Layout.bitmapWords) :
    storeWord heap.region page (BitVec.allOnes _) =
      .ok (heap.setBitmap (heap.bitmap.fill (pages page 1))).region := by
  have hstore := storeWord_window heap (first_pages_lt h) (inOnePage_pages_one page) rfl
    fun granule hout ↦ heap.bitmap.isSet_fill_of_not_mem hout
  rwa [first_pages, (isFull_pages_one h).mp (heap.bitmap.isFull_fill (inHeap_pages_iff.mpr h))]
    at hstore

/-- One page is cleared by one word. -/
theorem storeWord_zero (heap : Heap) (h : page < Layout.bitmapWords) :
    storeWord heap.region page 0#_ =
      .ok (heap.setBitmap (heap.bitmap.clear (pages page 1))).region := by
  have hstore := storeWord_window heap (first_pages_lt h) (inOnePage_pages_one page) rfl
    fun granule hout ↦ heap.bitmap.isSet_clear_of_not_mem hout
  rwa [first_pages, isFree_pages_one.mp (heap.bitmap.isFree_clear _)] at hstore

/-- Free pages are marked one after the other. -/
theorem occupyPages_eq (heap : Heap) (hbound : page + count ≤ Layout.bitmapWords)
    (hfree : heap.bitmap.isFree (pages page count) = true) :
    occupyPages heap.region page count =
      .ok (heap.setBitmap (heap.bitmap.fill (pages page count))).region := by
  induction count generalizing heap page with
  | zero =>
    rw [fill_pages_zero, Heap.setBitmap_bitmap]
    rfl
  | succ count ih =>
    obtain ⟨hword, hrest⟩ := isFree_pages_succ.mp hfree
    have hpage : page < Layout.bitmapWords := by omega
    have hstill : (heap.bitmap.fill (pages page 1)).isFree (pages (page + 1) count) = true := by
      rw [Bitmap.isFree_iff] at hrest ⊢
      intro granule hin
      have hout : ¬ granule ∈ pages page 1 := by
        rw [mem_pages_iff] at hin ⊢
        omega
      rw [heap.bitmap.isSet_fill_of_not_mem hout, hrest granule hin]
    rw [← heap.bitmap_setBitmap (heap.bitmap.fill (pages page 1))] at hstill
    rw [occupyPages, loadWord_eq heap hpage, ok_bind, if_pos hword, storeWord_allOnes heap hpage,
      ok_bind, ih _ (by omega) hstill, Heap.bitmap_setBitmap, Heap.setBitmap_setBitmap,
      fill_pages_succ]

/-- Whether pages are all marked is found word by word. -/
theorem fullPages_eq (heap : Heap) (hbound : page + count ≤ Layout.bitmapWords) :
    fullPages heap.region page count = .ok (heap.bitmap.isFull (pages page count)) := by
  induction count generalizing page with
  | zero =>
    have hfull : heap.bitmap.isFull (pages page 0) = true := by
      rw [Bitmap.isFull_iff (inHeap_pages_iff.mpr hbound)]
      intro granule hin
      rw [mem_pages_iff] at hin
      omega
    rw [hfull]
    rfl
  | succ count ih =>
    have hpage : page < Layout.bitmapWords := by omega
    have hsucc : heap.bitmap.isFull (pages page (count + 1)) = true ↔ _ ∧ _ :=
      isFull_pages_succ hbound
    rw [fullPages, loadWord_eq heap hpage, ok_bind]
    split
    · next hword =>
      rw [ih (by omega)]
      exact congrArg Except.ok (Bool.eq_iff_iff.mpr (by rw [hsucc, and_iff_right hword]))
    · next hword =>
      have hnot : heap.bitmap.isFull (pages page (count + 1)) = false :=
        Bool.eq_false_iff.mpr fun hfull ↦ hword (hsucc.mp hfull).1
      rw [hnot]
      rfl

/-- Pages are cleared one after the other. -/
theorem clearPages_eq (heap : Heap) (hbound : page + count ≤ Layout.bitmapWords) :
    clearPages heap.region page count =
      .ok (heap.setBitmap (heap.bitmap.clear (pages page count))).region := by
  induction count generalizing heap page with
  | zero =>
    rw [clear_pages_zero, Heap.setBitmap_bitmap]
    rfl
  | succ count ih =>
    have hpage : page < Layout.bitmapWords := by omega
    rw [clearPages, storeWord_zero heap hpage, ok_bind, ih _ (by omega), Heap.bitmap_setBitmap,
      Heap.setBitmap_setBitmap, clear_pages_succ]

/-- Whole pages are taken back if they lie in the heap and are all marked. -/
theorem releasePages_eq (heap : Heap) (hrange : page + count < UInt64.size) :
    releasePages heap.region page count =
      .ok (if (pages page count).InHeap ∧ heap.bitmap.isFull (pages page count) = true then
        some (heap.setBitmap (heap.bitmap.clear (pages page count))).region else none) := by
  have hheap : (pages page count).InHeap ↔ _ := inHeap_pages_iff
  rw [releasePages, add_eq hrange, ok_bind]
  by_cases hbound : page + count ≤ Layout.bitmapWords
  · rw [if_pos hbound, Nat.add_sub_cancel_left, fullPages_eq heap hbound, ok_bind,
      clearPages_eq heap hbound]
    by_cases hfull : heap.bitmap.isFull (pages page count) = true
    · rw [if_pos hfull, if_pos ⟨hheap.mpr hbound, hfull⟩]
      rfl
    · rw [if_neg hfull, if_neg fun h ↦ hfull h.2]
      rfl
  · rw [if_neg hbound, if_neg fun h ↦ hbound (hheap.mp h.1)]
    rfl

end Pages

end Checked

end LinearHeap
