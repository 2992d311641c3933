import LinearHeap.Heap
import LinearHeap.Proofs.Checked.Numbers

/-!
# Words of the bitmap under checks

The bitmap is read and written one word at a time, as elements of 64 bits at the start of the
region. `loadWord_eq` and `storeWord_eq` are the two laws of that: a word that is read is the word
of the bitmap, and a word that is written gives the heap the bitmap that has it and otherwise the
old words. Nothing after them looks at bytes.

On words, granules of one page are marked and taken back (`occupyGranules_eq`, `releaseGranules_eq`)
by shifted masks, and marked granules are counted (`allocated_eq`). Marking checks that the granules
are free; here that is a condition, and first fit and the release that came before are what meets
it.
-/

set_option autoImplicit false
set_option relaxedAutoImplicit false

namespace LinearHeap

/-- Bitmaps with the same words are equal. -/
theorem Bitmap.ext_word {first second : Bitmap}
    (h : ∀ index, index < Layout.bitmapWords → first.word index = second.word index) :
    first = second := by
  apply Bitmap.ext
  intro granule
  by_cases hheap : granule < Layout.heapGranules
  · rw [Bitmap.isSet_eq_getLsbD_word, Bitmap.isSet_eq_getLsbD_word, h]
    simp only [Layout.heapGranules_eq, Layout.granulesPerPage, Layout.bitmapWords_eq] at *
    omega
  · rw [first.isSet_eq_false_of_le (Nat.le_of_not_lt hheap),
      second.isSet_eq_false_of_le (Nat.le_of_not_lt hheap)]

theorem Bitmap.isSet_fill_of_not_mem (bitmap : Bitmap) {window : Window} {granule : Nat}
    (h : ¬ granule ∈ window) : (bitmap.fill window).isSet granule = bitmap.isSet granule := by
  rw [isSet_fill, decide_eq_false fun hin ↦ h hin.2, Bool.or_false]

theorem Bitmap.isSet_clear_of_not_mem (bitmap : Bitmap) {window : Window} {granule : Nat}
    (h : ¬ granule ∈ window) : (bitmap.clear window).isSet granule = bitmap.isSet granule := by
  rw [isSet_clear, decide_eq_false h, Bool.not_false, Bool.and_true]

/-- What differs from a heap at most in the first page is that heap with another bitmap. -/
theorem Heap.eq_setBitmap {heap other : Heap} (hsize : other.region.size = heap.region.size)
    (hbytes : ∀ i : Nat, Layout.heapStart ≤ i → other.region.bytes[i]? = heap.region.bytes[i]?) :
    other = heap.setBitmap other.bitmap := by
  apply Heap.ext
  apply Region.ext
  intro i
  by_cases hi : Layout.heapStart ≤ i
  · rw [heap.getElem?_setBitmap_of_le _ hi, hbytes i hi]
  · rw [← congrArg (fun heap ↦ heap.region.bytes[i]?) other.setBitmap_bitmap]
    simp only [Heap.setBitmap, Region.getElem?_overwrite, Bitmap.length_toBytes, hsize]
    have hin : i < heap.region.size ∧ 0 ≤ i ∧ i < 0 + Layout.heapStart := by
      have hle := heap.heapStart_le
      omega
    rw [if_pos hin, if_pos hin]

namespace Checked

/-! ### Single words -/

/-- The word of a page. -/
def loadWord (region : Region) (index : Nat) : Checked Word :=
  if index < Layout.bitmapWords then do
    let offset ← mul index Layout.wordBytes
    let element ← (region.load .uint64 offset).mapError .fault
    return element.setWidth _
  else .error (.fault (.noWord index))

/-- The region with another word for a page. -/
def storeWord (region : Region) (index : Nat) (word : Word) : Checked Region :=
  if index < Layout.bitmapWords then do
    let offset ← mul index Layout.wordBytes
    (region.store .uint64 offset (word.setWidth _)).mapError .fault
  else .error (.fault (.noWord index))

section Word

variable {index : Nat} {word : Word}

private theorem mul_wordBytes (h : index < Layout.bitmapWords) :
    mul index Layout.wordBytes = .ok (8 * index) := by
  rw [Layout.bitmapWords_eq] at h
  have hrange : index * Layout.wordBytes < UInt64.size := by
    simp only [Layout.wordBytes, UInt64.size]
    omega
  rw [mul_eq hrange, Layout.wordBytes, Nat.mul_comm]

private theorem holds_word (heap : Heap) (h : index < Layout.bitmapWords) :
    heap.region.Holds .uint64 (8 * index) := by
  have hcapacity := heap.capacity_le
  rw [Layout.bitmapWords_eq] at h
  rw [Layout.capacity_eq] at hcapacity
  simp only [Region.Holds, ElementType.width]
  omega

/-- A word as an element of 64 bits, and back. -/
private theorem setWidth_setWidth_word (word : Word) :
    (word.setWidth (8 * ElementType.width .uint64)).setWidth Layout.granulesPerPage = word :=
  BitVec.setWidth_setWidth_of_le word (Nat.le_refl 64) |>.trans (BitVec.setWidth_eq word)

private theorem eq_of_setWidth_word {first second : Word}
    (h : first.setWidth (8 * ElementType.width .uint64) = second.setWidth _) : first = second := by
  rw [← setWidth_setWidth_word first, h, setWidth_setWidth_word]

/-- The elements of 64 bits at the start of the region are the words of the bitmap. -/
theorem load_word (heap : Heap) (h : index < Layout.bitmapWords) :
    heap.region.load .uint64 (8 * index) = .ok ((heap.bitmap.word index).setWidth _) := by
  rw [Region.load_of_holds (holds_word heap h)]
  refine congrArg Except.ok (BitVec.eq_of_getLsbD_eq fun bit hbit ↦ ?_)
  change bit < 64 at hbit
  rw [Layout.bitmapWords_eq] at h
  have hgranule : index * 64 + bit < Layout.heapGranules := by
    rw [Layout.heapGranules_eq]
    omega
  have hbyte : bit / 8 < ElementType.width .uint64 := by
    rw [ElementType.width]
    omega
  have hindex : (index * 64 + bit) / 8 = 8 * index + bit / 8 := by omega
  have hplace : (index * 64 + bit) % 8 = bit % 8 := by omega
  have hword := heap.isAllocated_eq hgranule
  rw [Heap.isAllocated, hindex, hplace] at hword
  rw [BitVec.getLsbD_setWidth, ElementType.decode, BitVec.getLsbD_ofNat,
    LittleEndian.testBit_decode, Region.getElem?_slice _ hbyte, Bitmap.getLsbD_word,
    Layout.granulesPerPage, hword, decide_eq_true hbit, Bool.true_and]

/-- The words of the region are those of the bitmap. -/
theorem loadWord_eq (heap : Heap) (h : index < Layout.bitmapWords) :
    loadWord heap.region index = .ok (heap.bitmap.word index) := by
  rw [loadWord, if_pos h, mul_wordBytes h, ok_bind, load_word heap h]
  exact congrArg Except.ok (setWidth_setWidth_word _)

/-- The heap with a word written where the bitmap has that of a page. -/
private def putWord (heap : Heap) (index : Nat) (word : Word) : Heap :=
  ⟨heap.region.overwrite (8 * index) (ElementType.encode .uint64 (word.setWidth _)), by
    rw [Region.size_overwrite]
    exact heap.capacity_le⟩

private theorem word_putWord_self (heap : Heap) (word : Word) (h : index < Layout.bitmapWords) :
    (putWord heap index word).bitmap.word index = word := by
  have hstore : heap.region.store .uint64 (8 * index) (word.setWidth _) =
      .ok (putWord heap index word).region := Region.store_of_holds (holds_word heap h) _
  have hload := Region.load_store hstore
  rw [load_word _ h, Except.ok.injEq] at hload
  exact eq_of_setWidth_word hload

private theorem word_putWord_of_ne (heap : Heap) (word : Word) {other : Nat}
    (hother : other < Layout.bitmapWords) (hne : other ≠ index) :
    (putWord heap index word).bitmap.word other = heap.bitmap.word other := by
  have hslice : (putWord heap index word).region.slice (8 * other) (ElementType.width .uint64) =
      heap.region.slice (8 * other) (ElementType.width .uint64) := by
    refine Region.slice_overwrite_of_disjoint _ ?_
    rw [ElementType.length_encode, ElementType.width]
    omega
  have hload := load_word (putWord heap index word) hother
  rw [Region.load_of_holds (holds_word _ hother), hslice,
    ← Region.load_of_holds (holds_word heap hother), load_word heap hother,
    Except.ok.injEq] at hload
  exact (eq_of_setWidth_word hload).symm

private theorem putWord_eq_setBitmap (heap : Heap) (word : Word) (h : index < Layout.bitmapWords) :
    putWord heap index word = heap.setBitmap (putWord heap index word).bitmap := by
  refine Heap.eq_setBitmap (Region.size_overwrite _ _ _) fun i hi ↦ ?_
  refine Region.getElem?_overwrite_of_le ?_
  rw [ElementType.length_encode, ElementType.width]
  rw [Layout.bitmapWords_eq] at h
  rw [Layout.heapStart_eq] at hi
  omega

/-- Storing a word gives the heap every bitmap with that word and otherwise the old ones. -/
theorem storeWord_eq (heap : Heap) {bitmap : Bitmap} (h : index < Layout.bitmapWords)
    (hword : bitmap.word index = word)
    (hothers : ∀ other, other < Layout.bitmapWords → other ≠ index →
      bitmap.word other = heap.bitmap.word other) :
    storeWord heap.region index word = .ok (heap.setBitmap bitmap).region := by
  have hbitmap : (putWord heap index word).bitmap = bitmap := by
    refine Bitmap.ext_word fun other hother ↦ ?_
    by_cases hsame : other = index
    · rw [hsame, word_putWord_self heap word h, hword]
    · rw [word_putWord_of_ne heap word hother hsame, hothers other hother hsame]
  rw [storeWord, if_pos h, mul_wordBytes h, ok_bind, Region.store_of_holds (holds_word heap h),
    ← hbitmap, ← putWord_eq_setBitmap heap word h]
  rfl

end Word

/-! ### Granules of one page -/

/-- Marks granules of one page, which have to be free. -/
def occupyGranules (region : Region) (first count : Nat) : Checked Region := do
  let index := first / Layout.granulesPerPage
  let shift := first % Layout.granulesPerPage
  let run ← runMask count
  let mask ← shiftLeft run shift
  let word ← loadWord region index
  if word &&& mask = 0#_ then storeWord region index (word ||| mask)
  else .error (.fault .granulesInUse)

/-- Takes granules of one page back, if there are so many from the first on and all are marked. -/
def releaseGranules (region : Region) (first count : Nat) : Checked (Option Region) := do
  let index := first / Layout.granulesPerPage
  let shift := first % Layout.granulesPerPage
  let run ← runMask count
  let word ← loadWord region index
  let stop ← add shift count
  if stop ≤ Layout.granulesPerPage then do
    let shifted ← shiftRight word shift
    if shifted &&& run = run then do
      let mask ← shiftLeft run shift
      let cleared ← storeWord region index (word &&& ~~~mask)
      return some cleared
    else return none
  else return none

section Granules

variable {bitmap : Bitmap} {window : Window} {run : Word}

theorem page_lt {granule : Nat} (h : granule < Layout.heapGranules) :
    granule / Layout.granulesPerPage < Layout.bitmapWords := by
  rw [Layout.heapGranules_eq] at h
  rw [Layout.granulesPerPage, Layout.bitmapWords_eq]
  omega

private theorem shift_lt : window.first % Layout.granulesPerPage < Layout.granulesPerPage :=
  Nat.mod_lt _ (by decide)

/-- A window inside one page is changed by the word of its page. -/
theorem storeWord_window (heap : Heap) {word : Word} (hfirst : window.first < Layout.heapGranules)
    (hpage : window.InOnePage)
    (hword : bitmap.word (window.first / Layout.granulesPerPage) = word)
    (hothers : ∀ granule, ¬ granule ∈ window →
      bitmap.isSet granule = heap.bitmap.isSet granule) :
    storeWord heap.region (window.first / Layout.granulesPerPage) word =
      .ok (heap.setBitmap bitmap).region := by
  refine storeWord_eq heap (page_lt hfirst) hword fun other _ hother ↦ ?_
  apply BitVec.eq_of_getLsbD_eq
  intro bit hbit
  have hout : ¬ other * Layout.granulesPerPage + bit ∈ window := by
    rw [Window.InOnePage] at hpage
    rw [Window.mem_iff]
    rw [Layout.granulesPerPage] at *
    omega
  rw [Bitmap.getLsbD_word, Bitmap.getLsbD_word, hothers _ hout]

/-- The shifted mask of a run has the bits of its page that belong to the window. -/
private theorem getLsbD_mask (hrun : IsRunMask run window.count) {bit : Nat}
    (hbit : bit < Layout.granulesPerPage) :
    (run <<< (window.first % Layout.granulesPerPage)).getLsbD bit =
      decide (window.first / Layout.granulesPerPage * Layout.granulesPerPage + bit ∈ window) := by
  rw [BitVec.getLsbD_shiftLeft, hrun, decide_eq_true hbit, Bool.true_and, ← decide_not,
    ← Bool.decide_and, decide_eq_decide, Window.mem_iff]
  rw [Layout.granulesPerPage] at *
  omega

private theorem word_fill (hrun : IsRunMask run window.count) (hheap : window.InHeap) :
    (bitmap.fill window).word (window.first / Layout.granulesPerPage) =
      bitmap.word (window.first / Layout.granulesPerPage) |||
        run <<< (window.first % Layout.granulesPerPage) := by
  apply BitVec.eq_of_getLsbD_eq
  intro bit hbit
  rw [Bitmap.getLsbD_word, BitVec.getLsbD_or, Bitmap.getLsbD_word, getLsbD_mask hrun hbit,
    Bitmap.isSet_fill_of_inHeap _ hheap, decide_eq_true hbit, Bool.true_and, Bool.true_and]

private theorem word_clear (hrun : IsRunMask run window.count) :
    (bitmap.clear window).word (window.first / Layout.granulesPerPage) =
      bitmap.word (window.first / Layout.granulesPerPage) &&&
        ~~~(run <<< (window.first % Layout.granulesPerPage)) := by
  apply BitVec.eq_of_getLsbD_eq
  intro bit hbit
  rw [Bitmap.getLsbD_word, BitVec.getLsbD_and, BitVec.getLsbD_not, Bitmap.getLsbD_word,
    getLsbD_mask hrun hbit, Bitmap.isSet_clear, decide_eq_true hbit, Bool.true_and, Bool.true_and,
    Bool.true_and]

private theorem word_and_mask_eq_zero (hrun : IsRunMask run window.count)
    (hfree : bitmap.isFree window = true) :
    bitmap.word (window.first / Layout.granulesPerPage) &&&
      run <<< (window.first % Layout.granulesPerPage) = 0#_ := by
  apply BitVec.eq_of_getLsbD_eq
  intro bit hbit
  rw [BitVec.getLsbD_and, Bitmap.getLsbD_word, getLsbD_mask hrun hbit, BitVec.getLsbD_zero]
  by_cases hin : window.first / Layout.granulesPerPage * Layout.granulesPerPage + bit ∈ window
  · rw [Bitmap.isFree_iff.mp hfree _ hin, Bool.and_false, Bool.false_and]
  · rw [decide_eq_false hin, Bool.and_false]

/-- A free window inside one page is marked. -/
theorem occupyGranules_eq (heap : Heap) (hfirst : window.first < Layout.heapGranules)
    (hpage : window.InOnePage) (hfree : heap.bitmap.isFree window = true) :
    occupyGranules heap.region window.first window.count =
      .ok (heap.setBitmap (heap.bitmap.fill window)).region := by
  obtain ⟨run, hmask, hrun⟩ := exists_runMask window.count
  rw [occupyGranules, hmask, ok_bind, shiftLeft_eq shift_lt, ok_bind,
    loadWord_eq heap (page_lt hfirst), ok_bind, if_pos (word_and_mask_eq_zero hrun hfree)]
  exact storeWord_window heap hfirst hpage (word_fill hrun (hpage.inHeap hfirst))
    fun granule hout ↦ heap.bitmap.isSet_fill_of_not_mem hout

/-- A run of bits from a place of a word on is set if the granules of the window are. -/
private theorem shiftRight_and_eq_iff (hrun : IsRunMask run window.count)
    (hpage : window.InOnePage) (hfirst : window.first < Layout.heapGranules) :
    bitmap.word (window.first / Layout.granulesPerPage) >>>
        (window.first % Layout.granulesPerPage) &&& run = run ↔ bitmap.isFull window = true := by
  rw [Bitmap.isFull_iff (hpage.inHeap hfirst)]
  have hsplit := Nat.div_add_mod' window.first Layout.granulesPerPage
  rw [Window.InOnePage] at hpage
  constructor
  · intro h granule hin
    rw [Window.mem_iff] at hin
    have hplace : window.first / Layout.granulesPerPage * Layout.granulesPerPage +
        (window.first % Layout.granulesPerPage + (granule - window.first)) = granule := by omega
    have hbit := congrArg (fun word ↦ word.getLsbD (granule - window.first)) h
    have hrunBit : granule - window.first < Layout.granulesPerPage ∧
        granule - window.first < window.count := by omega
    have hwordBit : window.first % Layout.granulesPerPage + (granule - window.first) <
        Layout.granulesPerPage := by omega
    rw [BitVec.getLsbD_and, BitVec.getLsbD_ushiftRight, hrun, Bitmap.getLsbD_word, hplace,
      decide_eq_true hrunBit, decide_eq_true hwordBit, Bool.true_and, Bool.and_true] at hbit
    exact hbit
  · intro h
    apply BitVec.eq_of_getLsbD_eq
    intro bit hbit
    rw [BitVec.getLsbD_and, BitVec.getLsbD_ushiftRight, Bitmap.getLsbD_word, hrun]
    by_cases hcount : bit < window.count
    · have hin : window.first / Layout.granulesPerPage * Layout.granulesPerPage +
          (window.first % Layout.granulesPerPage + bit) ∈ window := Window.mem_iff.mpr (by omega)
      have hwordBit : window.first % Layout.granulesPerPage + bit < Layout.granulesPerPage := by
        omega
      rw [h _ hin, decide_eq_true hwordBit, Bool.true_and, Bool.true_and]
    · have hout : ¬ (bit < Layout.granulesPerPage ∧ bit < window.count) := fun hin ↦ hcount hin.2
      rw [decide_eq_false hout, Bool.and_false]

/-- The granules of a window are taken back if they lie inside one page and are all marked. -/
theorem releaseGranules_eq (heap : Heap) (hfirst : window.first < Layout.heapGranules)
    (hcount : window.count ≤ Layout.granulesPerPage) :
    releaseGranules heap.region window.first window.count =
      .ok (if window.InOnePage ∧ heap.bitmap.isFull window = true then
        some (heap.setBitmap (heap.bitmap.clear window)).region else none) := by
  obtain ⟨run, hmask, hrun⟩ := exists_runMask window.count
  have hrange : window.first % Layout.granulesPerPage + window.count < UInt64.size :=
    Nat.lt_of_lt_of_le (Nat.add_lt_add_of_lt_of_le shift_lt hcount) (by decide)
  rw [releaseGranules, hmask, ok_bind, loadWord_eq heap (page_lt hfirst), ok_bind, add_eq hrange,
    ok_bind]
  by_cases hpage : window.InOnePage
  · have hbits : _ ↔ heap.bitmap.isFull window = true := shiftRight_and_eq_iff hrun hpage hfirst
    rw [if_pos (show _ ≤ _ from hpage), shiftRight_eq shift_lt, ok_bind]
    by_cases hfull : heap.bitmap.isFull window = true
    · have hstore := storeWord_window heap hfirst hpage (word_clear hrun)
        fun granule hout ↦ heap.bitmap.isSet_clear_of_not_mem hout
      rw [if_pos (hbits.mpr hfull), shiftLeft_eq shift_lt, ok_bind, hstore,
        if_pos ⟨hpage, hfull⟩]
      rfl
    · rw [if_neg (mt hbits.mp hfull), if_neg fun h ↦ hfull h.2]
      rfl
  · rw [if_neg (show ¬ _ ≤ _ from hpage), if_neg fun h ↦ hpage h.1]
    rfl

end Granules

/-! ### Counts -/

/-- The marked granules of `remaining` words from one on, added to those counted before. -/
def allocatedFrom (region : Region) : (remaining index sum : Nat) → Checked Nat
  | 0, _, sum => .ok sum
  | remaining + 1, index, sum => do
    let word ← loadWord region index
    let sum ← add sum word.cpop.toNat
    allocatedFrom region remaining (index + 1) sum

/-- The number of granules that belong to allocations. -/
def allocated (region : Region) : Checked Nat := allocatedFrom region Layout.bitmapWords 0 0

/-- The number of granules that do not. -/
def free (region : Region) : Checked Nat := do
  let allocated ← allocated region
  sub Layout.heapGranules allocated

/-- A word of the bitmap, if the bitmap has it. -/
def word? (region : Region) (index : Nat) : Checked (Option Word) :=
  if index < Layout.bitmapWords then do
    let word ← loadWord region index
    return some word
  else return none

/-- The granule belongs to an allocation. -/
def isAllocated (region : Region) (granule : Nat) : Checked Bool :=
  if granule < Layout.heapGranules then do
    let word ← loadWord region (granule / Layout.granulesPerPage)
    let shifted ← shiftRight word (granule % Layout.granulesPerPage)
    return shifted &&& 1#_ == 1#_
  else return false

section Counts

variable {remaining index sum granule : Nat}

theorem allocatedFrom_eq (heap : Heap) (hindex : index + remaining ≤ Layout.bitmapWords)
    (hsum : sum ≤ index * Layout.granulesPerPage) :
    allocatedFrom heap.region remaining index sum =
      .ok (((List.range' index remaining).map fun index ↦
        (heap.bitmap.word index).cpop.toNat).foldl (· + ·) sum) := by
  induction remaining generalizing index sum with
  | zero => rfl
  | succ remaining ih =>
    have hword := BitVec.toNat_cpop_le (heap.bitmap.word index)
    have hnext : sum + (heap.bitmap.word index).cpop.toNat ≤
        (index + 1) * Layout.granulesPerPage := by
      rw [Nat.succ_mul]
      exact Nat.add_le_add hsum hword
    have hgranules : (index + 1) * Layout.granulesPerPage ≤ Layout.heapGranules :=
      Nat.mul_le_mul_right _ (by omega)
    have hrange : sum + (heap.bitmap.word index).cpop.toNat < UInt64.size :=
      Nat.lt_of_le_of_lt (Nat.le_trans hnext hgranules) (by decide)
    rw [allocatedFrom, loadWord_eq heap (by omega), ok_bind, add_eq hrange, ok_bind,
      ih (by omega) hnext]
    rfl

theorem allocated_eq (heap : Heap) : allocated heap.region = .ok heap.allocated := by
  rw [allocated, allocatedFrom_eq heap (Nat.le_of_eq (Nat.zero_add _)) (Nat.zero_le _),
    ← List.range_eq_range']
  rfl

theorem free_eq (heap : Heap) : free heap.region = .ok heap.free := by
  rw [free, allocated_eq, ok_bind]
  exact sub_eq heap.bitmap.allocated_le

theorem word?_eq (heap : Heap) (index : Nat) :
    word? heap.region index = .ok (heap.word? index) := by
  rw [word?, Heap.word?, Bitmap.word?]
  split
  · next h =>
    rw [loadWord_eq heap h]
    rfl
  · rfl

theorem isAllocated_eq (heap : Heap) (granule : Nat) :
    isAllocated heap.region granule = .ok (heap.isAllocated granule) := by
  rw [isAllocated]
  split
  · next h =>
    rw [loadWord_eq heap (page_lt h), ok_bind, shiftRight_eq (Nat.mod_lt _ (by decide)), ok_bind,
      shiftRight_and_one_beq, Heap.isAllocated, Bitmap.isSet_eq_getLsbD_word]
    rfl
  · next h =>
    rw [Heap.isAllocated, heap.bitmap.isSet_eq_false_of_le (Nat.le_of_not_lt h)]
    rfl

end Counts

end Checked

end LinearHeap
