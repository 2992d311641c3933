import LinearHeap.LittleEndian
import LinearHeap.Window

/-!
# Bitmaps

A bitmap has one bit for each granule of the heap, set while the granule is allocated. Its words are
the bits of one page each; in memory it is a little-endian number of `Layout.heapStart` bytes.

The view of a bitmap is `Bitmap.isSet`, one truth value per granule, and `Bitmap.ext` says that
nothing else counts. Filling and clearing a window change exactly its granules (`isSet_fill`,
`isSet_clear`); a window is full, or free, when all of its granules are set, or clear
(`isFull_iff`, `isFree_iff`). Words and bytes show the same bits (`getLsbD_word`, `isSet_ofBytes`),
and `allocated_eq_countP` says that the sum over the words counts the granules that are set.
-/

set_option autoImplicit false
set_option relaxedAutoImplicit false

namespace LinearHeap

/-- Which granules of the heap are allocated. -/
structure Bitmap where
  bits : BitVec Layout.heapGranules
  deriving DecidableEq, Repr

namespace Bitmap

/-- The bitmap of a heap without allocations. -/
def empty : Bitmap := ⟨0#_⟩

/-- The granule is allocated. Granules outside the heap never are. -/
def isSet (bitmap : Bitmap) (granule : Nat) : Bool := bitmap.bits.getLsbD granule

/-- The bits of a page. -/
def word (bitmap : Bitmap) (index : Nat) : BitVec Layout.granulesPerPage :=
  bitmap.bits.extractLsb' (index * Layout.granulesPerPage) Layout.granulesPerPage

/-- The bits of a page, if the heap has that page. -/
def word? (bitmap : Bitmap) (index : Nat) : Option (BitVec Layout.granulesPerPage) :=
  if index < Layout.bitmapWords then some (bitmap.word index) else none

/-- The number of granules that are allocated: the sum of the set bits of the words. -/
def allocated (bitmap : Bitmap) : Nat :=
  ((List.range Layout.bitmapWords).map fun index ↦ (bitmap.word index).cpop.toNat).foldl (· + ·) 0

/-- The number of granules that are not. -/
def free (bitmap : Bitmap) : Nat := Layout.heapGranules - bitmap.allocated

/-- The bits of a window. -/
def mask (window : Window) : BitVec Layout.heapGranules :=
  BitVec.ofNat _ (1 <<< window.count - 1) <<< window.first

/-- Marks the granules of a window as allocated. -/
def fill (bitmap : Bitmap) (window : Window) : Bitmap := ⟨bitmap.bits ||| mask window⟩

/-- Marks the granules of a window as not allocated. -/
def clear (bitmap : Bitmap) (window : Window) : Bitmap := ⟨bitmap.bits &&& ~~~mask window⟩

/-- All granules of a window are allocated. -/
def isFull (bitmap : Bitmap) (window : Window) : Bool :=
  bitmap.bits &&& mask window == mask window

/-- No granule of a window is allocated. -/
def isFree (bitmap : Bitmap) (window : Window) : Bool := bitmap.bits &&& mask window == 0#_

/-- The bitmap that some bytes hold. -/
def ofBytes (bytes : List UInt8) : Bitmap := ⟨BitVec.ofNat _ (LittleEndian.decode bytes)⟩

/-- The bytes of a bitmap. -/
def toBytes (bitmap : Bitmap) : List UInt8 :=
  LittleEndian.encode Layout.heapStart bitmap.bits.toNat

/-! ## Granules -/

theorem isSet_eq_false_of_le (bitmap : Bitmap) {granule : Nat} (h : Layout.heapGranules ≤ granule) :
    bitmap.isSet granule = false :=
  BitVec.getLsbD_of_ge _ _ h

theorem lt_of_isSet {bitmap : Bitmap} {granule : Nat} (h : bitmap.isSet granule = true) :
    granule < Layout.heapGranules :=
  BitVec.lt_of_getLsbD h

theorem ext {first second : Bitmap} (h : ∀ granule, first.isSet granule = second.isSet granule) :
    first = second := by
  obtain ⟨first⟩ := first
  obtain ⟨second⟩ := second
  congr
  exact BitVec.eq_of_getLsbD_eq fun granule _ ↦ h granule

@[simp] theorem isSet_empty (granule : Nat) : empty.isSet granule = false :=
  BitVec.getLsbD_zero

theorem getLsbD_mask (window : Window) (granule : Nat) :
    (mask window).getLsbD granule = decide (granule < Layout.heapGranules ∧ granule ∈ window) := by
  simp only [mask, Nat.one_shiftLeft, BitVec.getLsbD_shiftLeft, BitVec.getLsbD_ofNat,
    Nat.testBit_two_pow_sub_one, Window.mem_iff]
  by_cases hheap : granule < Layout.heapGranules
  · by_cases hfirst : granule < window.first
    · simp only [hheap, hfirst, decide_true, Bool.not_true, Bool.and_false, Bool.false_and,
        Bool.false_eq, decide_eq_false_iff_not]
      omega
    · have hsub : granule - window.first < Layout.heapGranules := by omega
      simp only [hheap, hfirst, hsub, decide_true, decide_false, Bool.not_false, Bool.true_and,
        true_and, decide_eq_decide]
      omega
  · simp [hheap]

/-- Filling a window sets those of its granules that the heap has and keeps the others. -/
theorem isSet_fill (bitmap : Bitmap) (window : Window) (granule : Nat) :
    (bitmap.fill window).isSet granule =
      (bitmap.isSet granule || decide (granule < Layout.heapGranules ∧ granule ∈ window)) := by
  rw [fill, isSet, BitVec.getLsbD_or, getLsbD_mask, isSet]

/-- Filling a window of the heap sets all of its granules and keeps the others. -/
theorem isSet_fill_of_inHeap (bitmap : Bitmap) {window : Window} (hheap : window.InHeap)
    (granule : Nat) :
    (bitmap.fill window).isSet granule = (bitmap.isSet granule || decide (granule ∈ window)) := by
  rw [isSet_fill, decide_eq_decide.mpr (and_iff_right_of_imp fun hmem ↦
    Nat.lt_of_lt_of_le hmem.2 hheap)]

/-- Clearing a window clears its granules and keeps the others. -/
theorem isSet_clear (bitmap : Bitmap) (window : Window) (granule : Nat) :
    (bitmap.clear window).isSet granule =
      (bitmap.isSet granule && !decide (granule ∈ window)) := by
  rw [clear, isSet, BitVec.getLsbD_and, BitVec.getLsbD_not, getLsbD_mask, isSet]
  by_cases hheap : granule < Layout.heapGranules
  · simp [hheap]
  · simp [hheap, BitVec.getLsbD_of_ge _ _ (Nat.le_of_not_lt hheap)]

theorem isFull_iff {bitmap : Bitmap} {window : Window} (hheap : window.InHeap) :
    bitmap.isFull window = true ↔ ∀ granule, granule ∈ window → bitmap.isSet granule = true := by
  rw [isFull, beq_iff_eq]
  constructor
  · intro h granule hmem
    have hlt : granule < Layout.heapGranules := Nat.lt_of_lt_of_le hmem.2 hheap
    have hbit := congrArg (fun bits ↦ bits.getLsbD granule) h
    simp only [BitVec.getLsbD_and, getLsbD_mask, hlt, hmem, and_self, decide_true,
      Bool.and_true] at hbit
    exact hbit
  · intro h
    apply BitVec.eq_of_getLsbD_eq
    intro granule hlt
    rw [BitVec.getLsbD_and, getLsbD_mask]
    by_cases hmem : granule ∈ window
    · have hset := h granule hmem
      rw [isSet] at hset
      rw [hset, Bool.true_and]
    · simp only [hmem, and_false, decide_false, Bool.and_false]

theorem isFree_iff {bitmap : Bitmap} {window : Window} :
    bitmap.isFree window = true ↔ ∀ granule, granule ∈ window → bitmap.isSet granule = false := by
  rw [isFree, beq_iff_eq]
  constructor
  · intro h granule hmem
    by_cases hlt : granule < Layout.heapGranules
    · have hbit := congrArg (fun bits ↦ bits.getLsbD granule) h
      simp only [BitVec.getLsbD_and, getLsbD_mask, hlt, hmem, and_self, decide_true,
        Bool.and_true, BitVec.getLsbD_zero] at hbit
      exact hbit
    · exact bitmap.isSet_eq_false_of_le (Nat.le_of_not_lt hlt)
  · intro h
    apply BitVec.eq_of_getLsbD_eq
    intro granule hlt
    rw [BitVec.getLsbD_and, getLsbD_mask, BitVec.getLsbD_zero]
    by_cases hmem : granule ∈ window
    · have hset := h granule hmem
      rw [isSet] at hset
      rw [hset, Bool.false_and]
    · simp only [hmem, and_false, decide_false, Bool.and_false]

/-- A full window that is cleared and filled again leaves no trace. -/
theorem fill_clear {bitmap : Bitmap} {window : Window} (hheap : window.InHeap)
    (h : bitmap.isFull window = true) : (bitmap.clear window).fill window = bitmap := by
  apply ext
  intro granule
  rw [isSet_fill, isSet_clear]
  by_cases hmem : granule ∈ window
  · have hset := (isFull_iff hheap).mp h granule hmem
    simp only [hset, hmem, lt_of_isSet hset, decide_true, and_self, Bool.or_true]
  · simp only [hmem, and_false, decide_false, Bool.not_false, Bool.and_true, Bool.or_false]

/-- A free window that is filled and cleared again leaves no trace. -/
theorem clear_fill {bitmap : Bitmap} {window : Window} (h : bitmap.isFree window = true) :
    (bitmap.fill window).clear window = bitmap := by
  apply ext
  intro granule
  rw [isSet_clear, isSet_fill]
  by_cases hmem : granule ∈ window
  · have hset := isFree_iff.mp h granule hmem
    simp only [hset, hmem, decide_true, Bool.not_true, Bool.and_false]
  · simp only [hmem, and_false, decide_false, Bool.or_false, Bool.not_false, Bool.and_true]

theorem isFree_clear (bitmap : Bitmap) (window : Window) :
    (bitmap.clear window).isFree window = true := by
  rw [isFree_iff]
  intro granule hmem
  rw [isSet_clear, decide_eq_true hmem, Bool.not_true, Bool.and_false]

/-- After filling a window another one is free if it was so before and the two have no granule in
common. -/
theorem isFree_fill_iff {bitmap : Bitmap} {first second : Window} :
    (bitmap.fill first).isFree second = true ↔ bitmap.isFree second = true ∧
      ∀ granule, granule < Layout.heapGranules → granule ∈ first → granule ∉ second := by
  simp only [isFree_iff, isSet_fill, Bool.or_eq_false_iff, decide_eq_false_iff_not]
  constructor
  · intro h
    exact ⟨fun granule hmem ↦ (h granule hmem).1,
      fun granule hheap hfirst hsecond ↦ (h granule hsecond).2 ⟨hheap, hfirst⟩⟩
  · rintro ⟨hfree, hapart⟩ granule hmem
    exact ⟨hfree granule hmem, fun hin ↦ hapart granule hin.1 hin.2 hmem⟩

theorem isFull_fill (bitmap : Bitmap) {window : Window} (hheap : window.InHeap) :
    (bitmap.fill window).isFull window = true := by
  rw [isFull_iff hheap]
  intro granule hmem
  rw [isSet_fill_of_inHeap _ hheap, decide_eq_true hmem, Bool.or_true]

/-! ## Words and bytes -/

/-- A word holds the bits of its page. -/
theorem getLsbD_word (bitmap : Bitmap) (index bit : Nat) :
    (bitmap.word index).getLsbD bit =
      (decide (bit < Layout.granulesPerPage) &&
        bitmap.isSet (index * Layout.granulesPerPage + bit)) :=
  BitVec.getLsbD_extractLsb' _ _ _ _

theorem isSet_eq_getLsbD_word (bitmap : Bitmap) (granule : Nat) :
    bitmap.isSet granule =
      (bitmap.word (granule / Layout.granulesPerPage)).getLsbD
        (granule % Layout.granulesPerPage) := by
  have hlt : granule % Layout.granulesPerPage < Layout.granulesPerPage :=
    Nat.mod_lt _ (by decide)
  rw [getLsbD_word, decide_eq_true hlt, Bool.true_and, Nat.mul_comm, Nat.div_add_mod]

theorem word_eq_zero_iff {bitmap : Bitmap} {index : Nat} :
    bitmap.word index = 0#_ ↔ ∀ bit, bit < Layout.granulesPerPage →
      bitmap.isSet (index * Layout.granulesPerPage + bit) = false := by
  constructor
  · intro h bit hbit
    have hword := bitmap.getLsbD_word index bit
    rw [h, BitVec.getLsbD_zero, decide_eq_true hbit, Bool.true_and] at hword
    exact hword.symm
  · intro h
    apply BitVec.eq_of_getLsbD_eq
    intro bit hbit
    rw [getLsbD_word, h bit hbit, Bool.and_false, BitVec.getLsbD_zero]

theorem word_eq_allOnes_iff {bitmap : Bitmap} {index : Nat} :
    bitmap.word index = BitVec.allOnes _ ↔ ∀ bit, bit < Layout.granulesPerPage →
      bitmap.isSet (index * Layout.granulesPerPage + bit) = true := by
  constructor
  · intro h bit hbit
    have hword := bitmap.getLsbD_word index bit
    rw [h, BitVec.getLsbD_allOnes, decide_eq_true hbit, Bool.true_and] at hword
    exact hword.symm
  · intro h
    apply BitVec.eq_of_getLsbD_eq
    intro bit hbit
    rw [getLsbD_word, h bit hbit, BitVec.getLsbD_allOnes, Bool.and_true]

@[simp] theorem length_toBytes (bitmap : Bitmap) : bitmap.toBytes.length = Layout.heapStart :=
  LittleEndian.length_encode _ _

private theorem bits_heapStart : 8 * Layout.heapStart = Layout.heapGranules := rfl

theorem ofBytes_toBytes (bitmap : Bitmap) : ofBytes bitmap.toBytes = bitmap := by
  obtain ⟨bits⟩ := bitmap
  rw [ofBytes, toBytes, LittleEndian.decode_encode, Nat.one_shiftLeft, bits_heapStart,
    Nat.mod_eq_of_lt bits.isLt, BitVec.ofNat_toNat, BitVec.setWidth_eq]

theorem toBytes_ofBytes {bytes : List UInt8} (h : bytes.length = Layout.heapStart) :
    (ofBytes bytes).toBytes = bytes := by
  have hlt := LittleEndian.decode_lt bytes
  rw [h, Nat.one_shiftLeft, bits_heapStart] at hlt
  rw [toBytes, ofBytes, BitVec.toNat_ofNat, Nat.mod_eq_of_lt hlt, ← h, LittleEndian.encode_decode]

/-- Bit `i % 8` of byte `i / 8` stands for granule `i`. -/
theorem isSet_ofBytes (bytes : List UInt8) {granule : Nat}
    (h : granule < Layout.heapGranules) :
    (ofBytes bytes).isSet granule = (bytes[granule / 8]?.getD 0).toNat.testBit (granule % 8) := by
  rw [ofBytes, isSet, BitVec.getLsbD_ofNat, decide_eq_true h, Bool.true_and,
    LittleEndian.testBit_decode]

/-! ## Counts -/

private theorem cpopNatRec_eq_countP {width : Nat} (bits : BitVec width) (n : Nat) :
    bits.cpopNatRec n 0 = (List.range n).countP bits.getLsbD := by
  induction n with
  | zero => rfl
  | succ n ih =>
    rw [BitVec.cpopNatRec_succ, BitVec.cpopNatRec_eq, ih, List.range_succ, List.countP_append,
      List.countP_singleton]
    cases bits.getLsbD n <;> simp

/-- The set bits of a word are those places of the page where the word has a one. -/
theorem toNat_cpop_word (bitmap : Bitmap) (index : Nat) :
    (bitmap.word index).cpop.toNat =
      (List.range Layout.granulesPerPage).countP (bitmap.word index).getLsbD := by
  rw [BitVec.toNat_cpop, cpopNatRec_eq_countP]

/-- Counting the places of a table is adding up the counts of its rows. -/
theorem countP_range_mul (p : Nat → Bool) (rows columns : Nat) :
    (List.range (rows * columns)).countP p =
      ((List.range rows).map fun row ↦
        (List.range columns).countP fun column ↦ p (row * columns + column)).foldl
          (· + ·) 0 := by
  induction rows with
  | zero => simp
  | succ rows ih =>
    rw [Nat.succ_mul, List.range_add, List.countP_append, ih, List.range_succ, List.map_append,
      List.foldl_append, List.countP_map]
    simp [Function.comp_def]

/-- The words together count the granules that are set. -/
theorem allocated_eq_countP (bitmap : Bitmap) :
    bitmap.allocated = (List.range Layout.heapGranules).countP bitmap.isSet := by
  rw [allocated, Layout.heapGranules, countP_range_mul]
  congr 1
  apply List.map_congr_left
  intro index _
  rw [toNat_cpop_word]
  apply List.countP_congr
  intro bit hbit
  rw [getLsbD_word, decide_eq_true (List.mem_range.mp hbit), Bool.true_and]

theorem allocated_le (bitmap : Bitmap) : bitmap.allocated ≤ Layout.heapGranules := by
  rw [allocated_eq_countP]
  have h := List.countP_le_length (p := bitmap.isSet) (l := List.range Layout.heapGranules)
  rwa [List.length_range] at h

theorem free_add_allocated (bitmap : Bitmap) :
    bitmap.free + bitmap.allocated = Layout.heapGranules := by
  have h := bitmap.allocated_le
  rw [free]
  omega

end Bitmap

end LinearHeap
