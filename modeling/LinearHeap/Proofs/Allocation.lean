import LinearHeap.FirstFit

/-!
# Allocations

A caller knows an allocation by its offset and by the size that was asked for; the bytes set aside
are the footprint of the size's class. The heap keeps neither, only the bits of the granules.

`Allocation.Placed` says in bytes where an allocation may lie, and `Allocation.Apart` that two of
them share no byte. `Allocation.covers_iff_mem_window` is the way from the bytes of an allocation
to the granules of its window, and `Bitmap.HasRoom.placed` says that first fit looks at places of
this kind only.
-/

set_option autoImplicit false
set_option relaxedAutoImplicit false

namespace LinearHeap

/-- Space that was handed out: where it starts and how many bytes were asked for. -/
structure Allocation where
  offset : Nat
  size : Nat
  deriving DecidableEq, Repr

namespace Allocation

/-- The space that an offset and a size name. A size of zero names none. -/
def named? (offset size : Nat) : Option Allocation :=
  if size = 0 then none else some ⟨offset, size⟩

def sizeClass (allocation : Allocation) : SizeClass := SizeClass.ofSize allocation.size

/-- The bytes set aside. -/
def footprint (allocation : Allocation) : Nat := allocation.sizeClass.footprint

/-- The granules set aside. -/
def window (allocation : Allocation) : Window :=
  allocation.sizeClass.window ((allocation.offset - Layout.heapStart) / Layout.granuleBytes)

/-- The bytes of a granule lie in the footprint. -/
def Covers (allocation : Allocation) (granule : Nat) : Prop :=
  allocation.offset ≤ Layout.granuleOffset granule ∧
    Layout.granuleOffset granule + Layout.granuleBytes ≤ allocation.offset + allocation.footprint

/-- Two footprints have no byte in common. -/
def Apart (first second : Allocation) : Prop :=
  first.offset + first.footprint ≤ second.offset ∨
    second.offset + second.footprint ≤ first.offset

/-- An allocation lies in the heap, on a granule. A small one stays inside the page of one word of
the bitmap, and a large one is made of whole pages. -/
structure Placed (allocation : Allocation) : Prop where
  size_pos : 0 < allocation.size
  heapStart_le : Layout.heapStart ≤ allocation.offset
  le_capacity : allocation.offset + allocation.footprint ≤ Layout.capacity
  granuleBytes_dvd : Layout.granuleBytes ∣ allocation.offset
  insideWord : allocation.size < Layout.pageBytes → ∃ index, index < Layout.bitmapWords ∧
    Layout.pageOffset index ≤ allocation.offset ∧
      allocation.offset + allocation.footprint ≤ Layout.pageOffset (index + 1)
  wholePages : Layout.pageBytes ≤ allocation.size →
    Layout.pageBytes ∣ allocation.offset ∧ Layout.pageBytes ∣ allocation.footprint

variable {allocation first second : Allocation}

theorem named?_of_pos {size : Nat} (h : 0 < size) (offset : Nat) :
    named? offset size = some ⟨offset, size⟩ :=
  if_neg (Nat.ne_of_gt h)

theorem size_le_footprint (allocation : Allocation) : allocation.size ≤ allocation.footprint :=
  SizeClass.le_footprint_ofSize allocation.size

theorem footprint_eq (allocation : Allocation) :
    allocation.footprint = allocation.window.count * Layout.granuleBytes :=
  SizeClass.footprint_eq _

/-- No bytes are set aside for no bytes. -/
theorem size_pos_of_footprint_pos (h : 0 < allocation.footprint) : 0 < allocation.size := by
  refine Nat.pos_of_ne_zero fun hzero ↦ ?_
  rw [footprint, sizeClass, hzero] at h
  exact absurd h (Nat.lt_irrefl 0)

/-- An allocation that starts on a granule has the window that starts there. -/
theorem window_mk_granuleOffset (granule size : Nat) :
    window ⟨Layout.granuleOffset granule, size⟩ = (SizeClass.ofSize size).window granule := by
  have hfirst : (Layout.granuleOffset granule - Layout.heapStart) / Layout.granuleBytes =
      granule := by
    rw [Layout.granuleOffset_eq, Layout.heapStart_eq, Layout.granuleBytes]
    omega
  simp only [window, sizeClass, hfirst]

theorem Apart.symm (h : first.Apart second) : second.Apart first := Or.symm h

/-- A placed allocation starts on the first granule of its window. -/
theorem Placed.granuleOffset_first (h : allocation.Placed) :
    Layout.granuleOffset allocation.window.first = allocation.offset := by
  have hstart := h.heapStart_le
  have hgranule := h.granuleBytes_dvd
  simp only [window, SizeClass.window, Layout.granuleOffset_eq, Layout.heapStart_eq,
    Layout.granuleBytes] at *
  omega

theorem Placed.window_count_pos (h : allocation.Placed) : 0 < allocation.window.count :=
  (SizeClass.searchable_ofSize h.size_pos).granuleCount_pos

theorem Placed.window_inHeap (h : allocation.Placed) : allocation.window.InHeap := by
  have hfirst := h.granuleOffset_first
  have hend := h.le_capacity
  rw [footprint_eq, ← hfirst, Layout.granuleOffset_eq, Layout.capacity_eq,
    Layout.granuleBytes] at hend
  rw [Window.InHeap, Window.stop, Layout.heapGranules_eq]
  omega

/-- The granules inside the footprint of an allocation are those of its window. -/
theorem covers_iff_mem_window (h : allocation.Placed) {granule : Nat} :
    allocation.Covers granule ↔ granule ∈ allocation.window := by
  have hfirst := h.granuleOffset_first
  rw [Covers, Window.mem_iff, footprint_eq, ← hfirst]
  simp only [Layout.granuleOffset_eq, Layout.granuleBytes]
  omega

/-- Two allocations whose windows have no granule in common are apart. -/
theorem apart_of_forall_not_mem (hfirst : first.Placed) (hsecond : second.Placed)
    (h : ∀ granule, granule ∈ first.window → granule ∉ second.window) : first.Apart second := by
  have hone := hfirst.granuleOffset_first
  have htwo := hsecond.granuleOffset_first
  have hpos := hfirst.window_count_pos
  have hpos' := hsecond.window_count_pos
  -- Overlapping runs share the later of their first granules.
  have hlate := h (max first.window.first second.window.first)
  rw [Window.mem_iff, Window.mem_iff] at hlate
  rw [Apart, footprint_eq, footprint_eq, ← hone, ← htwo]
  simp only [Layout.granuleOffset_eq, Layout.granuleBytes]
  omega

theorem Apart.not_mem_window (h : first.Apart second) (hfirst : first.Placed)
    (hsecond : second.Placed) {granule : Nat} (hmem : granule ∈ first.window) :
    granule ∉ second.window := by
  intro hother
  have hcovers := (covers_iff_mem_window hfirst).mpr hmem
  have hcovers' := (covers_iff_mem_window hsecond).mpr hother
  simp only [Apart, Covers, Layout.granuleBytes] at *
  omega

end Allocation

/-- Where there is room for a request, an allocation of its size is well placed. -/
theorem Bitmap.HasRoom.placed {bitmap : Bitmap} {size first : Nat} (hsize : 0 < size)
    (h : bitmap.HasRoom (.ofSize size) first) :
    (Allocation.mk (Layout.granuleOffset first) size).Placed := by
  obtain ⟨hfirst, hunit, hadmits, _⟩ := h
  have hcount : (Allocation.mk (Layout.granuleOffset first) size).footprint =
      (SizeClass.ofSize size).granuleCount * Layout.granuleBytes := SizeClass.footprint_eq _
  have hheap := hadmits.inHeap hfirst
  refine ⟨hsize, ?_, ?_, ?_, ?_, ?_⟩
  · simp only [Layout.granuleOffset_eq, Layout.heapStart_eq]
    omega
  · rw [hcount]
    simp only [Window.InHeap, Window.stop, SizeClass.window, Layout.heapGranules_eq] at hheap
    simp only [Layout.granuleOffset_eq, Layout.capacity_eq, Layout.granuleBytes]
    omega
  · simp only [Layout.granuleOffset_eq, Layout.granuleBytes]
    omega
  · intro hsmall
    refine ⟨first / Layout.granulesPerPage, ?_, ?_⟩
    · simp only [Layout.heapGranules_eq, Layout.bitmapWords_eq, Layout.granulesPerPage] at *
      omega
    · rw [hcount]
      change size < Layout.pageBytes at hsmall
      rw [SizeClass.ofSize_of_lt hsmall] at hadmits ⊢
      simp only [SizeClass.Admits, Window.InOnePage, SizeClass.window, SizeClass.granuleCount,
        Layout.granulesPerPage] at hadmits
      simp only [SizeClass.granuleCount, Layout.granuleOffset_eq, Layout.pageOffset_eq,
        Layout.granulesPerPage, Layout.granuleBytes]
      omega
  · intro hlarge
    rw [hcount]
    change Layout.pageBytes ≤ size at hlarge
    rw [SizeClass.ofSize_of_le hlarge] at hunit ⊢
    simp only [SizeClass.unit, Layout.pageBytes_eq, Layout.granuleBytes] at hunit
    simp only [SizeClass.granuleCount, Layout.granuleOffset_eq, Layout.pageBytes_eq,
      Layout.granulesPerPage, Layout.granuleBytes]
    omega

end LinearHeap
