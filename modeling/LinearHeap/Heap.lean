import LinearHeap.Region
import LinearHeap.Requests

/-!
# Heaps over a region

A heap is a region of at least `Layout.capacity` bytes whose first page holds its bitmap. Requests
read the bitmap, decide, and write it back (`Heap.serve`); copies move elements between the region
and a caller's buffer without a look at the bitmap, and may overwrite it.

The bitmap is a lens on the region: what is written is read back (`bitmap_setBitmap`), writing what
is there changes nothing (`setBitmap_bitmap`), and the bytes of the heap proper stay as they are
(`getElem?_setBitmap_of_le`).
-/

set_option autoImplicit false
set_option relaxedAutoImplicit false

namespace LinearHeap

/-- A region with a bitmap at its start and room for the heap that the bitmap describes. -/
structure Heap where
  region : Region
  /-- The region is large enough to be managed. -/
  capacity_le : Layout.capacity ≤ region.size
  deriving DecidableEq

namespace Heap

/-- The bitmap at the start of the region. -/
def bitmap (heap : Heap) : Bitmap := Bitmap.ofBytes (heap.region.slice 0 Layout.heapStart)

/-- The heap with another bitmap. -/
def setBitmap (heap : Heap) (bitmap : Bitmap) : Heap :=
  ⟨heap.region.overwrite 0 bitmap.toBytes, by
    rw [Region.size_overwrite]
    exact heap.capacity_le⟩

/-- Makes a region a heap without allocations; only its first page is cleared. -/
def ofRegion (region : Region) : Except Refusal Heap :=
  if h : Layout.capacity ≤ region.size then .ok (setBitmap ⟨region, h⟩ Bitmap.empty)
  else .error (.regionTooSmall region.size)

/-- A heap without allocations, over a region of zeros that is just large enough. -/
def zeroed : Heap :=
  ⟨Region.filled Layout.capacity 0, by simp [Region.size, Region.filled]⟩

/-! ## Requests -/

variable {ε α : Type}

/-- Lets the bitmap of a heap serve a request. -/
def serve (heap : Heap) (request : Bitmap → Reply Bitmap ε α) : Reply Heap ε α :=
  let reply := request heap.bitmap
  reply.withState (heap.setBitmap reply.state)

/-- Gives back the old space, if there is any, and then asks for new space. -/
def resize (heap : Heap) (oldOffset oldSize align newSize : Nat) : Reply Heap Refusal Nat :=
  heap.serve fun bitmap ↦ bitmap.resize oldOffset oldSize align newSize

/-- Asks for space. -/
def allocate (heap : Heap) (align size : Nat) : Reply Heap Refusal Nat :=
  heap.serve fun bitmap ↦ bitmap.allocate align size

/-- Gives back space. -/
def release (heap : Heap) (offset size align : Nat) : Reply Heap Refusal Unit :=
  heap.serve fun bitmap ↦ bitmap.release offset size align

/-- Asks for the same space again and again, at most so many times and until a request fails. -/
def allocateMany (heap : Heap) (align size times : Nat) :
    List Nat × Reply Heap Refusal Unit :=
  let (offsets, reply) := heap.bitmap.allocateMany align size times
  (offsets, reply.withState (heap.setBitmap reply.state))

/-! ## Inspection -/

/-- A word of the bitmap, if the bitmap has it. -/
def word? (heap : Heap) (index : Nat) : Option (BitVec Layout.granulesPerPage) :=
  heap.bitmap.word? index

/-- The granule belongs to an allocation. -/
def isAllocated (heap : Heap) (granule : Nat) : Bool := heap.bitmap.isSet granule

/-- The number of granules that belong to allocations. -/
def allocated (heap : Heap) : Nat := heap.bitmap.allocated

/-- The number of granules that do not. -/
def free (heap : Heap) : Nat := heap.bitmap.free

/-- The counts on one line. -/
def summary (heap : Heap) : String :=
  "BitmapHeap \x7b allocated_granules: " ++ toString heap.allocated ++
    ", free_granules: " ++ toString heap.free ++ ", .. \x7d"

/-- The counts on lines of their own. -/
def summaryBlock (heap : Heap) : String :=
  "BitmapHeap \x7b\n    allocated_granules: " ++ toString heap.allocated ++
    ",\n    free_granules: " ++ toString heap.free ++ ",\n    ..\n\x7d"

/-! ## Copies -/

/-- Puts elements one after the other from an offset on, as far as the region goes. -/
def writeAll (heap : Heap) (type : ElementType) (offset : Nat) (elements : List type.Element) :
    Heap × Option Fault :=
  let written := heap.region.writeAll type offset elements
  (⟨written.1, by
    rw [Region.size_writeAll]
    exact heap.capacity_le⟩, written.2)

/-- So many elements one after the other from an offset on. -/
def readAll (heap : Heap) (type : ElementType) (offset count : Nat) :
    Except Fault (List type.Element) :=
  heap.region.readAll type offset count

/-- Copies `length` elements of a buffer, from `start` on, into the region. -/
def writeWindow (heap : Heap) (type : ElementType) (offset : Nat) (buffer : List type.Element)
    (start length : Nat) : Heap × Option Fault :=
  let written := heap.region.writeWindow type offset buffer start length
  (⟨written.1, by
    rw [Region.size_writeWindow]
    exact heap.capacity_le⟩, written.2)

/-- The buffer with `length` of its elements, from `start` on, replaced by those of the region. -/
def readWindow (heap : Heap) (type : ElementType) (offset : Nat) (buffer : List type.Element)
    (start length : Nat) : Except Fault (List type.Element) :=
  heap.region.readWindow type offset buffer start length

/-! ## The bitmap as a lens -/

theorem ext {first second : Heap} (h : first.region = second.region) : first = second := by
  cases first
  cases second
  congr

theorem heapStart_le (heap : Heap) : Layout.heapStart ≤ heap.region.size :=
  Nat.le_trans (by decide) heap.capacity_le

@[simp] theorem size_setBitmap (heap : Heap) (bitmap : Bitmap) :
    (heap.setBitmap bitmap).region.size = heap.region.size := by
  rw [setBitmap, Region.size_overwrite]

theorem bitmap_setBitmap (heap : Heap) (bitmap : Bitmap) :
    (heap.setBitmap bitmap).bitmap = bitmap := by
  have hself : (heap.region.overwrite 0 bitmap.toBytes).slice 0 bitmap.toBytes.length =
      bitmap.toBytes := by
    apply Region.slice_overwrite_self
    rw [Bitmap.length_toBytes, Nat.zero_add]
    exact heap.heapStart_le
  rw [Bitmap.length_toBytes] at hself
  rw [Heap.bitmap, setBitmap, hself, Bitmap.ofBytes_toBytes]

theorem setBitmap_bitmap (heap : Heap) : heap.setBitmap heap.bitmap = heap := by
  have hle : 0 + Layout.heapStart ≤ heap.region.size := by
    rw [Nat.zero_add]
    exact heap.heapStart_le
  have hbytes : heap.bitmap.toBytes = heap.region.slice 0 Layout.heapStart :=
    Bitmap.toBytes_ofBytes (Region.length_slice _ hle)
  apply ext
  exact (congrArg (heap.region.overwrite 0) hbytes).trans (Region.overwrite_slice_self _ hle)

/-- Writing the bitmap leaves the bytes of the heap proper alone. -/
theorem getElem?_setBitmap_of_le (heap : Heap) (bitmap : Bitmap) {i : Nat}
    (h : Layout.heapStart ≤ i) :
    (heap.setBitmap bitmap).region.bytes[i]? = heap.region.bytes[i]? := by
  apply Region.getElem?_overwrite_of_le
  rw [Bitmap.length_toBytes, Nat.zero_add]
  exact h

theorem setBitmap_setBitmap (heap : Heap) (first second : Bitmap) :
    (heap.setBitmap first).setBitmap second = heap.setBitmap second := by
  apply ext
  apply Region.ext
  intro i
  simp only [setBitmap, Region.getElem?_overwrite, Region.size_overwrite, Bitmap.length_toBytes]
  split <;> simp_all

/-- A region of zeros holds the bitmap of a heap without allocations. -/
theorem bitmap_zeroed : zeroed.bitmap = Bitmap.empty := by
  apply Bitmap.ext
  intro granule
  rw [Bitmap.isSet_empty]
  by_cases hheap : granule < Layout.heapGranules
  · have hbyte : (zeroed.region.bytes[granule / 8]?.getD 0) = 0 := by
      simp only [zeroed, Region.filled, Array.getElem?_replicate]
      split <;> rfl
    rw [Heap.bitmap, Bitmap.isSet_ofBytes _ hheap, Region.getElem?_slice, Nat.zero_add, hbyte]
    · exact Nat.zero_testBit _
    · simp only [Layout.heapGranules_eq, Layout.heapStart_eq] at *
      omega
  · exact Bitmap.isSet_eq_false_of_le _ (Nat.le_of_not_lt hheap)

/-- A region that is made a heap starts without allocations, whatever it held. -/
theorem bitmap_of_ofRegion {region : Region} {heap : Heap} (h : ofRegion region = .ok heap) :
    heap.bitmap = Bitmap.empty := by
  unfold ofRegion at h
  split at h
  · injection h with h
    subst h
    exact bitmap_setBitmap _ _
  · cases h

@[simp] theorem bitmap_serve (heap : Heap) (request : Bitmap → Reply Bitmap ε α) :
    (heap.serve request).state.bitmap = (request heap.bitmap).state :=
  bitmap_setBitmap _ _

@[simp] theorem outcome_serve (heap : Heap) (request : Bitmap → Reply Bitmap ε α) :
    (heap.serve request).outcome = (request heap.bitmap).outcome := rfl

@[simp] theorem journal_serve (heap : Heap) (request : Bitmap → Reply Bitmap ε α) :
    (heap.serve request).journal = (request heap.bitmap).journal := rfl

/-- Granule `i` is bit `i % 8` of byte `i / 8`. -/
theorem isAllocated_eq (heap : Heap) {granule : Nat} (h : granule < Layout.heapGranules) :
    heap.isAllocated granule =
      (heap.region.bytes[granule / 8]?.getD 0).toNat.testBit (granule % 8) := by
  rw [isAllocated, bitmap, Bitmap.isSet_ofBytes _ h, Region.getElem?_slice, Nat.zero_add]
  simp only [Layout.heapGranules_eq, Layout.heapStart_eq] at *
  omega

end Heap

end LinearHeap
