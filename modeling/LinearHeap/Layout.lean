/-!
# Layout of a managed region

A managed region opens with one page that holds the bitmap; the heap follows. One bit of the bitmap
stands for one granule of the heap and one word of the bitmap for one page, so word `i` tracks page
`i` and bit `j` of it tracks granule `i * granulesPerPage + j`.

Offsets and sizes are natural numbers: every sum below is exact.
-/

set_option autoImplicit false
set_option relaxedAutoImplicit false

namespace LinearHeap.Layout

/-- Bytes of a granule, the share of the heap that one bit of the bitmap stands for. -/
def granuleBytes : Nat := 8

/-- Granules of a page, as many as a word of the bitmap has bits. -/
def granulesPerPage : Nat := 64

/-- Bytes of a page, the unit of large requests. -/
def pageBytes : Nat := granuleBytes * granulesPerPage

/-- Bytes of a word of the bitmap. -/
def wordBytes : Nat := 8

/-- Words of the bitmap, which fill one page. -/
def bitmapWords : Nat := pageBytes / wordBytes

/-- Offset of the first byte of the heap, which is also the number of bytes of the bitmap. -/
def heapStart : Nat := pageBytes

/-- Granules of the heap. -/
def heapGranules : Nat := bitmapWords * granulesPerPage

/-- Bytes of a managed region, bitmap included. -/
def capacity : Nat := heapStart + heapGranules * granuleBytes

/-- Offset of the first byte of a granule of the heap. -/
def granuleOffset (granule : Nat) : Nat := heapStart + granule * granuleBytes

/-- Offset of the first byte of a page of the heap. -/
def pageOffset (page : Nat) : Nat := granuleOffset (page * granulesPerPage)

theorem pageBytes_eq : pageBytes = 512 := rfl

theorem bitmapWords_eq : bitmapWords = 64 := rfl

theorem heapStart_eq : heapStart = 512 := rfl

theorem heapGranules_eq : heapGranules = 4096 := rfl

theorem capacity_eq : capacity = 33280 := rfl

theorem granuleOffset_eq (granule : Nat) : granuleOffset granule = 512 + 8 * granule := by
  simp only [granuleOffset, heapStart_eq, granuleBytes]
  omega

theorem pageOffset_eq (page : Nat) : pageOffset page = 512 + 512 * page := by
  simp only [pageOffset, granuleOffset_eq, granulesPerPage]
  omega

end LinearHeap.Layout
