import LinearHeap.Fault
import LinearHeap.Window

/-!
# Size classes

A request for less than a page gets granules inside one page; any larger request gets whole pages.
The bytes set aside for a request are its footprint, the size rounded up to the class's unit
(`le_footprint_ofSize`, `footprint_ofSize_lt`, `unit_dvd_footprint`).
-/

set_option autoImplicit false
set_option relaxedAutoImplicit false

namespace LinearHeap

/-- The kind and extent of the space that a request needs. -/
inductive SizeClass where
  | small (granules : Nat)
  | large (pages : Nat)
  deriving DecidableEq, Repr

namespace SizeClass

/-- The size class of a request for a positive number of bytes. -/
def ofSize (size : Nat) : SizeClass :=
  if size < Layout.pageBytes then
    small ((size + (Layout.granuleBytes - 1)) / Layout.granuleBytes)
  else
    large ((size + (Layout.pageBytes - 1)) / Layout.pageBytes)

/-- The size class of a request. A request for no bytes has none. -/
def ofRequest (size : Nat) : Except Fault SizeClass :=
  if size = 0 then .error .emptyRequest else .ok (ofSize size)

/-- The bytes of the unit that space of this class is counted in, and starts on. -/
def unit : SizeClass → Nat
  | small _ => Layout.granuleBytes
  | large _ => Layout.pageBytes

/-- The number of units. -/
def count : SizeClass → Nat
  | small granules => granules
  | large pages => pages

/-- The bytes set aside. -/
def footprint (sizeClass : SizeClass) : Nat := sizeClass.count * sizeClass.unit

/-- The granules set aside. -/
def granuleCount : SizeClass → Nat
  | small granules => granules
  | large pages => pages * Layout.granulesPerPage

/-- The granules set aside from a first one on. -/
def window (sizeClass : SizeClass) (first : Nat) : Window := ⟨first, sizeClass.granuleCount⟩

/-- The number of units is one that a search can look for. -/
def Searchable : SizeClass → Prop
  | small granules => 0 < granules ∧ granules ≤ Layout.granulesPerPage
  | large pages => 0 < pages

instance : (sizeClass : SizeClass) → Decidable sizeClass.Searchable
  | small granules => inferInstanceAs (Decidable (0 < granules ∧ granules ≤ _))
  | large pages => inferInstanceAs (Decidable (0 < pages))

/-- What is wrong with a number of units that no search can look for. -/
def runFault : SizeClass → Fault
  | small granules => .granuleRun granules
  | large _ => .emptyPageRun

/-- The window is one that space of this class can have: small space stays inside a page. -/
def Admits : SizeClass → Window → Prop
  | small _, window => window.InOnePage
  | large _, window => window.InHeap

instance : (sizeClass : SizeClass) → (window : Window) → Decidable (sizeClass.Admits window)
  | small _, window => inferInstanceAs (Decidable window.InOnePage)
  | large _, window => inferInstanceAs (Decidable window.InHeap)

def isSmall : SizeClass → Bool
  | small _ => true
  | large _ => false

def isLarge : SizeClass → Bool
  | small _ => false
  | large _ => true

/-- The text that shows a size class. -/
def text : SizeClass → String
  | small granules => "Small \x7b granules: " ++ toString granules ++ " \x7d"
  | large pages => "Large \x7b pages: " ++ toString pages ++ " \x7d"

theorem footprint_eq (sizeClass : SizeClass) :
    sizeClass.footprint = sizeClass.granuleCount * Layout.granuleBytes := by
  cases sizeClass with
  | small granules => rfl
  | large pages =>
    simp only [footprint, count, unit, granuleCount, Layout.pageBytes_eq, Layout.granulesPerPage,
      Layout.granuleBytes]
    omega

theorem ofRequest_of_pos {size : Nat} (h : 0 < size) : ofRequest size = .ok (ofSize size) :=
  if_neg (Nat.ne_of_gt h)

theorem ofSize_of_lt {size : Nat} (h : size < Layout.pageBytes) :
    ofSize size = small ((size + 7) / 8) :=
  if_pos h

theorem ofSize_of_le {size : Nat} (h : Layout.pageBytes ≤ size) :
    ofSize size = large ((size + 511) / 512) :=
  if_neg (Nat.not_lt.mpr h)

theorem unit_dvd_footprint (sizeClass : SizeClass) : sizeClass.unit ∣ sizeClass.footprint :=
  Nat.dvd_mul_left _ _

theorem le_footprint_ofSize (size : Nat) : size ≤ (ofSize size).footprint := by
  unfold ofSize
  split <;> simp only [footprint, count, unit, Layout.pageBytes_eq, Layout.granuleBytes] <;> omega

theorem footprint_ofSize_lt (size : Nat) :
    (ofSize size).footprint < size + (ofSize size).unit := by
  unfold ofSize
  split <;> simp only [footprint, count, unit, Layout.pageBytes_eq, Layout.granuleBytes] <;> omega

theorem count_ofSize_pos {size : Nat} (h : 0 < size) : 0 < (ofSize size).count := by
  unfold ofSize
  split <;> simp only [count, Layout.pageBytes_eq, Layout.granuleBytes] <;> omega

/-- A small request never needs more than a page. -/
theorem count_ofSize_le {size : Nat} (h : size < Layout.pageBytes) : (ofSize size).count ≤ 64 := by
  rw [ofSize_of_lt h]
  simp only [count]
  rw [Layout.pageBytes_eq] at h
  omega

theorem searchable_ofSize {size : Nat} (h : 0 < size) : (ofSize size).Searchable := by
  by_cases hsmall : size < Layout.pageBytes
  · have hpos := count_ofSize_pos h
    have hle := count_ofSize_le hsmall
    rw [ofSize_of_lt hsmall] at *
    exact ⟨hpos, hle⟩
  · have hpos := count_ofSize_pos h
    rw [ofSize_of_le (Nat.le_of_not_lt hsmall)] at *
    exact hpos

theorem Searchable.granuleCount_pos {sizeClass : SizeClass} (h : sizeClass.Searchable) :
    0 < sizeClass.granuleCount := by
  cases sizeClass with
  | small granules => exact h.1
  | large pages => exact Nat.mul_pos h (by decide)

theorem Admits.inHeap {sizeClass : SizeClass} {window : Window} (h : sizeClass.Admits window)
    (hfirst : window.first < Layout.heapGranules) : window.InHeap := by
  cases sizeClass with
  | small granules => exact Window.InOnePage.inHeap h hfirst
  | large pages => exact h

end SizeClass

end LinearHeap
