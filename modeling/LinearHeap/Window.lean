import LinearHeap.Layout

/-!
# Windows of granules

The space of an allocation is a window: consecutive granules, given by the first of them and their
number.
-/

set_option autoImplicit false
set_option relaxedAutoImplicit false

namespace LinearHeap

/-- Consecutive granules of the heap. -/
structure Window where
  /-- The index of the first granule. -/
  first : Nat
  /-- The number of granules. -/
  count : Nat
  deriving DecidableEq, Repr

namespace Window

/-- The index after the last granule. -/
def stop (window : Window) : Nat := window.first + window.count

instance : Membership Nat Window where
  mem window granule := window.first ≤ granule ∧ granule < window.stop

theorem mem_iff {window : Window} {granule : Nat} :
    granule ∈ window ↔ window.first ≤ granule ∧ granule < window.first + window.count :=
  Iff.rfl

instance (granule : Nat) (window : Window) : Decidable (granule ∈ window) :=
  inferInstanceAs (Decidable (window.first ≤ granule ∧ granule < window.stop))

/-- The window lies inside one page. -/
def InOnePage (window : Window) : Prop :=
  window.first % Layout.granulesPerPage + window.count ≤ Layout.granulesPerPage

instance (window : Window) : Decidable window.InOnePage :=
  inferInstanceAs (Decidable (_ ≤ _))

/-- The window lies inside the heap. -/
def InHeap (window : Window) : Prop := window.stop ≤ Layout.heapGranules

instance (window : Window) : Decidable window.InHeap :=
  inferInstanceAs (Decidable (_ ≤ _))

/-- A window inside one page of the heap lies inside the heap. -/
theorem InOnePage.inHeap {window : Window} (hpage : window.InOnePage)
    (hfirst : window.first < Layout.heapGranules) : window.InHeap := by
  simp only [InOnePage, InHeap, stop, Layout.granulesPerPage, Layout.heapGranules_eq] at *
  omega

end Window

end LinearHeap
