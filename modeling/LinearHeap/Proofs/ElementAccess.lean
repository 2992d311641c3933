import Mathlib.Algebra.BigOperators.Ring.Finset
import LinearHeap.Proofs.Copies

/-!
# Elements and their bytes

An element in a region is its bytes. Every run of as many bytes as the element type is wide stands
for exactly one element, wherever it is, so nothing is lost between the two: an element that is
stored is loaded again (`Region.load_store`), and one that is loaded can be stored without a trace
(`Region.store_load`).

What is loaded is the sum of the bytes, loaded one by one, byte `i` with the weight `256 ^ i`
(`Region.load_eq_ok_iff_bytes`); two's complement comes after that (`ElementType.toInt_eq`). So
loads of different types and widths show the same bytes where they overlap, and stores that do not
overlap may be exchanged, with their faults (`Region.tryStore_comm`). An element that does not lie
inside the region is refused, and the region is then as before (`Region.tryStore_eq_outside_iff`).
-/

set_option autoImplicit false
set_option relaxedAutoImplicit false

namespace LinearHeap

namespace LittleEndian

/-- Byte `i` of what is written is digit `i` of the number, in base 256. -/
theorem getElem?_encode {width i : Nat} (value : Nat) (h : i < width) :
    (encode width value)[i]? = some (UInt8.ofNat (value / 256 ^ i)) := by
  induction width generalizing value i with
  | zero => exact absurd h (Nat.not_lt_zero i)
  | succ width ih =>
    cases i with
    | zero => rw [encode, List.getElem?_cons_zero, Nat.pow_zero, Nat.div_one]
    | succ i =>
      rw [encode, List.getElem?_cons_succ, ih _ (Nat.lt_of_succ_lt_succ h),
        Nat.div_div_eq_div_mul, Nat.pow_succ']

/-- Digit `i`, in base 256, of the number that some bytes stand for is byte `i`. -/
theorem decode_div_pow_mod (bytes : List UInt8) (i : Nat) :
    decode bytes / 256 ^ i % 256 = (bytes[i]?.getD 0).toNat := by
  induction bytes generalizing i with
  | nil => simp [decode]
  | cons byte rest ih =>
    have hbyte := byte.toNat_lt
    cases i with
    | zero =>
      rw [decode, Nat.pow_zero, Nat.div_one, List.getElem?_cons_zero, Option.getD_some]
      omega
    | succ i =>
      have hrest : (byte.toNat + 256 * decode rest) / 256 = decode rest := by omega
      rw [decode, Nat.pow_succ', ← Nat.div_div_eq_div_mul, hrest, ih, List.getElem?_cons_succ]

/-- The number that some bytes stand for is their sum, each with the weight of its place. -/
theorem decode_eq_sum (bytes : List UInt8) :
    decode bytes = ∑ i ∈ Finset.range bytes.length, (bytes[i]?.getD 0).toNat * 256 ^ i := by
  induction bytes with
  | nil => rfl
  | cons byte rest ih =>
    rw [decode, ih, List.length_cons, Finset.sum_range_succ', Finset.mul_sum, Nat.add_comm,
      List.getElem?_cons_zero, Option.getD_some, Nat.pow_zero, Nat.mul_one]
    congr 1
    refine Finset.sum_congr rfl fun i _ ↦ ?_
    rw [List.getElem?_cons_succ, Nat.pow_succ', Nat.mul_left_comm]

end LittleEndian

namespace ElementType

/-- As many bytes as a type is wide are the bytes of one element. -/
theorem existsUnique_encode_eq (type : ElementType) {bytes : List UInt8}
    (h : bytes.length = type.width) : ∃! element, type.encode element = bytes :=
  ⟨type.decode bytes, type.encode_decode h, fun element helement ↦ by
    rw [← helement, type.decode_encode]⟩

/-- A signed element whose highest bit is set stands for what is missing to the next power. -/
theorem toInt_eq (type : ElementType) (element : type.Element) :
    type.toInt element =
      if type.isSigned = true ∧ 2 ^ (8 * type.width) ≤ 2 * element.toNat then
        (element.toNat : Int) - 2 ^ (8 * type.width)
      else element.toNat := by
  rw [toInt]
  by_cases hsigned : type.isSigned = true
  · rw [if_pos hsigned, BitVec.toInt_eq_toNat_cond]
    by_cases hhigh : 2 * element.toNat < 2 ^ (8 * type.width)
    · rw [if_pos hhigh, if_neg fun h ↦ absurd h.2 (Nat.not_le_of_lt hhigh)]
    · rw [if_neg hhigh, if_pos ⟨hsigned, Nat.le_of_not_lt hhigh⟩, Nat.cast_pow, Nat.cast_ofNat]
  · rw [if_neg hsigned, if_neg fun h ↦ hsigned h.1]

end ElementType

namespace Region

variable {region : Region} {type other : ElementType} {offset start i : Nat}

/-- Tries to put an element at an offset: the region after that, and what broke it off. -/
def tryStore (region : Region) (type : ElementType) (offset : Nat) (element : type.Element) :
    Region × Option Fault :=
  match region.store type offset element with
  | .ok stored => (stored, none)
  | .error fault => (region, some fault)

/-! ### Storing -/

theorem tryStore_of_holds (h : region.Holds type offset) (element : type.Element) :
    region.tryStore type offset element =
      (region.overwrite offset (type.encode element), none) := by
  rw [tryStore, store_of_holds h]

theorem tryStore_of_not_holds (h : ¬ region.Holds type offset) (element : type.Element) :
    region.tryStore type offset element = (region, some (.outsideRegion offset type.width)) := by
  rw [tryStore, store, if_neg h]

@[simp] theorem holds_overwrite {source : List UInt8} :
    (region.overwrite start source).Holds type offset ↔ region.Holds type offset := by
  simp only [Holds, size_overwrite]

/-- A store breaks off, and leaves the region as it was, if the element does not lie inside it. -/
theorem tryStore_eq_outside_iff {element : type.Element} :
    region.tryStore type offset element = (region, some (.outsideRegion offset type.width)) ↔
      region.size < offset + type.width := by
  by_cases hholds : region.Holds type offset
  · rw [tryStore_of_holds hholds]
    exact iff_of_false (fun h ↦ nomatch congrArg Prod.snd h) (Nat.not_lt_of_le hholds)
  · exact iff_of_true (tryStore_of_not_holds hholds element) (Nat.lt_of_not_le hholds)

/-- The bytes of a region with an element put inside it. -/
theorem getElem?_overwrite_encode (hholds : region.Holds type offset) (element : type.Element)
    (i : Nat) :
    (region.overwrite offset (type.encode element)).bytes[i]? =
      if offset ≤ i ∧ i < offset + type.width then
        some (UInt8.ofNat (element.toNat / 256 ^ (i - offset)))
      else region.bytes[i]? := by
  simp only [Holds] at hholds
  rw [getElem?_overwrite, type.length_encode]
  by_cases hin : offset ≤ i ∧ i < offset + type.width
  · rw [if_pos ⟨by omega, hin⟩, if_pos hin, ElementType.encode,
      LittleEndian.getElem?_encode _ (by omega)]
  · rw [if_neg fun h ↦ hin h.2, if_neg hin]

/-- Stores to separate places may be exchanged: neither the region nor the faults show their order.
-/
theorem tryStore_comm (region : Region) (first : type.Element) (second : other.Element)
    (h : offset + type.width ≤ start ∨ start + other.width ≤ offset) :
    ((region.tryStore type offset first).1.tryStore other start second).1 =
        ((region.tryStore other start second).1.tryStore type offset first).1 ∧
      ((region.tryStore type offset first).1.tryStore other start second).2 =
        (region.tryStore other start second).2 ∧
      ((region.tryStore other start second).1.tryStore type offset first).2 =
        (region.tryStore type offset first).2 := by
  have hcomm : (region.overwrite offset (type.encode first)).overwrite start
      (other.encode second) =
        (region.overwrite start (other.encode second)).overwrite offset (type.encode first) :=
    region.overwrite_comm (by rwa [type.length_encode, other.length_encode])
  by_cases hfirst : region.Holds type offset <;> by_cases hsecond : region.Holds other start <;>
    simp only [tryStore_of_holds, tryStore_of_not_holds, holds_overwrite, hfirst, hsecond, hcomm,
      not_false_eq_true, and_self]

/-! ### Loading -/

/-- The digits of an element that is loaded are the bytes that are there. -/
theorem toNat_div_pow_mod_of_load {element : type.Element}
    (h : region.load type offset = .ok element) (hi : i < type.width) :
    element.toNat / 256 ^ i % 256 = (region.bytes[offset + i]?.getD 0).toNat := by
  obtain ⟨hholds, hbytes⟩ := load_eq_ok_iff.mp h
  rw [← type.decode_encode element, hbytes, type.toNat_decode (region.length_slice hholds),
    LittleEndian.decode_div_pow_mod, getElem?_slice _ hi]

/-- An element that is loaded is the sum of the bytes that are there. -/
theorem toNat_eq_sum_of_load {element : type.Element} (h : region.load type offset = .ok element) :
    element.toNat =
      ∑ i ∈ Finset.range type.width, (region.bytes[offset + i]?.getD 0).toNat * 256 ^ i := by
  obtain ⟨hholds, hbytes⟩ := load_eq_ok_iff.mp h
  have hlength := region.length_slice hholds
  rw [← type.decode_encode element, hbytes, type.toNat_decode hlength, LittleEndian.decode_eq_sum,
    hlength]
  refine Finset.sum_congr rfl fun i hi ↦ ?_
  rw [getElem?_slice _ (Finset.mem_range.mp hi)]

/-- A byte that is loaded is the byte that is there. -/
theorem toNat_of_load_uint8 {byte : ElementType.Element .uint8}
    (h : region.load .uint8 offset = .ok byte) :
    byte.toNat = (region.bytes[offset]?.getD 0).toNat := by
  have hdigit := toNat_div_pow_mod_of_load h (ElementType.width_pos .uint8)
  have hlt : byte.toNat < 256 := byte.isLt
  rwa [Nat.pow_zero, Nat.div_one, Nat.mod_eq_of_lt hlt, Nat.add_zero] at hdigit

/-- An element is loaded if its bytes are, and then it is their sum. -/
theorem load_eq_ok_iff_bytes {element : type.Element} :
    region.load type offset = .ok element ↔
      ∃ bytes : Nat → ElementType.Element .uint8,
        (∀ i, i < type.width → region.load .uint8 (offset + i) = .ok (bytes i)) ∧
          element.toNat = ∑ i ∈ Finset.range type.width, (bytes i).toNat * 256 ^ i := by
  constructor
  · intro h
    have hholds := (load_eq_ok_iff.mp h).1
    have hbytes : ∀ i, i < type.width → region.load .uint8 (offset + i) =
        .ok (ElementType.decode .uint8 (region.slice (offset + i) 1)) := by
      intro i hi
      refine load_of_holds ?_
      simp only [Holds, ElementType.width] at *
      omega
    refine ⟨_, hbytes, (toNat_eq_sum_of_load h).trans (Finset.sum_congr rfl fun i hi ↦ ?_)⟩
    rw [toNat_of_load_uint8 (hbytes i (Finset.mem_range.mp hi))]
  · rintro ⟨bytes, hbytes, hsum⟩
    -- The last byte lies inside the region, and so does the element.
    have hwidth := type.width_pos
    have hlast := (load_eq_ok_iff.mp (hbytes (type.width - 1) (by omega))).1
    have hholds : region.Holds type offset := by
      simp only [Holds, ElementType.width] at *
      omega
    have hload := load_of_holds hholds
    rw [hload]
    refine congrArg Except.ok (BitVec.eq_of_toNat_eq ?_)
    rw [toNat_eq_sum_of_load hload, hsum]
    refine Finset.sum_congr rfl fun i hi ↦ ?_
    rw [toNat_of_load_uint8 (hbytes i (Finset.mem_range.mp hi))]

/-- Loads that overlap agree on each byte that they have in common. -/
theorem div_pow_mod_eq_of_load {first : type.Element} {second : other.Element}
    (hfirst : region.load type offset = .ok first) (hsecond : region.load other start = .ok second)
    (hoffset : offset ≤ i ∧ i < offset + type.width)
    (hstart : start ≤ i ∧ i < start + other.width) :
    first.toNat / 256 ^ (i - offset) % 256 = second.toNat / 256 ^ (i - start) % 256 := by
  rw [toNat_div_pow_mod_of_load hfirst (by omega), toNat_div_pow_mod_of_load hsecond (by omega),
    Nat.add_sub_of_le hoffset.1, Nat.add_sub_of_le hstart.1]

/-- Elements and bytes are the same thing, at any offset of any region. As many bytes as a type is
wide are the bytes of exactly one element. A store breaks off and leaves the region as it was if and
only if the element would end past the region; otherwise it changes the bytes of the element alone,
to the digits of its bits in base 256, and a load gives back the same bits. An element that is
loaded can be stored again without a trace. A load gives the sum of the bytes, each loaded by itself
and weighted with its place, which signed types read as two's complement; so loads agree on all
bytes that they have in common. Stores to separate places may be exchanged. -/
theorem elements_are_their_bytes (region : Region) (type : ElementType) (offset : Nat) :
    (∀ bytes : List UInt8, bytes.length = type.width →
      ∃! element, type.encode element = bytes) ∧
    (∀ element,
      (region.tryStore type offset element = (region, some (.outsideRegion offset type.width)) ↔
        region.size < offset + type.width) ∧
      (offset + type.width ≤ region.size →
        ∃ stored, region.tryStore type offset element = (stored, none) ∧
          stored.size = region.size ∧
          (∀ i : Nat, stored.bytes[i]? =
            if offset ≤ i ∧ i < offset + type.width then
              some (UInt8.ofNat (element.toNat / 256 ^ (i - offset)))
            else region.bytes[i]?) ∧
          stored.load type offset = .ok element)) ∧
    (∀ element, region.load type offset = .ok element →
      region.tryStore type offset element = (region, none)) ∧
    (∀ element, region.load type offset = .ok element ↔
      ∃ bytes : Nat → ElementType.Element .uint8,
        (∀ i, i < type.width → region.load .uint8 (offset + i) = .ok (bytes i)) ∧
          element.toNat = ∑ i ∈ Finset.range type.width, (bytes i).toNat * 256 ^ i) ∧
    (∀ element : type.Element, type.toInt element =
      if type.isSigned = true ∧ 2 ^ (8 * type.width) ≤ 2 * element.toNat then
        (element.toNat : Int) - 2 ^ (8 * type.width)
      else element.toNat) ∧
    ∀ (other : ElementType) (start : Nat) (first : type.Element) (second : other.Element),
      (region.load type offset = .ok first → region.load other start = .ok second →
        ∀ i, offset ≤ i ∧ i < offset + type.width → start ≤ i ∧ i < start + other.width →
          first.toNat / 256 ^ (i - offset) % 256 = second.toNat / 256 ^ (i - start) % 256) ∧
      (offset + type.width ≤ start ∨ start + other.width ≤ offset →
        ((region.tryStore type offset first).1.tryStore other start second).1 =
            ((region.tryStore other start second).1.tryStore type offset first).1 ∧
          ((region.tryStore type offset first).1.tryStore other start second).2 =
            (region.tryStore other start second).2 ∧
          ((region.tryStore other start second).1.tryStore type offset first).2 =
            (region.tryStore type offset first).2) := by
  refine ⟨fun _ ↦ type.existsUnique_encode_eq, fun element ↦ ⟨tryStore_eq_outside_iff, ?_⟩, ?_,
    fun _ ↦ load_eq_ok_iff_bytes, type.toInt_eq, fun other start first second ↦ ⟨?_, ?_⟩⟩
  · intro hholds
    have hstore := store_of_holds hholds element
    exact ⟨_, tryStore_of_holds hholds element, region.size_overwrite _ _,
      getElem?_overwrite_encode hholds element, load_store hstore⟩
  · intro element hload
    rw [tryStore, store_load hload]
  · intro hfirst hsecond i
    exact div_pow_mod_eq_of_load hfirst hsecond
  · exact region.tryStore_comm first second

/-- The least 32-bit integer is stored at an odd offset and loaded again; a signalling NaN behind it
is stored before or after. A 16-bit load inside a 32-bit one shows two of its bytes. -/
theorem elements_are_their_bytes_unaligned :
    let region := filled 16 0xA5
    let least : ElementType.Element .int32 := 0x80000000#32
    let signalling : ElementType.Element .float64 := 0x7FF0000000000001#64
    (([1, 2, 3, 4] : List UInt8).length = ElementType.width .int32 ∧
      ∃! element, ElementType.encode .int32 element = [1, 2, 3, 4]) ∧
    (3 + ElementType.width .int32 ≤ region.size ∧ ∃ stored,
      region.tryStore .int32 3 least = (stored, none) ∧ stored.load .int32 3 = .ok least) ∧
    ElementType.toInt .int32 least = -2147483648 ∧
    (region.load .int32 3 = .ok 0xA5A5A5A5#32 ∧
      region.tryStore .int32 3 0xA5A5A5A5#32 = (region, none)) ∧
    (region.load .uint16 5 = .ok 0xA5A5#16 ∧
      (0xA5A5A5A5#32).toNat / 256 ^ (6 - 3) % 256 = (0xA5A5#16).toNat / 256 ^ (6 - 5) % 256) ∧
    (3 + ElementType.width .int32 ≤ 7 ∧
      ((region.tryStore .int32 3 least).1.tryStore .float64 7 signalling).1 =
        ((region.tryStore .float64 7 signalling).1.tryStore .int32 3 least).1) := by
  intro region least signalling
  have hloaded : region.load .int32 3 = .ok 0xA5A5A5A5#32 :=
    load_eq_ok_iff.mpr ⟨by decide, by decide +kernel⟩
  have hinside : region.load .uint16 5 = .ok 0xA5A5#16 :=
    load_eq_ok_iff.mpr ⟨by decide, by decide +kernel⟩
  obtain ⟨hunique, hstore, hback, _, hint, hpair⟩ := elements_are_their_bytes region .int32 3
  obtain ⟨stored, htry, _, _, hload⟩ := (hstore least).2 (by decide)
  refine ⟨⟨rfl, hunique _ rfl⟩, ⟨by decide, stored, htry, hload⟩, (hint least).trans rfl,
    ⟨hloaded, hback _ hloaded⟩, ⟨hinside, ?_⟩, by decide, ?_⟩
  · exact (hpair .uint16 5 _ _).1 hloaded hinside 6 (by decide) (by decide)
  · exact ((hpair .float64 7 least signalling).2 (by decide)).1

end Region

end LinearHeap
