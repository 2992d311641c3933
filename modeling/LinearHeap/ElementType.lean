import LinearHeap.LittleEndian

/-!
# Element types

Ten kinds of element can be kept in a region: integers of 8 to 64 bits, unsigned or in two's
complement, and binary floating-point numbers of 32 and 64 bits. An element is its bits, so a copy
keeps every payload of a float; integers are read from the bits by `ElementType.toInt`.
`decode_encode` and `encode_decode` make the bits of an element and its bytes the same thing.
-/

set_option autoImplicit false
set_option relaxedAutoImplicit false

namespace LinearHeap

/-- A kind of element. -/
inductive ElementType where
  | uint8
  | int8
  | uint16
  | int16
  | uint32
  | int32
  | uint64
  | int64
  | float32
  | float64
  deriving DecidableEq, Repr

namespace ElementType

/-- The bytes of an element. -/
def width : ElementType → Nat
  | uint8 | int8 => 1
  | uint16 | int16 => 2
  | uint32 | int32 | float32 => 4
  | uint64 | int64 | float64 => 8

/-- Elements of this type are read as two's complement. -/
def isSigned : ElementType → Bool
  | int8 | int16 | int32 | int64 => true
  | uint8 | uint16 | uint32 | uint64 | float32 | float64 => false

/-- Elements of this type are binary floating-point numbers. -/
def isFloat : ElementType → Bool
  | float32 | float64 => true
  | uint8 | int8 | uint16 | int16 | uint32 | int32 | uint64 | int64 => false

/-- An element of this type, given by its bits. -/
abbrev Element (type : ElementType) : Type := BitVec (8 * type.width)

/-- The integer that an element stands for; the bits themselves for a float. -/
def toInt (type : ElementType) (element : type.Element) : Int :=
  if type.isSigned then element.toInt else element.toNat

/-- The element that stands for an integer in range. -/
def ofInt (type : ElementType) (value : Int) : type.Element := BitVec.ofInt _ value

/-- The bytes of an element, the least significant first. -/
def encode (type : ElementType) (element : type.Element) : List UInt8 :=
  LittleEndian.encode type.width element.toNat

/-- The element that some bytes hold. -/
def decode (type : ElementType) (bytes : List UInt8) : type.Element :=
  BitVec.ofNat _ (LittleEndian.decode bytes)

theorem width_pos (type : ElementType) : 0 < type.width := by
  cases type <;> decide

theorem width_le (type : ElementType) : type.width ≤ 8 := by
  cases type <;> decide

@[simp] theorem length_encode (type : ElementType) (element : type.Element) :
    (type.encode element).length = type.width :=
  LittleEndian.length_encode _ _

theorem decode_encode (type : ElementType) (element : type.Element) :
    type.decode (type.encode element) = element := by
  apply BitVec.eq_of_toNat_eq
  have hlt := element.isLt
  rw [decode, encode, LittleEndian.decode_encode, Nat.one_shiftLeft, BitVec.toNat_ofNat,
    Nat.mod_mod, Nat.mod_eq_of_lt hlt]

/-- The bits of an element that some bytes hold are the number that they stand for. -/
theorem toNat_decode (type : ElementType) {bytes : List UInt8} (h : bytes.length = type.width) :
    (type.decode bytes).toNat = LittleEndian.decode bytes := by
  have hlt := LittleEndian.decode_lt bytes
  rw [h, Nat.one_shiftLeft] at hlt
  rw [decode, BitVec.toNat_ofNat, Nat.mod_eq_of_lt hlt]

theorem encode_decode (type : ElementType) {bytes : List UInt8} (h : bytes.length = type.width) :
    type.encode (type.decode bytes) = bytes := by
  rw [encode, type.toNat_decode h, ← h, LittleEndian.encode_decode]

end ElementType

end LinearHeap
