/-!
# Little-endian numerals

A number is written in a given count of bytes, the least significant first.

* `decode_encode`: reading back what was written gives the number modulo `1 <<< (8 * width)`.
* `encode_decode`: writing what was read gives the same bytes.
* `testBit_decode`: bit `i` of the number is bit `i % 8` of byte `i / 8`.
-/

set_option autoImplicit false
set_option relaxedAutoImplicit false

namespace LinearHeap.LittleEndian

/-- The number that some bytes stand for. -/
def decode : List UInt8 → Nat
  | [] => 0
  | byte :: rest => byte.toNat + 256 * decode rest

/-- The `width` least significant bytes of a number. -/
def encode : (width value : Nat) → List UInt8
  | 0, _ => []
  | width + 1, value => UInt8.ofNat value :: encode width (value / 256)

@[simp] theorem length_encode (width value : Nat) : (encode width value).length = width := by
  induction width generalizing value with
  | zero => rfl
  | succ width ih => simp [encode, ih]

/-- Room for one more byte is room for 256 times as much. -/
private theorem shiftLeft_succ (value width : Nat) :
    value <<< (8 * (width + 1)) = 256 * (value <<< (8 * width)) := by
  rw [Nat.mul_succ, Nat.shiftLeft_add, Nat.shiftLeft_eq _ 8, Nat.mul_comm]

theorem decode_lt (bytes : List UInt8) : decode bytes < 1 <<< (8 * bytes.length) := by
  induction bytes with
  | nil => simp [decode]
  | cons byte rest ih =>
    have hbyte := byte.toNat_lt
    rw [decode, List.length_cons, shiftLeft_succ]
    omega

theorem decode_encode (width value : Nat) :
    decode (encode width value) = value % (1 <<< (8 * width)) := by
  induction width generalizing value with
  | zero => simp [encode, decode, Nat.mod_one]
  | succ width ih =>
    rw [encode, decode, ih, shiftLeft_succ, Nat.mod_mul]
    simp

theorem encode_decode (bytes : List UInt8) : encode bytes.length (decode bytes) = bytes := by
  induction bytes with
  | nil => rfl
  | cons byte rest ih =>
    have hbyte := byte.toNat_lt
    have hhead : UInt8.ofNat (byte.toNat + 256 * decode rest) = byte := by
      apply UInt8.toNat_inj.mp
      rw [UInt8.toNat_ofNat']
      omega
    have htail : (byte.toNat + 256 * decode rest) / 256 = decode rest := by omega
    rw [List.length_cons, decode, encode, hhead, htail, ih]

/-- Bits of bytes are the binary digits of the number they stand for. -/
theorem testBit_decode (bytes : List UInt8) (i : Nat) :
    (decode bytes).testBit i = (bytes[i / 8]?.getD 0).toNat.testBit (i % 8) := by
  induction bytes generalizing i with
  | nil => simp [decode]
  | cons byte rest ih =>
    have hbyte := byte.toNat_lt
    have hsplit : decode (byte :: rest) = 2 ^ 8 * decode rest + byte.toNat := by
      rw [decode]
      omega
    rw [hsplit, Nat.testBit_two_pow_mul_add _ hbyte]
    split
    · next hlt =>
      have hdiv : i / 8 = 0 := by omega
      have hmod : i % 8 = i := by omega
      simp [hdiv, hmod]
    · next hge =>
      have hdiv : i / 8 = (i - 8) / 8 + 1 := by omega
      have hmod : i % 8 = (i - 8) % 8 := by omega
      rw [ih, hdiv, hmod, List.getElem?_cons_succ]

end LinearHeap.LittleEndian
