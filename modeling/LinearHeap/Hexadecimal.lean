/-!
# Hexadecimal text

Messages show offsets in base sixteen: a lower-case numeral without padding after `0x`.
-/

set_option autoImplicit false
set_option relaxedAutoImplicit false

namespace LinearHeap

/-- The hexadecimal text of a number. -/
def hexadecimal (n : Nat) : String := "0x" ++ String.ofList (Nat.toDigits 16 n)

end LinearHeap
