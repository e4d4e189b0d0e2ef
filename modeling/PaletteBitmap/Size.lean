/-!
# Sizes in words

Sizes, lengths and their products are words of 64 bits.  What has no room in a word loses its upper
bits, and nothing is reported.
-/

namespace PaletteBitmap

/-- A size as a word holds it. -/
def wordSize (n : Nat) : Nat := n % UInt64.size

theorem wordSize_of_lt {n : Nat} (h : n < UInt64.size) : wordSize n = n := Nat.mod_eq_of_lt h

end PaletteBitmap
