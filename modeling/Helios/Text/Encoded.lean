/-!
# Ranges of characters as ranges of bytes

The characters between two are encoded in UTF-8 with varying bytes. Cut at the right places, a range of
characters falls into pieces where each byte varies on its own, so that a piece is a sequence of ranges
of bytes. The pieces come in ascending order.
-/

namespace Helios.Text

/-- The bytes of a code point in UTF-8. -/
def encodePoint (n : Nat) : List Nat :=
  if n < 0x80 then [n]
  else if n < 0x800 then [0xC0 + n / 0x40, 0x80 + n % 0x40]
  else if n < 0x10000 then [0xE0 + n / 0x1000, 0x80 + n / 0x40 % 0x40, 0x80 + n % 0x40]
  else [0xF0 + n / 0x40000, 0x80 + n / 0x1000 % 0x40, 0x80 + n / 0x40 % 0x40, 0x80 + n % 0x40]

/-- Where a range is cut so that all its code points take as many bytes: the last code point of the first
    part. -/
def lengthCut? (low high : Nat) : Option Nat :=
  [0x7F, 0x7FF, 0xFFFF].find? fun most => low ≤ most && most < high

/-- Where a range is cut so that the bytes after the first vary from their least to their greatest; `block`
    code points share all bytes but the last ones. -/
def blockCut? (low high block : Nat) : Option Nat :=
  if low / block = high / block then none
  else if low % block ≠ 0 then some (low / block * block + block - 1)
  else if high % block ≠ block - 1 then some (high / block * block - 1)
  else none

/-- Where a range is cut, if it is; surrogates are left out. -/
def cut? (low high : Nat) : Option ((Nat × Nat) × (Nat × Nat)) :=
  if low < 0xE000 ∧ 0xD7FF < high then some ((low, 0xD7FF), (0xE000, high))
  else
    let point := (lengthCut? low high).or
      (if high ≤ 0x7F then none
       else [0x40, 0x1000, 0x40000].findSome? fun block => blockCut? low high block)
    point.map fun p => ((low, p), (p + 1, high))

/-- The sequences of ranges of bytes of a range of code points. A range is cut into no more than two dozen
    pieces one after another, which bounds the fuel. -/
def byteRangesFrom : Nat → Nat → Nat → List (List (Nat × Nat))
  | 0, _, _ => []
  | fuel + 1, low, high =>
    if high < low then []
    else
      match cut? low high with
      | some ((a, b), (c, d)) => byteRangesFrom fuel a b ++ byteRangesFrom fuel c d
      | none => [(encodePoint low).zip (encodePoint high)]

/-- **The sequences of ranges of bytes** of the code points between two. -/
def byteRanges (low high : Nat) : List (List (Nat × Nat)) := byteRangesFrom 64 low high

end Helios.Text
