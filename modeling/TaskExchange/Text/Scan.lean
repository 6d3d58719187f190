/-!
Reading texts: the white space around them, numbers in digits, and bytes that are written by their
codes.  What is blank is told by the character property, not the ASCII subset, so an ideographic
space is blank and a zero-width space is not.  A number is an optional plus sign and decimal digits
and nothing else, and stays below the limit of a 64-bit word.  A byte of a path may be written as a
percent sign and two hexadecimal digits; a percent sign that no two digits follow stands for itself,
and so does every other byte, the plus sign included.
-/

namespace TaskExchange.Text

/-! ### Blank characters -/

/-- Holds of the twenty-five characters that carry the white-space property. -/
def isBlank (c : Char) : Bool :=
  let n := c.toNat
  (9 ≤ n && n ≤ 13) || n == 0x20 || n == 0x85 || n == 0xA0 || n == 0x1680 ||
    (0x2000 ≤ n && n ≤ 0x200A) || n == 0x2028 || n == 0x2029 || n == 0x202F || n == 0x205F ||
    n == 0x3000

/-- A text is blank when nothing of it is left after its blank characters are removed. -/
def blank (s : String) : Bool := s.toList.all isBlank

/-- The text without the blank characters at its front. -/
def dropBlanks (cs : List Char) : List Char := cs.dropWhile isBlank

/-- The text without the blank characters at its two ends. -/
def trim (s : String) : String :=
  String.ofList (dropBlanks (dropBlanks s.toList).reverse).reverse

/-! ### Numbers -/

/-- Numbers that fit a 64-bit word are smaller than this. -/
def wordBound : Nat := Nat.pow 2 64

/-- The number that a list of decimal digits denotes, if it holds digits only and one at least. -/
def digitsValue? (cs : List Char) : Option Nat :=
  if cs.isEmpty || !cs.all Char.isDigit then none
  else some (cs.foldl (fun n c => 10 * n + (c.toNat - 48)) 0)

/-- The number that a text spells: digits after at most one plus sign, below the bound. -/
def word? (s : String) : Option Nat :=
  let digits := match s.toList with
    | '+' :: rest => rest
    | cs => cs
  (digitsValue? digits).bind fun n => if n < wordBound then some n else none

/-! ### Bytes by their codes -/

namespace Percent

/-- The value of a hexadecimal digit of either case. -/
def hexValue? (b : UInt8) : Option UInt8 :=
  if 0x30 ≤ b && b ≤ 0x39 then some (b - 0x30)
  else if 0x41 ≤ b && b ≤ 0x46 then some (b - 0x37)
  else if 0x61 ≤ b && b ≤ 0x66 then some (b - 0x57)
  else none

/-- The bytes that a percent-encoded sequence of bytes stands for. -/
def decodeBytes : List UInt8 → List UInt8
  | 0x25 :: h :: l :: rest =>
    match hexValue? h, hexValue? l with
    | some x, some y => (16 * x + y) :: decodeBytes rest
    | _, _ => 0x25 :: decodeBytes (h :: l :: rest)
  | b :: rest => b :: decodeBytes rest
  | [] => []

/-- The text that a percent-encoded text stands for, if its bytes are one. -/
def decode? (s : String) : Option String :=
  String.fromUTF8? (ByteArray.mk (decodeBytes s.toUTF8.toList).toArray)

end Percent

end TaskExchange.Text
