/-! # Blank characters

White space is the Unicode property `White_Space`: twenty-five characters.

* `isBlank`: membership in that property.
* `skipBlanks`, `trim`: a text without its leading blanks, and without blanks at either end.
-/

set_option autoImplicit false

namespace PredicateCalculus.Text

/-- Code points of the Unicode property `White_Space`, as closed ranges in ascending order. -/
def blankRanges : List (Nat × Nat) :=
  [(0x09, 0x0D), (0x20, 0x20), (0x85, 0x85), (0xA0, 0xA0), (0x1680, 0x1680), (0x2000, 0x200A),
    (0x2028, 0x2029), (0x202F, 0x202F), (0x205F, 0x205F), (0x3000, 0x3000)]

def isBlank (c : Char) : Bool :=
  blankRanges.any fun (low, high) => low ≤ c.toNat && c.toNat ≤ high

def skipBlanks (text : List Char) : List Char :=
  text.dropWhile isBlank

def trim (text : List Char) : List Char :=
  (skipBlanks (skipBlanks text).reverse).reverse

end PredicateCalculus.Text
