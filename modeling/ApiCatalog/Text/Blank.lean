/-!
# Blank characters

This module fixes which characters count as blank: the Unicode property White_Space.
A zero width space, a byte order mark and the separators below U+0020 other than tab to
carriage return are not blank.

- `isBlank`      : membership in the property
- `trim`         : a text without its outer blank characters
- `dropTrailing` : a text without the copies of one character at its end
-/

namespace ApiCatalog
namespace Text

/-! ## The property -/

/-- Ranges of White_Space, both ends included. -/
def blankRanges : List (Nat × Nat) :=
  [(0x09, 0x0D), (0x20, 0x20), (0x85, 0x85), (0xA0, 0xA0), (0x1680, 0x1680), (0x2000, 0x200A),
    (0x2028, 0x2029), (0x202F, 0x202F), (0x205F, 0x205F), (0x3000, 0x3000)]

/-- Whether the code point of `c` lies in one of `ranges`. -/
def inRanges (ranges : List (Nat × Nat)) (c : Char) : Bool :=
  ranges.any fun r => r.1 ≤ c.toNat && c.toNat ≤ r.2

def isBlank (c : Char) : Bool :=
  inRanges blankRanges c

/-! ## Trimming -/

def trimChars (s : List Char) : List Char :=
  ((s.dropWhile isBlank).reverse.dropWhile isBlank).reverse

/-- Removes the blank characters at both ends. -/
def trim (s : String) : String :=
  .ofList (trimChars s.toList)

/-- Removes every `c` at the end of `s`. -/
def dropTrailing (c : Char) (s : String) : String :=
  .ofList (s.toList.reverse.dropWhile (· == c)).reverse

/-- Removes every `c` at the start of `s`. -/
def dropLeading (c : Char) (s : String) : String :=
  .ofList (s.toList.dropWhile (· == c))

/-- Whether `s` has no character but blank ones. -/
def isBlankText (s : String) : Bool :=
  s.toList.all isBlank

end Text
end ApiCatalog
