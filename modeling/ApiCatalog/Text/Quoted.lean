import ApiCatalog.Text.Printable

/-!
# Quoted text

A text between double quotes, in which every character that could be misread is written as an
escape: the quote and the backslash, the four common controls by letter, and whatever has no
visible form or attaches to its neighbour as `\u` with the code point in braces.
-/

namespace ApiCatalog
namespace Text

/-- Lower case hexadecimal digits of `n`, without padding. -/
def hexDigits (n : Nat) : List Char :=
  Nat.toDigits 16 n

/-- How one character is written inside quotes. -/
def quoteChar (c : Char) : List Char :=
  if c = '\x00' then ['\\', '0']
  else if c = '\t' then ['\\', 't']
  else if c = '\r' then ['\\', 'r']
  else if c = '\n' then ['\\', 'n']
  else if c = '"' || c = '\\' then ['\\', c]
  else if isVisible c && !isExtender c then [c]
  else ['\\', 'u', '\x7b'] ++ hexDigits c.toNat ++ ['\x7d']

def quote (s : String) : String :=
  .ofList ('"' :: s.toList.flatMap quoteChar ++ ['"'])

end Text
end ApiCatalog
