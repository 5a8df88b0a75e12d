import ApiCatalog.Text.Word

/-!
# Kinds and their plurals

A resource collection is named by the plural of the kind it holds, in lower case.

- `Kind.plural` : four words have a plural of their own; of the others, a word that ends in a hiss
  takes `es`, a `y` after anything but a vowel becomes `ies`, and the rest take `s`
-/

namespace ApiCatalog
namespace Kind

/-! ## Words with a plural of their own -/

def irregular : List (String × String) :=
  [("endpoints", "endpoints"), ("endpointslices", "endpointslices"), ("nodemetrics", "nodes"),
    ("podmetrics", "pods")]

/-! ## The rule -/

def isVowel (c : Char) : Bool :=
  c == 'a' || c == 'e' || c == 'i' || c == 'o' || c == 'u'

/-- The plural of a word by its ending. -/
def regularPlural (word : List Char) : List Char :=
  match word.reverse with
  | 's' :: _ | 'x' :: _ | 'z' :: _ | 'h' :: 'c' :: _ | 'h' :: 's' :: _ => word ++ ['e', 's']
  | 'y' :: c :: stem =>
      if isVowel c then word ++ ['s'] else (c :: stem).reverse ++ ['i', 'e', 's']
  | _ => word ++ ['s']

/-- The plural of a kind, in lower case. -/
def plural (kind : String) : String :=
  let word := Text.lower kind
  match irregular.lookup word with
  | some p => p
  | none => .ofList (regularPlural word.toList)

end Kind
end ApiCatalog
