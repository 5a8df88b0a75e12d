/-!
# Words and their parts

Cutting a text at one character, and ASCII lower case.
-/

namespace ApiCatalog
namespace Text

/-! ## Cutting -/

/-- Cuts at the first `c`; the second part is absent when there is none. -/
def cutFirstChars (c : Char) (s : List Char) : List Char × Option (List Char) :=
  match s.dropWhile (· != c) with
  | [] => (s, none)
  | _ :: rest => (s.takeWhile (· != c), some rest)

theorem cutFirstChars_eq_none {c : Char} {s t : List Char} :
    cutFirstChars c s = (t, none) ↔ t = s ∧ c ∉ s := by
  induction s generalizing t with
  | nil => simp [cutFirstChars, eq_comm]
  | cons x s ih =>
      by_cases hx : x = c
      · simp [cutFirstChars, hx]
      · have step := @ih s
        simp only [cutFirstChars] at step ⊢
        simp [hx]
        split <;> grind

theorem cutFirstChars_eq_some {c : Char} {s t rest : List Char} :
    cutFirstChars c s = (t, some rest) ↔ s = t ++ c :: rest ∧ c ∉ t := by
  induction s generalizing t with
  | nil => simp [cutFirstChars]
  | cons x s ih =>
      by_cases hx : x = c
      · cases t with
        | nil => simp [cutFirstChars, hx]
        | cons y t =>
            simp [cutFirstChars, hx]
            grind
      · cases t with
        | nil =>
            simp [cutFirstChars, hx]
            split <;> simp
        | cons y t =>
            have step := @ih t
            simp only [cutFirstChars] at step ⊢
            simp [hx]
            split <;> grind

/-- Cuts at the last `c`; the first part is absent when there is none. -/
def cutLastChars (c : Char) (s : List Char) : Option (List Char) × List Char :=
  match cutFirstChars c s.reverse with
  | (_, none) => (none, s)
  | (last, some front) => (some front.reverse, last.reverse)

def cutFirst (c : Char) (s : String) : String × Option String :=
  let (head, rest) := cutFirstChars c s.toList
  (.ofList head, rest.map .ofList)

def cutLast (c : Char) (s : String) : Option String × String :=
  let (front, last) := cutLastChars c s.toList
  (front.map .ofList, .ofList last)

/-! ## Lower case -/

/-- Lower case of the ASCII letters; every other character stays. -/
def lower (s : String) : String :=
  .ofList (s.toList.map Char.toLower)

end Text
end ApiCatalog
