import Mathlib.Data.List.TakeWhile
import ApiCatalog.Uri.Parser

/-!
# What was read of a uri

Path and query that were read from a text hold no character that would end them early. So their text
is read back as it was, also with more of a path before it, and what is put together from parts of
uris is a uri again.

- `PathQuery.Clean`, `Uri.Clean` : only characters that are allowed in their place
- `Uri.Reads`                    : the forms in which a uri is read
- `Uri.clean_of_parse`           : what was read is clean
- `PathQuery.parse_append_render`: a clean path and query is read back, behind a clean path
- `Uri.origin_of_parse`          : a text with a slash at its front has neither scheme nor authority
-/

namespace ApiCatalog

/-! ## End marks -/

theorem Uri.not_end_of_isPathChar {c : Char} (h : Uri.isPathChar c = true) :
    (c == '?' || c == '#') = false := by
  rw [Bool.or_eq_false_iff, beq_eq_false_iff_ne, beq_eq_false_iff_ne]
  constructor
  · rintro rfl
    exact absurd h (by decide)
  · rintro rfl
    exact absurd h (by decide)

theorem Uri.ne_hash_of_isQueryChar {c : Char} (h : Uri.isQueryChar c = true) : c ≠ '#' := by
  rintro rfl
  exact absurd h (by decide)

theorem Uri.isPathChar_of_mem_slash {c : Char} (h : c ∈ "/".toList) : Uri.isPathChar c = true := by
  obtain rfl : c = '/' := by simpa using h
  decide

/-! ## Path and query -/

namespace PathQuery

/-- Every character is allowed where it stands. -/
structure Clean (t : PathQuery) : Prop where
  path : ∀ c ∈ t.path.toList, Uri.isPathChar c = true
  query : ∀ q, t.query = some q → ∀ c ∈ q.toList, Uri.isQueryChar c = true

theorem isPathChar_of_mem_rootedPath {t : PathQuery} (clean : t.Clean) :
    ∀ c ∈ t.rootedPath.toList, Uri.isPathChar c = true := by
  intro c mem
  unfold rootedPath at mem
  split at mem
  · exact Uri.isPathChar_of_mem_slash mem
  · exact clean.path c mem

variable {s p rest : List Char} {t : PathQuery}

theorem clean_of_parseChars (h : parseChars s = .ok t) : t.Clean := by
  unfold parseChars at h
  dsimp only at h
  split at h
  · cases h
  · next allowed =>
      have path := List.all_eq_true.1 (by simpa using allowed)
      split at h
      · split at h
        · cases h
        · next allowed' =>
            have query := List.all_eq_true.1 (by simpa using allowed')
            cases h
            refine ⟨by simpa using path, ?_⟩
            rintro q ⟨⟩
            simpa using query
      · cases h
        exact ⟨by simpa using path, by rintro q ⟨⟩⟩

/-- The path that is read is the text up to the first end mark. -/
theorem path_of_parseChars (h : parseChars s = .ok t) :
    t.path = .ofList (s.takeWhile fun c => !(c == '?' || c == '#')) := by
  unfold parseChars at h
  dsimp only at h
  split at h
  · cases h
  · split at h
    · split at h
      · cases h
      · cases h
        rfl
    · cases h
      rfl

/-- Characters of a path are read up to an end mark, or to the end of the text. -/
theorem cut_append (path : ∀ c ∈ p, Uri.isPathChar c = true)
    (ends : ∀ c, rest.head? = some c → c = '?' ∨ c = '#') :
    (p ++ rest).takeWhile (fun c => !(c == '?' || c == '#')) = p ∧
      (p ++ rest).dropWhile (fun c => !(c == '?' || c == '#')) = rest := by
  have stays : ∀ c ∈ p, (!(c == '?' || c == '#')) = true := fun c mem => by
    rw [Uri.not_end_of_isPathChar (path c mem)]
    rfl
  rw [List.takeWhile_append_of_pos stays, List.dropWhile_append_of_pos stays]
  cases rest with
  | nil => simp
  | cons c rest => rcases ends c rfl with rfl | rfl <;> simp

/-- The text of a query with its mark. -/
def queryText : Option String → List Char
  | none => []
  | some q => '?' :: q.toList

theorem toList_render (t : PathQuery) :
    t.render.toList = t.rootedPath.toList ++ queryText t.query := by
  unfold render queryText
  cases t.query <;> simp

theorem parseChars_append {query : Option String} (path : ∀ c ∈ p, Uri.isPathChar c = true)
    (asked : ∀ q, query = some q → ∀ c ∈ q.toList, Uri.isQueryChar c = true) :
    parseChars (p ++ queryText query) = .ok ⟨.ofList p, query⟩ := by
  have ends : ∀ c, (queryText query).head? = some c → c = '?' ∨ c = '#' := by
    cases query <;> simp [queryText]
  have ⟨taken, dropped⟩ := cut_append path ends
  have all : p.all Uri.isPathChar = true := List.all_eq_true.2 path
  unfold parseChars
  dsimp only
  rw [taken, dropped, all]
  cases query with
  | none => rfl
  | some q =>
      have whole : q.toList.takeWhile (· != '#') = q.toList :=
        List.takeWhile_eq_self_iff.2 fun c mem => by
          simpa using Uri.ne_hash_of_isQueryChar (asked q rfl c mem)
      have all' : q.toList.all Uri.isQueryChar = true := List.all_eq_true.2 (asked q rfl)
      simp [queryText, whole, all']

/-- A clean path and query is read back from its text. More of a path may stand before it. -/
theorem parse_append_render (clean : t.Clean) {base : String}
    (path : ∀ c ∈ base.toList, Uri.isPathChar c = true) :
    parse (base ++ t.render) = .ok ⟨base ++ t.rootedPath, t.query⟩ := by
  have allowed : ∀ c ∈ (base ++ t.rootedPath).toList, Uri.isPathChar c = true := by
    intro c mem
    rw [String.toList_append, List.mem_append] at mem
    exact mem.elim (path c) (isPathChar_of_mem_rootedPath clean c)
  have text : (base ++ t.render).toList =
      (base ++ t.rootedPath).toList ++ queryText t.query := by
    simp [toList_render]
  rw [parse, text, parseChars_append allowed clean.query, String.ofList_toList]

end PathQuery

/-! ## Whole uris -/

namespace Uri

/-- The path and query of a uri are clean, if it has them. -/
def Clean (u : Uri) : Prop :=
  ∀ t, u.target? = some t → t.Clean

theorem clean_origin {t : PathQuery} (h : t.Clean) : Clean (.origin t) := by
  rintro _ ⟨⟩
  exact h

theorem clean_authorityOnly (authority : String) : Clean (.authorityOnly authority) := by
  rintro _ ⟨⟩

theorem clean_absolute (scheme authority : String) {t : PathQuery} (h : t.Clean) :
    Clean (.absolute scheme authority t) := by
  rintro _ ⟨⟩
  exact h

variable {s : List Char} {u : Uri}

/-- A reader that comes through has come through each of its steps. -/
theorem exists_of_bind_ok {α β : Type} {x : Except Fault α} {f : α → Except Fault β} {b : β}
    (h : x >>= f = .ok b) : ∃ a, x = .ok a ∧ f a = .ok b := by
  cases x with
  | error fault => cases h
  | ok a => exact ⟨a, rfl, h⟩

/-! ## Forms -/

/-- The ways in which a text is read as a uri, with what was read of its parts. -/
inductive Reads (s : List Char) : Uri → Prop
  | mark {c : Char} (one : s = [c]) (path : c = '/' ∨ c = '*') :
      Reads s (.origin ⟨.ofList [c], none⟩)
  | rooted {rest : List Char} {t : PathQuery} (slash : s = '/' :: rest)
      (read : PathQuery.parseChars s = .ok t) : Reads s (.origin t)
  | single {c : Char} {authority : List Char} (one : s = [c])
      (whole : scanAuthority s = .ok (authority, [])) : Reads s (.authorityOnly (.ofList authority))
  | authority {authority rest : List Char} (scanned : scanScheme s = .ok (none, rest))
      (whole : scanAuthority rest = .ok (authority, [])) :
      Reads s (.authorityOnly (.ofList authority))
  | absolute {scheme : String} {authority rest behind : List Char} {t : PathQuery}
      (scanned : scanScheme s = .ok (some scheme, rest))
      (cut : scanAuthority rest = .ok (authority, behind))
      (read : PathQuery.parseChars behind = .ok t) :
      Reads s (.absolute scheme (.ofList authority) t)

theorem exists_of_parseAuthority (h : parseAuthority s = .ok u) :
    ∃ authority, scanAuthority s = .ok (authority, []) ∧
      u = .authorityOnly (.ofList authority) := by
  obtain ⟨⟨authority, rest⟩, scanned, h⟩ := exists_of_bind_ok h
  dsimp only at h
  split at h
  · cases h
  · next all =>
      cases h
      obtain rfl : rest = [] := by simpa using all
      exact ⟨authority, scanned, rfl⟩

theorem exists_of_parseAbsolute {scheme : String} (h : parseAbsolute scheme s = .ok u) :
    ∃ authority behind t, scanAuthority s = .ok (authority, behind) ∧
      PathQuery.parseChars behind = .ok t ∧ u = .absolute scheme (.ofList authority) t := by
  unfold parseAbsolute at h
  split at h
  · cases h
  · obtain ⟨⟨authority, behind⟩, cut, h⟩ := exists_of_bind_ok h
    dsimp only at h
    split at h
    · cases h
    · obtain ⟨t, read, h⟩ := exists_of_bind_ok h
      cases h
      exact ⟨authority, behind, t, cut, read, rfl⟩

theorem reads_of_parseSingle {c : Char} (h : parseSingle c = .ok u) : Reads [c] u := by
  unfold parseSingle at h
  split at h
  · next path =>
      cases h
      exact .mark rfl (by simpa using path)
  · split at h
    · cases h
    · obtain ⟨authority, whole, rfl⟩ := exists_of_parseAuthority h
      exact .single rfl whole

theorem reads_of_parse {text : String} (h : parse text = .ok u) : Reads text.toList u := by
  unfold parse at h
  split at h
  · cases h
  · split at h
    · cases h
    · next c one =>
        rw [one]
        exact reads_of_parseSingle h
    · next rest _ slash =>
        obtain ⟨t, read, h⟩ := exists_of_bind_ok h
        cases h
        exact .rooted slash (slash ▸ read)
    · obtain ⟨⟨scheme, rest⟩, scanned, h⟩ := exists_of_bind_ok h
      cases scheme with
      | none =>
          obtain ⟨authority, whole, rfl⟩ := exists_of_parseAuthority h
          exact .authority scanned whole
      | some scheme =>
          obtain ⟨authority, behind, t, cut, read, rfl⟩ := exists_of_parseAbsolute h
          exact .absolute scanned cut read

/-- Every form in which a uri is written leaves it clean. -/
theorem clean_of_parse {text : String} (h : parse text = .ok u) : u.Clean := by
  cases reads_of_parse h with
  | mark _ path =>
      refine clean_origin ⟨?_, by rintro q ⟨⟩⟩
      rcases path with rfl | rfl <;> simp <;> decide
  | rooted _ read => exact clean_origin (PathQuery.clean_of_parseChars read)
  | single _ _ => exact clean_authorityOnly _
  | authority _ _ => exact clean_authorityOnly _
  | absolute _ _ read => exact clean_absolute _ _ (PathQuery.clean_of_parseChars read)

/-- A text with a slash at its front is read as path and query, whatever follows the slash: a second
slash does not make an authority of what comes next, nor does a colon make a scheme. -/
theorem origin_of_parse {text : String} {rest : List Char} (slash : text.toList = '/' :: rest)
    (h : parse text = .ok u) :
    ∃ t, u = .origin t ∧ PathQuery.parseChars ('/' :: rest) = .ok t := by
  unfold parse at h
  rw [slash] at h
  split at h
  · cases h
  · cases rest with
    | nil =>
        -- a slash alone is a path of its own
        cases h
        exact ⟨_, rfl, rfl⟩
    | cons c rest =>
        obtain ⟨t, read, h⟩ := exists_of_bind_ok h
        cases h
        exact ⟨t, rfl, read⟩

end Uri
end ApiCatalog
