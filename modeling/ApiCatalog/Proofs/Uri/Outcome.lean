import Mathlib.Data.String.Basic
import ApiCatalog.Proofs.Uri.Joining

/-!
# Outcomes of joining

What is read of a uri stands in its text, so it is no longer than the text. Joining a request to the
uri of a cluster gives that uri with another path and query, as long as these are not too long
together. To an authority alone nothing can be joined: what would be put there is read without a
fault, and then has no place.

- `PathQuery.Stands`      : path and query as a part of a text
- `Uri.stands_of_parse`   : what was read of a text stands in it
- `Uri.join_authorityOnly`: nothing joins an authority alone
- `Uri.join_outcome`      : both outcomes, for all that is read as a uri
-/

namespace ApiCatalog

/-! ## Where path and query stand -/

namespace PathQuery

/-- Path and query as they were read are a part of `s`. Something stands before them unless there is
a path. -/
def Stands (t : PathQuery) (s : List Char) : Prop :=
  ∃ front back, s = front ++ (t.path.toList ++ queryText t.query) ++ back ∧
    (t.path = "" → front ≠ [])

variable {s : List Char} {t : PathQuery}

/-- Only a fragment is left of a text of which path and query were read. -/
theorem exists_rest_of_parseChars (h : parseChars s = .ok t) :
    ∃ rest, t.path.toList ++ queryText t.query ++ rest = s := by
  have path := path_of_parseChars h
  unfold parseChars at h
  dsimp only at h
  split at h
  · cases h
  · split at h
    · next asked query =>
        split at h
        · cases h
        · cases h
          refine ⟨asked.dropWhile (· != '#'), ?_⟩
          -- the query and the fragment make up what follows the mark
          have behind : queryText (some (.ofList (asked.takeWhile (· != '#')))) ++
              asked.dropWhile (· != '#') = '?' :: asked := by
            simp [queryText]
          rw [List.append_assoc, behind, ← query, String.toList_ofList]
          exact List.takeWhile_append_dropWhile
    · cases h
      refine ⟨s.dropWhile fun c => !(c == '?' || c == '#'), ?_⟩
      rw [queryText, List.append_nil, String.toList_ofList]
      exact List.takeWhile_append_dropWhile

theorem stands_of_parseChars (h : parseChars s = .ok t) {front : List Char}
    (filled : t.path = "" → front ≠ []) : t.Stands (front ++ s) := by
  obtain ⟨rest, whole⟩ := exists_rest_of_parseChars h
  exact ⟨front, rest, by rw [List.append_assoc, whole], filled⟩

/-- The slash that is written for an empty path is made up for by what stood before it. -/
theorem Stands.size_le (h : t.Stands s) : t.render.utf8ByteSize ≤ String.utf8Len s := by
  obtain ⟨front, back, rfl, filled⟩ := h
  have size : t.render.utf8ByteSize =
      String.utf8Len t.rootedPath.toList + String.utf8Len (queryText t.query) := by
    rw [← String.ofList_toList (s := t.render), String.utf8ByteSize_ofList, toList_render,
      String.utf8Len_append]
  have rooted : String.utf8Len t.rootedPath.toList ≤
      String.utf8Len front + String.utf8Len t.path.toList := by
    unfold rootedPath
    split
    · next empty =>
        cases front with
        | nil => exact absurd rfl (filled (by simpa using empty))
        | cons c front =>
            have one : String.utf8Len "/".toList = 1 := by decide
            have some_octet := c.utf8Size_pos
            rw [one, String.utf8Len_cons]
            omega
    · exact Nat.le_add_left _ _
  rw [size, String.utf8Len_append, String.utf8Len_append, String.utf8Len_append]
  omega

end PathQuery

namespace Uri

open PathQuery (Stands stands_of_parseChars)

variable {s rest : List Char} {u : Uri} {t : PathQuery}

/-! ## Parts of a text -/

theorem append_of_scanAuthority {authority : List Char}
    (h : scanAuthority s = .ok (authority, rest)) : authority ++ rest = s := by
  obtain ⟨scan, -, h⟩ := exists_of_bind_ok h
  obtain ⟨done, -, h⟩ := exists_of_bind_ok h
  cases h
  exact List.takeWhile_append_dropWhile

theorem exists_front_of_dropCaseless {letters : List Char}
    (h : dropCaseless letters s = some rest) :
    ∃ front, front ++ rest = s ∧ front.length = letters.length := by
  induction letters generalizing s with
  | nil =>
      cases h
      exact ⟨[], rfl, rfl⟩
  | cons c letters ih =>
      cases s with
      | nil => cases h
      | cons d s =>
          unfold dropCaseless at h
          split at h
          · obtain ⟨front, rfl, length⟩ := ih h
            exact ⟨d :: front, rfl, congrArg (· + 1) length⟩
          · cases h

/-- A scheme leaves its mark in front of what follows it, even where it is empty. -/
theorem exists_front_of_scanScheme {scheme : String} (h : scanScheme s = .ok (some scheme, rest)) :
    ∃ front, front ++ rest = s ∧ front ≠ [] := by
  unfold scanScheme at h
  split at h
  · next found =>
      cases h
      obtain ⟨front, whole, length⟩ := exists_front_of_dropCaseless found
      exact ⟨front, whole, by rintro rfl; cases length⟩
  · next found _ =>
      cases h
      obtain ⟨front, whole, length⟩ := exists_front_of_dropCaseless found
      exact ⟨front, whole, by rintro rfl; cases length⟩
  · split at h
    · next later mark =>
        dsimp only at h
        split at h
        · cases h
        · split at h
          · cases h
          · cases h
            refine ⟨s.takeWhile isSchemeChar ++ [':', '/', '/'], ?_, by simp⟩
            calc
              s.takeWhile isSchemeChar ++ [':', '/', '/'] ++ rest =
                  s.takeWhile isSchemeChar ++ s.dropWhile isSchemeChar := by simp [mark]
              _ = s := List.takeWhile_append_dropWhile
    · cases h

theorem stands_of_parse {text : String} (h : parse text = .ok u) (there : u.target? = some t) :
    t.Stands text.toList := by
  cases reads_of_parse h with
  | mark one _ =>
      cases there
      exact ⟨[], [], by simp [one, PathQuery.queryText], by simp⟩
  | rooted slash read =>
      cases there
      rw [← List.nil_append text.toList]
      refine stands_of_parseChars read fun empty => ?_
      -- the slash at the front belongs to the path
      rw [PathQuery.path_of_parseChars read, slash] at empty
      simp at empty
  | single _ _ => cases there
  | authority _ _ => cases there
  | absolute scanned cut read =>
      cases there
      obtain ⟨front, whole, filled⟩ := exists_front_of_scanScheme scanned
      rw [← whole, ← append_of_scanAuthority cut, ← List.append_assoc]
      exact stands_of_parseChars read fun _ => by simp [filled]

theorem size_le_of_parse {text : String} (h : parse text = .ok u) :
    text.utf8ByteSize ≤ lengthLimit := by
  unfold parse at h
  split at h
  · cases h
  · next fits => exact Nat.le_of_not_lt fits

/-- The target of a uri fits a uri by itself. -/
theorem size_render_le_of_parse {text : String} (h : parse text = .ok u)
    (there : u.target? = some t) : t.render.utf8ByteSize ≤ lengthLimit := by
  calc
    t.render.utf8ByteSize ≤ String.utf8Len text.toList := (stands_of_parse h there).size_le
    _ = text.utf8ByteSize := by rw [← String.utf8ByteSize_ofList, String.ofList_toList]
    _ ≤ lengthLimit := size_le_of_parse h

/-! ## The path of the joined uri -/

theorem rootedPath_ne_empty (t : PathQuery) : t.rootedPath ≠ "" := by
  unfold PathQuery.rootedPath
  split
  · decide
  · next filled => simpa using filled

theorem joinedPath_ne_empty (base request : Uri) : joinedPath base request ≠ "" := by
  unfold joinedPath
  cases request.target? with
  | some t => exact fun empty => rootedPath_ne_empty t (String.append_eq_empty_iff.1 empty).2
  | none =>
      dsimp only
      split
      · decide
      · next filled => simpa using filled

theorem joinedPath_eq (base request : Uri) :
    joinedPath base request =
      if request.target?.isSome then basePath base ++ request.path
      else if basePath base = "" then "/" else basePath base := by
  unfold joinedPath path
  cases request.target? with
  | some t => rfl
  | none => simp

/-! ## Authorities alone -/

variable {request : Uri} {text : String}

theorem size_joinedText_authorityOnly (read : parse text = .ok request) (authority : String) :
    (joinedText (.authorityOnly authority) request).utf8ByteSize ≤ lengthLimit := by
  have bare : basePath (.authorityOnly authority) = "" := rfl
  unfold joinedText
  rw [bare]
  cases there : request.target? with
  | some t =>
      dsimp only
      rw [String.empty_append]
      exact size_render_le_of_parse read there
  | none => decide

/-- What would be joined to an authority alone is read without a fault, and has no place there. -/
theorem join_authorityOnly (read : parse text = .ok request) (authority : String) :
    join (.authorityOnly authority) request = .error .noPlace := by
  have fits := size_joinedText_authorityOnly read authority
  have target := parse_joinedText (clean_authorityOnly authority) (clean_of_parse read)
  unfold join
  dsimp only
  rw [if_neg (Nat.not_lt.2 fits), target]
  rfl

/-! ## Both outcomes -/

/-- What comes of joining a request, whatever form it was written in. With the uri of a cluster, and
a joined text that fits a uri, no fault is met: the joined uri has the scheme and the authority of
the cluster, the path of the cluster without slashes at its end and then the path of the request,
and the query of the request. A request that is an authority alone asks for the path of the cluster
itself, which is not left empty. With a base that is an authority alone the same joined text has no
place. -/
theorem join_outcome (read : parse text = .ok request) :
    (∀ url config, Config.ofUrl url = .ok config →
      let base := config.cluster
      let stem := Text.dropTrailing '/' base.path
      (base.joinedText request).utf8ByteSize ≤ lengthLimit →
      ∃ u, base.join request = .ok u ∧
        u.scheme? = base.scheme? ∧ u.authority? = base.authority? ∧
        u.path = (if request.target?.isSome then stem ++ request.path
          else if stem = "" then "/" else stem) ∧
        u.query = request.query) ∧
    ∀ authority, join (Config.ofUri (.authorityOnly authority)).cluster request =
      .error .noPlace := by
  refine ⟨?_, join_authorityOnly read⟩
  intro url config accepted base stem fits
  obtain ⟨scheme, authority, target, cluster, clean⟩ := Config.cluster_of_ofUrl accepted
  have is_base : base = .absolute scheme authority target := cluster
  rw [is_base] at fits ⊢
  refine ⟨_, join_absolute clean (clean_of_parse read) fits, rfl, rfl, ?_, rfl⟩
  calc
    path (.absolute scheme authority ⟨joinedPath (.absolute scheme authority target) request, _⟩) =
        joinedPath (.absolute scheme authority target) request := by
      simp [path, target?, PathQuery.rootedPath, joinedPath_ne_empty]
    _ = _ := joinedPath_eq _ request
    _ = _ := by rw [← is_base]; rfl

/-- The uri of a cluster behind a path, with a query that no request gets. -/
def behindPath : Uri :=
  .absolute "http" "h:1" ⟨"/k8s//", some "q"⟩

/-- A request to another host, by a uri without a path. -/
def toOther : Uri :=
  .absolute "https" "other:9" ⟨"", some "y=/"⟩

/-- The other host is lost, and the request goes to the cluster. -/
theorem join_outcome_toOther :
    parse "https://other:9?y=/#z" = .ok toOther ∧
      Config.ofUrl " http://h:1/k8s//?q " = .ok (.ofUri behindPath) ∧
      (∃ u, behindPath.join toOther = .ok u ∧ u.scheme? = some "http" ∧
        u.authority? = some "h:1" ∧ u.path = "/k8s/" ∧ u.query = some "y=/") ∧
      join (.authorityOnly "h:1") toOther = .error .noPlace := by
  have read : parse "https://other:9?y=/#z" = .ok toOther := by rfl
  have accepted : Config.ofUrl " http://h:1/k8s//?q " = .ok (.ofUri behindPath) := by rfl
  have fits : (behindPath.joinedText toOther).utf8ByteSize ≤ lengthLimit := by
    have text : behindPath.joinedText toOther = "/k8s/?y=/" := by rfl
    rw [text]
    decide
  have ⟨joins, refuses⟩ := join_outcome read
  obtain ⟨u, joined, scheme, authority, path, query⟩ := joins _ _ accepted fits
  have below : u.path = "/k8s/" := path.trans (joinedPath_eq behindPath toOther).symm
  exact ⟨read, accepted, ⟨u, joined, scheme, authority, below, query⟩, refuses "h:1"⟩

end Uri
end ApiCatalog
