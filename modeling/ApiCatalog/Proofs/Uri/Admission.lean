import ApiCatalog.Config
import ApiCatalog.Proofs.Text.LetterCase
import ApiCatalog.Proofs.Uri.Reading

/-!
# Clusters that are admitted

The text of a uri becomes a client in two steps: it is read, where only the absolute form will do,
and the default service is made, which has no encryption. The second step refuses `https` in any
letter case, and no other scheme: one that is neither `http` nor `https` is admitted too.

- `Uri.Begins`            : the first letters of a text, in any case
- `Uri.scheme?_of_parse`  : what is read as one of the two common schemes
- `Config.accept`         : both steps
- `Config.accept_outcome` : what comes of them
- `Config.ftp_accepted`   : a scheme that is neither of the two
-/

namespace ApiCatalog

/-! ## Common schemes -/

namespace Uri

variable {s rest : List Char} {word : String}

/-- The text begins with these letters, in any case. -/
def Begins (letters : String) (s : List Char) : Prop :=
  letters.toList <+: s.map Char.toLower

theorem dropCaseless_isSome_iff {letters s : List Char} :
    (dropCaseless letters s).isSome = true ↔ letters <+: s.map Char.toLower := by
  induction letters generalizing s with
  | nil => simp [dropCaseless]
  | cons c letters ih =>
      cases s with
      | nil => simp [dropCaseless]
      | cons d s =>
          by_cases same : c = d.toLower
          · simp [dropCaseless, same, ih]
          · simp [dropCaseless, same]

theorem dropCaseless_eq_none_iff {letters s : List Char} :
    dropCaseless letters s = none ↔ ¬letters <+: s.map Char.toLower := by
  rw [← dropCaseless_isSome_iff]
  simp

/-- No text begins with both schemes: the mark of the shorter one is a letter of the longer. -/
theorem not_begins_both (plain : Begins "http://" s) : ¬Begins "https://" s := by
  intro secure
  have shorter : "http://".toList <+: "https://".toList :=
    List.prefix_of_prefix_length_le plain secure (by decide)
  exact absurd shorter (by decide)

/-- A scheme that is kept as it is written is neither of the common ones, or the text would begin
with that one. -/
theorem begins_of_takeWhile {letters : String}
    (mark : s.dropWhile isSchemeChar = ':' :: '/' :: '/' :: rest)
    (kept : String.ofList (s.takeWhile isSchemeChar) = word) (lowered : Text.lower word = word)
    (marked : letters.toList = word.toList ++ [':', '/', '/']) : Begins letters s := by
  have written : s.takeWhile isSchemeChar = word.toList := by rw [← kept, String.toList_ofList]
  have whole : s = word.toList ++ ':' :: '/' :: '/' :: rest := by
    rw [← written, ← mark, List.takeWhile_append_dropWhile]
  have low : word.toList.map Char.toLower = word.toList := by rw [← Text.toList_lower, lowered]
  rw [Begins, whole, marked, List.map_append, low]
  exact List.prefix_append_right_inj _ |>.2 ⟨rest.map Char.toLower, by simp⟩

theorem scanScheme_common {scheme : Option String} (h : scanScheme s = .ok (scheme, rest)) :
    (scheme = some "http" ↔ Begins "http://" s) ∧
      (scheme = some "https" ↔ Begins "https://" s) := by
  unfold scanScheme at h
  split at h
  · next found =>
      cases h
      have plain : Begins "http://" s := dropCaseless_isSome_iff.1 (by rw [found]; rfl)
      simp [plain, not_begins_both plain]
  · next found _ =>
      cases h
      have secure : Begins "https://" s := dropCaseless_isSome_iff.1 (by rw [found]; rfl)
      have other : ¬Begins "http://" s := fun plain => not_begins_both plain secure
      simp [secure, other]
  · next plain secure =>
      -- what is kept as it is written is none of the two, in whatever case
      have not_plain : ¬Begins "http://" s := dropCaseless_eq_none_iff.1 plain
      have not_secure : ¬Begins "https://" s := dropCaseless_eq_none_iff.1 secure
      suffices scheme ≠ some "http" ∧ scheme ≠ some "https" by
        simp [not_plain, not_secure, this]
      split at h
      · next mark =>
          dsimp only at h
          split at h
          · cases h
            simp
          · split at h
            · cases h
            · cases h
              constructor
              · intro kept
                apply not_plain
                exact begins_of_takeWhile mark (Option.some.inj kept) (by decide) (by decide)
              · intro kept
                apply not_secure
                exact begins_of_takeWhile mark (Option.some.inj kept) (by decide) (by decide)
      · cases h
        simp

/-- The common schemes are read off the letters that a text begins with, in any case. -/
theorem scheme?_of_parse {text : String} {u : Uri} (h : parse text = .ok u) :
    (u.scheme? = some "http" ↔ Begins "http://" text.toList) ∧
      (u.scheme? = some "https" ↔ Begins "https://" text.toList) := by
  cases reads_of_parse h with
  | mark one _ => simp [scheme?, Begins, one]
  | rooted slash _ =>
      -- a slash at the front is the first letter of neither
      simp [scheme?, Begins, slash]
  | single one _ => simp [scheme?, Begins, one]
  | authority scanned _ => exact scanScheme_common scanned
  | absolute scanned _ _ => exact scanScheme_common scanned

end Uri

/-! ## Admission -/

theorem Uri.authority?_ne_none {u : Uri} (schemed : u.scheme? ≠ none) : u.authority? ≠ none := by
  cases u with
  | origin _ => exact absurd rfl schemed
  | authorityOnly _ => exact absurd rfl schemed
  | absolute _ _ _ => simp [authority?]

namespace Config

open Uri (Begins)

/-- From the text of a uri to what a client can be made of. -/
def accept (url : String) : Except Error Config := do
  let config ← ofUrl url
  config.connectable
  return config

variable {url : String} {config : Config} {e : Error}

theorem ofUrl_eq_ok_iff : ofUrl url = .ok config ↔
    ∃ u, Uri.parse (Text.trim url) = .ok u ∧ u.scheme? ≠ none ∧ u.authority? ≠ none ∧
      config = ofUri u := by
  unfold ofUrl
  cases Uri.parse (Text.trim url) with
  | error fault => simp
  | ok u => cases u <;> simp [Uri.scheme?, Uri.authority?, eq_comm]

theorem ofUrl_eq_error_iff : ofUrl url = .error e ↔
    (∃ fault, Uri.parse (Text.trim url) = .error fault ∧ e = .badUri fault) ∨
      ∃ u, Uri.parse (Text.trim url) = .ok u ∧ (u.scheme? = none ∨ u.authority? = none) ∧
        e = .config (.incompleteUrl url) := by
  unfold ofUrl
  cases Uri.parse (Text.trim url) with
  | error fault => simp [eq_comm]
  | ok u => cases u <;> simp [Uri.scheme?, Uri.authority?, eq_comm]

theorem connectable_eq_error_iff :
    config.connectable = .error e ↔ config.cluster.scheme? = some "https" ∧ e = .tlsRequired := by
  unfold connectable
  split
  · next secure => simp [secure, eq_comm]
  · next other => simp [other]

theorem connectable_eq_ok_iff :
    config.connectable = .ok () ↔ config.cluster.scheme? ≠ some "https" := by
  unfold connectable
  split
  · next secure => simp [secure]
  · next other => simp [other]

theorem accept_eq_ok_iff :
    accept url = .ok config ↔ ofUrl url = .ok config ∧ config.connectable = .ok () := by
  unfold accept
  cases ofUrl url with
  | error e => simp [bind, Except.bind]
  | ok c =>
      cases takes : c.connectable with
      | error e =>
          simp only [bind, Except.bind, takes]
          constructor
          · rintro ⟨⟩
          · rintro ⟨⟨⟩, accepted⟩
            simp [takes] at accepted
      | ok done =>
          simp only [bind, Except.bind, takes]
          constructor
          · rintro ⟨⟩
            exact ⟨rfl, takes⟩
          · rintro ⟨same, -⟩
            exact same

theorem connectable_of_parse {u : Uri} (read : Uri.parse (Text.trim url) = .ok u) :
    (ofUri u).connectable = .ok () ↔ ¬Begins "https://" (Text.trim url).toList := by
  rw [connectable_eq_ok_iff, ← (Uri.scheme?_of_parse read).2]
  rfl

/-- Every scheme but one is admitted. -/
theorem exists_accept_iff {u : Uri} (read : Uri.parse (Text.trim url) = .ok u) :
    (∃ config, accept url = .ok config) ↔ ∃ scheme, u.scheme? = some scheme ∧ scheme ≠ "https" := by
  simp only [accept_eq_ok_iff, ofUrl_eq_ok_iff, connectable_eq_ok_iff]
  constructor
  · rintro ⟨config, ⟨u', read', schemed, -, rfl⟩, other⟩
    cases read.symm.trans read'
    obtain ⟨scheme, there⟩ := Option.ne_none_iff_exists'.1 schemed
    exact ⟨scheme, there, fun secure => other (secure ▸ there)⟩
  · rintro ⟨scheme, there, other⟩
    have schemed : u.scheme? ≠ none := by simp [there]
    refine ⟨ofUri u, ⟨u, read, schemed, Uri.authority?_ne_none schemed, rfl⟩, fun secure => ?_⟩
    exact other (Option.some.inj (there.symm.trans secure))

theorem exists_plain_iff {u : Uri} (read : Uri.parse (Text.trim url) = .ok u) :
    (∃ v, Uri.parse (Text.trim url) = .ok v ∧ v.authority? ≠ none ∧
      Begins "http://" (Text.trim url).toList) ↔ u.scheme? = some "http" := by
  rw [(Uri.scheme?_of_parse read).1]
  constructor
  · rintro ⟨-, -, -, plain⟩
    exact plain
  · intro plain
    have schemed : u.scheme? ≠ none := by simp [(Uri.scheme?_of_parse read).1.2 plain]
    exact ⟨u, read, Uri.authority?_ne_none schemed, plain⟩

/-- To accept `http` alone is to be given no scheme apart from the common ones. -/
theorem plain_only_iff (url : String) :
    ((∃ config, accept url = .ok config) ↔
        ∃ u, Uri.parse (Text.trim url) = .ok u ∧ u.authority? ≠ none ∧
          Begins "http://" (Text.trim url).toList) ↔
      ∀ u scheme, Uri.parse (Text.trim url) = .ok u → u.scheme? = some scheme →
        scheme = "http" ∨ scheme = "https" := by
  by_cases readable : ∃ u, Uri.parse (Text.trim url) = .ok u
  · obtain ⟨u, read⟩ := readable
    rw [exists_accept_iff read, exists_plain_iff read]
    constructor
    · intro alike v scheme read' there
      cases read.symm.trans read'
      by_cases secure : scheme = "https"
      · exact .inr secure
      · have plain := alike.1 ⟨scheme, there, secure⟩
        exact .inl (Option.some.inj (there.symm.trans plain))
    · intro common
      constructor
      · rintro ⟨scheme, there, other⟩
        rw [there, (common u scheme read there).resolve_right other]
      · intro plain
        exact ⟨"http", plain, by decide⟩
  · -- what is no uri is refused, so neither side asks anything of it
    have none_admitted : ¬∃ config, accept url = .ok config := by
      rintro ⟨config, admitted⟩
      obtain ⟨u, read, -⟩ := ofUrl_eq_ok_iff.1 (accept_eq_ok_iff.1 admitted).1
      exact readable ⟨u, read⟩
    constructor
    · intro _ u scheme read
      exact absurd ⟨u, read⟩ readable
    · intro _
      refine iff_of_false none_admitted ?_
      rintro ⟨u, read, -⟩
      exact readable ⟨u, read⟩

/-- What comes of the text of a uri, with blanks around it ignored. A text that is no uri, or one
without a scheme or an authority, is refused when it is read. `https` in any letter case is refused
when the client is made, and no other scheme is. So what is admitted is `http` in any letter case,
and nothing else, just for the texts whose scheme is one of these two. -/
theorem accept_outcome (url : String) :
    let text := Text.trim url
    (∀ config, accept url = .ok config ↔
      ∃ u, Uri.parse text = .ok u ∧ u.scheme? ≠ none ∧ u.authority? ≠ none ∧
        ¬Begins "https://" text.toList ∧ config = ofUri u) ∧
    (∀ e, ofUrl url = .error e ↔
      (∃ fault, Uri.parse text = .error fault ∧ e = .badUri fault) ∨
        ∃ u, Uri.parse text = .ok u ∧ (u.scheme? = none ∨ u.authority? = none) ∧
          e = .config (.incompleteUrl url)) ∧
    (∀ config e, ofUrl url = .ok config →
      (config.connectable = .error e ↔ Begins "https://" text.toList ∧ e = .tlsRequired)) ∧
    (((∃ config, accept url = .ok config) ↔
        ∃ u, Uri.parse text = .ok u ∧ u.authority? ≠ none ∧ Begins "http://" text.toList) ↔
      ∀ u scheme, Uri.parse text = .ok u → u.scheme? = some scheme →
        scheme = "http" ∨ scheme = "https") := by
  intro text
  refine ⟨fun config => ?_, fun e => ofUrl_eq_error_iff, fun config e accepted => ?_,
    plain_only_iff url⟩
  · rw [accept_eq_ok_iff, ofUrl_eq_ok_iff]
    constructor
    · rintro ⟨⟨u, read, scheme, authority, rfl⟩, takes⟩
      exact ⟨u, read, scheme, authority, (connectable_of_parse read).1 takes, rfl⟩
    · rintro ⟨u, read, scheme, authority, other, rfl⟩
      exact ⟨⟨u, read, scheme, authority, rfl⟩, (connectable_of_parse read).2 other⟩
  · obtain ⟨u, read, -, -, rfl⟩ := ofUrl_eq_ok_iff.1 accepted
    rw [connectable_eq_error_iff, ← (Uri.scheme?_of_parse read).2]
    rfl

/-- A cluster whose scheme is neither of the common ones. -/
def behindFtp : Uri :=
  .absolute "ftp" "h:1" ⟨"", none⟩

/-- It is admitted like one that is reached by plain `http`. -/
theorem ftp_accepted :
    Uri.parse (Text.trim "ftp://h:1") = .ok behindFtp ∧
      ¬Begins "http://" (Text.trim "ftp://h:1").toList ∧
      accept "ftp://h:1" = .ok (ofUri behindFtp) := by
  have read : Uri.parse (Text.trim "ftp://h:1") = .ok behindFtp := by rfl
  have other : behindFtp.scheme? ≠ some "http" := by decide
  refine ⟨read, ?_, rfl⟩
  rwa [← (Uri.scheme?_of_parse read).1]

end Config
end ApiCatalog
