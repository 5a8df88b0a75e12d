import ApiCatalog.Mapper
import ApiCatalog.Proofs.Lookup.Candidates

/-!
# Answers and their errors

An answer is read off the groups and the registry of a catalog, and every question about a kind goes
through `Registry.resolve`. A mapper that was set up by its settings has a version for both legacy
roots, so the only error that an answer can be is that no endpoint was found.

- `Mapper.answer_eq`            : answers by what the registry resolves
- `Mapper.complete_applyAll`    : settings leave no preferred version empty
- `Mapper.answer_error`         : the one error of an answer
-/

namespace ApiCatalog
namespace Mapper

/-! ## Answers -/

/-- The answer to a query by what the registry resolves. -/
def answerBy (m : Mapper) (catalog : Catalog) : Query → Except Error Answer
  | .endpointFor version kind =>
      match catalog.registry.resolve m.preferred version kind with
      | .ok (some e) => .ok (.endpoint e)
      | .ok none => .error (.missingEndpoint kind version)
      | .error fault => .error (.naming fault)
  | .isSupported version kind =>
      match catalog.registry.resolve m.preferred version kind with
      | .ok found => .ok (.supported found.isSome)
      | .error fault => .error (.naming fault)
  | .endpoints => .ok (.endpoints catalog.registry.toList)
  | .groups => .ok (.groups catalog.groups)
  | .size => .ok (.size catalog.registry.toList.length)

theorem answer_eq (m : Mapper) (catalog : Catalog) (q : Query) :
    m.answer catalog q = m.answerBy catalog q := by
  cases q with
  | endpointFor version kind =>
      simp only [answer, answerBy, endpointFor, find]
      generalize catalog.registry.resolve m.preferred version kind = found
      rcases found with fault | (none | e)
      · rfl
      · rfl
      · rfl
  | isSupported version kind =>
      simp only [answer, answerBy, isSupported, find]
      generalize catalog.registry.resolve m.preferred version kind = found
      rcases found with fault | found
      · rfl
      · rfl
  | endpoints => rfl
  | groups => rfl
  | size => rfl

/-! ## Settings -/

/-- Neither legacy root is without a preferred version. -/
def Complete (p : Preferred) : Prop :=
  ∀ root, p.get? root ≠ some ""

theorem complete_default : Complete Preferred.default := by
  intro root
  cases root <;> decide

/-- An override is refused unless it leaves a version. -/
theorem complete_override {p p' : Preferred} {root : ApiRoot} {version : String} (h : Complete p)
    (set : p.override root version = .ok p') : Complete p' := by
  have bare {v : String} (some_char : ¬v.isEmpty = true) : some v ≠ some "" := by
    intro same
    cases same
    exact some_char rfl
  unfold Preferred.override at set
  -- only the root that is set changes, and `apis` cannot be set
  cases root with
  | apis => cases set
  | api =>
      dsimp only at set
      split at set
      · cases set
      · next some_char =>
          cases set
          intro other
          cases other with
          | api => exact bare some_char
          | oapi => exact h .oapi
          | apis => exact h .apis
  | oapi =>
      dsimp only at set
      split at set
      · cases set
      · next some_char =>
          cases set
          intro other
          cases other with
          | api => exact h .api
          | oapi => exact bare some_char
          | apis => exact h .apis

/-- What every override keeps true of preferred versions, every setting keeps true of a mapper. -/
theorem preserved_apply {P : Preferred → Prop}
    (kept : ∀ {p p' : Preferred} {root : ApiRoot} {version : String}, P p →
      p.override root version = .ok p' → P p')
    {m m' : Mapper} {setting : Setting} (h : P m.preferred) (set : m.apply setting = .ok m') :
    P m'.preferred := by
  cases setting with
  | filter names =>
      cases set
      exact h
  | exclude names =>
      cases set
      exact h
  | prefer root version =>
      cases changed : m.preferred.override root version with
      | error fault =>
          rw [apply, changed] at set
          cases set
      | ok p =>
          rw [apply, changed] at set
          cases set
          exact kept h changed

theorem preserved_applyAll {P : Preferred → Prop}
    (kept : ∀ {p p' : Preferred} {root : ApiRoot} {version : String}, P p →
      p.override root version = .ok p' → P p')
    {m m' : Mapper} {settings : List Setting} (h : P m.preferred)
    (set : m.applyAll settings = .ok m') : P m'.preferred := by
  induction settings generalizing m with
  | nil =>
      cases set
      exact h
  | cons setting rest ih =>
      rw [applyAll, List.foldlM_cons] at set
      cases first : m.apply setting with
      | error fault =>
          rw [first] at set
          cases set
      | ok next =>
          rw [first] at set
          exact ih (preserved_apply kept h first) set

theorem complete_applyAll {m m' : Mapper} {settings : List Setting} (h : Complete m.preferred)
    (set : m.applyAll settings = .ok m') : Complete m'.preferred :=
  preserved_applyAll complete_override h set

/-! ## Errors -/

/-- Every candidate is a key, so a lookup is the search for the first that is registered. -/
theorem resolve_eq_search {m : Mapper} (h : Complete m.preferred) (version kind : String) :
    ∃ keys : List Key, Lookup.candidates m.preferred version kind = keys.map .ok ∧
      ∀ r : Registry, r.resolve m.preferred version kind = .ok (keys.findSome? r.get?) := by
  rcases Lookup.exists_keys_candidates h version kind with ⟨keys, candidates⟩
  refine ⟨keys, candidates, fun r => ?_⟩
  calc
    r.resolve m.preferred version kind = r.firstHit (keys.map .ok) := by
        rw [Registry.resolve, candidates]
    _ = .ok (keys.findSome? r.get?) := r.firstHit_map_ok keys

/-- A lookup ends with an endpoint or without one, and never in a fault. -/
theorem resolve_ne_error {m : Mapper} (h : Complete m.preferred) (r : Registry)
    (version kind : String) : ∃ found, r.resolve m.preferred version kind = .ok found := by
  rcases resolve_eq_search h version kind with ⟨keys, -, search⟩
  exact ⟨_, search r⟩

theorem answer_error {m : Mapper} (h : Complete m.preferred) {catalog : Catalog} {q : Query}
    {e : Error} (failed : m.answer catalog q = .error e) :
    ∃ version kind, q = .endpointFor version kind ∧ e = .missingEndpoint kind version := by
  rw [answer_eq] at failed
  -- a lookup does not fault, and what is asked about the catalog as a whole has no error
  cases q with
  | endpointFor version kind =>
      rcases resolve_ne_error h catalog.registry version kind with ⟨found, resolved⟩
      simp only [answerBy, resolved] at failed
      cases found with
      | none =>
          cases failed
          exact ⟨version, kind, rfl, rfl⟩
      | some e => cases failed
  | isSupported version kind =>
      rcases resolve_ne_error h catalog.registry version kind with ⟨found, resolved⟩
      simp only [answerBy, resolved] at failed
      cases failed
  | endpoints => cases failed
  | groups => cases failed
  | size => cases failed

end Mapper
end ApiCatalog
