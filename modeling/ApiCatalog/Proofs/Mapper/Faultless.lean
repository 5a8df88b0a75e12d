import ApiCatalog.Proofs.Mapper.Answering
import ApiCatalog.Task

/-!
# Queries do not fault

A lookup makes its keys from texts that anybody may give, and a key without a version is refused. No
text leads there: what is left of a version behind its last slash is never empty, and the versions
that stand in for a blank one are never empty either, however they were set.

- `Preferred.Reached`         : the preferred versions that overrides can make
- `Mapper.answer_endpointFor`, `Mapper.answer_isSupported` : what queries about a kind can give
- `Mapper.queries_faultless`  : lookups and queries, for all texts, registries and catalogs
-/

namespace ApiCatalog

/-! ## Preferred versions -/

namespace Preferred

/-- The preferred versions that overrides, as far as they are not refused, make of the default
ones. -/
inductive Reached : Preferred → Prop
  | default : Reached Preferred.default
  | override {p p' : Preferred} {root : ApiRoot} {version : String} (before : Reached p)
      (set : p.override root version = .ok p') : Reached p'

theorem Reached.complete {p : Preferred} (h : Reached p) : Mapper.Complete p := by
  induction h with
  | default => exact Mapper.complete_default
  | override _ set ih => exact Mapper.complete_override ih set

end Preferred

namespace Mapper

/-- The settings of a mapper override its preferred versions, and do nothing else to them. -/
theorem reached_applyAll {m m' : Mapper} {settings : List Setting} (h : m.preferred.Reached)
    (set : m.applyAll settings = .ok m') : m'.preferred.Reached :=
  preserved_applyAll .override h set

/-! ## Answers -/

variable {m : Mapper} {catalog : Catalog}

theorem answer_endpointFor_eq_ok {version kind : String} {e : Endpoint} :
    m.answer catalog (.endpointFor version kind) = .ok (.endpoint e) ↔
      catalog.registry.resolve m.preferred version kind = .ok (some e) := by
  rw [answer_eq, answerBy]
  rcases catalog.registry.resolve m.preferred version kind with fault | (_ | found)
  · simp
  · simp
  · simp

/-- A query for an endpoint gives one, or the one error that there is none. -/
theorem answer_endpointFor (h : Complete m.preferred) (catalog : Catalog) (version kind : String) :
    (∃ e ∈ catalog.registry.toList,
      m.answer catalog (.endpointFor version kind) = .ok (.endpoint e)) ∨
    m.answer catalog (.endpointFor version kind) = .error (.missingEndpoint kind version) := by
  rcases resolve_ne_error h catalog.registry version kind with ⟨_ | e, resolved⟩
  · refine .inr ?_
    simp [answer_eq, answerBy, resolved]
  · have registered := (Registry.firstHit_eq_some resolved).2
    have mem := (Registry.get?_eq_some_iff.1 registered).1
    exact .inl ⟨e, mem, answer_endpointFor_eq_ok.2 resolved⟩

/-- Whether a kind is supported is whether a query finds an endpoint for it. -/
theorem answer_isSupported (h : Complete m.preferred) (catalog : Catalog) (version kind : String) :
    ∃ b, m.answer catalog (.isSupported version kind) = .ok (.supported b) ∧
      (b = true ↔ ∃ e, m.answer catalog (.endpointFor version kind) = .ok (.endpoint e)) := by
  rcases resolve_ne_error h catalog.registry version kind with ⟨found, resolved⟩
  refine ⟨found.isSome, by simp [answer_eq, answerBy, resolved], ?_⟩
  simp [answer_endpointFor_eq_ok, resolved, Option.isSome_iff_exists]

/-- All blank versions stand for the preferred ones. -/
theorem resolve_blank {r : Registry} {preferred : Preferred} {version kind : String}
    (blank : Lookup.bareVersion version = "") :
    r.resolve preferred version kind = r.resolve preferred "" kind := by
  have nothing : Lookup.bareVersion "" = "" := by decide
  simp [Registry.resolve, Lookup.candidates, blank, nothing]

/-! ## Running a query -/

/-- With a catalog at hand a query is answered from it, and nothing is asked or reported. -/
theorem run_query {σ : Type} (serve : Dialogue.Service σ) (m : Mapper) (catalog : Catalog) (s : σ)
    (q : Query) :
    Task.run serve m (some catalog) s (.query q) =
      (.answered (m.answer catalog q), some catalog, s, []) := by
  rfl

/-! ## All queries -/

/-- No query faults. Whatever overrides have made of the preferred versions, every version and kind
stand for keys, and a lookup is the search for the first of them that is registered. So a query for
an endpoint gives a registered one or tells that it is missing, in the words of the query; a query
whether a kind is supported tells which of the two it is; a query by the kind alone is the same as
one at any blank version, and a query by the type of an object the same as one at its api version
and kind. All of them are answered without another request. -/
theorem queries_faultless {m : Mapper} (reached : m.preferred.Reached) :
    (∀ version kind, ∃ keys : List Key,
      Lookup.candidates m.preferred version kind = keys.map .ok ∧
        ∀ r : Registry, r.resolve m.preferred version kind = .ok (keys.findSome? r.get?)) ∧
    ∀ catalog : Catalog,
      let finds (version kind : String) : Prop :=
        ∃ e, m.answer catalog (.endpointFor version kind) = .ok (.endpoint e)
      (∀ version kind,
        (∃ e ∈ catalog.registry.toList,
          m.answer catalog (.endpointFor version kind) = .ok (.endpoint e)) ∨
        m.answer catalog (.endpointFor version kind) = .error (.missingEndpoint kind version)) ∧
      (∀ version kind, ∃ b, m.answer catalog (.isSupported version kind) = .ok (.supported b) ∧
        (b = true ↔ finds version kind)) ∧
      (∀ version kind, Text.dropTrailing '/' (Text.trim version) = "" →
        ∃ b, m.answer catalog (.ofKind kind) = .ok (.supported b) ∧
          (b = true ↔ finds version kind)) ∧
      (∀ t : Wire.TypeMeta, ∃ b, m.answer catalog (.ofType t) = .ok (.supported b) ∧
        (b = true ↔ finds t.apiVersion t.kind)) ∧
      ∀ (σ : Type) (serve : Dialogue.Service σ) (s : σ) (q : Query),
        Task.run serve m (some catalog) s (.query q) =
          (.answered (m.answer catalog q), some catalog, s, []) := by
  have complete := reached.complete
  refine ⟨resolve_eq_search complete, ?_⟩
  intro catalog finds
  refine ⟨answer_endpointFor complete catalog, answer_isSupported complete catalog, ?_, ?_, ?_⟩
  · intro version kind blank
    -- at every blank version the search is the one at the empty version
    have same : finds version kind ↔ finds "" kind := by
      simp only [finds, answer_endpointFor_eq_ok, resolve_blank blank]
    rcases answer_isSupported complete catalog "" kind with ⟨b, answered, found⟩
    exact ⟨b, answered, found.trans same.symm⟩
  · intro t
    exact answer_isSupported complete catalog t.apiVersion t.kind
  · intro σ serve s q
    exact run_query serve m catalog s q

/-- After an override nothing but slashes is a version like any other blank one. -/
theorem faultless_slashes :
    ∃ m : Mapper, default.applyAll [.prefer .api " v2 ", .filter ["apps"]] = .ok m ∧
      m.preferred.Reached ∧
      m.answer ⟨[], .empty⟩ (.endpointFor " // " "Pod") =
        .error (.missingEndpoint "Pod" " // ") := by
  have set : default.applyAll [.prefer .api " v2 ", .filter ["apps"]] =
      .ok ⟨.allow ["apps"], ⟨"v2", "v1"⟩⟩ := by rfl
  have reached := reached_applyAll .default set
  rcases queries_faultless reached with ⟨-, answers⟩
  rcases (answers ⟨[], .empty⟩).1 " // " "Pod" with ⟨e, mem, -⟩ | missing
  · cases mem
  · exact ⟨_, set, reached, missing⟩

end Mapper
end ApiCatalog
