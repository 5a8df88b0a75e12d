import ApiCatalog.Proofs.Lookup.Precedence

/-!
# The content of a registry

Which adverts a registry has taken decides its keys and their capabilities; neither the order in
which they came nor how often does. The order decides only where endpoints stand, and, when the
adverts of a key differ in kind or scope, which of these is kept. An advert that has been taken
before changes nothing at all.

- `Endpoint.content`                    : the part of an endpoint that no order decides
- `Advert.Reflects.eq_of_agreeing`      : the whole endpoint, when the adverts of a key agree
- `Registry.firstHit_map_congr`         : a search in two registries with the same content
- `Registry.perform_of_known`           : a call that offers nothing new
- `Registry.content_of_calls`           : registries that took the same adverts
-/

namespace ApiCatalog

/-- Identity and capabilities, which all adverts of a key decide together. -/
def Endpoint.content (e : Endpoint) : Key × List String :=
  (e.key, e.capabilities)

namespace Advert

/-- Adverts of one key tell one kind and scope. -/
def Agreeing (adverts : List Advert) : Prop :=
  ∀ a ∈ adverts, ∀ b ∈ adverts, a.key = b.key →
    a.entry.kind = b.entry.kind ∧ a.entry.namespaced = b.entry.namespaced

namespace Reflects

/-! ## The same adverts -/

section SameAdverts

variable {es fs : List Endpoint} {adverts others : List Advert}
variable (h : Reflects es adverts) (h' : Reflects fs others)
variable (same : ∀ a, a ∈ adverts ↔ a ∈ others)

include h h' same

theorem mem_map_key_iff {k : Key} : k ∈ es.map Endpoint.key ↔ k ∈ fs.map Endpoint.key := by
  rw [h.mem_key_iff, h'.mem_key_iff]
  simp only [same]

/-- Capabilities are kept in order, so their members decide them. -/
theorem capabilities_eq {e f : Endpoint} (mem : e ∈ es) (mem' : f ∈ fs) (key : e.key = f.key) :
    e.capabilities = f.capabilities := by
  have irreflexive : Std.Irrefl fun a b : String => a < b := ⟨String.lt_irrefl⟩
  have antisymmetric : Std.Antisymm fun a b : String => a < b :=
    ⟨fun _ _ ab ba => absurd ba (String.lt_asymm ab)⟩
  refine List.Pairwise.eq_of_mem_iff (h.increasing e mem) (h'.increasing f mem') fun c => ?_
  rw [h.capabilities e mem, h'.capabilities f mem', key]
  simp only [same]

theorem content_eq {e f : Endpoint} (mem : e ∈ es) (mem' : f ∈ fs) (key : e.key = f.key) :
    e.content = f.content := by
  rw [Endpoint.content, Endpoint.content, key, capabilities_eq h h' same mem mem' key]

/-- When the adverts of a key agree, it does not matter which of them came first. -/
theorem eq_of_agreeing (agree : Agreeing adverts) {e f : Endpoint} (mem : e ∈ es) (mem' : f ∈ fs)
    (key : e.key = f.key) : e = f := by
  obtain ⟨a, first, kind, scope⟩ := h.first e mem
  obtain ⟨b, first', kind', scope'⟩ := h'.first f mem'
  have a_key : a.key = e.key := by simpa using List.find?_some first
  have b_key : b.key = f.key := by simpa using List.find?_some first'
  have told := agree a (List.mem_of_find?_eq_some first) b
    ((same b).2 (List.mem_of_find?_eq_some first')) (by rw [a_key, b_key, key])
  have texts := capabilities_eq h h' same mem mem' key
  rw [← kind, ← kind', ← scope, ← scope'] at told
  cases e
  cases f
  simp_all

end SameAdverts

/-! ## The same advert again -/

variable {es : List Endpoint} {adverts : List Advert} {a : Advert}

/-- An advert that is known already adds nothing to what has to be reflected. -/
theorem snoc_of_mem (h : Reflects es adverts) (known : a ∈ adverts) :
    Reflects es (adverts ++ [a]) where
  keys := by
    rw [keys_snoc, if_pos (mem_keys.2 ⟨a, known, rfl⟩), h.keys]
  first := by
    intro e mem
    obtain ⟨b, found, told⟩ := h.first e mem
    exact ⟨b, by rw [List.find?_append, found, Option.some_or], told⟩
  increasing := h.increasing
  capabilities := by
    intro e mem c
    have again (b : Advert) : b ∈ adverts ++ [a] ↔ b ∈ adverts := by
      rw [List.mem_append, List.mem_singleton]
      constructor
      · rintro (before | rfl)
        · exact before
        · exact known
      · exact .inl
    rw [h.capabilities e mem c]
    simp only [again]

/-- Since reflection leaves no choice, nothing has changed. -/
theorem absorb_of_mem (h : Reflects es adverts) (known : a ∈ adverts) : Advert.absorb es a = es :=
  (h.absorb a).eq_reference.trans (h.snoc_of_mem known).eq_reference.symm

end Reflects
end Advert

namespace Registry

variable {r r' : Registry} {adverts : List Advert}

/-! ## Searches -/

/-- What two registries say about a key, as far as `f` shows it. -/
theorem get?_map_congr {α : Type} (f : Endpoint → α)
    (keys : ∀ k, k ∈ r.toList.map Endpoint.key ↔ k ∈ r'.toList.map Endpoint.key)
    (same : ∀ e ∈ r.toList, ∀ e' ∈ r'.toList, e.key = e'.key → f e = f e') (k : Key) :
    (r.get? k).map f = (r'.get? k).map f := by
  cases found : r.get? k with
  | none =>
      have absent : k ∉ r'.toList.map Endpoint.key :=
        fun there => get?_eq_none_iff.1 found ((keys k).2 there)
      rw [get?_eq_none_iff.2 absent]
  | some e =>
      obtain ⟨mem, rfl⟩ := get?_eq_some_iff.1 found
      obtain ⟨e', mem', key⟩ := List.mem_map.1 ((keys e.key).1 (List.mem_map_of_mem mem))
      rw [get?_eq_some_iff.2 ⟨mem', key⟩, Option.map_some, Option.map_some,
        same e mem e' mem' key.symm]

theorem firstHit_map_congr {α : Type} {f : Endpoint → α}
    (same : ∀ k, (r.get? k).map f = (r'.get? k).map f) (keys : List (Except NamingFault Key)) :
    (r.firstHit keys).map (Option.map f) = (r'.firstHit keys).map (Option.map f) := by
  induction keys with
  | nil => rfl
  | cons first rest ih =>
      cases first with
      | error fault => rfl
      | ok k =>
          have here := same k
          unfold firstHit
          cases found : r.get? k with
          | none =>
              rw [found] at here
              rw [Option.map_eq_none_iff.1 here.symm]
              exact ih
          | some e =>
              rw [found] at here
              obtain ⟨e', found', eq⟩ := Option.map_eq_some_iff.1 here.symm
              rw [found']
              exact congrArg (fun x => Except.ok (some x)) eq.symm

/-! ## Calls that offer nothing new -/

theorem eq_of_toList_of_index (list : r.toList = r'.toList) (index : r.index = r'.index) :
    r = r' := by
  cases r
  cases r'
  obtain rfl := index
  obtain rfl := Array.toList_inj.1 list
  rfl

theorem ensure_of_mem {k : Key} (there : k ∈ r.toList.map Endpoint.key) (kind : String)
    (namespaced : Bool) : (r.ensure k kind namespaced).1 = r := by
  unfold ensure
  split
  · rfl
  · next absent => exact absurd there (index_eq_none_iff.1 absent)

/-- What an advert makes of a registry with an endpoint for its key. -/
def taught (a : Advert) (grown : Registry × Nat) : Registry :=
  match a.capability? with
  | some c => grown.1.addCapabilityAt grown.2 c
  | none => grown.1

theorem add_eq (r : Registry) {a : Advert} (versioned : a.version ≠ "") :
    r.add a.group a.version a.entry =
      .ok (taught a (r.ensure a.key a.entry.kind a.entry.namespaced)) := by
  unfold add taught Advert.capability?
  rw [Advert.splitName_eq]
  dsimp only
  rw [Key.make?_eq_ok versioned]
  cases Advert.suffix? a.entry.name with
  | none => rfl
  | some c => rfl

theorem index_taught (a : Advert) (grown : Registry × Nat) :
    (taught a grown).index = grown.1.index := by
  unfold taught
  cases a.capability? with
  | none => rfl
  | some c => rfl

theorem add_of_known (h : Advert.Reflects r.toList adverts) {a : Advert} (known : a ∈ adverts)
    (versioned : a.version ≠ "") : r.add a.group a.version a.entry = .ok r := by
  obtain ⟨grown, taken, list⟩ := r.toList_add a versioned
  have there : a.key ∈ r.toList.map Endpoint.key := h.mem_key_iff.2 ⟨a, known, rfl⟩
  have index : grown.index = r.index := by
    rw [add_eq r versioned] at taken
    cases taken
    rw [index_taught, ensure_of_mem there]
  rw [taken, eq_of_toList_of_index (list.trans (h.absorb_of_mem known)) index]

theorem addEntries_of_known (h : Advert.Reflects r.toList adverts) {g : Group} {version : String}
    (versioned : version ≠ "") {entries : List Wire.ResourceEntry}
    (known : ∀ e ∈ entries, ⟨g, version, e⟩ ∈ adverts) :
    r.addEntries g version entries = (r, none) := by
  induction entries with
  | nil => rfl
  | cons e rest ih =>
      have first := add_of_known h (known e List.mem_cons_self) versioned
      unfold addEntries
      rw [first]
      exact ih fun e' mem => known e' (List.mem_cons_of_mem e mem)

/-- Nothing comes of a refused call either. -/
theorem perform_of_known (h : Advert.Reflects r.toList adverts) {c : Call}
    (known : ∀ a ∈ c.accepted, a ∈ adverts) : (c.perform r).1 = r := by
  cases c with
  | entry g version e =>
      by_cases empty : version = ""
      · subst empty
        rfl
      · have again : r.add g version e = .ok r :=
          add_of_known h (a := ⟨g, version, e⟩)
            (known _ (by simp [Call.accepted, Call.offered, empty])) empty
        rw [Call.perform, again]
  | list g version doc =>
      by_cases empty : version = ""
      · subst empty
        have refused := (r.addEntries_spec g "" doc.resources).1 rfl
        by_cases nothing : doc.resources = []
        · rw [Call.perform, addList, nothing]
          rfl
        · rw [Call.perform, addList, refused nothing]
      · have again : r.addEntries g version doc.resources = (r, none) :=
          addEntries_of_known h empty fun e mem =>
            known _ (by simp [Call.accepted, Call.offered, empty, mem])
        rw [Call.perform, addList, again]

/-! ## Registries that took the same adverts -/

/-- Two registries that took the same adverts, in whatever order and how often they did, have the
same keys and the same capabilities under each. So a lookup finds the same identity with the same
capabilities in both, or nothing in either; and when adverts of one key tell one kind and scope, it
finds the same endpoint. A call that is made again leaves the registry as it is, with its endpoints
in their order. -/
theorem content_of_calls {calls others : List Call}
    (same : ∀ a, a ∈ calls.flatMap Call.accepted ↔ a ∈ others.flatMap Call.accepted) :
    let r := ofCalls calls
    let r' := ofCalls others
    (∀ k, r.contains k = r'.contains k ∧
      (r.get? k).map Endpoint.capabilities = (r'.get? k).map Endpoint.capabilities) ∧
    (∀ preferred version kind,
      (r.resolve preferred version kind).map (Option.map Endpoint.content) =
        (r'.resolve preferred version kind).map (Option.map Endpoint.content)) ∧
    (Advert.Agreeing (calls.flatMap Call.accepted) → ∀ preferred version kind,
      r.resolve preferred version kind = r'.resolve preferred version kind) ∧
    ∀ c ∈ calls, (c.perform r).1 = r := by
  intro r r'
  have h : Advert.Reflects r.toList _ := reflects_ofCalls calls
  have h' : Advert.Reflects r'.toList _ := reflects_ofCalls others
  have keys (k : Key) := h.mem_map_key_iff h' same (k := k)
  have content := get?_map_congr Endpoint.content keys fun e mem e' mem' key =>
    h.content_eq h' same mem mem' key
  refine ⟨fun k => ⟨?_, ?_⟩, ?_, ?_, ?_⟩
  · have both := congrArg Option.isSome (content k)
    rw [contains_iff, contains_iff]
    simpa using both
  · have both := congrArg (Option.map Prod.snd) (content k)
    simpa [Endpoint.content, Function.comp_def] using both
  · intro preferred version kind
    exact firstHit_map_congr content _
  · intro agree preferred version kind
    have whole := get?_map_congr id keys fun e mem e' mem' key =>
      h.eq_of_agreeing h' same agree mem mem' key
    simpa [resolve] using firstHit_map_congr whole (Lookup.candidates preferred version kind)
  · intro c mem
    exact perform_of_known h fun a taken => List.mem_flatMap.2 ⟨c, mem, taken⟩

/-- The entry that tells of the log of pods. -/
def podsLog : Call :=
  .entry (.legacy .api ["v1"]) "v1" ⟨"pods/log", "Pod", true⟩

def podsFirst : List Call :=
  [.entry (.legacy .api ["v1"]) "v1" ⟨"pods", "Pod", true⟩, podsLog]

/-- The log before the pods, in one list, and once more at the end. -/
def logFirst : List Call :=
  [.list (.legacy .api ["v1"]) "v1" ⟨"v1", [⟨"pods/log", "Pod", true⟩, ⟨"pods", "Pod", true⟩]⟩,
    podsLog]

theorem content_of_logFirst :
    (∀ a, a ∈ podsFirst.flatMap Call.accepted ↔ a ∈ logFirst.flatMap Call.accepted) ∧
      Advert.Agreeing (podsFirst.flatMap Call.accepted) ∧
      (ofCalls podsFirst).resolve .default "v1" "Pod" =
        (ofCalls logFirst).resolve .default "v1" "Pod" ∧
      (podsLog.perform (ofCalls podsFirst)).1 = ofCalls podsFirst := by
  have same : ∀ a, a ∈ podsFirst.flatMap Call.accepted ↔ a ∈ logFirst.flatMap Call.accepted := by
    intro a
    simp [podsFirst, logFirst, podsLog, Call.accepted, Call.offered]
    tauto
  have agree : Advert.Agreeing (podsFirst.flatMap Call.accepted) := by
    unfold Advert.Agreeing
    decide
  obtain ⟨-, -, whole, again⟩ := content_of_calls same
  exact ⟨same, agree, whole agree .default "v1" "Pod", again podsLog (by decide)⟩

end Registry
end ApiCatalog
