import ApiCatalog.Proofs.Registry.Restriction

/-!
# Lookups in a growing registry

A registry only grows: its endpoints stay where they are, keep their kind and scope and lose no
capability, and new endpoints go behind them. So what a lookup has found it finds again, unless a
key that the lookup tries earlier has been registered in the meantime.

- `Endpoint.Grown`, `Endpoint.Continued` : an endpoint and a list of them after more adverts
- `Registry.continued_after`   : a registry after more calls
- `Lookup.Earlier`             : which key a lookup tries before which
- `Registry.firstHit_of_continued` : a search in a registry that has grown
- `Registry.resolve_after`     : what becomes of a hit
-/

namespace ApiCatalog

/-! ## Growth -/

namespace Endpoint

/-- `f` is `e`, possibly with more capabilities. -/
structure Grown (e f : Endpoint) : Prop where
  key : f.key = e.key
  kind : f.kind = e.kind
  namespaced : f.namespaced = e.namespaced
  capabilities : e.capabilities ⊆ f.capabilities

namespace Grown

variable {e f g : Endpoint}

theorem refl (e : Endpoint) : Grown e e :=
  ⟨rfl, rfl, rfl, List.Subset.refl _⟩

theorem trans (first : Grown e f) (later : Grown f g) : Grown e g where
  key := later.key.trans first.key
  kind := later.kind.trans first.kind
  namespaced := later.namespaced.trans first.namespaced
  capabilities := List.Subset.trans first.capabilities later.capabilities

theorem teach (a : Advert) (e : Endpoint) : Grown e (a.teach e) where
  key := a.key_teach e
  kind := a.kind_teach e
  namespaced := a.namespaced_teach e
  capabilities := fun _ mem => Advert.mem_capabilities_teach.2 (.inl mem)

end Grown

/-- The second list begins with the endpoints of the first, each of them grown. -/
inductive Continued : List Endpoint → List Endpoint → Prop
  | behind (new : List Endpoint) : Continued [] new
  | grown {e f : Endpoint} {es fs : List Endpoint} (first : Grown e f) (rest : Continued es fs) :
      Continued (e :: es) (f :: fs)

namespace Continued

variable {es fs gs : List Endpoint}

theorem refl (es : List Endpoint) : Continued es es := by
  induction es with
  | nil => exact .behind []
  | cons e rest ih => exact .grown (.refl e) ih

theorem trans (first : Continued es fs) (later : Continued fs gs) : Continued es gs := by
  induction first generalizing gs with
  | behind new => exact .behind gs
  | grown e_f _ ih =>
      cases later with
      | grown f_g rest => exact .grown (e_f.trans f_g) (ih rest)

/-- The endpoints stand at the places where they stood. -/
theorem map_key (h : Continued es fs) : es.map Endpoint.key <+: fs.map Endpoint.key := by
  induction h with
  | behind new => exact List.nil_prefix
  | grown first _ ih =>
      rw [List.map_cons, List.map_cons, first.key, List.cons_prefix_cons]
      exact ⟨rfl, ih⟩

theorem exists_of_mem (h : Continued es fs) {e : Endpoint} (mem : e ∈ es) :
    ∃ f ∈ fs, Grown e f := by
  induction h with
  | behind new => cases mem
  | grown first _ ih =>
      rcases List.mem_cons.1 mem with rfl | later
      · exact ⟨_, List.mem_cons_self, first⟩
      · obtain ⟨f, there, grown⟩ := ih later
        exact ⟨f, List.mem_cons_of_mem _ there, grown⟩

theorem map_append {f : Endpoint → Endpoint} (grown : ∀ e, Grown e (f e)) (es new : List Endpoint) :
    Continued es ((es ++ new).map f) := by
  induction es with
  | nil => exact .behind _
  | cons e rest ih => exact .grown (grown e) ih

/-- One advert opens an endpoint at the end at most, and teaches the others. -/
theorem absorb (es : List Endpoint) (a : Advert) : Continued es (Advert.absorb es a) := by
  unfold Advert.absorb Advert.appear
  split
  · simpa using map_append (Grown.teach a) es []
  · exact map_append (Grown.teach a) es [a.opened]

theorem foldl_absorb (es : List Endpoint) (adverts : List Advert) :
    Continued es (adverts.foldl Advert.absorb es) := by
  induction adverts generalizing es with
  | nil => exact .refl es
  | cons a rest ih => exact (absorb es a).trans (ih _)

end Continued
end Endpoint

namespace Registry

/-- A registry after more calls, refused ones among them. -/
def after (r : Registry) (calls : List Call) : Registry :=
  calls.foldl (fun r c => (c.perform r).1) r

theorem continued_perform (r : Registry) (c : Call) :
    Endpoint.Continued r.toList (c.perform r).1.toList := by
  rcases perform_spec r c with ⟨-, -, list⟩ | ⟨-, refused⟩
  · rw [list]
    exact .foldl_absorb r.toList c.offered
  · rw [refused]
    exact .refl r.toList

theorem continued_after (r : Registry) (calls : List Call) :
    Endpoint.Continued r.toList (r.after calls).toList := by
  induction calls generalizing r with
  | nil => exact .refl r.toList
  | cons c rest ih => exact (continued_perform r c).trans (ih _)

end Registry

/-! ## The order of keys -/

namespace Lookup

/-- Of two keys, the one that a lookup of `kind` tries first: below `api` and not `oapi`, or else
under the plural and not under the kind as it is given. -/
inductive Earlier (kind : String) : Key → Key → Prop
  | root {k k' : Key} (api : k.root = .api) (oapi : k'.root = .oapi) (group : k.group = k'.group) :
      Earlier kind k k'
  | plural {k k' : Key} (root : k.root = k'.root) (group : k.group = k'.group)
      (version : k.version = k'.version) (plural : k.name = Kind.plural kind)
      (given : k'.name = Text.lower (Text.trim kind)) (other : k.name ≠ k'.name) :
      Earlier kind k k'

/-- At one place the plural comes first. -/
theorem pairwise_names (root : ApiRoot) (group : Option String) (version kind : String) :
    ((names kind).map (Key.mk root group version)).Pairwise (Earlier kind) := by
  unfold names
  dsimp only
  split
  · exact List.pairwise_singleton _ _
  · next other =>
      have pair : Earlier kind ⟨root, group, version, Kind.plural kind⟩
          ⟨root, group, version, Text.lower (Text.trim kind)⟩ :=
        .plural rfl rfl rfl rfl rfl (Ne.symm other)
      simpa using pair

theorem pairwise_legacy (version version' kind : String) :
    ((names kind).map (Key.mk .api none version) ++
      (names kind).map (Key.mk .oapi none version')).Pairwise (Earlier kind) := by
  refine List.pairwise_append.2 ⟨pairwise_names _ _ _ _, pairwise_names _ _ _ _, ?_⟩
  intro k mem k' mem'
  obtain ⟨name, -, rfl⟩ := List.mem_map.1 mem
  obtain ⟨name', -, rfl⟩ := List.mem_map.1 mem'
  exact .root rfl rfl rfl

/-- The keys that a lookup tries are in this order. -/
theorem exists_pairwise_candidates (preferred : Preferred) (version kind : String) :
    ∃ keys : List Key, candidates preferred version kind = keys.map Key.checked ∧
      keys.Pairwise (Earlier kind) := by
  obtain ⟨keys, tries⟩ := exists_tries preferred (bareVersion version) (names kind)
  refine ⟨keys, candidates_of_tries tries, ?_⟩
  cases tries with
  | qualified _ _ => exact pairwise_names _ _ _ kind
  | bare _ _ => exact pairwise_legacy _ _ kind
  | blank _ => exact pairwise_legacy _ _ kind

end Lookup

namespace Registry

open Endpoint (Grown Continued)
open Lookup (Earlier)

variable {r r' : Registry} {e : Endpoint}

/-! ## Searches -/

theorem get?_of_continued (h : Continued r.toList r'.toList) {k : Key} (found : r.get? k = some e) :
    ∃ f, r'.get? k = some f ∧ Grown e f := by
  obtain ⟨mem, key⟩ := get?_eq_some_iff.1 found
  obtain ⟨f, there, grown⟩ := h.exists_of_mem mem
  exact ⟨f, get?_eq_some_iff.2 ⟨there, grown.key.trans key⟩, grown⟩

theorem key_mem_of_firstHit {keys : List Key}
    (found : r.firstHit (keys.map Key.checked) = .ok (some e)) : e.key ∈ keys :=
  List.mem_of_find?_eq_some (firstHit_checked found).1.symm

/-- A search comes upon what it found before, or upon a new endpoint on the way there. -/
theorem firstHit_of_continued (h : Continued r.toList r'.toList) {keys : List Key}
    (found : r.firstHit (keys.map Key.checked) = .ok (some e)) :
    ∃ f, r'.firstHit (keys.map Key.checked) = .ok (some f) ∧
      (Grown e f ∨ f.key ∉ r.toList.map Endpoint.key ∧ [f.key, e.key].Sublist keys) := by
  induction keys with
  | nil => cases found
  | cons k rest ih =>
      rw [List.map_cons, Key.checked_eq] at found ⊢
      split at found
      · cases found
      · next versioned =>
          rw [if_neg versioned]
          unfold firstHit at found ⊢
          cases old : r.get? k with
          | some d =>
              rw [old] at found
              cases found
              obtain ⟨f, now, grown⟩ := get?_of_continued h old
              rw [now]
              exact ⟨f, rfl, .inl grown⟩
          | none =>
              rw [old] at found
              cases now : r'.get? k with
              | none =>
                  obtain ⟨f, hit, grown | ⟨new, before⟩⟩ := ih found
                  · exact ⟨f, hit, .inl grown⟩
                  · exact ⟨f, hit, .inr ⟨new, before.cons k⟩⟩
              | some f =>
                  -- the key was passed over before, and now it is registered
                  obtain ⟨-, rfl⟩ := get?_eq_some_iff.1 now
                  have later : [e.key].Sublist rest :=
                    List.singleton_sublist.2 (key_mem_of_firstHit found)
                  exact ⟨f, rfl, .inr ⟨get?_eq_none_iff.1 old, later.cons_cons f.key⟩⟩

/-! ## Lookups -/

/-- What becomes of a registry and its lookups when calls go on, refused ones among them. The keys
that were registered are still there, at the places where they were. A lookup that found an endpoint
finds it again, with the same kind and scope and all its capabilities; or it finds an endpoint that
was not registered before, under a key that it tries earlier. -/
theorem resolve_after (r : Registry) (more : List Call) :
    let r' := r.after more
    r.toList.map Endpoint.key <+: r'.toList.map Endpoint.key ∧
    ∀ preferred version kind, ∃ keys : List Key,
      Lookup.candidates preferred version kind = keys.map Key.checked ∧
      ∀ e, r.resolve preferred version kind = .ok (some e) →
        ∃ f, r'.resolve preferred version kind = .ok (some f) ∧
          (Grown e f ∨
            f.key ∉ r.toList.map Endpoint.key ∧ [f.key, e.key].Sublist keys ∧
              Earlier kind f.key e.key) := by
  intro r'
  have grown : Continued r.toList r'.toList := continued_after r more
  refine ⟨grown.map_key, fun preferred version kind => ?_⟩
  obtain ⟨keys, tried, order⟩ := Lookup.exists_pairwise_candidates preferred version kind
  refine ⟨keys, tried, fun e found => ?_⟩
  unfold resolve at found ⊢
  rw [tried] at found ⊢
  obtain ⟨f, hit, same | ⟨new, before⟩⟩ := firstHit_of_continued grown found
  · exact ⟨f, hit, .inl same⟩
  · exact ⟨f, hit, .inr ⟨new, before, List.pairwise_iff_forall_sublist.1 order before⟩⟩

/-- An entry for builds, below the root that is tried last. -/
def buildsBelowOapi : Call :=
  .entry (.legacy .oapi ["v1"]) "v1" ⟨"builds", "Build", true⟩

/-- The same entry below the root that is tried first. -/
def buildsBelowApi : Call :=
  .entry (.legacy .api ["v1"]) "v1" ⟨"builds", "Build", true⟩

theorem resolve_after_buildsBelowApi :
    let e : Endpoint := ⟨⟨.oapi, none, "v1", "builds"⟩, "Build", true, Utf8.sorted []⟩
    let r := ofCalls [buildsBelowOapi]
    r.resolve .default "v1" "Build" = .ok (some e) ∧
      ∃ f, (r.after [buildsBelowApi]).resolve .default "v1" "Build" = .ok (some f) ∧
        (Grown e f ∨ f.key ∉ r.toList.map Endpoint.key ∧ Earlier "Build" f.key e.key) := by
  intro e r
  have tried : Lookup.candidates .default "v1" "Build" =
      [⟨.api, none, "v1", "builds"⟩, ⟨.api, none, "v1", "build"⟩,
        ⟨.oapi, none, "v1", "builds"⟩, ⟨.oapi, none, "v1", "build"⟩].map .ok := by decide
  have found : r.resolve .default "v1" "Build" = .ok (some e) := by
    rw [resolve_ofCalls tried]
    rfl
  obtain ⟨_, _, hits⟩ := (resolve_after r [buildsBelowApi]).2 .default "v1" "Build"
  obtain ⟨f, now, same | ⟨new, -, earlier⟩⟩ := hits e found
  · exact ⟨found, f, now, .inl same⟩
  · exact ⟨found, f, now, .inr ⟨new, earlier⟩⟩

end Registry
end ApiCatalog
