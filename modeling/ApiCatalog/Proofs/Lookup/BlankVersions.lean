import ApiCatalog.Proofs.Registry.Restriction

/-!
# Blank versions

A blank version stands for the preferred versions of the legacy roots, so to look a kind up at a
bare version is to override both of them and give none. Nothing but a blank version looks at the
preferred ones, and a hit below `api` comes before that of `oapi` is needed.

- `Preferred.override_legacy`  : what an override of a legacy root makes
- `Registry.firstHit_api`      : a hit below `api` does not depend on what is tried after it
- `Registry.blank_lookups`     : blank lookups and those at other versions
-/

namespace ApiCatalog

/-! ## Overrides -/

namespace Preferred

variable {p p' : Preferred} {version : String}

theorem override_api (p : Preferred) (written : Text.trim version ≠ "") :
    p.override .api version = .ok { p with api := Text.trim version } := by
  simp [override, written]

theorem override_oapi (p : Preferred) (written : Text.trim version ≠ "") :
    p.override .oapi version = .ok { p with oapi := Text.trim version } := by
  simp [override, written]

theorem api_of_override_oapi (set : p.override .oapi version = .ok p') : p'.api = p.api := by
  simp only [override] at set
  split at set
  · cases set
  · cases set
    rfl

end Preferred

/-! ## Versions -/

namespace Lookup

variable {p q : Preferred} {version : String} {names : List String} {keys : List Key}

theorem bareVersion_of_flat (flat : '/' ∉ version.toList) :
    bareVersion version = Text.trim version := by
  refine Text.dropTrailing_eq_self fun last => flat ?_
  exact (Text.trim_infix version).subset (List.mem_of_getLast? last)

/-- Only a blank version stands for preferred ones. -/
theorem Tries.of_written (written : version ≠ "") (h : Tries p version names keys) :
    Tries q version names keys := by
  cases h with
  | qualified cut last => exact .qualified cut last
  | bare written flat => exact .bare written flat
  | blank nothing => exact absurd nothing written

end Lookup

/-! ## Lookups -/

namespace Registry

open Lookup (Tries)

variable {r : Registry} {names : List String} {version : String}

theorem root_of_firstHit {root : ApiRoot} {group : Option String} {e : Endpoint}
    (found : r.firstHit ((names.map (Key.mk root group version)).map Key.checked) = .ok (some e)) :
    e.key.root = root := by
  have tried := List.mem_of_find?_eq_some (firstHit_checked found).1.symm
  rcases List.mem_map.1 tried with ⟨name, -, key⟩
  rw [← key]

/-- A search that ends below `api` does not come to the keys below `oapi`. -/
theorem firstHit_api {e : Endpoint} {later : String} (api : e.key.root = .api)
    (found : r.firstHit ((names.map (Key.mk .api none version) ++
      names.map (Key.mk .oapi none later)).map Key.checked) = .ok (some e)) (other : String) :
    r.firstHit ((names.map (Key.mk .api none version) ++
      names.map (Key.mk .oapi none other)).map Key.checked) = .ok (some e) := by
  rw [List.map_append, firstHit_append] at found ⊢
  cases first : r.firstHit ((names.map (Key.mk .api none version)).map Key.checked) with
  | error fault =>
      rw [first] at found
      cases found
  | ok hit =>
      rw [first] at found
      cases hit with
      | some d => exact found
      | none =>
          have oapi := root_of_firstHit found
          rw [api] at oapi
          cases oapi

/-- What a version has to do with the preferred ones. A bare version is looked up like a blank one
after both legacy roots were set to it, in either order; a version that is not blank is looked up
without regard to the preferred ones; and what a blank one finds below `api` it finds whatever
`oapi` is set to. -/
theorem blank_lookups (r : Registry) (kind : String) :
    (∀ (p : Preferred) (v : String), '/' ∉ v.toList → Text.trim v ≠ "" →
      ∃ p', (do (← p.override .api v).override .oapi v) = .ok p' ∧
        (do (← p.override .oapi v).override .api v) = .ok p' ∧
        r.resolve p v kind = r.resolve p' "" kind) ∧
    (∀ (p q : Preferred) (v : String), Text.dropTrailing '/' (Text.trim v) ≠ "" →
      r.resolve p v kind = r.resolve q v kind) ∧
    ∀ (p p' : Preferred) (v w : String) (e : Endpoint), Text.dropTrailing '/' (Text.trim v) = "" →
      r.resolve p v kind = .ok (some e) → e.key.root = .api → p.override .oapi w = .ok p' →
        r.resolve p' v kind = .ok (some e) := by
  refine ⟨fun p v flat written => ?_, fun p q v written => ?_, ?_⟩
  · let p' : Preferred := ⟨Text.trim v, Text.trim v⟩
    refine ⟨p', ?_, ?_, ?_⟩
    · simp [p.override_api written, Preferred.override_oapi _ written, p', bind, Except.bind]
    · simp [p.override_oapi written, Preferred.override_api _ written, p', bind, Except.bind]
    · have bare : Lookup.bareVersion v = Text.trim v := Lookup.bareVersion_of_flat flat
      have flat' : '/' ∉ (Text.trim v).toList := fun mem => flat ((Text.trim_infix v).subset mem)
      have nothing : Lookup.bareVersion "" = "" := by decide
      rw [resolve_of_tries (.bare (bare ▸ written) (bare ▸ flat')),
        resolve_of_tries (.blank nothing), bare]
  · rcases Lookup.exists_tries p (Lookup.bareVersion v)
      [Kind.plural kind, Text.lower (Text.trim kind)] with ⟨keys, tries⟩
    rw [resolve_of_tries tries, resolve_of_tries (tries.of_written written)]
  · intro p p' v w e blank found api set
    rw [resolve_of_tries (.blank blank)] at found ⊢
    rw [Preferred.api_of_override_oapi set]
    exact firstHit_api api found p'.oapi

/-- Pods below both legacy roots, at different versions. -/
def podsApart : List Call :=
  [.entry (.legacy .api ["v1"]) "v1" ⟨"pods", "Pod", true⟩,
    .entry (.legacy .oapi ["v2"]) "v2" ⟨"pods", "Pod", true⟩]

theorem blank_lookups_podsApart :
    let r := ofCalls podsApart
    let kube : Endpoint := ⟨⟨.api, none, "v1", "pods"⟩, "Pod", true, Utf8.sorted []⟩
    (∃ p', (do (← Preferred.default.override .api " v2").override .oapi " v2") = .ok p' ∧
      r.resolve .default " v2" "Pod" = r.resolve p' "" "Pod") ∧
    r.resolve .default "v2/" "Pod" = r.resolve ⟨"v2", "v3"⟩ "v2/" "Pod" ∧
    r.resolve .default " / " "Pod" = .ok (some kube) ∧
    r.resolve ⟨"v1", "v2"⟩ " / " "Pod" = .ok (some kube) := by
  intro r kube
  rcases blank_lookups r "Pod" with ⟨bare, written, blank⟩
  rcases bare .default " v2" (by decide) (by decide) with ⟨p', set, -, same⟩
  have tried : Lookup.candidates .default " / " "Pod" =
      [⟨.api, none, "v1", "pods"⟩, ⟨.api, none, "v1", "pod"⟩,
        ⟨.oapi, none, "v1", "pods"⟩, ⟨.oapi, none, "v1", "pod"⟩].map .ok := by decide +kernel
  have found : r.resolve .default " / " "Pod" = .ok (some kube) := by
    rw [resolve_ofCalls tried]
    rfl
  refine ⟨⟨p', set, same⟩, written .default ⟨"v2", "v3"⟩ "v2/" (by decide), found, ?_⟩
  exact blank .default ⟨"v1", "v2"⟩ " / " "v2 " kube (by decide) found rfl (by decide)

end Registry
end ApiCatalog
