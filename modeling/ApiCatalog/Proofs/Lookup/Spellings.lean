import ApiCatalog.Proofs.Kind.Sharing
import ApiCatalog.Proofs.Registry.Restriction

/-!
# Spellings of a lookup

A lookup does not look at blank characters around a version, at slashes behind it, and at the letter
case of a kind. So a version keeps its form when it is spelled with more of them, and everything
that it finds.

- `Lookup.form`                 : what a version is to a lookup
- `Lookup.candidates_eq_form`   : the form of a version decides where a lookup goes
- `Lookup.bareVersion_padded`   : what is left of a version with blanks and slashes around it
- `Registry.resolve_spellings`  : lookups that differ in spelling only
-/

namespace ApiCatalog
namespace Lookup

/-! ## Versions -/

inductive Form
  | blank
  | bare
  | qualified
  deriving DecidableEq, Repr

/-- The form of a version, once it has no blanks around it and no slashes at its end. -/
def form (version : String) : Form :=
  if bareVersion version = "" then .blank
  else if '/' ∈ (bareVersion version).toList then .qualified
  else .bare

theorem candidates_eq_form (preferred : Preferred) (version kind : String) :
    candidates preferred version kind =
      match form version with
      | .blank => legacy preferred.get? (names kind)
      | .bare => legacy (fun _ => some (bareVersion version)) (names kind)
      | .qualified => qualified (bareVersion version) (names kind) := by
  rw [candidates_eq, form]
  split
  · rfl
  · split <;> rfl

variable {version a b : String}

/-- The blanks around the slashes go first, then the slashes, and the version is left as it would be
alone. -/
theorem bareVersion_padded (before : Text.isBlankText a = true) (after : Text.isBlankText b = true)
    (last : ∀ c, version.toList.getLast? = some c → Text.isBlank c = false) (n : Nat) :
    bareVersion (a ++ version ++ .ofList (.replicate n '/') ++ b) = bareVersion version := by
  -- slashes are no blanks, so the blanks of the version itself that they hide are only in front
  have slashes : ∀ c ∈ (String.ofList (.replicate n '/')).toList, Text.isBlank c = false := by
    intro c mem
    rw [String.toList_ofList] at mem
    rw [List.eq_of_mem_replicate mem]
    decide
  have inner : a ++ version ++ .ofList (.replicate n '/') =
      a ++ (version ++ .ofList (.replicate n '/')) := String.append_assoc
  rw [bareVersion, inner, Text.trim_append before after, Text.trim_append_visible last slashes,
    Text.dropTrailing_append]
  rfl

theorem form_congr {w : String} (same : bareVersion w = bareVersion version) :
    form w = form version := by
  rw [form, form, same]

/-! ## Kinds -/

variable {kind kind' : String}

theorem names_congr (same : Text.lower kind = Text.lower kind') : names kind = names kind' := by
  rw [names, names, Kind.plural_congr same, Text.lower_trim, Text.lower_trim, same]

/-- What is left of the version and the letters of the kind are all that a lookup goes by. -/
theorem candidates_congr {w : String} (left : bareVersion w = bareVersion version)
    (letters : Text.lower kind = Text.lower kind') (preferred : Preferred) :
    candidates preferred w kind = candidates preferred version kind' := by
  rw [candidates_eq_form, candidates_eq_form, form_congr left, left, names_congr letters]

end Lookup

/-! ## Lookups -/

namespace Registry

/-- Kinds that differ in letter case only are looked up alike, at any version. And a version that
does not end in a blank has the same form with any blanks around it and any number of slashes
behind it, so that the same is found as at the version alone. -/
theorem resolve_spellings (r : Registry) (preferred : Preferred) :
    (∀ version kind kind', Text.lower kind = Text.lower kind' →
      r.resolve preferred version kind = r.resolve preferred version kind') ∧
    ∀ version a b n, Text.isBlankText a = true → Text.isBlankText b = true →
      (∀ c, version.toList.getLast? = some c → Text.isBlank c = false) →
        let spelled := a ++ version ++ .ofList (.replicate n '/') ++ b
        Lookup.form spelled = Lookup.form version ∧
          ∀ kind kind', Text.lower kind = Text.lower kind' →
            r.resolve preferred spelled kind = r.resolve preferred version kind' := by
  refine ⟨fun version kind kind' letters => ?_, fun version a b n before after last => ?_⟩
  · rw [resolve, resolve, Lookup.candidates_congr rfl letters]
  · have left := Lookup.bareVersion_padded before after last n
    refine ⟨Lookup.form_congr left, fun kind kind' letters => ?_⟩
    rw [resolve, resolve, Lookup.candidates_congr left letters]

/-- Deployments of a named group. -/
def appsDeployments : List Call :=
  [.entry (.ofInfo ⟨"apps", [⟨"apps/v1", "v1"⟩], none⟩) "v1" ⟨"deployments", "Deployment", true⟩]

theorem resolve_spellings_appsDeployments :
    let r := ofCalls appsDeployments
    let e : Endpoint := ⟨⟨.apis, some "apps", "v1", "deployments"⟩, "Deployment", true,
      Utf8.sorted []⟩
    Text.isBlankText "\u2003" = true ∧ Text.isBlankText "\t" = true ∧
      (∀ c, " apps/v1".toList.getLast? = some c → Text.isBlank c = false) ∧
      Lookup.form "\u2003 apps/v1//\t" = .qualified ∧
      r.resolve .default "\u2003 apps/v1//\t" "DEPLOYMENT" = .ok (some e) := by
  intro r e
  have before : Text.isBlankText "\u2003" = true := by decide
  have after : Text.isBlankText "\t" = true := by decide
  have last : ∀ c, " apps/v1".toList.getLast? = some c → Text.isBlank c = false := by
    intro c ends
    obtain rfl : c = '1' := by simpa [eq_comm] using ends
    decide
  have tried : Lookup.candidates .default " apps/v1" "Deployment" =
      [⟨.apis, some "apps", "v1", "deployments"⟩, ⟨.apis, some "apps", "v1", "deployment"⟩].map
        .ok := by decide +kernel
  have found : r.resolve .default " apps/v1" "Deployment" = .ok (some e) := by
    rw [resolve_ofCalls tried]
    rfl
  obtain ⟨form, same⟩ :=
    (resolve_spellings r .default).2 " apps/v1" "\u2003" "\t" 2 before after last
  exact ⟨before, after, last, form.trans (by decide), (same _ _ (by decide)).trans found⟩

end Registry
end ApiCatalog
