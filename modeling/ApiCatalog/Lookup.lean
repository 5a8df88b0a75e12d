import ApiCatalog.Kind
import ApiCatalog.Preferred
import ApiCatalog.Registry

/-!
# Lookups

Finding the endpoint that serves a kind at a version. A version is qualified when it holds a
slash, as in `apps/v1`, else bare, as in `v1`, or blank.

- `Lookup.candidates` : the keys to try, in order
- `Registry.resolve`  : the endpoint of the first candidate that is registered
-/

namespace ApiCatalog
namespace Lookup

/-! ## Normal forms -/

/-- A version without blank characters around it and slashes at its end. -/
def bareVersion (version : String) : String :=
  Text.dropTrailing '/' (Text.trim version)

/-- The collection names that a kind may stand for: its plural, and the kind itself in case it is
a plural already. -/
def names (kind : String) : List String :=
  let plural := Kind.plural kind
  let given := Text.lower (Text.trim kind)
  if given = plural then [plural] else [plural, given]

/-! ## Candidates -/

/-- The keys of a qualified version. -/
def qualified (apiVersion : String) (names : List String) : List (Except NamingFault Key) :=
  names.map (Key.ofApiVersion? .apis apiVersion)

/-- The keys below the legacy roots; a root without a version is passed over. -/
def legacy (versionAt : ApiRoot → Option String) (names : List String) :
    List (Except NamingFault Key) :=
  ApiRoot.legacy.flatMap fun root =>
    match versionAt root with
    | some version => names.map (Key.make? root none version)
    | none => []

/-- A blank version stands for the preferred one of each legacy root. -/
def candidates (preferred : Preferred) (version kind : String) :
    List (Except NamingFault Key) :=
  let bare := bareVersion version
  if bare.isEmpty then legacy preferred.get? (names kind)
  else if bare.toList.contains '/' then qualified bare (names kind)
  else legacy (fun _ => some bare) (names kind)

end Lookup

/-! ## Resolution -/

namespace Registry

/-- Tries keys in turn; one that cannot be made ends the search. -/
def firstHit (r : Registry) : List (Except NamingFault Key) → Except NamingFault (Option Endpoint)
  | [] => .ok none
  | .error fault :: _ => .error fault
  | .ok key :: rest =>
      match r.get? key with
      | some e => .ok (some e)
      | none => r.firstHit rest

/-- The endpoint that serves `kind` at `version`. -/
def resolve (r : Registry) (preferred : Preferred) (version kind : String) :
    Except NamingFault (Option Endpoint) :=
  r.firstHit (Lookup.candidates preferred version kind)

end Registry
end ApiCatalog
