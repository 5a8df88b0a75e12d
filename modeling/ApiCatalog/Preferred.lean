import ApiCatalog.Group
import ApiCatalog.Text.Blank

/-!
# Preferred versions

The version that each legacy root is asked for when a lookup gives none.
-/

namespace ApiCatalog

structure Preferred where
  api : String
  oapi : String
  deriving DecidableEq, Repr

namespace Preferred

def default : Preferred :=
  ⟨Group.legacyPreferred, Group.legacyPreferred⟩

instance : Inhabited Preferred :=
  ⟨default⟩

/-- `apis` has no preferred version of its own. -/
def get? (p : Preferred) : ApiRoot → Option String
  | .api => some p.api
  | .oapi => some p.oapi
  | .apis => none

/-- Sets the version of a legacy root, trimmed; neither `apis` nor a blank version will do. -/
def override (p : Preferred) (root : ApiRoot) (version : String) :
    Except NamingFault Preferred :=
  let bare := Text.trim version
  match root with
  | .apis => .error (.notLegacy root)
  | .api => if bare.isEmpty then .error .emptyVersion else .ok { p with api := bare }
  | .oapi => if bare.isEmpty then .error .emptyVersion else .ok { p with oapi := bare }

end Preferred
end ApiCatalog
