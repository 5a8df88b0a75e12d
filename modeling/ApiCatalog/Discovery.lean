import ApiCatalog.Client
import ApiCatalog.Registry

/-!
# Discovery

One pass over the apis of a cluster: the versions of the legacy roots, the list of named groups,
and the resource list of every version of every group that is wanted.

- `Discovery.Mode` : which named groups are wanted
- `Discovery.pass` : the pass as a dialogue; it yields a catalog or fails as a whole
-/

namespace ApiCatalog

/-- What a pass finds: the groups, legacy ones first, and their endpoints. -/
structure Catalog where
  groups : List Group
  registry : Registry

namespace Discovery

/-! ## Wanted groups -/

inductive Mode
  | allow (names : List String)
  | block (names : List String)
  deriving DecidableEq, Repr

/-- Legacy roots are always wanted; this is about named groups only. -/
def Mode.wants : Mode → String → Bool
  | .allow names, name => names.contains name
  | .block names, name => !names.contains name

def everything : Mode :=
  .block []

/-! ## The pass -/

/-- Asks each legacy root for its versions. -/
def legacyGroups : List ApiRoot → Dialogue (List Group)
  | [] => return []
  | root :: rest => do
      let doc ← Client.legacyVersions root
      let group ← Dialogue.ofExcept ((Group.ofVersions root doc).mapError .naming)
      return group :: (← legacyGroups rest)

/-- The wanted groups in order; the others are reported. -/
def selectGroups (mode : Mode) : List Wire.GroupInfo → Dialogue (List Group)
  | [] => return []
  | info :: rest => do
      if mode.wants info.name then return .ofInfo info :: (← selectGroups mode rest)
      else
        Dialogue.tell (.groupSkipped info.name)
        selectGroups mode rest

/-- The resource lists to ask for. -/
def listings (groups : List Group) : List (Group × String) :=
  groups.flatMap fun g => g.versions.map (g, ·)

/-- Asks for resource lists in turn and adds each to a registry. -/
def collect (r : Registry) : List (Group × String) → Dialogue Registry
  | [] => return r
  | (group, version) :: rest => do
      let list ← Client.resourceList (group.pathFor version)
      match r.addList group version list with
      | (grown, none) => collect grown rest
      | (_, some fault) => .failed (.naming fault)

def pass (mode : Mode) : Dialogue Catalog := do
  Dialogue.tell .discoveryStarted
  let legacy ← legacyGroups ApiRoot.legacy
  let list ← Client.groupList
  let named ← selectGroups mode list.groups
  let groups := legacy ++ named
  let registry ← collect .empty (listings groups)
  Dialogue.tell (.discoveryCompleted groups.length registry.size)
  return ⟨groups, registry⟩

end Discovery
end ApiCatalog
