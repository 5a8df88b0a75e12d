import ApiCatalog.Endpoint
import ApiCatalog.Proofs.Text.Cutting

/-!
# Reading keys back

A key is written with slashes between its parts and read by cutting at slashes. The group may hold
slashes, since what stands behind it does not: an api version is cut at its last slash, a path at
its last two, and what is left of a path at its first one, for the name of a root holds none.

- `Key.Flat`                    : keys whose version and name hold no slash
- `Key.ofApiVersion?_apiVersion` : an api version has its parts back
- `Key.ofApiVersion?_eq_ok_iff` : the key that is read from an api version
- `Key.home`, `Key.cutFirst_home` : the place of a group below its root
- `Key.eq_of_path`              : a path belongs to one key
- `Key.read_back`               : all of it together
-/

namespace ApiCatalog
namespace Key

variable {root : ApiRoot} {group : Option String} {apiVersion version name : String} {k k' : Key}

/-! ## Api versions -/

/-- With a version in hand every name makes a key. -/
theorem make?_eq_ok (something : version ≠ "") (root : ApiRoot) (group : Option String) :
    make? root group version = fun name => .ok ⟨root, group, version, name⟩ := by
  funext name
  unfold make?
  rw [if_neg (by simpa using something)]

theorem make?_eq_ok_iff :
    make? root group version name = .ok k ↔ version ≠ "" ∧ ⟨root, group, version, name⟩ = k := by
  by_cases nothing : version = ""
  · simp [make?, nothing]
  · simp [make?, nothing]

theorem make?_eq_error_iff {fault : NamingFault} :
    make? root group version name = .error fault ↔ version = "" ∧ fault = .emptyVersion := by
  by_cases nothing : version = ""
  · simp [make?, nothing, eq_comm (a := fault)]
  · simp [make?, nothing]

/-- The parts of an api version are a group and a version that are written so. -/
theorem cutLast_eq_iff (root : ApiRoot) (name : String) :
    Text.cutLast '/' apiVersion = (group, version) ↔
      (Key.mk root group version name).apiVersion = apiVersion ∧ '/' ∉ version.toList := by
  cases group with
  | none =>
      rw [Text.cutLast_eq_none]
      refine and_congr_right fun same => ?_
      rw [same]
  | some group =>
      rw [Text.cutLast_eq_some, eq_comm]
      rfl

/-- An api version that was written with a version without slashes has its parts back. -/
theorem ofApiVersion?_apiVersion (flat : '/' ∉ k.version.toList) (root : ApiRoot) (name : String) :
    ofApiVersion? root k.apiVersion name = make? root k.group k.version name := by
  have cut : Text.cutLast '/' k.apiVersion = (k.group, k.version) :=
    (cutLast_eq_iff k.root k.name).2 ⟨rfl, flat⟩
  rw [ofApiVersion?, cut]

/-- A key is read from an api version if it is written so and its version can stand at the end. -/
theorem ofApiVersion?_eq_ok_iff :
    ofApiVersion? root apiVersion name = .ok k ↔
      k.root = root ∧ k.name = name ∧ k.apiVersion = apiVersion ∧
        k.version ≠ "" ∧ '/' ∉ k.version.toList := by
  constructor
  · intro read
    rcases cut : Text.cutLast '/' apiVersion with ⟨group, version⟩
    rw [ofApiVersion?, cut] at read
    obtain ⟨something, rfl⟩ := make?_eq_ok_iff.1 read
    have ⟨written, flat⟩ := (cutLast_eq_iff root name).1 cut
    exact ⟨rfl, rfl, written, something, flat⟩
  · rintro ⟨rfl, rfl, rfl, something, flat⟩
    rw [ofApiVersion?_apiVersion flat]
    exact make?_eq_ok_iff.2 ⟨something, rfl⟩

theorem ofApiVersion?_eq_error_iff {fault : NamingFault} :
    ofApiVersion? root apiVersion name = .error fault ↔
      (apiVersion = "" ∨ apiVersion.toList.getLast? = some '/') ∧ fault = .emptyVersion := by
  rw [ofApiVersion?, ← Text.cutLast_eq_empty_iff]
  exact make?_eq_error_iff

/-! ## Paths -/

/-- Neither part that ends a path is broken by a slash. -/
structure Flat (k : Key) : Prop where
  version : '/' ∉ k.version.toList
  name : '/' ∉ k.name.toList

/-- The place of the group of a key, with its root. -/
def home (k : Key) : String :=
  match k.group with
  | some group => k.root.name ++ "/" ++ group
  | none => k.root.name

theorem path_eq_home (k : Key) : k.path = k.home ++ "/" ++ k.version ++ "/" ++ k.name := by
  unfold path home
  cases k.group <;> rfl

/-- No root has a slash in its name, so the first one stands before a group. -/
theorem cutFirst_home (k : Key) : Text.cutFirst '/' k.home = (k.root.name, k.group) := by
  have flat : '/' ∉ k.root.name.toList := by cases k.root <;> decide
  unfold home
  split
  · next group named =>
      rw [named]
      exact Text.cutFirst_eq_some.2 ⟨rfl, flat⟩
  · next unnamed =>
      rw [unnamed]
      exact Text.cutFirst_of_not_mem flat

theorem eq_of_path (flat : k.Flat) (flat' : k'.Flat) (same : k.path = k'.path) : k = k' := by
  rw [path_eq_home, path_eq_home] at same
  -- from the end, since only the parts there are known to hold no slash
  obtain ⟨front, name⟩ := Text.eq_of_append flat.name flat'.name same
  obtain ⟨home, version⟩ := Text.eq_of_append flat.version flat'.version front
  have cut : (k.root.name, k.group) = (k'.root.name, k'.group) := by
    rw [← cutFirst_home, ← cutFirst_home, home]
  have ⟨rootName, group⟩ := Prod.mk.inj cut
  -- a root has its name to itself
  have root : k.root = k'.root :=
    Option.some.inj <| (ApiRoot.ofName?_eq_some_iff.2 rfl).symm.trans
      (ApiRoot.ofName?_eq_some_iff.2 rootName)
  calc
    k = ⟨k.root, k.group, k.version, k.name⟩ := rfl
    _ = ⟨k'.root, k'.group, k'.version, k'.name⟩ := by rw [root, group, version, name]
    _ = k' := rfl

/-! ## Reading back -/

/-- An api version makes a key unless nothing stands behind its last slash, and the endpoint of that
key shows this api version. A key whose version is there and holds no slash is made again from its
api version, whatever its group. And keys are told by their paths, and endpoints by theirs, if
neither version nor name holds a slash. -/
theorem read_back :
    (∀ root apiVersion name,
      (∀ fault, ofApiVersion? root apiVersion name = .error fault ↔
        (apiVersion = "" ∨ apiVersion.toList.getLast? = some '/') ∧ fault = .emptyVersion) ∧
      (¬(apiVersion = "" ∨ apiVersion.toList.getLast? = some '/') →
        ∃ k, ofApiVersion? root apiVersion name = .ok k ∧ k.root = root ∧ k.name = name ∧
          ∀ e : Endpoint, e.key = k → e.apiVersion = apiVersion)) ∧
    (∀ k : Key, k.version ≠ "" → '/' ∉ k.version.toList →
      ofApiVersion? k.root k.apiVersion k.name = .ok k) ∧
    (∀ k k' : Key, k.Flat → k'.Flat → (k.path = k'.path ↔ k = k')) ∧
    ∀ e e' : Endpoint, e.key.Flat → e'.key.Flat → (e.path = e'.path ↔ e.key = e'.key) := by
  have told (k k' : Key) (flat : k.Flat) (flat' : k'.Flat) : k.path = k'.path ↔ k = k' :=
    ⟨eq_of_path flat flat', congrArg path⟩
  refine ⟨fun root apiVersion name => ⟨fun fault => ofApiVersion?_eq_error_iff, fun stands => ?_⟩,
    fun k something flat => ?_, told, fun e e' flat flat' => ?_⟩
  · cases read : ofApiVersion? root apiVersion name with
    | error fault => exact absurd (ofApiVersion?_eq_error_iff.1 read).1 stands
    | ok k =>
        have ⟨root, name, written, _⟩ := ofApiVersion?_eq_ok_iff.1 read
        refine ⟨k, rfl, root, name, fun e key => ?_⟩
        rw [Endpoint.apiVersion, key, written]
  · exact ofApiVersion?_eq_ok_iff.2 ⟨rfl, rfl, rfl, something, flat⟩
  · rw [← told e.key e'.key flat flat']
    exact String.append_right_inj "/"

/-- A group that ends in a slash, and the group without it. -/
theorem read_back_slashes :
    let k : Key := ⟨.apis, some "a/", "v2", "things"⟩
    let k' : Key := ⟨.apis, some "a", "v2", "things"⟩
    (∃ k, ofApiVersion? .apis "a//v2" "things" = .ok k ∧ k.root = .apis ∧ k.name = "things" ∧
      ∀ e : Endpoint, e.key = k → e.apiVersion = "a//v2") ∧
    k.version ≠ "" ∧ k.Flat ∧ k'.Flat ∧
    ofApiVersion? .apis "a//v2" "things" = .ok k ∧ k.path ≠ k'.path := by
  intro k k'
  obtain ⟨reads, again, told, -⟩ := read_back
  have flat : k.Flat := ⟨by decide, by decide⟩
  have flat' : k'.Flat := ⟨by decide, by decide⟩
  have something : k.version ≠ "" := by decide
  refine ⟨(reads .apis "a//v2" "things").2 (by decide), something, flat, flat', ?_, ?_⟩
  · exact again k something flat.version
  · exact mt (told k k' flat flat').1 (by decide)

end Key
end ApiCatalog
