import ApiCatalog.Proofs.Discovery.Due
import ApiCatalog.Proofs.Uri.Joining
import ApiCatalog.Scripted

/-!
# Requests stay within the cluster

The path of a discovery request is made of names that a server has told, or of what a caller gives.
Whatever these are, the request is for a path and query alone, and placed on the uri of a cluster it
stays below that uri.

- `Client.Relative`           : a request without a scheme and an authority of its own
- `Uri.Below`                 : a uri below that of a cluster
- `Client.Confined`           : a relative request that is placed below the cluster
- `Client.discovery_confined` : the requests of discovery calls and of whole passes
-/

namespace ApiCatalog

open Http (Request)

/-- The scheme and the authority of the base, and a path below that of the base. -/
structure Uri.Below (base u : Uri) : Prop where
  scheme : u.scheme? = base.scheme?
  authority : u.authority? = base.authority?
  path : ∃ rest, u.path = base.basePath ++ "/" ++ rest

theorem Uri.below_absolute {scheme authority : String} {target target' : PathQuery} {rest : String}
    (rooted : target'.rootedPath = (Uri.absolute scheme authority target).basePath ++ "/" ++ rest) :
    (Uri.absolute scheme authority target).Below (.absolute scheme authority target') :=
  ⟨rfl, rfl, rest, rooted⟩

namespace Client

open Discovery (asking due pass)

/-! ## Relative requests -/

/-- A `GET` for a path and query alone, the path with exactly one slash at its front. -/
structure Relative (request : Request) : Prop where
  method : request.method = "GET"
  scheme : request.uri.scheme? = none
  authority : request.uri.authority? = none
  path : ∃ rest, request.uri.path = "/" ++ .ofList rest ∧ rest.head? ≠ some '/'

variable {path : String} {u base : Uri}

theorem toList_discoveryUri (path : String) :
    (discoveryUri path).toList = '/' :: path.toList.dropWhile (· == '/') := by
  simp [discoveryUri, Text.dropLeading]

/-- A character that is left at the front when slashes are dropped is none of them, and it is still
at the front when the text is cut at its end. -/
theorem head?_ne_slash (s : List Char) (p : Char → Bool) :
    ((s.dropWhile (· == '/')).takeWhile p).head? ≠ some '/' := by
  intro front
  have first : (s.dropWhile (· == '/')).head? = some '/' := by
    cases left : s.dropWhile (· == '/') with
    | nil => simp [left] at front
    | cons c rest =>
        rw [left, List.takeWhile_cons] at front
        split at front
        · exact front
        · cases front
  have dropped := List.head?_dropWhile_not (· == '/') s
  rw [first] at dropped
  cases dropped

theorem relative_of_parse (parsed : Uri.parse (discoveryUri path) = .ok u) :
    Relative (asking u) := by
  have slash := toList_discoveryUri path
  obtain ⟨t, rfl, read⟩ := Uri.origin_of_parse slash parsed
  have written := PathQuery.path_of_parseChars read
  refine ⟨rfl, rfl, rfl, _, ?_, head?_ne_slash path.toList fun c => !(c == '?' || c == '#')⟩
  rw [List.takeWhile_cons_of_pos (by decide)] at written
  simp [asking, Uri.path, Uri.target?, PathQuery.rootedPath, written, String.ofList_cons]

/-! ## Placed requests -/

/-- A relative request that ends up below the uri of the cluster, if the joined text is not too long
for a uri. -/
structure Confined (base : Uri) (request : Request) : Prop where
  relative : Relative request
  placed : (base.joinedText request.uri).utf8ByteSize ≤ Uri.lengthLimit →
    ∃ u, base.join request.uri = .ok u ∧ base.Below u ∧
      Scripted.arriving (.joined base) request = { request with uri := u }

theorem confined_of_parse {url : String} {config : Config}
    (accepted : Config.ofUrl url = .ok config)
    (parsed : Uri.parse (discoveryUri path) = .ok u) : Confined config.cluster (asking u) := by
  have relative := relative_of_parse parsed
  refine ⟨relative, fun fits => ?_⟩
  obtain ⟨scheme, authority, target, cluster, clean⟩ := Config.cluster_of_ofUrl accepted
  obtain ⟨t, rfl, -⟩ := Uri.origin_of_parse (toList_discoveryUri path) parsed
  obtain ⟨rest, rooted, -⟩ := relative.path
  rw [cluster] at fits ⊢
  have joined := Uri.join_absolute clean (Uri.clean_of_parse parsed) fits
  refine ⟨_, joined, Uri.below_absolute (Uri.rootedPath_joinedPath rooted _ _), ?_⟩
  simp [Scripted.arriving, asking, joined, Except.toOption]

/-! ## Discovery -/

/-- What a stage of a pass asks for is the uri of a path. -/
theorem exists_discoveryUri (stage : Discovery.Stage) :
    ∃ path, stage.uri = discoveryUri path := by
  cases stage with
  | versions root => exact ⟨root.name, by cases root <;> rfl⟩
  | groups => exact ⟨ApiRoot.apis.name, rfl⟩
  | listing group version => exact ⟨_, (Discovery.discoveryUri_pathFor group version).symm⟩

/-- A discovery call fails before anything is sent, or it makes one request, whatever it gets for
it; and that request stays within the cluster. So does every request of a pass, whatever names of
groups and versions it has been told. -/
theorem discovery_confined {url : String} {config : Config}
    (accepted : Config.ofUrl url = .ok config) :
    (∀ path,
      (∃ fault, ∀ replies,
        (discoveryText path).course replies = ⟨[], some (.error (.badRequest fault))⟩) ∨
      ∃ request, (∀ replies, ((discoveryText path).course replies).asked = [request]) ∧
        Confined config.cluster request) ∧
    ∀ mode replies, ∀ request ∈ ((pass mode).course replies).asked,
      Confined config.cluster request := by
  constructor
  · intro path
    have made := Discovery.get?_eq (discoveryUri path)
    cases parsed : Uri.parse (discoveryUri path) with
    | error fault =>
        rw [parsed] at made
        exact .inl ⟨_, Dialogue.course_of_ending? (ending?_discoveryText made)⟩
    | ok u =>
        rw [parsed] at made
        refine .inr ⟨asking u, fun replies => ?_, confined_of_parse accepted parsed⟩
        cases replies with
        | nil => rw [(asks_discoveryText made).course_nil]
        | cons reply later => rw [(asks_discoveryText made).course_cons]
  · intro mode replies request mem
    obtain ⟨uris, asked, among⟩ := Discovery.asked_walk (due mode replies) replies
    rw [Discovery.course_pass, Dialogue.Course.asked_map, asked] at mem
    obtain ⟨u, there, rfl⟩ := List.mem_map.1 mem
    obtain ⟨stage, -, parsed⟩ := List.mem_map.1 (among.subset (List.mem_map_of_mem there))
    obtain ⟨path, uri⟩ := exists_discoveryUri stage
    exact confined_of_parse accepted (uri ▸ parsed)

/-- A cluster behind a path. -/
def proxied : Config :=
  .ofUri (.absolute "http" "h:1" ⟨"/k8s/", none⟩)

/-- A path that looks like another host is asked for below the cluster. -/
theorem discovery_confined_proxied :
    Config.ofUrl " http://h:1/k8s/ " = .ok proxied ∧
      ∃ request, (∀ replies, ((discoveryText "//other:80/x?y").course replies).asked = [request]) ∧
        Confined proxied.cluster request := by
  have accepted : Config.ofUrl " http://h:1/k8s/ " = .ok proxied := by rfl
  refine ⟨accepted, ?_⟩
  rcases (discovery_confined accepted).1 "//other:80/x?y" with ⟨fault, fails⟩ | stays
  · have sent : ((discoveryText "//other:80/x?y").course []).asked ≠ [] := by
      exact List.cons_ne_nil _ _
    rw [fails] at sent
    exact absurd rfl sent
  · exact stays

example :
    Scripted.arriving (.joined proxied.cluster) (asking (.origin ⟨"/other:80/x", some "y"⟩)) =
      asking (.absolute "http" "h:1" ⟨"/k8s/other:80/x", some "y"⟩) := by
  rfl

end Client
end ApiCatalog
