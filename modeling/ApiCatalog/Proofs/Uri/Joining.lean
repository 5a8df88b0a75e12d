import ApiCatalog.Config
import ApiCatalog.Proofs.Text.Trimming
import ApiCatalog.Proofs.Uri.Reading
import ApiCatalog.Uri.Join

/-!
# Joining what was read

The uri of a cluster and a uri that is asked for join, since both are clean: the joined text is path
and query again, and scheme and authority are those of the cluster.

- `Uri.joinedPath`         : the path of the joined uri
- `Uri.parse_joinedText`   : the joined text is read as this path and the query that was asked for
- `Uri.join_absolute`      : the joined uri
- `Config.cluster_of_ofUrl`: the uri of a cluster is absolute and clean
-/

namespace ApiCatalog

/-! ## The joined text -/

namespace Uri

/-- The path of the request behind that of the base. -/
def joinedPath (base request : Uri) : String :=
  match request.target? with
  | some t => basePath base ++ t.rootedPath
  | none => if (basePath base).isEmpty then "/" else basePath base

variable {base request : Uri}

/-- The path that is asked for begins with the slash that the path of the base has lost. -/
theorem rootedPath_joinedPath {t : PathQuery} {rest : String} (rooted : t.rootedPath = "/" ++ rest)
    (base : Uri) (query : Option String) :
    PathQuery.rootedPath ⟨base.joinedPath (.origin t), query⟩ = base.basePath ++ "/" ++ rest := by
  have joined : base.joinedPath (.origin t) = base.basePath ++ "/" ++ rest := by
    rw [String.append_assoc, ← rooted]
    rfl
  simp [PathQuery.rootedPath, joined]

theorem isPathChar_of_mem_basePath (clean : base.Clean) :
    ∀ c ∈ base.basePath.toList, isPathChar c = true := by
  intro c mem
  have within : c ∈ base.path.toList := by
    rw [basePath, Text.toList_dropTrailing] at mem
    exact (List.rdropWhile_prefix _ _).subset mem
  unfold path at within
  split at within
  · next t there => exact PathQuery.isPathChar_of_mem_rootedPath (clean t there) c within
  · simp at within

theorem parse_joinedText (base_clean : base.Clean) (clean : request.Clean) :
    PathQuery.parse (joinedText base request) = .ok ⟨joinedPath base request, request.query⟩ := by
  have allowed := isPathChar_of_mem_basePath base_clean
  unfold joinedText joinedPath query
  cases there : request.target? with
  | some t => exact PathQuery.parse_append_render (clean t there) allowed
  | none =>
      -- the text of an absent target is a path alone
      have alone : ∀ p : String, (∀ c ∈ p.toList, isPathChar c = true) →
          PathQuery.parse p = .ok ⟨p, none⟩ := by
        intro p path
        have read : PathQuery.parseChars (p.toList ++ PathQuery.queryText none) =
            .ok ⟨.ofList p.toList, none⟩ := PathQuery.parseChars_append path (by simp)
        rwa [PathQuery.queryText, List.append_nil, String.ofList_toList] at read
      dsimp only
      split
      · exact alone "/" fun c mem => isPathChar_of_mem_slash mem
      · exact alone _ allowed

/-! ## The joined uri -/

theorem join_absolute {scheme authority : String} {target : PathQuery}
    (base_clean : target.Clean) (clean : request.Clean)
    (fits : (joinedText (.absolute scheme authority target) request).utf8ByteSize ≤ lengthLimit) :
    join (.absolute scheme authority target) request =
      .ok (.absolute scheme authority
        ⟨joinedPath (.absolute scheme authority target) request, request.query⟩) := by
  unfold join
  dsimp only
  rw [if_neg (Nat.not_lt.2 fits), parse_joinedText (clean_absolute _ _ base_clean) clean]
  rfl

end Uri

/-! ## Clusters -/

/-- Only an absolute uri is taken for that of a cluster. -/
theorem Config.cluster_of_ofUrl {url : String} {config : Config}
    (h : Config.ofUrl url = .ok config) :
    ∃ scheme authority target,
      config.cluster = .absolute scheme authority target ∧ target.Clean := by
  unfold Config.ofUrl at h
  split at h
  · cases h
  · next scheme authority target read =>
      cases h
      exact ⟨scheme, authority, target, rfl, Uri.clean_of_parse read target rfl⟩
  · cases h

end ApiCatalog
