import ApiCatalog.Uri.Parser

/-!
# Joining uris

Placing a request below the uri of a cluster: scheme and authority come from the base, the path of
the request is put after that of the base, and the query is the request's own.
-/

namespace ApiCatalog

/-- Why two uris do not join: the joined path is none, or the base has no place for one. -/
inductive Uri.JoinFault
  | badTarget
  | noPlace
  deriving DecidableEq, Repr

namespace Uri

/-- The path of a base without slashes at its end. -/
def basePath (base : Uri) : String :=
  Text.dropTrailing '/' base.path

/-- The text of the joined path and query. A request that is an authority alone asks for the base
itself. -/
def joinedText (base : Uri) (request : Uri) : String :=
  match request.target? with
  | some t => basePath base ++ t.render
  | none => if (basePath base).isEmpty then "/" else basePath base

/-- Puts a path and query in the place of the present one; an authority alone has no such place. -/
def replaceTarget? (target : PathQuery) : Uri → Option Uri
  | .origin _ => some (.origin target)
  | .authorityOnly _ => none
  | .absolute scheme authority _ => some (.absolute scheme authority target)

def join (base request : Uri) : Except JoinFault Uri :=
  let text := joinedText base request
  if lengthLimit < text.utf8ByteSize then .error .badTarget
  else
    match PathQuery.parse text with
    | .error _ => .error .badTarget
    | .ok target =>
        match base.replaceTarget? target with
        | some u => .ok u
        | none => .error .noPlace

end Uri
end ApiCatalog
