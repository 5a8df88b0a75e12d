import ApiCatalog.Text.Blank

/-!
# Uris

A uri has one of three forms: a path with a query, an authority alone, or the absolute form with a
scheme, an authority and a path with a query.

- `Uri.render` : the text of a uri
- `Uri.host`, `Uri.port` : the parts of its authority
-/

namespace ApiCatalog

/-- A path with a query. The path is empty where nothing was written. -/
structure PathQuery where
  path : String
  query : Option String
  deriving DecidableEq, Repr

inductive Uri
  | origin (target : PathQuery)
  | authorityOnly (authority : String)
  | absolute (scheme authority : String) (target : PathQuery)
  deriving DecidableEq, Repr

namespace PathQuery

/-- The path, with the root for an empty one. -/
def rootedPath (t : PathQuery) : String :=
  if t.path.isEmpty then "/" else t.path

/-- The text of a path and query. -/
def render (t : PathQuery) : String :=
  match t.query with
  | some q => t.rootedPath ++ "?" ++ q
  | none => t.rootedPath

end PathQuery

namespace Uri

/-! ## Parts -/

def scheme? : Uri → Option String
  | .absolute scheme _ _ => some scheme
  | _ => none

def authority? : Uri → Option String
  | .origin _ => none
  | .authorityOnly authority => some authority
  | .absolute _ authority _ => some authority

def target? : Uri → Option PathQuery
  | .origin target => some target
  | .authorityOnly _ => none
  | .absolute _ _ target => some target

def path (u : Uri) : String :=
  match u.target? with
  | some t => t.rootedPath
  | none => ""

def query (u : Uri) : Option String :=
  u.target?.bind (·.query)

/-- The authority after its last `@`. -/
def hostPart (authority : String) : List Char :=
  (authority.toList.reverse.takeWhile (· != '@')).reverse

/-- The host of an authority: a bracketed address with its brackets, or the text before the
port. -/
def hostOf (authority : String) : String :=
  match hostPart authority with
  | '[' :: rest => .ofList ('[' :: rest.takeWhile (· != ']') ++ [']'])
  | s => .ofList (s.takeWhile (· != ':'))

def greatestPort : Nat := 65535

/-- A port number, possibly with a plus sign and leading zeros. -/
def portNumber? (s : List Char) : Option Nat :=
  let digits := match s with
    | '+' :: rest => rest
    | _ => s
  if digits.isEmpty || !digits.all Char.isDigit then none
  else
    let n := digits.foldl (fun acc c => acc * 10 + (c.toNat - '0'.toNat)) 0
    if n ≤ greatestPort then some n else none

/-- The number after the last colon of an authority. -/
def portOf (authority : String) : Option Nat :=
  if authority.toList.contains ':' then
    portNumber? (authority.toList.reverse.takeWhile (· != ':')).reverse
  else none

def host (u : Uri) : Option String :=
  u.authority?.map hostOf

def port (u : Uri) : Option Nat :=
  u.authority?.bind portOf

/-! ## Text -/

def render : Uri → String
  | .origin target => target.render
  | .authorityOnly authority => authority
  | .absolute scheme authority target => scheme ++ "://" ++ authority ++ target.render

end Uri
end ApiCatalog
