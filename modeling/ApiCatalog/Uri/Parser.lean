import ApiCatalog.Uri.Basic

/-!
# Reading uris

- `Uri.parse`       : a uri from its text
- `PathQuery.parse` : path and query from their text; a fragment is dropped unread
- `Uri.scanAuthority` : the octets of an authority, up to a slash, a question mark or a hash
-/

namespace ApiCatalog

/-- Why a text is no uri. -/
inductive Uri.Fault
  | empty
  | tooLong
  | schemeTooLong
  | badCharacter
  | badAuthority
  | badFormat
  deriving DecidableEq, Repr

def Uri.Fault.message : Uri.Fault → String
  | .empty => "empty string"
  | .tooLong => "uri too long"
  | .schemeTooLong => "scheme too long"
  | .badCharacter => "invalid uri character"
  | .badAuthority => "invalid authority"
  | .badFormat => "invalid format"

/-! ## Characters -/

namespace Uri

def lengthLimit : Nat := 65534
def schemeLimit : Nat := 64

def isAlnum (c : Char) : Bool :=
  c.isAlpha || c.isDigit

def isSchemeChar (c : Char) : Bool :=
  isAlnum c || ['+', '-', '.', '~'].contains c

/-- A percent sign is allowed beside these, within limits that `scanAuthority` keeps. -/
def isAuthorityChar (c : Char) : Bool :=
  isAlnum c || "!$&'()*+,-.:;=@[]_~".toList.contains c

def endsAuthority (c : Char) : Bool :=
  c == '/' || c == '?' || c == '#'

/-- Whether the code point of `c` is in the range from `low` to `high`. -/
def between (low high : Char) (c : Char) : Bool :=
  low ≤ c && c ≤ high

/-- Of the characters that are not printed, those beyond U+007F are allowed; the delete character
itself is not. -/
def isPathChar (c : Char) : Bool :=
  c == '!' || c == '"' || between '$' ';' c || c == '=' || between '@' '_' c || between 'a' '~' c
    || 0x7F < c.toNat

def isQueryChar (c : Char) : Bool :=
  c == '!' || between '$' ';' c || c == '=' || between '?' '~' c || 0x7F < c.toNat

end Uri

/-! ## Path and query -/

namespace PathQuery

/-- Reads path and query: each runs to its end mark, and every character in it has to be allowed
there. -/
def parseChars (s : List Char) : Except Uri.Fault PathQuery :=
  let isEnd (c : Char) : Bool := c == '?' || c == '#'
  let path := s.takeWhile (!isEnd ·)
  if !path.all Uri.isPathChar then .error .badCharacter
  else
    match s.dropWhile (!isEnd ·) with
    | '?' :: rest =>
        let query := rest.takeWhile (· != '#')
        if !query.all Uri.isQueryChar then .error .badCharacter
        else .ok ⟨.ofList path, some (.ofList query)⟩
    | _ => .ok ⟨.ofList path, none⟩

def parse (s : String) : Except Uri.Fault PathQuery :=
  parseChars s.toList

end PathQuery

/-! ## Authority -/

namespace Uri

def colonLimit : Nat := 8

/-- What was seen of an authority: colons since the last `@` or `]`, brackets, a percent sign that
nothing after it has excused yet, and whether the last character is an `@`. -/
structure AuthorityScan where
  colons : Nat
  opened : Bool
  closed : Bool
  percent : Bool
  atEnd : Bool
  deriving DecidableEq, Repr

def AuthorityScan.start : AuthorityScan :=
  ⟨0, false, false, false, false⟩

/-- One character of an authority. A percent sign may occur before an `@`, in the name and secret
of a user, and within brackets. -/
def AuthorityScan.step (a : AuthorityScan) (c : Char) : Except Fault AuthorityScan :=
  if c == ':' then
    if colonLimit ≤ a.colons then .error .badAuthority
    else .ok { a with colons := a.colons + 1, atEnd := false }
  else if c == '[' then
    if a.percent || a.opened then .error .badAuthority
    else .ok { a with opened := true, atEnd := false }
  else if c == ']' then
    if !a.opened || a.closed then .error .badAuthority
    else .ok { a with closed := true, colons := 0, percent := false, atEnd := false }
  else if c == '@' then .ok { a with colons := 0, percent := false, atEnd := true }
  else if c == '%' then .ok { a with percent := true, atEnd := false }
  else if isAuthorityChar c then .ok { a with atEnd := false }
  else .error .badCharacter

def AuthorityScan.finish (a : AuthorityScan) : Except Fault Unit :=
  if a.opened != a.closed || 1 < a.colons || a.atEnd || a.percent then .error .badAuthority
  else .ok ()

/-- Splits off an authority. -/
def scanAuthority (s : List Char) : Except Fault (List Char × List Char) := do
  let authority := s.takeWhile (!endsAuthority ·)
  (← authority.foldlM AuthorityScan.step .start).finish
  return (authority, s.dropWhile (!endsAuthority ·))

/-! ## Scheme -/

/-- Cuts off a prefix, compared without regard to case. -/
def dropCaseless : List Char → List Char → Option (List Char)
  | [], s => some s
  | _ :: _, [] => none
  | c :: cs, d :: s => if c == d.toLower then dropCaseless cs s else none

/-- Splits off a scheme with its `://`. The two common schemes are taken in any case and turned to
lower case, others are kept as they are. -/
def scanScheme (s : List Char) : Except Fault (Option String × List Char) :=
  match dropCaseless "http://".toList s, dropCaseless "https://".toList s with
  | some rest, _ => .ok (some "http", rest)
  | _, some rest => .ok (some "https", rest)
  | none, none =>
      match s.dropWhile isSchemeChar with
      | ':' :: '/' :: '/' :: rest =>
          let scheme := s.takeWhile isSchemeChar
          if s.length ≤ 3 then .ok (none, s)
          else if schemeLimit < scheme.length then .error .schemeTooLong
          else .ok (some (.ofList scheme), rest)
      | _ => .ok (none, s)

/-! ## Whole uris -/

/-- An authority alone, which has to be all there is. -/
def parseAuthority (s : List Char) : Except Fault Uri := do
  let (authority, rest) ← scanAuthority s
  if !rest.isEmpty then .error .badFormat
  else return .authorityOnly (.ofList authority)

/-- What follows a scheme. -/
def parseAbsolute (scheme : String) (s : List Char) : Except Fault Uri := do
  if s.isEmpty then .error .empty
  else
    let (authority, rest) ← scanAuthority s
    if authority.isEmpty then .error .badFormat
    else return .absolute scheme (.ofList authority) (← PathQuery.parseChars rest)

/-- A single character is a path if it is a slash or a star, and an authority otherwise. -/
def parseSingle (c : Char) : Except Fault Uri :=
  if c == '/' || c == '*' then .ok (.origin ⟨.ofList [c], none⟩)
  else if endsAuthority c then .error .badCharacter
  else parseAuthority [c]

def parse (text : String) : Except Fault Uri :=
  if lengthLimit < text.utf8ByteSize then .error .tooLong
  else
    match text.toList with
    | [] => .error .empty
    | [c] => parseSingle c
    | '/' :: rest => do return .origin (← PathQuery.parseChars ('/' :: rest))
    | s => do
        match ← scanScheme s with
        | (some scheme, rest) => parseAbsolute scheme rest
        | (none, rest) => parseAuthority rest

end Uri
end ApiCatalog
