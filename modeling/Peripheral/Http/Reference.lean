import Peripheral.Http.Url

/-
  Peripheral.Http.Reference — where a redirect leads: a URI reference resolved against the URL
  that sent it. A text that is no reference leads nowhere.
-/

namespace Peripheral.Http

/-- The parts of a reference. -/
structure Reference where
  scheme : Option (List Char)
  authority : Option (List Char)
  path : List Char
  query : Option (List Char)

namespace Reference

def isAlpha (c : Char) : Bool := ('a' ≤ c && c ≤ 'z') || ('A' ≤ c && c ≤ 'Z')

def isDigit (c : Char) : Bool := '0' ≤ c && c ≤ '9'

/-- A character that may stand in a path. -/
def isPathChar (c : Char) : Bool :=
  isAlpha c || isDigit c || "-._~!$&'()*+,;=:@/".toList.contains c

def isQueryChar (c : Char) : Bool := isPathChar c || c == '?'

def isAuthorityChar (c : Char) : Bool := isPathChar c && c != '/' || c == '[' || c == ']'

/-- Every character is allowed or begins a percent-encoded byte. -/
def allAllowed (allowed : Char → Bool) : List Char → Bool
  | [] => true
  | '%' :: a :: b :: s =>
    (Text.Numeral.digit? 16 a).isSome && (Text.Numeral.digit? 16 b).isSome && allAllowed allowed s
  | c :: s => allowed c && allAllowed allowed s

def isScheme : List Char → Bool
  | [] => false
  | c :: s => isAlpha c && s.all fun c => isAlpha c || isDigit c || c == '+' || c == '-' || c == '.'

/-- The scheme in front of the first colon, if no other part begins before it. -/
def cutScheme (s : List Char) : Option (List Char) × List Char :=
  match Url.cutAt ':' s with
  | (front, some rest) => if isScheme front then (some front, rest) else (none, s)
  | _ => (none, s)

def cutAuthority : List Char → Option (List Char) × List Char
  | '/' :: '/' :: s => (some (s.takeWhile (· != '/')), s.dropWhile (· != '/'))
  | s => (none, s)

def ofChars? (s : List Char) : Option Reference :=
  let (s, fragment) := Url.cutAt '#' s
  let (s, query) := Url.cutAt '?' s
  let (scheme, s) := cutScheme s
  let (authority, path) := cutAuthority s
  let firstSegment := path.takeWhile (· != '/')
  if allAllowed isPathChar path && (query.all (allAllowed isQueryChar ·)) &&
      fragment.all (allAllowed isQueryChar ·) && authority.all (allAllowed isAuthorityChar ·) &&
      (scheme.isSome || authority.isSome || !firstSegment.contains ':') then
    some ⟨scheme, authority, path, query⟩
  else none

/-- Resolves the dot segments of a path, given the segments before, the last one first. -/
def removeDots (before : List (List Char)) : List (List Char) → List (List Char)
  | [] => before.reverse
  | s :: rest =>
    let before :=
      if s == ['.', '.'] then (if rest.isEmpty then [] :: before.tail else before.tail)
      else if s == ['.'] then (if rest.isEmpty then [] :: before else before)
      else s :: before
    removeDots before rest

def absolutePath (path : List Char) : List Char :=
  match path with
  | '/' :: s => (removeDots [] (s.splitOn '/')).flatMap ('/' :: ·)
  | s => s

/-- A path relative to the directory of another. -/
def merge (base path : List Char) : List Char :=
  (base.reverse.dropWhile (· != '/')).reverse ++ path

/-- The URL that a reference from `base` leads to. -/
def resolve? (base : Url) (r : Reference) : Option Url :=
  match r.scheme, r.authority with
  | some scheme, some authority =>
    let scheme := String.ofList (scheme.map Char.toLower)
    (Url.readAuthority? scheme authority).map fun (host, address, port) =>
      { scheme, host, address, port, path := if r.path.isEmpty then ['/'] else absolutePath r.path,
        query := r.query }
  | some _, none => none
  | none, some authority =>
    (Url.readAuthority? base.scheme authority).map fun (host, address, port) =>
      { base with host, address, port,
                  path := if r.path.isEmpty then ['/'] else absolutePath r.path,
                  query := r.query, fragment := none }
  | none, none =>
    if r.path.isEmpty then
      some { base with query := if r.query.isSome then r.query else base.query, fragment := none }
    else if r.path.head? = some '/' then
      some { base with path := absolutePath r.path, query := r.query, fragment := none }
    else some { base with path := absolutePath (merge base.path r.path), query := r.query, fragment := none }

end Reference

/-- The URL named by a location that `base` has sent. -/
def Url.follow? (base : Url) (location : String) : Option Url :=
  (Reference.ofChars? location.toList).bind (Reference.resolve? base)

end Peripheral.Http
