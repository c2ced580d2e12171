import Peripheral.Identity.Basic
import Peripheral.Text.Utf8

/-
  Peripheral.Http.Url — the address of a resource.

  `resourceText` is the text of a request: scheme, authority and the path as given, with a
  slash in front if it has none. `Url.ofText?` reads such a text as browsers read a URL: blanks
  and controls at the ends, tabs and line ends anywhere are dropped; a backslash is a slash; the
  authority ends at the first slash, `?` or `#`, and what stands in front of an `@` in it does
  not count; a dot segment, also in percent-encoding, is resolved; what may not stand in a URL is
  percent-encoded; the default port is not shown. `Url.ofPath` is the URL of a path on a host.
-/

namespace Peripheral.Http

def defaultPort : UInt16 := 80

/-- The text that a request is made for. -/
def resourceText (h : HostIdentity) (path : String) : String :=
  let authority := h.ip.withPort h.port.toNat
  if path.toList.head? = some '/' then s!"http://{authority}{path}" else s!"http://{authority}/{path}"

structure Url where
  scheme : String := "http"
  /-- The host as it is shown, an address with colons in brackets. -/
  host : String
  /-- The host as an address, if it is one. -/
  address : Option Address
  port : UInt16
  /-- Begins with a slash. -/
  path : List Char
  query : Option (List Char) := none
  fragment : Option (List Char) := none

namespace Url

/-- The host of an address. Colon forms are never written with dots here. -/
def hostOf : Address → String
  | .v4 octets => (Address.v4 octets).text
  | .v6 groups => "[" ++ String.ofList (Address.compressed (Address.v6 groups).segments) ++ "]"

/-- The host with the port, unless it is the default one. -/
def authority (u : Url) : String := if u.port = defaultPort then u.host else s!"{u.host}:{u.port}"

/-- What is asked of the host: the path and the query. -/
def target (u : Url) : String :=
  String.ofList (u.path ++ u.query.elim [] ('?' :: ·))

def text (u : Url) : String :=
  u.scheme ++ "://" ++ u.authority ++ u.target ++ String.ofList (u.fragment.elim [] ('#' :: ·))

/-! ## Percent-encoding -/

def upperHex (n : Nat) : List Char := (Text.Numeral.padded 16 2 n).map Char.toUpper

/-- A character as itself, or its bytes in percent-encoding if it is in the set. -/
def encodeChar (inSet : Char → Bool) (c : Char) : List Char :=
  if 0x7E < c.toNat || c.toNat < 0x20 || inSet c then
    (Text.Utf8.encode (String.singleton c)).flatMap fun b => '%' :: upperHex b.toNat
  else [c]

def encode (inSet : Char → Bool) (s : List Char) : List Char := s.flatMap (encodeChar inSet)

def inFragmentSet (c : Char) : Bool := c == ' ' || c == '"' || c == '<' || c == '>' || c == '\x60'

def inPathSet (c : Char) : Bool := inFragmentSet c || c == '#' || c == '?' || c == '\x7b' || c == '\x7d'

def inQuerySet (c : Char) : Bool :=
  c == ' ' || c == '"' || c == '#' || c == '<' || c == '>' || c == '\''

/-! ## Paths -/

/-- A segment with its encoded dots written as dots. -/
def plainDots : List Char → List Char
  | '%' :: '2' :: 'e' :: s => '.' :: plainDots s
  | '%' :: '2' :: 'E' :: s => '.' :: plainDots s
  | c :: s => c :: plainDots s
  | [] => []

def isSingleDot (s : List Char) : Bool := plainDots s == ['.']

def isDoubleDot (s : List Char) : Bool := plainDots s == ['.', '.']

/-- Resolves dot segments, given the segments before, the last one first. A dot segment at
    the end leaves an empty segment. -/
def resolveDots (before : List (List Char)) : List (List Char) → List (List Char)
  | [] => before.reverse
  | s :: rest =>
    let before :=
      if isDoubleDot s then (if rest.isEmpty then [] :: before.tail else before.tail)
      else if isSingleDot s then (if rest.isEmpty then [] :: before else before)
      else encode inPathSet s :: before
    resolveDots before rest

def isPathSeparator (c : Char) : Bool := c == '/' || c == '\\'

/-- The path of a text that begins with a separator. -/
def pathOf (s : List Char) : List Char :=
  (resolveDots [] (s.tail.splitOnP isPathSeparator)).flatMap ('/' :: ·)

/-! ## Reading -/

/-- Drops blanks and controls at the end, and tabs and line ends anywhere. -/
def cleaned (s : List Char) : List Char :=
  ((s.reverse.dropWhile fun c => c.toNat ≤ 0x20).reverse).filter
    fun c => c != '\t' && c != '\n' && c != '\r'

/-- Cuts at the first `c`; the part after it is none without one. -/
def cutAt (c : Char) (s : List Char) : List Char × Option (List Char) :=
  match s.dropWhile (· != c) with
  | [] => (s, none)
  | _ :: rest => (s.takeWhile (· != c), some rest)

/-- A host and a port, the default one if it is missing. -/
def readAuthority? (scheme : String) (s : List Char) : Option (String × Option Address × UInt16) :=
  let (user, host) := cutAt '@' s
  let s := host.getD user
  let fallback : UInt16 := if scheme == "https" then 443 else defaultPort
  let (host, port) := match s with
    | '[' :: r => (s.take ((r.takeWhile (· != ']')).length + 2), r.dropWhile (· != ']') |>.tail)
    | s => (s.takeWhile (· != ':'), s.dropWhile (· != ':'))
  let bare := host.filter fun c => c != '[' && c != ']'
  if host.isEmpty then none
  else match port with
    | [] | [':'] => some (String.ofList host, Address.ofChars? bare, fallback)
    | ':' :: ds =>
      (Text.Numeral.read? 10 65536 ds).map fun n =>
        (String.ofList host, Address.ofChars? bare, UInt16.ofNat n)
    | _ => none

/-- The URL of an authority and the text behind it. -/
def ofParts (scheme host : String) (address : Option Address) (port : UInt16) (s : List Char) : Url :=
  let (s, fragment) := cutAt '#' s
  let (s, query) := cutAt '?' s
  { scheme, host, address, port, path := pathOf s,
    query := query.map (encode inQuerySet), fragment := fragment.map (encode inFragmentSet) }

/-- A path with a slash in front. -/
def absolute (path : List Char) : List Char := if path.head? = some '/' then path else '/' :: path

/-- The URL of a path on a host. -/
def ofPath (ip : Address) (port : UInt16) (path : String) : Url :=
  ofParts "http" (hostOf ip) (some ip) port (cleaned (absolute path.toList))

/-- Not the first character behind an authority. -/
def staysInAuthority (c : Char) : Bool := !isPathSeparator c && c != '?' && c != '#'

/-- An authority without the name of a user. -/
def withoutUser (s : List Char) : List Char := (s.reverse.takeWhile (· != '@')).reverse

/-- The URL that a text names. Any number of slashes stand behind the scheme. -/
def ofText? (text : String) : Option Url :=
  match cutAt ':' (cleaned (text.toList.dropWhile fun c => c.toNat ≤ 0x20)) with
  | (front, some s) =>
    let scheme := String.ofList (front.map Char.toLower)
    let s := s.dropWhile isPathSeparator
    if scheme = "http" ∨ scheme = "https" then
      (readAuthority? scheme (withoutUser (s.takeWhile staysInAuthority))).map fun (host, address, port) =>
        ofParts scheme (address.elim host hostOf) address port (s.dropWhile staysInAuthority)
    else none
  | (_, none) => none

end Url

end Peripheral.Http
