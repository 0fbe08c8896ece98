import CodeAtlas.Address.Host
import CodeAtlas.Number.Reading
import CodeAtlas.Text.Base64
import CodeAtlas.Text.Digits
import CodeAtlas.Text.Quoted
import CodeAtlas.Text.Utf8

/-!
Addresses of resources on the web: scheme, user, host, port, path, query and fragment, each in its
normal form. Scheme and host are in lower case, the usual port of a scheme is left out, the path has
no dot segments where it stands under a scheme or a host, and what may not stand in a part is
percent-encoded.
-/

namespace CodeAtlas

/-- An address in normal form. -/
structure Address where
  scheme : List Char
  user : List Char
  host : List Char
  port : Option Int
  path : List Char
  query : Option (List Char)
  fragment : Option (List Char)

namespace Address

open Text

/-- Why a text is no address. -/
inductive Fault where
  | tooLong
  | control (c : Char) (place : Nat)
  | numericHost (version : String) (given : List Char)
  | hostName (given : List Char)
  | portNumber (given : List Char)
  | pathAfterHost
  | twoSlashes
  | colon

/-- The fault in words. -/
def Fault.message : Fault → String
  | tooLong => "URL too long"
  | control c place =>
    s!"Invalid non-printable ASCII character in URL, {quoted c.toString} at position {place}."
  | numericHost version host => s!"Invalid IPv{version} address: {quoted (String.ofList host)}"
  | hostName host => s!"Invalid IDNA hostname: {quoted (String.ofList host)}"
  | portNumber port => s!"Invalid port: {quoted (String.ofList port)}"
  | pathAfterHost => "For absolute URLs, path must be empty or begin with '/'"
  | twoSlashes => "Relative URLs cannot have a path starting with '//'"
  | colon => "Relative URLs cannot have a path starting with ':'"

/-- Letters, digits and the marks that never need an encoding. -/
def isUnreserved (c : Char) : Bool :=
  c.isAlphanum || c == '-' || c == '.' || c == '_' || c == '~'

/-- Printable ASCII but for some characters. -/
def isPlainBut (others : String) (c : Char) : Bool :=
  0x20 ≤ c.val && c.val < 0x7f && !others.toList.contains c

/-- Characters of a fragment. -/
def inFragment : Char → Bool :=
  isPlainBut " \x22<>\x60"

/-- Characters of a query. -/
def inQuery : Char → Bool :=
  isPlainBut " \x22#<>"

/-- Characters of a path. -/
def inPath : Char → Bool :=
  isPlainBut " \x22#<>?\x60\x7b\x7d"

/-- Characters of a user and a password. -/
def inUser : Char → Bool :=
  isPlainBut " \x22#<>?\x60\x7b\x7d/;=@[\\]^|"

/-- Characters of a host name. -/
def inHost (c : Char) : Bool :=
  isUnreserved c || "!$&'()*+,;=\x22\x60\x7b\x7d%|\\".toList.contains c

/-- A byte with a percent sign. -/
def percentByte (b : UInt8) : List Char :=
  '%' :: (hexDigits 2 b.toNat).map Char.toUpper

/-- A text with the characters that `accepts` does not hold encoded; what is encoded already stays.
-/
def encoded (accepts : Char → Bool) (s : List Char) : List Char :=
  match s with
  | [] => []
  | c :: rest =>
    let kept := accepts c || (c == '%' && 2 ≤ rest.length && (rest.take 2).all isHexDigit)
    (if kept then [c] else (utf8 [c]).flatMap percentByte) ++ encoded accepts rest

/-- Without dot segments; two dots take the segment before them along. -/
def withoutDots (path : List Char) : List Char :=
  let step (out : List (List Char)) (segment : List Char) : List (List Char) :=
    if segment == ['.'] then out
    else if segment == ['.', '.'] then if out == [[]] then out else out.drop 1
    else segment :: out
  joinWith ['/'] ((splitOn '/' path).foldl step []).reverse

/-- A scheme before a colon, possibly an empty one. -/
def schemeOf (s : List Char) : List Char × List Char :=
  let isPart (c : Char) : Bool := c.isAlphanum || c == '+' || c == '.' || c == '-'
  let scheme := s.takeWhile isPart
  match s.drop scheme.length with
  | ':' :: rest =>
    if scheme.isEmpty || scheme.head?.any Char.isAlpha then (scheme, rest) else ([], s)
  | _ => ([], s)

/-- What stands between two slashes and the path, and the rest. -/
def authorityOf : List Char → List Char × List Char
  | '/' :: '/' :: rest =>
    let isPart (c : Char) : Bool := c != '/' && c != '?' && c != '#'
    (rest.takeWhile isPart, rest.dropWhile isPart)
  | s => ([], s)

/-- What precedes and what follows the last `sep`. -/
def splitLast? (sep : Char) (s : List Char) : Option (List Char × List Char) :=
  if s.contains sep then
    let after := afterLast sep s
    some (s.take (s.length - after.length - 1), after)
  else none

/-- The host and the text of the port. -/
def hostAndPort (s : List Char) : List Char × List Char :=
  let (host, rest) := match s, splitLast? ']' s with
    | '[' :: _, some (inner, after) => (inner ++ [']'], after)
    | _, _ => (s.takeWhile (· != ':'), s.dropWhile (· != ':'))
  match rest with
  | ':' :: port => (host, port)
  | _ => (host, rest)

/-- A host in normal form, without the brackets of one of the sixth version. -/
def normalHost (host : List Char) : Except Fault (List Char) :=
  if host.isEmpty then .ok []
  else if resemblesV4 host then if isV4 host then .ok host else .error (.numericHost "4" host)
  else if host.head? == some '[' && host.getLast? == some ']' then
    let inner := (host.drop 1).dropLast
    if isV6 inner then .ok inner else .error (.numericHost "6" host)
  else
    let low := (lower (String.ofList host)).toList
    if host.all (·.val < 0x80) then .ok (encoded inHost low)
    else match asciiName? low with
      | some name => .ok name
      | none => .error (.hostName host)

/-- The port that a scheme uses when none is given. -/
def usualPort? (scheme : List Char) : Option Int :=
  [("ftp", 21), ("http", 80), ("https", 443), ("ws", 80), ("wss", 443)].lookup
    (String.ofList scheme)

/-- A port in normal form. -/
def normalPort (scheme port : List Char) : Except Fault (Option Int) :=
  if port.isEmpty then .ok none
  else match Number.whole? (inAsciiDigits port) with
    | none => .error (.portNumber port)
    | some n => .ok (if usualPort? scheme == some n then none else some n)

/-- Why a path cannot stand where it stands, if so. -/
def pathFault? (underScheme underHost : Bool) (path : List Char) : Option Fault :=
  if underHost && !path.isEmpty && path.head? != some '/' then some .pathAfterHost
  else if underScheme || underHost then none
  else if ['/', '/'].isPrefixOf path then some .twoSlashes
  else if path.head? == some ':' then some .colon
  else none

/-- No longer text is an address. -/
def maxLength : Nat := 65536

/-- The parts of a text without control characters. -/
def ofChars (s : List Char) : Except Fault Address := do
  let (scheme, s) := schemeOf s
  let (authority, s) := authorityOf s
  let path := s.takeWhile fun c => c != '?' && c != '#'
  let s := s.drop path.length
  let query := if s.head? == some '?' then some ((s.drop 1).takeWhile (· != '#')) else none
  let s := s.dropWhile (· != '#')
  let fragment := if s.isEmpty then none else some (s.drop 1)
  let (user, hostPort) := (splitLast? '@' authority).getD ([], authority)
  let (host, port) := hostAndPort hostPort
  let host ← normalHost host
  let port ← normalPort scheme port
  let underScheme := !scheme.isEmpty
  let underHost := !user.isEmpty || !host.isEmpty || port.isSome
  match pathFault? underScheme underHost path with
  | some fault => .error fault
  | none =>
    let path := if underScheme || underHost then withoutDots path else path
    return {
      scheme := scheme.map Char.toLower
      user := encoded inUser user
      host
      port
      path := encoded inPath path
      query := query.map (encoded inQuery)
      fragment := fragment.map (encoded inFragment) }

/-- The address that a text writes. -/
def parse (text : String) : Except Fault Address :=
  let s := text.toList
  if maxLength < s.length then .error .tooLong
  else match s.findIdx? fun c => c.val < 0x20 || c.val == 0x7f with
    | some place => .error (.control (s[place]?.getD ' ') place)
    | none => ofChars s

/-- The text of an address. -/
def text (a : Address) : String :=
  let host := if a.host.contains ':' then "[" ++ String.ofList a.host ++ "]"
    else String.ofList a.host
  let authority := (if a.user.isEmpty then "" else String.ofList a.user ++ "@") ++ host ++
    (match a.port with | some n => s!":{n}" | none => "")
  (if a.scheme.isEmpty then "" else String.ofList a.scheme ++ ":") ++
    (if authority.isEmpty then "" else "//" ++ authority) ++ String.ofList a.path ++
    (match a.query with | some q => "?" ++ String.ofList q | none => "") ++
    (match a.fragment with | some f => "#" ++ String.ofList f | none => "")

/-- The address says where to go by itself. -/
def isAbsolute (a : Address) : Bool :=
  !a.scheme.isEmpty && !a.host.isEmpty

/-- The path and query of an address that names no place, under the root. -/
def underRoot (a : Address) : Address :=
  let path := if a.path.isEmpty then ['/'] else a.path
  { scheme := [], user := [], host := [], port := none, fragment := none, query := a.query
    path := '/' :: path.dropWhile (· == '/') }

/-- Percent-encoded characters as they were. -/
def decoded (s : List Char) : List Char :=
  ofUtf8Repairing (bytes s)
where
  /-- The bytes of a text with its encoded ones. -/
  bytes : List Char → List UInt8
    | [] => []
    | '%' :: high :: low :: rest =>
      if isHexDigit high && isHexDigit low then
        UInt8.ofNat (digit high * 16 + digit low) :: bytes rest
      else utf8 ['%'] ++ bytes (high :: low :: rest)
    | c :: rest => utf8 [c] ++ bytes rest
  /-- The value of a hexadecimal digit. -/
  digit (c : Char) : Nat :=
    if c.isDigit then c.toNat - '0'.toNat else c.toLower.toNat - 'a'.toNat + 10

/-- The credentials that an address carries, as a header states them. -/
def credentials? (a : Address) : Option String :=
  let name := decoded (a.user.takeWhile (· != ':'))
  let word := decoded ((a.user.dropWhile (· != ':')).drop 1)
  if name.isEmpty && word.isEmpty then none
  else some ("Basic " ++ String.ofList (Base64.encode (utf8 name ++ [0x3a] ++ utf8 word)))

end Address

end CodeAtlas
