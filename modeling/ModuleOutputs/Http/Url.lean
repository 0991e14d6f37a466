import ModuleOutputs.Text.Blank
import ModuleOutputs.Text.Utf8

/-!
Addresses of HTTP requests. An address is split into its scheme, its authority
and what is asked of the server; the latter is normalized: dot segments are
resolved, and characters that may not stand in a request are percent-encoded.
-/

namespace ModuleOutputs.Http

/-- Why a text is no address of a request. -/
inductive UrlFault where
  /-- There is no scheme. -/
  | relative
  | emptyHost
  | invalidPort
  /-- The scheme is not one of the web, or there is no host. The address is given
  as it was understood. -/
  | scheme (address : String)
deriving Repr, DecidableEq

namespace UrlFault

/-- The message for a text that is no address of a request. -/
def message : UrlFault → String
  | .relative => "builder error: relative URL without a base"
  | .emptyHost => "builder error: empty host"
  | .invalidPort => "builder error: invalid port number"
  | .scheme address => "builder error for url (" ++ address ++ "): URL scheme is not allowed"

end UrlFault

/-- An address that was understood. -/
structure Url where
  scheme : List Char
  /-- What stands between the two slashes and the path, if the slashes are there. -/
  authority : Option (List Char)
  /-- The path, normalized and encoded. -/
  path : List Char
  /-- The question mark and what follows it, encoded. -/
  query : List Char
  /-- The number sign and what follows it, encoded. -/
  fragment : List Char
deriving Repr, DecidableEq

namespace Url

/-- The upper-case hexadecimal digit of a number below sixteen. -/
def upperHex (n : Nat) : Char :=
  if n < 10 then Char.ofNat (48 + n) else Char.ofNat (55 + n)

/-- The percent-encoding of a character's bytes. -/
def percent (c : Char) : List Char :=
  (String.utf8EncodeChar c).flatMap fun b => ['%', upperHex (b.toNat / 16), upperHex (b.toNat % 16)]

/-- Encodes a character if it is in a set; characters beyond printable ASCII
always are. -/
def encodeIn (reserved : List Char) (c : Char) : List Char :=
  if c.toNat < 0x20 || 0x7E < c.toNat || reserved.contains c then percent c else [c]

/-- The characters encoded in a fragment. -/
def inFragment : List Char := [' ', '"', '<', '>', '`']

/-- The characters encoded in a query. -/
def inQuery : List Char := [' ', '"', '#', '<', '>', '\'']

/-- The characters encoded in a query of a scheme that is not of the web. -/
def inOtherQuery : List Char := [' ', '"', '#', '<', '>']

/-- The characters encoded in a path. -/
def inPath : List Char := [' ', '"', '#', '<', '>', '?', '`', '\x7b', '\x7d']

/-- Schemes in which a backslash is a slash and a host must be given. -/
def webSchemes : List (List Char × Option (List Char)) :=
  [("http".toList, some "80".toList), ("https".toList, some "443".toList),
    ("ws".toList, some "80".toList), ("wss".toList, some "443".toList),
    ("ftp".toList, some "21".toList)]

/-- Whether a character stays in an address: tabs and line breaks do not. -/
def stays (c : Char) : Bool :=
  !(c == '\t' || c == '\n' || c == '\r')

/-- The address without control characters and spaces at its ends, and without
tabs and line breaks anywhere. -/
def clean (cs : List Char) : List Char :=
  (Text.stripWhile (fun c => c.toNat ≤ 0x20) cs).filter stays

/-- The scheme of an address in lower case, and what follows the colon. -/
def splitScheme (cs : List Char) : Option (List Char × List Char) :=
  let scheme := cs.takeWhile fun c => c.isAlphanum || c == '+' || c == '-' || c == '.'
  match scheme, cs.drop scheme.length with
  | c :: _, ':' :: rest => if c.isAlpha then some (scheme.map Char.toLower, rest) else none
  | _, _ => none

/-- Whether a segment stands for the directory it is in. -/
def isHere (segment : List Char) : Bool :=
  [".".toList, "%2e".toList].contains (segment.map Char.toLower)

/-- Whether a segment stands for the directory above. -/
def isAbove (segment : List Char) : Bool :=
  ["..".toList, ".%2e".toList, "%2e.".toList, "%2e%2e".toList].contains (segment.map Char.toLower)

def segments (isSlash : Char → Bool) : List Char → List (List Char)
  | [] => [[]]
  | c :: rest =>
    if isSlash c then [] :: segments isSlash rest
    else
      match segments isSlash rest with
      | [] => [[c]]
      | s :: ss => (c :: s) :: ss

/-- Resolves dot segments, the segments seen so far being in reverse. A dot
segment at the end leaves an empty one. -/
def resolveDots : (seen : List (List Char)) → List (List Char) → List (List Char)
  | seen, [] => seen.reverse
  | seen, s :: rest =>
    let last := rest.isEmpty
    if isAbove s then resolveDots (if last then [] :: seen.drop 1 else seen.drop 1) rest
    else if isHere s then resolveDots (if last then [] :: seen else seen) rest
    else resolveDots (s :: seen) rest

/-- A path normalized: dot segments resolved, characters encoded. It begins with a
slash. -/
def normalPath (isSlash : Char → Bool) (cs : List Char) : List Char :=
  let inner :=
    match cs with
    | [] => []
    | c :: rest => if isSlash c then rest else c :: rest
  (resolveDots [] (segments isSlash inner)).flatMap fun s => '/' :: s.flatMap (encodeIn inPath)

def splitFragment (cs : List Char) : List Char × List Char :=
  (cs.takeWhile (· ≠ '#'),
    match cs.dropWhile (· ≠ '#') with
    | [] => []
    | c :: rest => c :: rest.flatMap (encodeIn inFragment))

def splitQuery (reserved : List Char) (cs : List Char) : List Char × List Char :=
  (cs.takeWhile (· ≠ '?'),
    match cs.dropWhile (· ≠ '?') with
    | [] => []
    | c :: rest => c :: rest.flatMap (encodeIn reserved))

/-- The host and the port of an authority of the web, in lower case and without
the port that is the scheme's own. -/
def webAuthority (ownPort : Option (List Char)) (cs : List Char) :
    Except UrlFault (List Char) :=
  let user := if cs.contains '@' then (cs.reverse.dropWhile (· ≠ '@')).reverse else []
  let address := cs.drop user.length
  let host :=
    match address with
    | '[' :: _ => address.takeWhile (· ≠ ']') ++ (address.dropWhile (· ≠ ']')).take 1
    | _ => address.takeWhile (· ≠ ':')
  let port := address.drop (host.length + 1)
  if host.isEmpty then .error .emptyHost
  else if !port.all Char.isDigit then .error .invalidPort
  else
    let number := port.dropWhile (· == '0')
    let shown := if number.isEmpty && !port.isEmpty then ['0'] else number
    if 5 < shown.length || 65535 < shown.foldl (fun n c => 10 * n + (c.toNat - 48)) 0 then
      .error .invalidPort
    else
      .ok (user ++ host.map Char.toLower ++
        if shown.isEmpty || some shown = ownPort then [] else ':' :: shown)

/-- Understands the text of an address. -/
def parse (text : String) : Except UrlFault Url :=
  match splitScheme (clean text.toList) with
  | none => .error .relative
  | some (scheme, rest) =>
    let (rest, fragment) := splitFragment rest
    match webSchemes.find? fun (s, _) => s = scheme with
    | some (_, ownPort) =>
      let isSlash (c : Char) := c == '/' || c == '\\'
      let (rest, query) := splitQuery inQuery rest
      let rest := rest.dropWhile isSlash
      let authority := rest.takeWhile fun c => !isSlash c
      match webAuthority ownPort authority with
      | .error f => .error f
      | .ok host =>
        .ok ⟨scheme, some host, normalPath isSlash (rest.drop authority.length), query, fragment⟩
    | none =>
      let (rest, query) := splitQuery inOtherQuery rest
      match rest with
      | '/' :: '/' :: rest =>
        let authority := rest.takeWhile (· ≠ '/')
        let path := rest.drop authority.length
        .ok ⟨scheme, some authority,
          if path.isEmpty then [] else normalPath (· == '/') path, query, fragment⟩
      | '/' :: _ => .ok ⟨scheme, none, normalPath (· == '/') rest, query, fragment⟩
      | _ => .ok ⟨scheme, none, rest.flatMap (encodeIn []), query, fragment⟩

/-- The text of an address. -/
def text (u : Url) : String :=
  String.ofList (u.scheme ++ [':'] ++
    (match u.authority with
      | some a => '/' :: '/' :: a
      | none => []) ++
    u.path ++ u.query ++ u.fragment)

/-- What is asked of the server: the path and the query. -/
def target (u : Url) : String :=
  String.ofList (u.path ++ u.query)

/-- Whether a request can be sent to the address. -/
def isRequestable (u : Url) : Bool :=
  (u.scheme == "http".toList || u.scheme == "https".toList) &&
    match u.authority with
    | some a => !a.isEmpty
    | none => false

/-- The address of a request that a text spells. -/
def ofText (text : String) : Except UrlFault Url :=
  match parse text with
  | .error f => .error f
  | .ok u => if u.isRequestable then .ok u else .error (.scheme u.text)

end Url

end ModuleOutputs.Http
