import ApiScript.Text.Encoding
import ApiScript.Url.Host

/-! # URLs of the web and of files

A URL is read in a lenient way and written in its normal form: scheme and host in small letters, no
port that goes without saying, no dot segments, and percent signs for what may not stand there.
-/

namespace ApiScript

structure WebUrl where
  scheme : List Char
  userinfo : List Char
  host : List Char
  port : Option Nat
  path : List (List Char)
  query : Option (List Char)
  fragment : Option (List Char)

inductive Url where
  | web (u : WebUrl)
  | file (host : List Char) (path : List (List Char))

namespace Url

/-- Which characters of ASCII are written with percent signs in the parts of a URL. -/
def inFragment (c : Char) : Bool := c.toNat < 32 || c.toNat == 127 || " \"<>\x60".toList.contains c

def inPath (c : Char) : Bool := inFragment c || "#?\x7b\x7d".toList.contains c

def inUserinfo (c : Char) : Bool := inPath c || "/:;=@[\\]^|".toList.contains c

def inQuery (c : Char) : Bool := c.toNat < 32 || c.toNat == 127 || " \"#<>'".toList.contains c

def encode (isEncoded : Char → Bool) (cs : List Char) : List Char :=
  cs.flatMap fun c =>
    if c.toNat < 128 && !isEncoded c then [c]
    else (String.ofList [c]).toUTF8.toList.flatMap Percent.byte

/-- The text without blanks and control characters at its ends, tabs and ends of lines. -/
def cleaned (cs : List Char) : List Char :=
  let trimmed := ((cs.dropWhile (·.toNat ≤ 32)).reverse.dropWhile (·.toNat ≤ 32)).reverse
  trimmed.filter fun c => c ≠ '\t' ∧ c ≠ '\n' ∧ c ≠ '\r'

def scheme? (cs : List Char) : Option (List Char × List Char) :=
  let isPart (c : Char) := c.isAlphanum || c == '+' || c == '-' || c == '.'
  match cs.takeWhile isPart, cs.dropWhile isPart with
  | c :: name, ':' :: rest => if c.isAlpha then some ((c :: name).map Char.toLower, rest) else none
  | _, _ => none

def isSlash (c : Char) : Bool := c == '/' || c == '\\'

def endsAuthority (c : Char) : Bool := isSlash c || c == '?' || c == '#'

/-- Whether a segment of a path is a dot, however it is written. -/
def isDot (segment : List Char) : Bool :=
  let s := segment.map Char.toLower
  s == ['.'] || s == "%2e".toList

def isDoubleDot (segment : List Char) : Bool :=
  let s := segment.map Char.toLower
  s == "..".toList || s == ".%2e".toList || s == "%2e.".toList || s == "%2e%2e".toList

def splitPath : List Char → List (List Char)
  | [] => [[]]
  | c :: cs =>
    if isSlash c then [] :: splitPath cs
    else
      match splitPath cs with
      | [] => [[c]]
      | s :: ss => (c :: s) :: ss

def isDrive (segment : List Char) : Bool :=
  match segment with
  | [c, d] => c.isAlpha && (d == ':' || d == '|')
  | _ => false

/-- Takes a segment off a path in reverse; the drive that a path of a file begins with stays. -/
def shorten (isFile : Bool) : List (List Char) → List (List Char)
  | [] => []
  | [s] => if isFile && isDrive s then [s] else []
  | _ :: rest => rest

/-- Resolves the dot segments of a path, which is kept in reverse. -/
def resolveDots (isFile : Bool) : List (List Char) → List (List Char) → List (List Char)
  | done, [] => done.reverse
  | done, s :: rest =>
    let isLast := rest.isEmpty
    if isDoubleDot s then
      let shorter := shorten isFile done
      resolveDots isFile (if isLast then [] :: shorter else shorter) rest
    else if isDot s then resolveDots isFile (if isLast then [] :: done else done) rest
    else if isFile && done.isEmpty && isDrive s then
      resolveDots isFile ((s.take 1 ++ [':']) :: done) rest
    else resolveDots isFile (s :: done) rest

def path (isFile : Bool) (cs : List Char) : List (List Char) :=
  let cs := match cs with
    | c :: rest => if isSlash c then rest else c :: rest
    | [] => []
  resolveDots isFile [] ((splitPath cs).map (encode inPath))

def splitTail (cs : List Char) : List Char × Option (List Char) × Option (List Char) :=
  let (before, fragment) := match cs.dropWhile (· ≠ '#') with
    | _ :: f => (cs.takeWhile (· ≠ '#'), some f)
    | [] => (cs, none)
  match before.dropWhile (· ≠ '?') with
  | _ :: q => (before.takeWhile (· ≠ '?'), some q, fragment)
  | [] => (before, none, fragment)

def splitUserinfo (authority : List Char) : Option (List Char) × List Char :=
  let host := (authority.reverse.takeWhile (· ≠ '@')).reverse
  if host.length = authority.length then (none, authority)
  else (some (authority.take (authority.length - host.length - 1)), host)

def userinfo (cs : List Char) : List Char :=
  let name := encode inUserinfo (cs.takeWhile (· ≠ ':'))
  let password := encode inUserinfo ((cs.dropWhile (· ≠ ':')).drop 1)
  if name.isEmpty && password.isEmpty then []
  else name ++ (if password.isEmpty then [] else ':' :: password) ++ ['@']

/-- The host, which may have colons inside brackets, and what follows it. -/
def splitHost (inBrackets : Bool) : List Char → List Char × List Char
  | [] => ([], [])
  | c :: cs =>
    if c = ':' ∧ !inBrackets then ([], c :: cs)
    else
      let inside := if c = '[' then true else if c = ']' then false else inBrackets
      let (host, rest) := splitHost inside cs
      (c :: host, rest)

/-- A port; one that goes without saying is left out. -/
def port? (scheme : List Char) : List Char → Option (Option Nat)
  | [] => some none
  | _ :: digits =>
    if digits.isEmpty then some none
    else
      ((naturalOf? 10 digits).filter (· < 65536)).map fun n =>
        let usual := if scheme = "http".toList then 80 else 443
        if n = usual then none else some n

def web? (scheme cs : List Char) : Option WebUrl := do
  let cs := cs.dropWhile isSlash
  let authority := cs.takeWhile fun c => !endsAuthority c
  let (before, after) := splitUserinfo authority
  let (host, port) := splitHost false after
  if host.isEmpty then none
  else
    let host ← HostName.normal? host
    let port ← port? scheme port
    let (p, query, fragment) := splitTail (cs.dropWhile fun c => !endsAuthority c)
    return ⟨scheme, (before.map userinfo).getD [], host, port, path false p,
      query.map (encode inQuery), fragment.map (encode inFragment)⟩

def filePath (cs : List Char) : List (List Char) :=
  match (path true cs).dropWhile (·.isEmpty) with
  | [] => [[]]
  | segments => segments

def file? (cs : List Char) : Option Url :=
  let (p, _, _) := splitTail cs
  match p with
  | a :: b :: rest =>
    if isSlash a && isSlash b then
      let host := rest.takeWhile fun c => !isSlash c
      if isDrive host then some (.file [] (filePath rest))
      else if host.isEmpty then some (.file [] (filePath rest))
      else
        (HostName.normal? host).map fun h =>
          .file (if h = "localhost".toList then [] else h) (filePath (rest.drop host.length))
    else some (.file [] (filePath p))
  | _ => some (.file [] (filePath p))

def ofText? (text : String) : Option Url :=
  match scheme? (cleaned text.toList) with
  | none => none
  | some (scheme, rest) =>
    if scheme = "http".toList ∨ scheme = "https".toList then (web? scheme rest).map .web
    else if scheme = "file".toList then file? rest
    else none

end Url

namespace WebUrl

def render (u : WebUrl) : String :=
  let port := match u.port with
    | none => []
    | some n => ':' :: Nat.toDigits 10 n
  let query := match u.query with
    | none => []
    | some q => '?' :: q
  let fragment := match u.fragment with
    | none => []
    | some f => '#' :: f
  String.ofList (u.scheme ++ "://".toList ++ u.userinfo ++ u.host ++ port ++
    u.path.flatMap ('/' :: ·) ++ query ++ fragment)

end WebUrl

end ApiScript
