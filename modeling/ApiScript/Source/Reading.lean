import ApiScript.Json.Parser
import ApiScript.Source.Files
import ApiScript.Url.Basic
import ApiScript.Yaml.Reading

/-! # Reading sources

A URL of the web is remote. A URL of a file on this host is its path; every other text is a path as
it stands. A source is a JSON or a YAML text. A list in it is a list of documents, anything else is
one.
-/

namespace ApiScript

/-! ## Locators -/

inductive Locator where
  | remote (url : WebUrl)
  | localPath (path : String)

namespace Locator

/-- The path that the segments of a URL stand for. A drive ends with a slash. -/
def pathOf (segments : List (List Char)) : String :=
  let bytes := segments.flatMap fun s => '/'.toUInt8 :: HostName.percentDecode s
  let endsInDrive := match bytes.reverse with
    | last :: drive :: _ :: _ =>
      (last == ':'.toUInt8 || last == '|'.toUInt8) && (Char.ofNat drive.toNat).isAlpha
    | _ => false
  textOfBytes (if endsInDrive then bytes ++ ['/'.toUInt8] else bytes)

def ofText (text : String) : Locator :=
  match Url.ofText? text with
  | some (.web url) => remote url
  | some (.file [] segments) => localPath (pathOf segments)
  | _ => localPath text

def names (path : String) : List (List Char) :=
  (HostName.splitOn '/' path.toList).filter fun s => s ≠ [] ∧ s ≠ ['.']

/-- What follows the last point in the last name of a path, unless the name begins with it. -/
def extension? (path : String) : Option (List Char) :=
  match (names path).getLast? with
  | none => none
  | some name =>
    let ending := (name.reverse.takeWhile (· ≠ '.')).reverse
    if name = ['.', '.'] ∨ name.length ≤ ending.length + 1 then none else some ending

/-- Whether a path names a YAML file; every other file is JSON. -/
def isYamlPath (path : String) : Bool :=
  extension? path = some "yaml".toList ∨ extension? path = some "yml".toList

end Locator

/-! ## Documents -/

namespace Source

def parse (isYaml : Bool) (text : String) : Except String Json :=
  if isYaml then
    match Yaml.parse? text with
    | some v => .ok v
    | none => .error "Failed to parse YAML"
  else
    match Json.parse? text with
    | some v => .ok v
    | none => .error "Failed to parse JSON"

def documents : Json → List Json
  | .array items => items
  | v => [v]

/-- The documents of a source, or the causes why there are none, the outermost first. Sources of the
web are out of reach. -/
def read (files : Files) (locator : String) : Except (List String) (List Json) :=
  match Locator.ofText locator with
  | .remote url => .error [s!"Failed to fetch {url.render}"]
  | .localPath path =>
    match files.readText path with
    | .error f => .error [s!"Failed to read script file: {path}", f.message]
    | .ok text =>
      match parse (Locator.isYamlPath path) text with
      | .error cause => .error [cause]
      | .ok v => .ok (documents v)

end Source

end ApiScript
