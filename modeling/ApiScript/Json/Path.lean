import ApiScript.Json.Basic
import ApiScript.Text.Basic

/-! # Dotted paths into a value

A path is a text of segments between dots. A segment is the name of a field where the value is an
object, and a position where it is a list; empty segments are passed over.
-/

namespace ApiScript

namespace JsonPath

def splitDots : List Char → List (List Char)
  | [] => [[]]
  | c :: cs =>
    if c = '.' then [] :: splitDots cs
    else match splitDots cs with
      | [] => [[c]]
      | part :: parts => (c :: part) :: parts

def segments (path : List Char) : List (List Char) :=
  (splitDots path).filter fun part => !part.isEmpty

def step? (segment : List Char) : Json → Option Json
  | .object fields => Fields.get? (String.ofList segment) fields
  | .array items => (unsignedOf? 10 64 segment).bind fun i => items[i]?
  | _ => none

def follow? : List (List Char) → Json → Option Json
  | [], v => some v
  | segment :: rest, v => (step? segment v).bind (follow? rest)

end JsonPath

/-- The part of a value at a path; an empty path names the value itself. -/
def Json.at? (path : String) (v : Json) : Option Json :=
  JsonPath.follow? (JsonPath.segments path.toList) v

end ApiScript
