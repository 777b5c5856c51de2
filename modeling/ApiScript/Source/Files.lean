/-! # Files

Files are found by their paths below the current directory.
-/

namespace ApiScript

inductive FileFault where
  | missing
  | isDirectory
  | notDirectory
  | nameTooLong
  | zeroInName
  | notText
  /-- Nobody has looked at the file so far. -/
  | unread
  | other (message : String)

def FileFault.message : FileFault → String
  | missing => "No such file or directory (os error 2)"
  | isDirectory => "Is a directory (os error 21)"
  | notDirectory => "Not a directory (os error 20)"
  | nameTooLong => "File name too long (os error 36)"
  | zeroInName => "file name contained an unexpected NUL byte"
  | notText => "stream did not contain valid UTF-8"
  | unread => "not read so far"
  | other message => message

abbrev Files := String → Except FileFault ByteArray

namespace Files

def readText (files : Files) (path : String) : Except FileFault String :=
  match files path with
  | .error f => .error f
  | .ok bytes =>
    match String.fromUTF8? bytes with
    | some text => .ok text
    | none => .error .notText

def ofRead (files : List (String × Except FileFault ByteArray)) : Files := fun path =>
  (files.lookup path).getD (.error .unread)

inductive Found where
  | file (content : ByteArray)
  | directory
  | nothing

/-- Files by the names on the way to them. -/
abbrev Tree := List (List String × ByteArray)

def find (tree : Tree) (place : List String) : Found :=
  match tree.find? fun e => e.1 = place with
  | some e => .file e.2
  | none => if place.isEmpty || tree.any fun e => place.isPrefixOf e.1 then .directory else .nothing

/-- Follows the names of a path from a place, which is kept in reverse. What lies outside of the
current directory is not there. -/
def walk (tree : Tree) (place : List String) : List String → Except FileFault ByteArray
  | [] =>
    match find tree place.reverse with
    | .file content => .ok content
    | .directory => .error .isDirectory
    | .nothing => .error .missing
  | name :: rest =>
    match find tree place.reverse with
    | .file _ => .error .notDirectory
    | .nothing => .error .missing
    | .directory =>
      if 255 < name.utf8ByteSize then .error .nameTooLong
      else if name = "" ∨ name = "." then walk tree place rest
      else if name = ".." then
        match place with
        | _ :: outer => walk tree outer rest
        | [] => .error (if rest.all (· = "") then .isDirectory else .missing)
      else walk tree (name :: place) rest

/-- Another name of the current directory. -/
def currentDirectory : List String := ["proc", "self", "cwd"]

def namesOn (path : String) : Except FileFault (List String) :=
  if path.toList.contains '\x00' then .error .zeroInName
  else if path.isEmpty then .error .missing
  else if 4095 < path.utf8ByteSize then .error .nameTooLong
  else
    match path.splitOn "/" with
    | "" :: names =>
      let names := names.dropWhile (· = "")
      if names.take 3 = currentDirectory then .ok (names.drop 3)
      else if names.isEmpty then .error .isDirectory
      else .error .missing
    | names => .ok names

def ofTree (tree : Tree) : Files := fun path =>
  match namesOn path with
  | .error f => .error f
  | .ok names => walk tree [] names

/-- Follows the names of a path to a directory, making those that are missing. Files are in the
way. -/
def makeWay? (tree : Tree) (place : List String) : List String → Option (List String)
  | [] =>
    match find tree place.reverse with
    | .file _ => none
    | _ => some place.reverse
  | name :: rest =>
    match find tree place.reverse with
    | .file _ => none
    | _ =>
      if 255 < name.utf8ByteSize then none
      else if name = "" ∨ name = "." then makeWay? tree place rest
      else if name = ".." then
        match place with
        | _ :: outer => makeWay? tree outer rest
        | [] => none
      else makeWay? tree (name :: place) rest

/-- The place of a directory that is there or can be made. -/
def directoryPlace? (tree : Tree) (path : String) : Option (List String) :=
  if path.isEmpty then some []
  else
    match namesOn path with
    | .error _ => none
    | .ok names => makeWay? tree [] names

def placeOf (path : String) : List String := path.splitOn "/"

end Files

end ApiScript
