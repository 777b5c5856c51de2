import ApiScript.Report

/-! # Arguments

The arguments of the command line are sources and switches in any order. A switch is a flag or takes
a value, either attached to it or as the next argument. After two hyphens there are only sources.
-/

namespace ApiScript

inductive Switch where
  | help
  | version
  | verbose
  | language
  | timeout
  | define
  | reportDirectory
  | reportFormat
  deriving DecidableEq

namespace Switch

def all : List Switch :=
  [.help, .version, .verbose, .language, .timeout, .define, .reportDirectory, .reportFormat]

def long : Switch → String
  | .help => "help"
  | .version => "version"
  | .verbose => "verbose"
  | .language => "script-language"
  | .timeout => "timeout"
  | .define => "define"
  | .reportDirectory => "report-dir"
  | .reportFormat => "report-format"

def short? : Switch → Option Char
  | .help => some 'h'
  | .version => some 'V'
  | .verbose => some 'v'
  | .timeout => some 't'
  | .define => some 'D'
  | .reportDirectory => some 'r'
  | .language => none
  | .reportFormat => none

def valueName? : Switch → Option String
  | .language => some "SCRIPT_LANGUAGE"
  | .timeout => some "TIMEOUT"
  | .define => some "NAME=VALUE"
  | .reportDirectory => some "REPORT_DIR"
  | .reportFormat => some "REPORT_FORMAT"
  | _ => none

def takesValue (s : Switch) : Bool := s.valueName?.isSome

def text (s : Switch) : String :=
  match s.valueName? with
  | some name => s!"--{s.long} <{name}>"
  | none => s!"--{s.long}"

def ofLong? (cs : List Char) : Option Switch := all.find? fun s => s.long.toList = cs

def ofShort? (c : Char) : Option Switch := all.find? fun s => s.short? = some c

end Switch

inductive Misuse where
  | unexpected (argument : String)
  | repeated (s : Switch)
  | withoutValue (s : Switch)
  | withValue (s : Switch) (value : String)
  | invalidValue (s : Switch) (value : String)
  | withoutSources

def Misuse.message : Misuse → String
  | .unexpected argument => s!"unexpected argument '{argument}' found"
  | .repeated s => s!"the argument '{s.text}' cannot be used multiple times"
  | .withoutValue s => s!"a value is required for '{s.text}' but none was supplied"
  | .withValue s value => s!"unexpected value '{value}' for '{s.text}' found; no more were expected"
  | .invalidValue s value => s!"invalid value '{value}' for '{s.text}'"
  | .withoutSources => "the following required arguments were not provided:\n  <SOURCES>..."

/-- Why arguments do not lead to a run. -/
inductive Halt where
  | help
  | version
  | misuse (m : Misuse)

structure Arguments where
  sources : List String
  verbose : Bool
  language : Option String
  timeout : Option Nat
  bindings : List String
  reportDirectory : Option String
  reportFormat : Option ReportFormat

namespace Arguments

def empty : Arguments := ⟨[], false, none, none, [], none, none⟩

def setFlag (a : Arguments) (s : Switch) : Except Halt Arguments :=
  match s with
  | .help => .error .help
  | .version => .error .version
  | .verbose => if a.verbose then .error (.misuse (.repeated s)) else .ok { a with verbose := true }
  | _ => .error (.misuse (.withoutValue s))

def once {α : Type} (s : Switch) (old new : Option α) (value : String) : Except Halt (Option α) :=
  match new, old with
  | none, _ => .error (.misuse (.invalidValue s value))
  | some _, some _ => .error (.misuse (.repeated s))
  | some x, none => .ok (some x)

def setValue (a : Arguments) (s : Switch) (value : String) : Except Halt Arguments :=
  match s with
  | .language => (once s a.language (some value) value).map fun x => { a with language := x }
  | .timeout =>
    (once s a.timeout (Settings.seconds? value) value).map fun x => { a with timeout := x }
  | .define => .ok { a with bindings := a.bindings ++ [value] }
  | .reportDirectory =>
    (once s a.reportDirectory (some value) value).map fun x => { a with reportDirectory := x }
  | .reportFormat =>
    (once s a.reportFormat (ReportFormat.ofName? value) value).map fun x =>
      { a with reportFormat := x }
  | _ => .error (.misuse (.withValue s value))

/-- Reads flags by their letters, of which the last may be a switch with its value attached. Gives
the switch whose value is the next argument, if there is one. -/
def readLetters (a : Arguments) : List Char → Except Halt (Arguments × Option Switch)
  | [] => .ok (a, none)
  | c :: rest =>
    match Switch.ofShort? c with
    | none => .error (.misuse (.unexpected (String.ofList ['-', c])))
    | some s =>
      if s.takesValue then
        match rest with
        | [] => .ok (a, some s)
        | '=' :: value => (a.setValue s (String.ofList value)).map (·, none)
        | value => (a.setValue s (String.ofList value)).map (·, none)
      else
        match a.setFlag s with
        | .ok a => readLetters a rest
        | .error h => .error h

def readLong (a : Arguments) (name : List Char) (value : Option String) :
    Except Halt (Arguments × Option Switch) :=
  match Switch.ofLong? name with
  | none => .error (.misuse (.unexpected ("--" ++ String.ofList name)))
  | some s =>
    match s.takesValue, value with
    | true, none => .ok (a, some s)
    | _, some v => (a.setValue s v).map (·, none)
    | false, none => (a.setFlag s).map (·, none)

inductive Shape where
  | separator
  | long (name : List Char) (value : Option String)
  | letters (cs : List Char)
  | plain

def shapeOf (argument : String) : Shape :=
  match argument.toList with
  | ['-'] => .plain
  | ['-', '-'] => .separator
  | '-' :: '-' :: cs =>
    match Settings.splitAtEquals cs with
    | some (name, value) => .long name (some (String.ofList value))
    | none => .long cs none
  | '-' :: cs => .letters cs
  | _ => .plain

/-- Reads arguments, of which the first may be the value that a switch awaits. -/
def read (a : Arguments) (awaiting : Option Switch) : List String → Except Halt Arguments
  | [] =>
    match awaiting with
    | some s => .error (.misuse (.withoutValue s))
    | none => .ok a
  | argument :: rest =>
    match shapeOf argument, awaiting with
    | .plain, some s =>
      match a.setValue s argument with
      | .ok a => read a none rest
      | .error h => .error h
    | .plain, none => read { a with sources := a.sources ++ [argument] } none rest
    | _, some s => .error (.misuse (.withoutValue s))
    | .separator, none => .ok { a with sources := a.sources ++ rest }
    | .letters cs, none =>
      match a.readLetters cs with
      | .ok (a, awaiting) => read a awaiting rest
      | .error h => .error h
    | .long name value, none =>
      match a.readLong name value with
      | .ok (a, awaiting) => read a awaiting rest
      | .error h => .error h

/-- Sets a value to that of a variable of the process, unless it is set. -/
def setFromVariable (a : Arguments) (s : Switch) (isSet : Bool) (name : String)
    (process : ProcessVariables) : Except Halt Arguments :=
  match isSet, process.value? name with
  | false, some bytes =>
    match String.fromUTF8? bytes with
    | some value => a.setValue s value
    | none => .error (.misuse (.invalidValue s (textOfBytes bytes.toList)))
  | _, _ => .ok a

def ofProcess (arguments : List String) (process : ProcessVariables) : Except Halt Arguments := do
  let a ← read empty none arguments
  let a ← a.setFromVariable .language a.language.isSome Settings.languageVariable process
  let a ← a.setFromVariable .timeout a.timeout.isSome Settings.timeoutVariable process
  if a.sources.isEmpty then .error (.misuse .withoutSources) else .ok a

def settings (a : Arguments) : Except Trouble Settings := do
  let bindings ← a.bindings.mapM Settings.binding
  return ⟨a.language.getD Settings.standard.language, a.timeout.getD Settings.standard.timeout,
    bindings⟩

end Arguments

end ApiScript
