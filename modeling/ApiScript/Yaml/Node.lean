import ApiScript.Yaml.Lexer

/-! # Nodes of YAML

A document is a tree of nodes. An alias stands for the whole node with its anchor; a node cannot
contain itself.
-/

namespace ApiScript

namespace Yaml

inductive Node where
  | scalar (tag : Option String) (plain : Bool) (text : String)
  | sequence (tag : Option String) (items : List Node)
  | mapping (tag : Option String) (entries : List (Node × Node))
  deriving Inhabited

namespace Node

def missing : Node := scalar none true ""

mutual

def depth : Node → Nat
  | scalar _ _ _ => 0
  | sequence _ items => depthOfItems items + 1
  | mapping _ entries => depthOfEntries entries + 1

def depthOfItems : List Node → Nat
  | [] => 0
  | n :: rest => max (depth n) (depthOfItems rest)

def depthOfEntries : List (Node × Node) → Nat
  | [] => 0
  | (k, v) :: rest => max (max (depth k) (depth v)) (depthOfEntries rest)

end

structure Reading where
  tokens : List Token
  handles : List (List Char × List Char)
  /-- The nodes with anchors; one that is still being read has no node yet. -/
  anchors : List (List Char × Nat)
  nodes : List (Nat × Node)

abbrev Reader (α : Type) := StateT Reading Option α

namespace Reader

def fail {α : Type} : Reader α := fun _ => none

def peek? : Reader (Option Token) := return (← get).tokens.head?

def next : Reader Unit := modify fun r => { r with tokens := r.tokens.drop 1 }

/-- The number of tokens left, which bounds the number of parts of a collection. -/
def left : Reader Nat := return (← get).tokens.length

end Reader

open Reader

structure Properties where
  anchor : Option (List Char)
  tag : Option TagName

def properties : Reader Properties := do
  match ← peek? with
  | some (.anchor name) =>
    next
    match ← peek? with
    | some (.tag t) => next; return ⟨some name, some t⟩
    | _ => return ⟨some name, none⟩
  | some (.tag t) =>
    next
    match ← peek? with
    | some (.anchor name) => next; return ⟨some name, some t⟩
    | _ => return ⟨none, some t⟩
  | _ => return ⟨none, none⟩

def tagText (t : Option TagName) : Reader (Option String) := do
  match t with
  | none => return none
  | some t =>
    if t.handle.isEmpty then return some (String.ofList t.suffix)
    else
      match (← get).handles.find? fun h => h.1 = t.handle with
      | some h => return some (String.ofList (h.2 ++ t.suffix))
      | none => fail

def announce (anchor : Option (List Char)) : Reader Nat := do
  let r ← get
  let id := r.anchors.length
  match anchor with
  | none => return id
  | some name =>
    set { r with anchors := (name, id) :: r.anchors }
    return id

def keep (anchor : Option (List Char)) (id : Nat) (n : Node) : Reader Node := do
  if anchor.isSome then modify fun r => { r with nodes := (id, n) :: r.nodes }
  return n

/-- The node with an anchor; the last one, of several, that has been announced. -/
def ofAlias (name : List Char) : Reader Node := do
  let r ← get
  match r.anchors.find? fun a => a.1 = name with
  | none => fail
  | some (_, id) =>
    match r.nodes.find? fun n => n.1 = id with
    | none => fail
    | some (_, n) => return n

/-- How the nodes inside of a collection are read: whether collections in block form may stand
there, and whether one of them need not be indented. -/
abbrev Inner := Bool → Bool → Reader Node

def orMissing (isEnd : Token → Bool) (node : Reader Node) : Reader Node := do
  match ← peek? with
  | some t => if isEnd t then return missing else node
  | none => fail

def endsEntry : Token → Bool
  | .entry => true
  | .blockEnd => true
  | _ => false

def endsBareEntry : Token → Bool
  | .entry => true
  | .key => true
  | .value => true
  | .blockEnd => true
  | _ => false

def endsBlockPart : Token → Bool
  | .key => true
  | .value => true
  | .blockEnd => true
  | _ => false

def endsFlowItemKey : Token → Bool
  | .value => true
  | .comma => true
  | .flowSequenceEnd => true
  | _ => false

def endsFlowItem : Token → Bool
  | .comma => true
  | .flowSequenceEnd => true
  | _ => false

def endsFlowKey : Token → Bool
  | .value => true
  | .comma => true
  | .flowMappingEnd => true
  | _ => false

def endsFlowValue : Token → Bool
  | .comma => true
  | .flowMappingEnd => true
  | _ => false

def blockItems (inner : Inner) : Nat → List Node → Reader (List Node)
  | 0, _ => fail
  | limit + 1, done => do
    match ← peek? with
    | some .entry =>
      next
      let n ← orMissing endsEntry (inner true false)
      blockItems inner limit (n :: done)
    | some .blockEnd => next; return done.reverse
    | _ => fail

def bareItems (inner : Inner) : Nat → List Node → Reader (List Node)
  | 0, _ => fail
  | limit + 1, done => do
    match ← peek? with
    | some .entry =>
      next
      let n ← orMissing endsBareEntry (inner true false)
      bareItems inner limit (n :: done)
    | _ => return done.reverse

def valueOf (isEnd : Token → Bool) (node : Reader Node) : Reader Node := do
  match ← peek? with
  | some .value => next; orMissing isEnd node
  | _ => return missing

def blockEntries (inner : Inner) : Nat → List (Node × Node) → Reader (List (Node × Node))
  | 0, _ => fail
  | limit + 1, done => do
    match ← peek? with
    | some .key =>
      next
      let k ← orMissing endsBlockPart (inner true true)
      let v ← valueOf endsBlockPart (inner true true)
      blockEntries inner limit ((k, v) :: done)
    | some .blockEnd => next; return done.reverse
    | _ => fail

/-- An item of a sequence in flow form that is a mapping of one entry, whose key sign has been
read. A colon in the place of the key is dropped. -/
def flowPair (inner : Inner) : Reader Node := do
  match ← peek? with
  | none => fail
  | some t =>
    let k ← if endsFlowItemKey t then do next; pure missing else inner false false
    let v ← valueOf endsFlowItem (inner false false)
    return .mapping none [(k, v)]

def flowItems (inner : Inner) : Nat → List Node → Reader (List Node)
  | 0, _ => fail
  | limit + 1, done => do
    match ← peek? with
    | some .flowSequenceEnd => next; return done.reverse
    | _ =>
      if !done.isEmpty then
        match ← peek? with
        | some .comma => next
        | _ => fail
      match ← peek? with
      | some .flowSequenceEnd => next; return done.reverse
      | some .key =>
        next
        let n ← flowPair inner
        flowItems inner limit (n :: done)
      | _ =>
        let n ← inner false false
        flowItems inner limit (n :: done)

def flowEntries (inner : Inner) : Nat → List (Node × Node) → Reader (List (Node × Node))
  | 0, _ => fail
  | limit + 1, done => do
    match ← peek? with
    | some .flowMappingEnd => next; return done.reverse
    | _ =>
      if !done.isEmpty then
        match ← peek? with
        | some .comma => next
        | _ => fail
      match ← peek? with
      | some .flowMappingEnd => next; return done.reverse
      | some .key =>
        next
        let k ← orMissing endsFlowKey (inner false false)
        let v ← valueOf endsFlowValue (inner false false)
        flowEntries inner limit ((k, v) :: done)
      | _ =>
        let k ← inner false false
        flowEntries inner limit ((k, missing) :: done)

def collection (inner : Inner) (block bare : Bool) (tag : Option String) :
    Reader (Option Node) := do
  match ← peek? with
  | some .entry =>
    if bare then return some (.sequence tag (← bareItems inner (← left) [])) else return none
  | some .flowSequence => next; return some (.sequence tag (← flowItems inner (← left) []))
  | some .flowMapping => next; return some (.mapping tag (← flowEntries inner (← left) []))
  | some .blockSequence =>
    if block then next; return some (.sequence tag (← blockItems inner (← left) []))
    else return none
  | some .blockMapping =>
    if block then next; return some (.mapping tag (← blockEntries inner (← left) []))
    else return none
  | _ => return none

/-- A node that is no alias; `inner` reads the nodes inside of it, if there may be any. -/
def content (inner : Option Inner) (block bare : Bool) : Reader Node := do
  let p ← properties
  let tag ← tagText p.tag
  let id ← announce p.anchor
  match ← peek? with
  | some (.scalar plain text) =>
    next
    let text := String.ofList text
    if tag = some "!" then keep p.anchor id (.scalar none plain text)
    else keep p.anchor id (.scalar tag plain text)
  | _ =>
    let found ← match inner with
      | some inner => collection inner block bare tag
      | none => pure none
    match found with
    | some n => keep p.anchor id n
    | none =>
      if p.anchor.isSome || p.tag.isSome then keep p.anchor id (.scalar tag true "") else fail

def read : Nat → Inner
  | 0, block, bare => do
    match ← peek? with
    | some (.alias name) => next; ofAlias name
    | _ => content none block bare
  | depth + 1, block, bare => do
    match ← peek? with
    | some (.alias name) => next; ofAlias name
    | _ => content (some (read depth)) block bare

def standardHandles : List (List Char × List Char) :=
  [(['!'], ['!']), (['!', '!'], "tag:yaml.org,2002:".toList)]

def directives : Nat → Bool → Reader Unit
  | 0, _ => fail
  | limit + 1, versionSeen => do
    match ← peek? with
    | some (.version major minor) =>
      if versionSeen || major ≠ 1 || (minor ≠ 1 && minor ≠ 2) then fail
      else do next; directives limit true
    | some (.tagHandle handle start) =>
      if (← get).handles.any fun h => h.1 = handle then fail
      else do
        next
        modify fun r => { r with handles := (handle, start) :: r.handles }
        directives limit versionSeen
    | some .documentStart => next
    | _ => fail

def skipEnds : List Token → List Token
  | .documentEnd :: rest => skipEnds rest
  | ts => ts

def afterMark (depth : Nat) : Reader Node := do
  match ← peek? with
  | none => return missing
  | some (.version _ _) => return missing
  | some (.tagHandle _ _) => return missing
  | some .documentStart => return missing
  | some .documentEnd => return missing
  | _ => read depth true false

/-- The node of the first document: it needs no mark unless directives come before it. -/
def first (depth : Nat) : Reader Node := do
  let marked ← match ← peek? with
    | some (.version _ _) => pure true
    | some (.tagHandle _ _) => pure true
    | some .documentStart => pure true
    | _ => pure false
  if marked then directives (← left) false
  modify fun r => { r with handles := r.handles ++ standardHandles }
  if marked then afterMark depth else read depth true false

def document (depth : Nat) : Reader Node := do
  match ← peek? with
  | none => return missing
  | _ =>
    let n ← first depth
    if (skipEnds (← get).tokens).isEmpty then return n else fail

def ofText? (depth : Nat) (text : String) : Option Node := do
  let cs := match text.toList with
    | '\ufeff' :: rest => rest
    | cs => cs
  let tokens ← Token.all? cs
  let (n, _) ← (document depth).run ⟨tokens, [], [], []⟩
  if n.depth ≤ depth then some n else none

end Node

end Yaml

end ApiScript
