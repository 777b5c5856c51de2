/-! # Values under names

Fields stand in strictly increasing order of their names, where names are ordered by code points.
The entries of a table stand in the order in which they were first put in: to put a value under a
name that is there keeps its place, and a name that was taken out and is put in again comes last.
-/

namespace ApiScript

/-! ## In the order of names -/

abbrev Fields (α : Type) := List (String × α)

namespace Fields

variable {α β : Type}

def get? (name : String) : Fields α → Option α
  | [] => none
  | (n, v) :: rest => if n = name then some v else get? name rest

def contains (name : String) (fields : Fields α) : Bool := (get? name fields).isSome

def insert (name : String) (value : α) : Fields α → Fields α
  | [] => [(name, value)]
  | (n, v) :: rest =>
    if name = n then (name, value) :: rest
    else if name < n then (name, value) :: (n, v) :: rest
    else (n, v) :: insert name value rest

def erase (name : String) : Fields α → Fields α
  | [] => []
  | (n, v) :: rest => if n = name then rest else (n, v) :: erase name rest

/-- The pairs put in one after the other: of two under one name the later stays. -/
def insertAll (pairs : List (String × α)) (fields : Fields α) : Fields α :=
  pairs.foldl (fun acc p => insert p.1 p.2 acc) fields

def ofList (pairs : List (String × α)) : Fields α := insertAll pairs []

def names (fields : Fields α) : List String := fields.map (·.1)

def Ordered (fields : Fields α) : Prop := (names fields).Pairwise (· < ·)

end Fields

/-! ## In the order of first entries -/

structure Table (α : Type) where
  entries : List (String × α)

namespace Table

variable {α β : Type}

def empty : Table α := ⟨[]⟩

instance : Inhabited (Table α) := ⟨empty⟩

def find? (name : String) : List (String × α) → Option α
  | [] => none
  | (n, v) :: rest => if n = name then some v else find? name rest

def get? (t : Table α) (name : String) : Option α := find? name t.entries

def contains (t : Table α) (name : String) : Bool := (t.get? name).isSome

/-- The entries with a value put under a name: in the place of the name, or last. -/
def put (name : String) (value : α) : List (String × α) → List (String × α)
  | [] => [(name, value)]
  | (n, v) :: rest => if n = name then (name, value) :: rest else (n, v) :: put name value rest

def insert (t : Table α) (name : String) (value : α) : Table α := ⟨put name value t.entries⟩

def erase (t : Table α) (name : String) : Table α := ⟨t.entries.filter fun e => e.1 ≠ name⟩

def size (t : Table α) : Nat := t.entries.length

def names (t : Table α) : List String := t.entries.map (·.1)

def ofList (pairs : List (String × α)) : Table α :=
  pairs.foldl (fun t p => t.insert p.1 p.2) empty

end Table

end ApiScript
