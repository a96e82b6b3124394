import StaticSite.Data.Value

/-!
# Layers of settings

Settings come from a file and from the environment, and what the environment says wins. Each source
is a list of keys with values. A key is a path to a place in the settings: names between points, and
positions in lists between brackets. Tables are merged entry by entry; all else is replaced.
-/

namespace StaticSite

/-- A step of a key: the entry under a name, or the item at a position. Negative positions count
from the end. -/
inductive KeyStep where
  | entry (name : String)
  | item (position : Int)
  deriving DecidableEq, Repr

def isKeyNameChar (c : Char) : Bool := c.isAlphanum || c == '_' || c == '-'

def isPositionBlank (c : Char) : Bool := c == ' ' || c == '\t'

def keyName? (cs : List Char) : Option (String × List Char) :=
  match cs.takeWhile isKeyNameChar with
  | [] => none
  | name => some (String.ofList name, cs.dropWhile isKeyNameChar)

/-- A position between brackets, after the opening one, with what follows it. Positions have at most
64 bits. -/
def keyPosition? (cs : List Char) : Option (Int × List Char) :=
  let (negative, cs) := match cs.dropWhile isPositionBlank with
    | '-' :: rest => (true, rest)
    | rest => (false, rest)
  let (ds, cs) := Number.takeDigits cs
  let i : Int := if negative then -(Number.ofDigits ds : Int) else Number.ofDigits ds
  match cs.dropWhile isPositionBlank with
  | ']' :: rest => if ds ≠ [] ∧ Number.fitsSigned 64 i then some (i, rest) else none
  | _ => none

/-- The further steps of a key, at most as many as the first argument says. -/
def keySteps? : Nat → List Char → Option (List KeyStep)
  | _, [] => some []
  | 0, _ => none
  | n + 1, c :: rest =>
    if c = '.' then do
      let (name, rest) ← keyName? rest
      return .entry name :: (← keySteps? n rest)
    else if c = '[' then do
      let (position, rest) ← keyPosition? rest
      return .item position :: (← keySteps? n rest)
    else none

def keyPath? (key : String) : Option (List KeyStep) := do
  let (name, rest) ← keyName? key.toList
  let steps ← keySteps? rest.length rest
  return .entry name :: steps

def keySteps (key : String) : List KeyStep := (keyPath? key).getD [.entry key]

def Value.entries : Value → List (String × Value)
  | .table es => es
  | _ => []

def Value.items : Value → List Value
  | .list vs => vs
  | _ => []

/-- Entries in which the value of a name is `f` of its value; a new name goes to the end. -/
def updateEntry (name : String) (f : Value → Value) :
    List (String × Value) → List (String × Value)
  | [] => [(name, f .null)]
  | (n, v) :: rest => if n = name then (n, f v) :: rest else (n, v) :: updateEntry name f rest

/-- Items in which the one at a position is `f` of it; missing items before it are null. -/
def updateItem (f : Value → Value) (n : Nat) (vs : List Value) : List Value :=
  vs.take n ++ List.replicate (n - vs.length) .null ++ f (vs[n]?.getD .null) :: vs.drop (n + 1)

/-- Items in which the one at a position is `f` of it; a position before the first item puts null
items in front. -/
def updatePosition (position : Int) (f : Value → Value) (vs : List Value) : List Value :=
  if 0 ≤ position then updateItem f position.toNat vs
  else
    -- The last item has the position -1.
    let fromEnd := (-position).toNat
    if fromEnd ≤ vs.length then updateItem f (vs.length - fromEnd) vs
    else updateItem f 0 (List.replicate (fromEnd - vs.length) .null ++ vs)

/-- A value in which what stands at the end of some steps is `f` of what stood there. -/
def Value.updateAt (f : Value → Value) : List KeyStep → Value → Value
  | [], v => f v
  | .entry name :: steps, v => .table (updateEntry name (Value.updateAt f steps) v.entries)
  | .item position :: steps, v => .list (updatePosition position (Value.updateAt f steps) v.items)

mutual

/-- What stands at a place after a value is put over what stood there. -/
def Value.over : Value → Value → Value
  | .table es, v => .table (overEntries es v.entries)
  | new, _ => new

def overEntries : List (String × Value) → List (String × Value) → List (String × Value)
  | [], present => present
  | (name, new) :: rest, present =>
    overEntries rest (updateEntry name (fun v => Value.over new v) present)

end

def layered (source : List (String × Value)) : Value :=
  source.foldl (fun v e => v.updateAt (Value.over e.2) (keySteps e.1)) (.table [])

abbrev Environment := List (String × String)

def variableStart : List Char := "openstate_site__".toList

def withPoints : List Char → List Char
  | '_' :: '_' :: rest => '.' :: withPoints rest
  | c :: rest => c :: withPoints rest
  | [] => []

/-- A letter made small. The Kelvin sign is a capital `K` like the letter. -/
def smallLetter (c : Char) : Char := if c = '\u212A' then 'k' else c.toLower

/-- The key that a variable speaks of, if it speaks of settings. Letter case does not matter. -/
def variableKey? (name : String) : Option String :=
  let cs := name.toList.map smallLetter
  if variableStart.isPrefixOf cs then
    some (String.ofList (withPoints (cs.drop variableStart.length)))
  else none

def Environment.layer (env : Environment) : List (String × Value) :=
  env.filterMap fun e => (variableKey? e.1).map fun key => (key, .text e.2)

end StaticSite
