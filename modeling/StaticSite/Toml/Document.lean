import StaticSite.Toml.Scalar
import StaticSite.Toml.Tree

/-!
# TOML documents

A document is a sequence of statements: assignments of values to keys, headers of tables, and
headers of tables in lists. `parse` gives the table of a document, or nothing if it breaks the
grammar or says something twice.
-/

namespace StaticSite.Toml

def isKeyChar (c : Char) : Bool := c.isAlphanum || c == '_' || c == '-'

def key? (cs : List Char) : Option (String × List Char) :=
  match cs.takeWhile isKeyChar with
  | [] => line? cs
  | name => some (String.ofList name, cs.dropWhile isKeyChar)

def keyPath? : Nat → List Char → Option (List String × List Char)
  | 0, _ => none
  | n + 1, cs => do
    let (name, rest) ← key? cs
    match skipSpaces rest with
    | '.' :: rest =>
      let (path, rest) ← keyPath? n (skipSpaces rest)
      return (name :: path, rest)
    | rest => return ([name], rest)

def maxKeys : Nat := 80

def dottedKey? (cs : List Char) : Option (List String × List Char) := keyPath? maxKeys cs

def maxDepth : Nat := 80

/-- The table of assignments in braces. No header implies a table there. -/
def inlineTable? (assignments : List (List String × Value)) : Option Value :=
  let entries := assignments.foldlM (fun es (path, v) => Entries.assign? .passed v path es) []
  entries.map fun es => .table (Tree.values es)

mutual

/-- A value. The first argument bounds the number of steps, the second one the depth. -/
def value? : Nat → Nat → List Char → Option (Value × List Char)
  | 0, _, _ => none
  | n + 1, depth, cs =>
    match cs with
    | '[' :: rest =>
      if depth = 0 then none
      else (items? n (depth - 1) (skipGap rest)).map fun (vs, rest) => (.list vs, rest)
    | '\x7b' :: rest =>
      if depth = 0 then none
      else do
        let (assignments, rest) ← assignments? n (depth - 1) (skipGap rest)
        return (← inlineTable? assignments, rest)
    | _ => scalar? cs

def items? : Nat → Nat → List Char → Option (List Value × List Char)
  | 0, _, _ => none
  | n + 1, depth, cs =>
    match cs with
    | ']' :: rest => some ([], rest)
    | _ => do
      let (v, rest) ← value? n depth cs
      match skipGap rest with
      | ',' :: rest => (items? n depth (skipGap rest)).map fun (vs, rest) => (v :: vs, rest)
      | ']' :: rest => some ([v], rest)
      | _ => none

def assignments? : Nat → Nat → List Char → Option (List (List String × Value) × List Char)
  | 0, _, _ => none
  | n + 1, depth, cs =>
    match cs with
    | '\x7d' :: rest => some ([], rest)
    | _ => do
      let (path, rest) ← dottedKey? cs
      let rest ← afterChar? '=' (skipGap rest)
      let (v, rest) ← value? n depth (skipGap rest)
      match skipGap rest with
      | ',' :: rest =>
        (assignments? n depth (skipGap rest)).map fun (as, rest) => ((path, v) :: as, rest)
      | '\x7d' :: rest => some ([(path, v)], rest)
      | _ => none

end

inductive Statement where
  | assignment (path : List String) (v : Value)
  | header (path : List String)
  | listHeader (path : List String)
  deriving Repr

def headerPath? (cs : List Char) : Option (List String × List Char) := do
  let (path, rest) ← dottedKey? (skipSpaces cs)
  return (path, ← afterChar? ']' rest)

def statement? (cs : List Char) : Option (Statement × List Char) :=
  match cs with
  | '[' :: '[' :: rest => do
    let (path, rest) ← headerPath? rest
    return (.listHeader path, ← afterChar? ']' rest)
  | '[' :: rest => (headerPath? rest).map fun (path, rest) => (.header path, rest)
  | _ => do
    let (path, rest) ← dottedKey? cs
    -- No line ends around the equals sign, as there are in braces.
    let rest ← afterChar? '=' rest
    let (v, rest) ← value? (rest.length + 1) maxDepth (skipSpaces rest)
    return (.assignment path v, rest)

def statements? : Nat → List Char → Option (List Statement)
  | 0, _ => none
  | n + 1, cs =>
    match skipGap cs with
    | [] => some []
    | cs => do
      let (s, rest) ← statement? cs
      let rest ← lineEnd? rest
      return s :: (← statements? n rest)

/-- A document under construction: its table, and the path of the table that assignments go to. -/
structure Draft where
  root : Entries := []
  current : List String := []

def Draft.add? (rule : ImpliedTables) (d : Draft) : Statement → Option Draft
  | .assignment path v => do
    let root ← d.root.inside? (Entries.assign? rule v path) d.current
    return { d with root := root }
  | .header path => do
    let root ← d.root.atHeader? Tree.introduce? path
    return ⟨root, path⟩
  | .listHeader path => do
    let root ← d.root.atHeader? Tree.extend? path
    return ⟨root, path⟩

def tableOf? (rule : ImpliedTables) (statements : List Statement) : Option Value :=
  (statements.foldlM (Draft.add? rule) {}).map fun d => .table (Tree.values d.root)

def withoutMark : List Char → List Char
  | '\ufeff' :: cs => cs
  | cs => cs

/-- The table of a TOML document under a rule for implied tables. -/
def parseUnder (rule : ImpliedTables) (s : String) : Option Value :=
  let cs := withoutMark s.toList
  (statements? (cs.length + 1) cs).bind (tableOf? rule)

def parse (s : String) : Option Value := parseUnder .passed s

end StaticSite.Toml
