import StaticSite.Data.Value

/-!
# Tables under construction

The tables of a document are filled statement by statement, and how a table was introduced decides
what may still be added to it. A header opens a table that no other header has opened, though it may
have been implied by the header of a table inside it; a doubled header appends a table to a list;
and a dotted key only goes through tables that dotted keys have made or headers have implied, and
through the last tables of lists. There are two rules for what a dotted key does to implied tables.
-/

namespace StaticSite.Toml

/-- How a table was introduced: as the parent of a table with a header, by its own header, or as the
parent in a dotted key. -/
inductive Origin where
  | implied
  | header
  | dotted
  deriving DecidableEq, Repr

/-- How dotted keys treat implied tables: they may go through them but not end in them, or they make
them their own, so that they can end there but no header can follow. -/
inductive ImpliedTables where
  | passed
  | adopted
  deriving DecidableEq, Repr

/-- What stands under a name: a finished value, a table, or a list of tables of which only the last
one can grow. -/
inductive Tree where
  | leaf (v : Value)
  | table (origin : Origin) (entries : List (String × Tree))
  | tables (earlier : List (List (String × Tree))) (last : List (String × Tree))
  deriving Repr

abbrev Entries := List (String × Tree)

def Entries.update? (name : String) (f : Option Tree → Option Tree) : Entries → Option Entries
  | [] => (f none).map fun t => [(name, t)]
  | (n, t) :: rest =>
    if n = name then (f (some t)).map fun t => (n, t) :: rest
    else (Entries.update? name f rest).map fun rest => (n, t) :: rest

def Tree.throughHeader? (f : Entries → Option Entries) : Option Tree → Option Tree
  | none => (f []).map (.table .implied)
  | some (.table origin es) => (f es).map (.table origin)
  | some (.tables earlier last) => (f last).map (.tables earlier)
  | some (.leaf _) => none

/-- A change inside a table on the path of a dotted key. The last table of the path has to be made
by dotted keys, and the way to it may go through the last tables of lists. -/
def Tree.throughKey? (rule : ImpliedTables) (isLast : Bool) (f : Entries → Option Entries) :
    Option Tree → Option Tree
  | none => (f []).map (.table .dotted)
  | some (.table .dotted es) => (f es).map (.table .dotted)
  -- A header inside the table has made it, and no header of its own.
  | some (.table .implied es) =>
    match rule with
    | .passed => if isLast then none else (f es).map (.table .implied)
    | .adopted => (f es).map (.table .dotted)
  | some (.tables earlier last) => if isLast then none else (f last).map (.tables earlier)
  | _ => none

def Tree.introduce? : Option Tree → Option Tree
  | none => some (.table .header [])
  | some (.table .implied es) => some (.table .header es)
  | _ => none

def Tree.extend? : Option Tree → Option Tree
  | none => some (.tables [] [])
  | some (.tables earlier last) => some (.tables (earlier ++ [last]) [])
  | _ => none

def Tree.fill? (v : Value) : Option Tree → Option Tree
  | none => some (.leaf v)
  | some _ => none

def Entries.inside? (f : Entries → Option Entries) : List String → Entries → Option Entries
  | [], es => f es
  | name :: path, es => es.update? name (Tree.throughHeader? (Entries.inside? f path))

def Entries.atHeader? (f : Option Tree → Option Tree) : List String → Entries → Option Entries
  | [], _ => none
  | [name], es => es.update? name f
  | name :: path, es => es.update? name (Tree.throughHeader? (Entries.atHeader? f path))

def Entries.assign? (rule : ImpliedTables) (v : Value) : List String → Entries → Option Entries
  | [], _ => none
  | [name], es => es.update? name (Tree.fill? v)
  | name :: path, es =>
    es.update? name (Tree.throughKey? rule (path.length = 1) (Entries.assign? rule v path))

mutual

def Tree.value : Tree → Value
  | .leaf v => v
  | .table _ es => .table (Tree.values es)
  | .tables earlier last => .list (Tree.tableValues earlier ++ [.table (Tree.values last)])

def Tree.values : List (String × Tree) → List (String × Value)
  | [] => []
  | (name, t) :: rest => (name, t.value) :: Tree.values rest

def Tree.tableValues : List (List (String × Tree)) → List Value
  | [] => []
  | es :: rest => .table (Tree.values es) :: Tree.tableValues rest

end

end StaticSite.Toml
