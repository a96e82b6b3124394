import StaticSite.Number.Decimal

/-!
# Values of data formats

What a document of a data format holds, whichever format it is written in: nothing, flags, whole
and floating-point numbers, texts, moments in time, lists, and tables from names to values. A number
may be spelled well and yet be none that can be read; it has its place in a document all the same.
-/

namespace StaticSite

/-- A value of a data format. A moment is kept in its normal spelling, and a number that cannot be
read as it is written. -/
inductive Value where
  | null
  | flag (b : Bool)
  | integer (i : Int)
  | number (d : Number.Datum)
  | text (s : String)
  | moment (spelling : String)
  | unreadable (numeral : String)
  | list (items : List Value)
  | table (entries : List (String × Value))
  deriving Inhabited, Repr

namespace Value

def field? (v : Value) (name : String) : Option Value :=
  match v with
  | .table entries => entries.lookup name
  | _ => none

def text? : Value → Option String
  | .text s => some s
  | _ => none

def items? : Value → Option (List Value)
  | .list items => some items
  | _ => none

def isReadable : Value → Bool
  | .unreadable _ => false
  | _ => true

mutual

/-- Whether a test holds for all values in a value that hold no others. -/
def all (p : Value → Bool) : Value → Bool
  | .list items => allOf p items
  | .table entries => allIn p entries
  | v => p v

def allOf (p : Value → Bool) : List Value → Bool
  | [] => true
  | v :: rest => v.all p && allOf p rest

def allIn (p : Value → Bool) : List (String × Value) → Bool
  | [] => true
  | (_, v) :: rest => v.all p && allIn p rest

end

end Value

end StaticSite
