import StaticSite.Data.Value
import StaticSite.Text.Blank

/-!
# Reading values

How the values of a source are taken for texts, flags, numbers, words and records. TOML documents
and JSON texts are taken as they are; layered sources, where everything that comes from the
environment is a text, are converted loosely. A record may also be given as a list of its fields in
order.
-/

namespace StaticSite

/-- How values of a source are taken for the types of the settings and of content. -/
structure Reading where
  text : Value → Option String
  flag : Value → Option Bool
  number : Value → Option Number.Binary32
  word : Value → Option String
  isAbsent : Value → Bool
  fields : List String → Value → Option (List (String × Value))

namespace Reading

def plainFlag : Value → Option Bool
  | .flag b => some b
  | _ => none

/-- The 32-bit number nearest to a number. Whole numbers have at most 64 bits. -/
def plainNumber : Value → Option Number.Binary32
  | .integer i =>
    if Number.fitsSigned 64 i || Number.fitsUnsigned 64 i then some (.ofDatum (.ofInt .single i))
    else none
  | .number d => some (.ofDatum (d.roundTo .single))
  | _ => none

/-- The word of an enumeration: a text, or a table with one entry whose value is as the rule
says. -/
def wordOr (content : Value → Bool) : Value → Option String
  | .text s => some s
  | .table [(name, v)] => if content v then some name else none
  | _ => none

def isEmptyCollection : Value → Bool
  | .list [] => true
  | .table [] => true
  | _ => false

def isNull : Value → Bool
  | .null => true
  | _ => false

def repeatsField (names : List String) (entries : List (String × Value)) : Bool :=
  names.any fun name => 1 < entries.countP fun e => e.1 = name

/-- The fields of a record that is given as a table or as a list in the order of the names. A table
has each of them once at most; other names may be repeated. -/
def recordFields (names : List String) : Value → Option (List (String × Value))
  | .table entries => if repeatsField names entries then none else some entries
  | .list items => some (names.zip items)
  | _ => none

/-- Whether the entries with other names than the given ones hold only what can be read. -/
def othersReadable (names : List String) (entries : List (String × Value)) : Bool :=
  entries.all fun e => e.1 ∈ names || e.2.all Value.isReadable

/-- The values of TOML documents as they are. A moment is a record without fields that it could be
taken for. All of a table is read, but of a list only as many items as the record has fields. -/
def toml : Reading where
  text := Value.text?
  flag := plainFlag
  number := plainNumber
  word := wordOr isEmptyCollection
  isAbsent _ := false
  fields names
    | .moment _ => some []
    | .table entries =>
      if othersReadable names entries then recordFields names (.table entries) else none
    | v => recordFields names v

/-- The values of JSON texts as they are. A list that stands for a record has no more items than
the record has fields. -/
def json : Reading where
  text := Value.text?
  flag := plainFlag
  number := plainNumber
  word := wordOr isNull
  isAbsent := isNull
  fields names
    -- Fields at the end may be missing, but no item may be left over.
    | .list items => if names.length < items.length then none else recordFields names (.list items)
    | v => recordFields names v

def looseText : Value → Option String
  | .text s => some s
  | .flag b => some (if b then "true" else "false")
  | .integer i => some (Number.signed (i < 0) (Number.digits i.natAbs))
  | .number d => some d.shortest
  | .moment s => some s
  | _ => none

/-- A scalar as a flag: a number is a flag by being different from zero, a text by one of eight
words. -/
def looseFlag : Value → Option Bool
  | .flag b => some b
  | .integer i => some (i ≠ 0)
  | .number d => some d.isNonzero
  | .text s =>
    let word := Text.lower s
    if word ∈ ["1", "true", "on", "yes"] then some true
    else if word ∈ ["0", "false", "off", "no"] then some false
    else none
  | _ => none

def looseDatum : Value → Option Number.Datum
  | .number d => some d
  | .integer i => some (.ofInt .double i)
  | .flag b => some (.ofInt .double (if b then 1 else 0))
  | .text s =>
    let word := Text.lower s
    if word ∈ ["true", "on", "yes"] then some (.ofInt .double 1)
    else if word ∈ ["false", "off", "no"] then some (.ofInt .double 0)
    else Number.Datum.read? s
  | _ => none

def layered : Reading where
  text := looseText
  flag := looseFlag
  number v := (looseDatum v).map fun d => .ofDatum (d.roundTo .single)
  -- The one entry of a table names a word, whatever its value is.
  word := wordOr fun _ => true
  isAbsent := isNull
  fields := recordFields

def required (entries : List (String × Value)) (name : String) (read : Value → Option α) :
    Option α :=
  (entries.lookup name).bind read

def defaulted (entries : List (String × Value)) (name : String) (read : Value → Option α)
    (absent : α) : Option α :=
  match entries.lookup name with
  | none => some absent
  | some v => read v

def optional (r : Reading) (read : Value → Option α) (v : Value) : Option (Option α) :=
  if r.isAbsent v then some none else (read v).map some

def list (read : Value → Option α) : Value → Option (List α)
  | .list items => items.mapM read
  | _ => none

def choice (r : Reading) (members : List α) (name : α → String) (v : Value) : Option α :=
  (r.word v).bind fun word => members.find? fun a => name a = word

end Reading

end StaticSite
