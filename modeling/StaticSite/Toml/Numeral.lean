import StaticSite.Data.Value
import StaticSite.Number.Digits
import StaticSite.Text.Blank

/-!
# Numbers of TOML documents

The spelling of a number decides whether a document may hold it: its base, its sign, zeros in front,
underscores between digits, and the parts of a decimal. What the number stands for is another
question: digits beyond the base and numbers beyond all widths have a spelling but no value, and
that is an error only for a reader who needs the value.
-/

namespace StaticSite.Toml

def isHexDigit (c : Char) : Bool := (Number.digitValue? 16 c).isSome

/-- A number without its underscores. An underscore stands before a digit, and after a digit or a
lone sign. -/
def withoutUnderscores? (isDigit : Char → Bool) (cs : List Char) : Option (List Char) :=
  match Text.splitOn (· == '_') cs with
  | first :: group :: groups =>
    let opens (group : List Char) := group.head?.any isDigit
    let closes (group : List Char) := group.getLast?.any isDigit
    let groups := group :: groups
    if (first.length = 1 || closes first) && groups.all opens && groups.dropLast.all closes then
      some (first ++ groups.flatten)
    else none
  | _ => some cs

/-- A whole number in a base. Whole numbers have at most 128 bits. -/
def wholeNumber (base : Nat) (cs : List Char) : Value :=
  let (negative, ds) := Number.takeSign cs
  let i? := (Number.numeral? base ds).map fun n => if negative then -(n : Int) else n
  match i?.filter fun i => Number.fitsSigned 128 i || Number.fitsUnsigned 128 i with
  | some i => .integer i
  | none => .unreadable (String.ofList cs)

/-- A floating-point number. It lies within the bounds of the 64-bit format. -/
def decimalNumber (cs : List Char) : Value :=
  match Number.Datum.read? (String.ofList cs) with
  | some (.finite negative m e) => .number (.finite negative m e)
  | _ => .unreadable (String.ofList cs)

/-- What follows digits, with underscores, of which at least one is there. Where zeros in front are
not allowed, several digits do not begin with one. -/
def afterDigits? (zerosInFront : Bool) (cs : List Char) : Option (List Char) :=
  let run := cs.takeWhile fun c => c.isDigit || c == '_'
  let count := run.countP Char.isDigit
  if count = 0 ∨ (1 < count ∧ cs.head? = some '0' ∧ !zerosInFront) then none
  else some (cs.drop run.length)

def afterDecimal? (cs : List Char) : Option (List Char) := do
  let rest ← afterDigits? false cs
  let rest ← match rest with
    | '.' :: rest => afterDigits? true rest
    | rest => some rest
  match rest with
  | [] => return []
  | c :: rest =>
    if c = 'e' ∨ c = 'E' then afterDigits? true (Number.takeSign rest).2 else return c :: rest

/-- Whether a text without its sign begins like a whole number: digits without a zero in front, and
after them nothing or an underscore. -/
def beginsWhole (cs : List Char) : Bool :=
  let tail := cs.dropWhile Char.isDigit
  cs = ['0'] || (cs ≠ [] && cs.head? ≠ some '0' && (tail = [] || tail.head? = some '_'))

def based? (base : Nat) (cs : List Char) : Option Value :=
  if cs.all fun c => c == '_' || (Number.digitValue? base c).isSome then
    (withoutUnderscores? isHexDigit cs).map (wholeNumber base)
  else none

def number? (cs : List Char) : Option Value :=
  match cs with
  | '0' :: 'x' :: rest => based? 16 rest
  | '0' :: 'o' :: rest => based? 8 rest
  | '0' :: 'b' :: rest => based? 2 rest
  | _ =>
    let unsigned := (Number.takeSign cs).2
    if (unsigned.dropWhile Char.isDigit).any fun c => c ∈ ['.', 'e', 'E'] then
      if afterDecimal? unsigned = some [] then
        (withoutUnderscores? Char.isDigit cs).map decimalNumber
      else none
    else if beginsWhole unsigned then (withoutUnderscores? isHexDigit cs).map (wholeNumber 10)
    else none

end StaticSite.Toml
