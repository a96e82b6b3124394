import StaticSite.Data.Value
import StaticSite.Number.Digits

/-!
# JSON

The grammar of JSON texts as a reader, and a printer without superfluous blanks. The reader takes
nothing but the grammar: control characters in strings, superfluous commas and leading zeros are
errors. A whole number is read as an integer, any other number as the nearest datum of the 64-bit
format; so is a minus sign before zero.
-/

namespace StaticSite.Json

def isSpace (c : Char) : Bool := c = ' ' || c = '\t' || c = '\n' || c = '\r'

def skip (cs : List Char) : List Char := cs.dropWhile isSpace

def after? (start cs : List Char) : Option (List Char) :=
  if start.isPrefixOf cs then some (cs.drop start.length) else none

/-- The digits before the point: a zero, or digits that do not begin with one. -/
def whole? (cs : List Char) : Option (List Char × List Char) :=
  match cs with
  | '0' :: rest => some (['0'], rest)
  | _ =>
    let (ds, rest) := Number.takeDigits cs
    if ds = [] then none else some (ds, rest)

def fraction? (cs : List Char) : Option (List Char × List Char) :=
  match cs with
  | '.' :: rest =>
    let (ds, rest) := Number.takeDigits rest
    if ds = [] then none else some (ds, rest)
  | _ => some ([], cs)

def power? (cs : List Char) : Option (Option Int × List Char) :=
  match cs with
  | c :: rest =>
    if c = 'e' ∨ c = 'E' then
      let (negative, rest) := Number.takeSign rest
      let (ds, rest) := Number.takeDigits rest
      let n : Int := Number.ofDigits ds
      if ds = [] then none else some (some (if negative then -n else n), rest)
    else some (none, cs)
  | [] => some (none, [])

/-- A number with an optional minus sign. Whole numbers of up to 64 bits stay integers. -/
def number? (cs : List Char) : Option (Value × List Char) := do
  let (negative, cs) := match cs with
    | '-' :: rest => (true, rest)
    | cs => (false, cs)
  let (ds, cs) ← whole? cs
  let (fs, cs) ← fraction? cs
  let (power, cs) ← power? cs
  let n := Number.ofDigits (ds ++ fs)
  let i : Int := if negative then -n else n
  -- Zero with a minus sign is no integer, since the sign would be lost.
  let fits := if negative then i < 0 && Number.fitsSigned 64 i else Number.fitsUnsigned 64 i
  if fs = [] ∧ power = none ∧ fits then return (.integer i, cs)
  else
    let decimal : Number.Decimal := ⟨negative, n, power.getD 0 - fs.length⟩
    return (.number (decimal.round .double), cs)

/-- The character after `\u`: four digits, or two halves of a surrogate pair. -/
def unicode? (cs : List Char) : Option (Char × List Char) := do
  let (high, rest) ← Number.takeNumeral? 16 4 cs
  if 0xD800 ≤ high ∧ high < 0xDC00 then
    let rest ← after? ['\\', 'u'] rest
    let (low, rest) ← Number.takeNumeral? 16 4 rest
    if 0xDC00 ≤ low ∧ low < 0xE000 then
      let c ← Number.character? (0x10000 + (high - 0xD800) * 1024 + (low - 0xDC00))
      return (c, rest)
    else none
  else
    let c ← Number.character? high
    return (c, rest)

def escape? (c : Char) : Option Char :=
  match c with
  | '"' => some '"'
  | '\\' => some '\\'
  | '/' => some '/'
  | 'b' => some '\x08'
  | 'f' => some '\x0c'
  | 'n' => some '\n'
  | 'r' => some '\r'
  | 't' => some '\t'
  | _ => none

/-- The characters of a string up to its closing quote, and what follows it. At most as many
characters are read as the first argument says. -/
def stringBody : Nat → List Char → Option (List Char × List Char)
  | 0, _ => none
  | _ + 1, [] => none
  | n + 1, c :: rest =>
    if c = '"' then some ([], rest)
    else if c = '\\' then
      match rest with
      | [] => none
      | e :: rest => do
        let (x, rest) ← if e = 'u' then unicode? rest else (escape? e).map fun x => (x, rest)
        let (s, rest) ← stringBody n rest
        return (x :: s, rest)
    else if c.toNat < 0x20 then none
    else do
      let (s, rest) ← stringBody n rest
      return (c :: s, rest)

def string? (cs : List Char) : Option (String × List Char) :=
  match cs with
  | '"' :: rest => (stringBody (rest.length + 1) rest).map fun (s, rest) => (String.ofList s, rest)
  | _ => none

mutual

/-- A value, at the start of a text. The first argument bounds the depth and the number of steps. -/
def value? : Nat → List Char → Option (Value × List Char)
  | 0, _ => none
  | n + 1, cs =>
    match cs with
    | [] => none
    | c :: rest =>
      -- The first character decides what kind of value follows.
      if c = '"' then (string? cs).map fun (s, rest) => (.text s, rest)
      else if c = '[' then
        match after? [']'] (skip rest) with
        | some rest => some (.list [], rest)
        | none => (items? n rest).map fun (items, rest) => (.list items, rest)
      else if c = '\x7b' then
        match after? ['\x7d'] (skip rest) with
        | some rest => some (.table [], rest)
        | none => (entries? n rest).map fun (entries, rest) => (.table entries, rest)
      else if c = 't' then (after? "true".toList cs).map fun rest => (.flag true, rest)
      else if c = 'f' then (after? "false".toList cs).map fun rest => (.flag false, rest)
      else if c = 'n' then (after? "null".toList cs).map fun rest => (.null, rest)
      else number? cs

def items? : Nat → List Char → Option (List Value × List Char)
  | 0, _ => none
  | n + 1, cs => do
    let (v, rest) ← value? n (skip cs)
    match skip rest with
    | ',' :: rest => (items? n rest).map fun (vs, rest) => (v :: vs, rest)
    | ']' :: rest => some ([v], rest)
    | _ => none

def entries? : Nat → List Char → Option (List (String × Value) × List Char)
  | 0, _ => none
  | n + 1, cs => do
    let (name, rest) ← string? (skip cs)
    let rest ← after? [':'] (skip rest)
    let (v, rest) ← value? n (skip rest)
    match skip rest with
    | ',' :: rest => (entries? n rest).map fun (es, rest) => ((name, v) :: es, rest)
    | '\x7d' :: rest => some ([(name, v)], rest)
    | _ => none

end

def parse (s : String) : Option Value :=
  let cs := s.toList
  match value? (cs.length + 1) (skip cs) with
  | some (v, rest) => if skip rest = [] then some v else none
  | none => none

def escapeLetter? (c : Char) : Option Char :=
  match c with
  | '"' => some '"'
  | '\\' => some '\\'
  | '\x08' => some 'b'
  | '\x0c' => some 'f'
  | '\n' => some 'n'
  | '\r' => some 'r'
  | '\t' => some 't'
  | _ => none

def printChar (c : Char) : List Char :=
  match escapeLetter? c with
  | some letter => ['\\', letter]
  | none =>
    if c.toNat < 0x20 then
      ['\\', 'u', '0', '0'] ++ [Nat.digitChar (c.toNat / 16), Nat.digitChar (c.toNat % 16)]
    else [c]

def printString (s : String) : String :=
  "\"" ++ String.ofList (s.toList.flatMap printChar) ++ "\""

mutual

/-- A value as JSON. Moments and numbers that cannot be read are written as texts, and data that are
no numbers as null. -/
def print : Value → String
  | .null => "null"
  | .flag b => if b then "true" else "false"
  | .integer i => toString i
  | .number (.finite negative m e) => (Number.Datum.finite negative m e).shortest
  | .number _ => "null"
  | .text s => printString s
  | .moment s => printString s
  | .unreadable s => printString s
  | .list [] => "[]"
  | .list (v :: rest) => "[" ++ print v ++ printItems rest ++ "]"
  | .table [] => "\x7b\x7d"
  | .table ((name, v) :: rest) =>
    "\x7b" ++ printString name ++ ":" ++ print v ++ printEntries rest ++ "\x7d"

def printItems : List Value → String
  | [] => ""
  | v :: rest => "," ++ print v ++ printItems rest

def printEntries : List (String × Value) → String
  | [] => ""
  | (name, v) :: rest => "," ++ printString name ++ ":" ++ print v ++ printEntries rest

end

end StaticSite.Json
