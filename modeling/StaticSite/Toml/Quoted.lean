import StaticSite.Number.Digits
import StaticSite.Toml.Spacing

/-!
# Strings of TOML documents

A string stands between double quotes, with escapes, or between single quotes, without. Tripled
quotes enclose several lines: a line end right after the opening quotes does not belong to the
string, and of a run of quotes at the end the last three close it.
-/

namespace StaticSite.Toml

def codePoint? (count : Nat) (cs : List Char) : Option (Char × List Char) := do
  let (n, rest) ← Number.takeNumeral? 16 count cs
  return (← Number.character? n, rest)

def escape? : List Char → Option (Char × List Char)
  | 'b' :: rest => some ('\x08', rest)
  | 't' :: rest => some ('\t', rest)
  | 'n' :: rest => some ('\n', rest)
  | 'f' :: rest => some ('\x0c', rest)
  | 'r' :: rest => some ('\r', rest)
  | 'e' :: rest => some ('\x1b', rest)
  | '"' :: rest => some ('"', rest)
  | '\\' :: rest => some ('\\', rest)
  | 'x' :: rest => codePoint? 2 rest
  | 'u' :: rest => codePoint? 4 rest
  | 'U' :: rest => codePoint? 8 rest
  | _ => none

/-- What follows a backslash at the end of a line: the line end and all spaces and line ends after
it. -/
def continuation? (cs : List Char) : Option (List Char) :=
  (newline? (skipSpaces cs)).map fun rest => skipBlankLines (rest.length + 1) rest

structure Enclosure where
  quote : Char
  tripled : Bool

/-- At a quote: the quotes that still belong to the string, and what follows the closing ones. Up
to two quotes may stand before three closing ones. -/
def closing? (e : Enclosure) (cs : List Char) : Option (List Char × List Char) :=
  let run := (cs.takeWhile (· = e.quote)).length
  if !e.tripled then some ([], cs.drop 1)
  else if run < 3 then none
  else let k := min run 5; some (List.replicate (k - 3) e.quote, cs.drop k)

/-- A string up to its closing quotes, with what follows them. At most as many steps are made as
the first argument says. -/
def stringBody (e : Enclosure) : Nat → List Char → Option (List Char × List Char)
  | 0, _ => none
  | _ + 1, [] => none
  | n + 1, c :: rest =>
    if c = e.quote then
      match closing? e (c :: rest) with
      | some (inner, after) => some (inner, after)
      | none => (stringBody e n rest).map fun (s, after) => (c :: s, after)
    else if c = '\\' ∧ e.quote = '"' then
      match if e.tripled then continuation? rest else none with
      | some rest => stringBody e n rest
      | none => do
        let (x, rest) ← escape? rest
        let (s, after) ← stringBody e n rest
        return (x :: s, after)
    else if isPrintable c ∨ (e.tripled ∧ (newline? (c :: rest)).isSome) then
      (stringBody e n rest).map fun (s, after) => (c :: s, after)
    else none

def enclosed? (e : Enclosure) (cs : List Char) : Option (String × List Char) :=
  let cs := if e.tripled then (newline? cs).getD cs else cs
  (stringBody e (cs.length + 1) cs).map fun (s, after) => (String.ofList s, after)

def line? : List Char → Option (String × List Char)
  | '"' :: rest => enclosed? ⟨'"', false⟩ rest
  | '\'' :: rest => enclosed? ⟨'\'', false⟩ rest
  | _ => none

def string? : List Char → Option (String × List Char)
  | '"' :: '"' :: '"' :: rest => enclosed? ⟨'"', true⟩ rest
  | '\'' :: '\'' :: '\'' :: rest => enclosed? ⟨'\'', true⟩ rest
  | cs => line? cs

end StaticSite.Toml
