import StaticSite.Toml.Moment
import StaticSite.Toml.Numeral
import StaticSite.Toml.Quoted

/-!
# Scalars of TOML documents

Strings, flags, numbers and moments. An unquoted scalar is one word, which ends at a blank, a
comment or the punctuation of lists and tables; a date and a time may be two words.
-/

namespace StaticSite.Toml

def isWordChar (c : Char) : Bool :=
  !(isSpace c || c ∈ ['\r', '\n', '#', '=', ',', '[', ']', '\x7b', '\x7d'])

/-- The scalar that a word stands for. What has a dash or a colon after its first digits is meant as
a moment. -/
def word? (cs : List Char) : Option Value :=
  let (negative, unsigned) := Number.takeSign cs
  if cs = "true".toList then some (.flag true)
  else if cs = "false".toList then some (.flag false)
  else if unsigned = "inf".toList then some (.number (.infinite negative))
  else if unsigned = "nan".toList then some (.number .nan)
  else
    match unsigned.dropWhile Char.isDigit with
    | '-' :: _ => (moment? cs).map .moment
    | ':' :: _ => (moment? cs).map .moment
    | _ => number? cs

/-- The word here, with what follows it. A date takes a time after one space with it. -/
def takeWord (cs : List Char) : List Char × List Char :=
  let word := cs.takeWhile isWordChar
  match date? word, cs.dropWhile isWordChar with
  | some (_, []), ' ' :: d :: rest =>
    if d.isDigit then
      (word ++ ' ' :: (d :: rest).takeWhile isWordChar, (d :: rest).dropWhile isWordChar)
    else (word, ' ' :: d :: rest)
  | _, rest => (word, rest)

def scalar? (cs : List Char) : Option (Value × List Char) :=
  match cs with
  | '"' :: _ => (string? cs).map fun (s, rest) => (.text s, rest)
  | '\'' :: _ => (string? cs).map fun (s, rest) => (.text s, rest)
  | _ => let (word, rest) := takeWord cs; (word? word).map fun v => (v, rest)

end StaticSite.Toml
