import StaticSite.Calendar.Date
import StaticSite.Number.Digits

/-!
# Dates and times of TOML documents

A moment is a date, a time, or both with an optional offset. Its normal spelling has a capital `T`
between date and time, no zeros at the end of a fraction of a second, and an offset in hours and
minutes or a capital `Z`.
-/

namespace StaticSite.Toml

/-- A time of day. Seconds may be left out; their fraction is a list of digits. -/
structure TimeOfDay where
  hour : Nat
  minute : Nat
  second : Option Nat
  fraction : Option (List Char)

inductive Offset where
  | universal
  | minutes (total : Int)

def bounded? (count low high : Nat) (cs : List Char) : Option (Nat × List Char) :=
  (Number.takeNumeral? 10 count cs).filter fun (n, _) => low ≤ n && n ≤ high

def afterChar? (c : Char) : List Char → Option (List Char)
  | [] => none
  | x :: rest => if x = c then some rest else none

def date? (cs : List Char) : Option (Calendar.Date × List Char) := do
  let (year, cs) ← Number.takeNumeral? 10 4 cs
  let cs ← afterChar? '-' cs
  let (month, cs) ← bounded? 2 1 12 cs
  let cs ← afterChar? '-' cs
  let (day, cs) ← bounded? 2 1 (Calendar.daysInMonth year month) cs
  return (⟨year, month, day⟩, cs)

/-- The fraction of a second: a point and at least one digit, of which nine count. -/
def fraction? : List Char → Option (Option (List Char) × List Char)
  | '.' :: rest =>
    let ds := rest.takeWhile Char.isDigit
    if ds = [] then none else some (some (ds.take 9), rest.dropWhile Char.isDigit)
  | cs => some (none, cs)

def seconds? (cs : List Char) : Option (Option Nat × Option (List Char) × List Char) :=
  match cs with
  | ':' :: cs => do
    let (second, cs) ← bounded? 2 0 60 cs
    let (fraction, cs) ← fraction? cs
    return (some second, fraction, cs)
  | cs => some (none, none, cs)

def time? (cs : List Char) : Option (TimeOfDay × List Char) := do
  let (hour, cs) ← bounded? 2 0 23 cs
  let cs ← afterChar? ':' cs
  let (minute, cs) ← bounded? 2 0 59 cs
  let (second, fraction, cs) ← seconds? cs
  return (⟨hour, minute, second, fraction⟩, cs)

def offset? : List Char → Option (Option Offset)
  | [] => some none
  | ['Z'] => some (some .universal)
  | ['z'] => some (some .universal)
  | c :: cs =>
    if c = '+' ∨ c = '-' then do
      let (hours, cs) ← bounded? 2 0 23 cs
      let cs ← afterChar? ':' cs
      let (minutes, cs) ← bounded? 2 0 59 cs
      let total : Int := 60 * hours + minutes
      if cs = [] then some (some (.minutes (if c = '-' then -total else total))) else none
    else none

def TimeOfDay.spelling (t : TimeOfDay) : String :=
  let second := match t.second with
    | none => ""
    | some s => ":" ++ Calendar.padded 2 s
  let fraction := match t.fraction with
    | none => ""
    | some ds =>
      let ds := (ds.reverse.dropWhile (· = '0')).reverse
      "." ++ (if ds = [] then "0" else String.ofList ds)
  Calendar.padded 2 t.hour ++ ":" ++ Calendar.padded 2 t.minute ++ second ++ fraction

def Offset.spelling : Offset → String
  | .universal => "Z"
  | .minutes total =>
    let n := total.natAbs
    (if total < 0 then "-" else "+") ++ Calendar.padded 2 (n / 60) ++ ":" ++
      Calendar.padded 2 (n % 60)

/-- The normal spelling of a moment, where a text is one. -/
def moment? (cs : List Char) : Option String :=
  match date? cs with
  | some (date, []) => some date.iso
  | some (date, separator :: cs) =>
    if separator ∈ ['T', 't', ' '] then do
      let (time, cs) ← time? cs
      let offset ← offset? cs
      let tail := match offset with
        | none => ""
        | some o => o.spelling
      return date.iso ++ "T" ++ time.spelling ++ tail
    else none
  | none =>
    match time? cs with
    | some (time, []) => some time.spelling
    | _ => none

end StaticSite.Toml
