import StaticSite.Number.Binary

/-!
# Decimal numbers

A decimal is a sign, a coefficient and a power of ten. It is taken to the nearest datum of a binary
format. In the other direction, `oneDecimal` writes a datum with one digit after the point, and
`shortest` writes the fewest digits that read back, without an exponent.
-/

namespace StaticSite.Number

structure Decimal where
  negative : Bool
  coefficient : Nat
  exponent : Int
  deriving DecidableEq, Repr

def digits (n : Nat) : String := String.ofList (Nat.toDigits 10 n)

def digitCount (n : Nat) : Nat := (Nat.toDigits 10 n).length

/-- The nearest datum of a format. A decimal with more than 400 digits before the point is beyond
every format, and one with more than 400 zeros after it is below every format. -/
def Decimal.round (f : Format) (x : Decimal) : Datum :=
  let top := (digitCount x.coefficient : Int) + x.exponent
  if x.coefficient = 0 ∨ top < -400 then f.round x.negative 0 1
  else if 400 < top then .infinite x.negative
  else let (n, d) := scaleDown 10 x.coefficient 1 (-x.exponent); f.round x.negative n d

def ofDigits (cs : List Char) : Nat := cs.foldl (fun n c => 10 * n + (c.toNat - '0'.toNat)) 0

/-- A sign in front of a number: whether it is a minus, and what follows. -/
def takeSign : List Char → Bool × List Char
  | '-' :: rest => (true, rest)
  | '+' :: rest => (false, rest)
  | cs => (false, cs)

def takeDigits (cs : List Char) : List Char × List Char :=
  (cs.takeWhile Char.isDigit, cs.dropWhile Char.isDigit)

def exponent? : List Char → Option Int
  | [] => some 0
  | c :: rest =>
    if c = 'e' ∨ c = 'E' then
      let (negative, rest) := takeSign rest
      let (ds, rest) := takeDigits rest
      if ds = [] ∨ rest ≠ [] then none
      else some (if negative then -(ofDigits ds : Int) else ofDigits ds)
    else none

/-- An unsigned number: digits, optionally a point and digits, optionally an exponent. There is a
digit before or after the point. -/
def unsigned? (negative : Bool) (cs : List Char) : Option Decimal :=
  let (whole, rest) := takeDigits cs
  let (fraction, rest) := match rest with
    | '.' :: rest => takeDigits rest
    | rest => ([], rest)
  if whole = [] ∧ fraction = [] then none
  else
    (exponent? rest).map fun e => ⟨negative, ofDigits (whole ++ fraction), e - fraction.length⟩

/-- A number in any of the usual spellings, as a datum of the 64-bit format: a decimal, `inf`,
`infinity` or `nan`, with an optional sign, letter case ignored. -/
def Datum.read? (s : String) : Option Datum :=
  let (negative, cs) := takeSign s.toList
  let word := String.ofList (cs.map Char.toLower)
  if word = "inf" ∨ word = "infinity" then some (.infinite negative)
  else if word = "nan" then some .nan
  else (unsigned? negative cs).map (Decimal.round .double)

/-- The tenths nearest to a magnitude; a tie goes to the even tenth. -/
def tenths (significand : Nat) (exponent : Int) : Nat :=
  let (n, d) := Datum.magnitude significand exponent
  roundDiv (10 * n) d

def signed (negative : Bool) (s : String) : String := if negative then "-" ++ s else s

def Datum.oneDecimal : Datum → String
  | .nan => "NaN"
  | .infinite negative => signed negative "inf"
  | .finite negative m e =>
    let t := tenths m e
    signed negative (digits (t / 10) ++ "." ++ digits (t % 10))

def floorLog10 (num den : Nat) : Int :=
  if den ≤ num then (digitCount (num / den) : Int) - 1
  else -(digitCount ((den + num - 1) / num - 1) : Int)

/-- The multiple of `10 ^ k` nearest to a positive number among those that round to it. The numbers
that do lie between `low` and `high` quarters of a unit of the last bit, ends included for an even
significand. -/
def nearestOnGrid (m : Nat) (e : Int) (low high : Nat) (k : Int) : Option Nat :=
  let inside (c : Nat) : Bool :=
    let (cn, cd) := scaleDown 10 c 1 (-k)
    let (n, d) := Datum.magnitude 1 (e - 2)
    let left := cn * d
    let below := low * n * cd
    let above := high * n * cd
    if m % 2 = 0 then below ≤ left && left ≤ above else below < left && left < above
  let (vn, vd) := Datum.magnitude m e
  let (n, d) := scaleDown 10 vn vd k
  -- Only the two neighbours on the grid can lie inside.
  let nearest := roundDiv n d
  let other := if nearest * d ≤ n then nearest + 1 else nearest - 1
  if inside nearest then some nearest else if inside other then some other else none

/-- The shortest decimal that rounds to a positive datum of the 64-bit format, as a coefficient and
a power of ten. Seventeen digits are always enough. -/
def shortestDecimal (m : Nat) (e : Int) : Nat × Int :=
  -- Below a power of two the numbers are twice as close.
  let low := if m = 0x10000000000000 ∧ -1074 < e then 4 * m - 1 else 4 * m - 2
  let (vn, vd) := Datum.magnitude m e
  let top := floorLog10 vn vd
  let found := (List.range 17).findSome? fun (i : Nat) =>
    let k := top - (i : Int)
    (nearestOnGrid m e low (4 * m + 2) k).map fun c => (c, k)
  found.getD (0, 0)

def positional (c : Nat) (k : Int) : String :=
  if 0 ≤ k then digits (c * Nat.pow 10 k.toNat)
  else
    let places := (-k).toNat
    let ds := Nat.toDigits 10 c
    let ds := List.replicate (places + 1 - ds.length) '0' ++ ds
    let whole := ds.take (ds.length - places)
    let fraction := (((ds.drop (ds.length - places)).reverse.dropWhile (· = '0')).reverse)
    if fraction = [] then String.ofList whole else String.ofList (whole ++ '.' :: fraction)

def Datum.shortest : Datum → String
  | .nan => "NaN"
  | .infinite negative => signed negative "inf"
  | .finite negative m e =>
    if m = 0 then signed negative "0"
    else let (c, k) := shortestDecimal m e; signed negative (positional c k)

end StaticSite.Number
