/-!
# Binary floating-point numbers

A datum is a signed zero or number `significand * 2 ^ exponent`, an infinity, or not a number. A
format says which data there are: how many bits a significand has, and between which exponents its
last bit lies. `Format.round` takes a quotient of natural numbers to the nearest datum of a format,
a tie to the even significand. All arithmetic is exact.
-/

namespace StaticSite.Number

/-- The natural number nearest to a quotient; a tie goes to the even neighbour. -/
def roundDiv (num den : Nat) : Nat :=
  let q := num / den
  let r := num % den
  if 2 * r < den ∨ (2 * r = den ∧ q % 2 = 0) then q else q + 1

/-- Numerator and denominator of `num / den / base ^ e`. -/
def scaleDown (base num den : Nat) (e : Int) : Nat × Nat :=
  if 0 ≤ e then (num, den * base.pow e.toNat) else (num * base.pow (-e).toNat, den)

/-- The greatest `k` with `2 ^ k ≤ num / den`, for positive arguments. -/
def floorLog2 (num den : Nat) : Int :=
  let k : Int := (Nat.log2 num : Int) - Nat.log2 den
  let (n, d) := scaleDown 2 num den k
  -- The difference of the logarithms is too large by one at most.
  if d ≤ n then k else k - 1

inductive Datum where
  | nan
  | infinite (negative : Bool)
  | finite (negative : Bool) (significand : Nat) (exponent : Int)
  deriving DecidableEq, Repr

/-- A binary format: the bits of a significand and the least and greatest exponent of the last
one. -/
structure Format where
  precision : Nat
  minExponent : Int
  maxExponent : Int

def Format.single : Format := ⟨24, -149, 104⟩

def Format.double : Format := ⟨53, -1074, 971⟩

/-- The datum of a format nearest to a signed quotient; a tie goes to the even significand. -/
def Format.round (f : Format) (negative : Bool) (num den : Nat) : Datum :=
  if num = 0 then .finite negative 0 f.minExponent
  else
    -- Below the least exponent numbers have fewer bits.
    let e := max (floorLog2 num den - (f.precision - 1)) f.minExponent
    let (n, d) := scaleDown 2 num den e
    let q := roundDiv n d
    -- Rounding up may need one more bit.
    let (q, e) := if q = Nat.pow 2 f.precision then (q / 2, e + 1) else (q, e)
    if f.maxExponent < e then .infinite negative else .finite negative q e

namespace Datum

def magnitude (significand : Nat) (exponent : Int) : Nat × Nat :=
  scaleDown 2 significand 1 (-exponent)

def roundTo (f : Format) : Datum → Datum
  | .nan => .nan
  | .infinite negative => .infinite negative
  | .finite negative m e => let (n, d) := magnitude m e; f.round negative n d

def ofInt (f : Format) (i : Int) : Datum := f.round (i < 0) i.natAbs 1

/-- Whether a datum is different from zero; not-a-number is. -/
def isNonzero : Datum → Bool
  | .finite _ m _ => m ≠ 0
  | _ => true

def inUnitInterval : Datum → Bool
  | .finite negative m e => let (n, d) := magnitude m e; m = 0 || (!negative && n ≤ d)
  | _ => false

end Datum

def fitsSigned (bits : Nat) (i : Int) : Bool :=
  let half : Int := Nat.pow 2 (bits - 1)
  (-half ≤ i) && (i < half)

def fitsUnsigned (bits : Nat) (i : Int) : Bool :=
  (0 ≤ i) && (i < Nat.pow 2 bits)

/-- A 32-bit number by its bits: a sign bit, eight bits of exponent, and 23 bits of significand. -/
structure Binary32 where
  bits : UInt32
  deriving DecidableEq, Repr

namespace Binary32

def toDatum (x : Binary32) : Datum :=
  let n := x.bits.toNat
  let negative : Bool := n / 0x80000000 = 1
  let exponent : Nat := n / 0x800000 % 256
  let fraction : Nat := n % 0x800000
  if exponent = 255 then if fraction = 0 then .infinite negative else .nan
  else if exponent = 0 then .finite negative fraction (-149)
  else .finite negative (0x800000 + fraction) ((exponent : Int) - 150)

def ofDatum : Datum → Binary32
  | .nan => ⟨0x7FC00000⟩
  | .infinite negative => ⟨if negative then 0xFF800000 else 0x7F800000⟩
  | .finite negative m e =>
    let sign := if negative then 0x80000000 else 0
    let body := if m < 0x800000 then m else ((e + 150).toNat - 1) * 0x800000 + m
    ⟨UInt32.ofNat (sign + body)⟩

def half : Binary32 := ⟨0x3F000000⟩

end Binary32

end StaticSite.Number
