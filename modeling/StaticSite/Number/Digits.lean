/-!
# Digits of a base

The values of digits and of numerals in a base up to sixteen, and the characters that code points
stand for.
-/

namespace StaticSite.Number

/-- The value of a digit, if it is one in the base. Letters may be small or capital. -/
def digitValue? (base : Nat) (c : Char) : Option Nat :=
  let value :=
    if '0' ≤ c ∧ c ≤ '9' then some (c.toNat - 48)
    else if 'a' ≤ c ∧ c ≤ 'f' then some (c.toNat - 87)
    else if 'A' ≤ c ∧ c ≤ 'F' then some (c.toNat - 55)
    else none
  value.filter (· < base)

def numeralFrom? (base : Nat) : Nat → List Char → Option Nat
  | n, [] => some n
  | n, c :: rest => do
    let d ← digitValue? base c
    numeralFrom? base (base * n + d) rest

def numeral? (base : Nat) (cs : List Char) : Option Nat :=
  if cs = [] then none else numeralFrom? base 0 cs

def takeNumeral? (base count : Nat) (cs : List Char) : Option (Nat × List Char) :=
  if cs.length < count then none
  else (numeral? base (cs.take count)).map fun n => (n, cs.drop count)

/-- The character of a code point that is not a surrogate. -/
def character? (n : Nat) : Option Char := if n.isValidChar then some (Char.ofNat n) else none

def padded (base width n : Nat) : String :=
  let ds := Nat.toDigits base n
  String.ofList (List.replicate (width - ds.length) '0' ++ ds)

end StaticSite.Number
