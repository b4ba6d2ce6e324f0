/-
Binary floating-point values with 53 significant bits, and how they are written.

A finite value is `m · 2 ^ q` with its sign kept apart, so that there is a
negative zero.  `ofDecimal` takes the value nearest to a decimal fraction, of two
equally near ones that with an even `m`.  `text` writes the fewest digits that
read back to the value, of those the nearest; positionally from the fourth place
after the point up to sixteen digits before it, and with a signed exponent of at
least two digits otherwise.  All arithmetic is exact, on naturals.
-/

namespace AssemblerTables

inductive Binary64 where
  | finite (negative : Bool) (m : Nat) (q : Int)
  | infinite (negative : Bool)
  | nan
deriving DecidableEq, Repr

namespace Binary64

/-- Powers are the built-in ones, whatever else is imported. -/
local instance (priority := high) natPow : Pow Nat Nat :=
  instPowNat

/-! ## The nearest value -/

/-- The least exponent of a finite value; the subnormal values have it. -/
def minExponent : Int := -1074

def maxExponent : Int := 971

/-- `num / den` rounded to an integer, halves to the even neighbour. -/
def roundHalfEven (num den : Nat) : Nat :=
  let down := num / den
  let left := 2 * (num % den)
  if left < den then down
  else if den < left then down + 1
  else if down % 2 = 0 then down else down + 1

/-- `n · 2 ^ e` as a numerator and a denominator, `n` being one itself. -/
def scaled (num den : Nat) (e : Int) : Nat × Nat :=
  (num * 2 ^ e.toNat, den * 2 ^ (-e).toNat)

/-- The finite or infinite value nearest to the positive fraction `num / den`. -/
def ofFraction (negative : Bool) (num den : Nat) : Binary64 :=
  let guess : Int := (num.log2 : Int) - den.log2 - 53
  let (n, d) := scaled num den (-guess)
  let q := max minExponent (if n < d * 2 ^ (53 : Nat) then guess else guess + 1)
  let (n, d) := scaled num den (-q)
  let m := roundHalfEven n d
  let (m, q) := if m = 2 ^ (53 : Nat) then (2 ^ (52 : Nat), q + 1) else (m, q)
  if maxExponent < q then .infinite negative else .finite negative m q

/-- The value nearest to `digits · 10 ^ exponent`.  Far outside the range the digits
need not be looked at. -/
def ofDecimal (negative : Bool) (digits : Nat) (exponent : Int) : Binary64 :=
  let places : Int := (Nat.toDigits 10 digits).length + exponent
  if digits = 0 ∨ places < -330 then .finite negative 0 minExponent
  else if 310 < places then .infinite negative
  else ofFraction negative (digits * 10 ^ exponent.toNat) (10 ^ (-exponent).toNat)

/-! ## The shortest decimal -/

structure Decimal where
  digits : Nat
  exponent : Int
deriving DecidableEq, Repr

/-- Compares `a · 10 ^ i` with `n · 2 ^ j`. -/
def compareScaled (a : Nat) (i : Int) (n : Nat) (j : Int) : Ordering :=
  compare (a * 10 ^ i.toNat * 2 ^ (-j).toNat) (n * 2 ^ j.toNat * 10 ^ (-i).toNat)

/-- Does the decimal round to `m · 2 ^ q`?  It does between the midpoints to the two
neighbours, which belong to the even value.  Below a power of two the neighbour is
half as far away. -/
def readsBack (m : Nat) (q : Int) (d : Decimal) : Bool :=
  let low := if m = 2 ^ (52 : Nat) ∧ minExponent < q then 4 * m - 1 else 4 * m - 2
  let atLow := compareScaled d.digits d.exponent low (q - 2)
  let atHigh := compareScaled d.digits d.exponent (4 * m + 2) (q - 2)
  let even := m % 2 == 0
  (atLow == .gt || (even && atLow == .eq)) && (atHigh == .lt || (even && atHigh == .eq))

/-- The least `k` with `m · 2 ^ q < 10 ^ k`: the number of places before the point,
negative for values with zeros after it. -/
def places (m : Nat) (q : Int) : Int :=
  let candidates := (List.range 640).map fun (i : Nat) => (i : Int) - 325
  (candidates.find? fun k => compareScaled 1 k m q == .gt).getD 0

/-- Of the two decimals with the given exponent next to the value, the nearer one that
reads back; of two equally near, the even one. -/
def nearestOnGrid? (m : Nat) (q : Int) (exponent : Int) : Option Decimal :=
  let (num, den) := scaled m 1 q
  let num := num * 10 ^ (-exponent).toNat
  let den := den * 10 ^ exponent.toNat
  let down : Decimal := { digits := num / den, exponent := exponent }
  let up : Decimal := { digits := num / den + 1, exponent := exponent }
  match readsBack m q down, readsBack m q up with
  | true, true => some (if roundHalfEven num den = down.digits then down else up)
  | true, false => some down
  | false, true => some up
  | false, false => none

def exact (m : Nat) (q : Int) : Decimal :=
  { digits := m * 2 ^ q.toNat * 5 ^ (-q).toNat, exponent := min q 0 }

/-- The decimal with the fewest digits that reads back.  Seventeen always suffice. -/
def shortest (m : Nat) (q : Int) : Decimal :=
  let k := places m q
  ((List.range 17).findSome? fun (n : Nat) => nearestOnGrid? m q (k - (n + 1))).getD (exact m q)

/-! ## Notation -/

/-- The digits of a decimal without the zeros at its end, and the number of places
before the point. -/
def significant (d : Decimal) : List Char × Int :=
  let digits := Nat.toDigits 10 d.digits
  ((digits.reverse.dropWhile (· = '0')).reverse, digits.length + d.exponent)

def zeros (n : Int) : List Char :=
  List.replicate n.toNat '0'

def positional (digits : List Char) (point : Int) : List Char :=
  if point ≤ 0 then '0' :: '.' :: zeros (-point) ++ digits
  else if digits.length ≤ point.toNat then digits ++ zeros (point - digits.length) ++ ['.', '0']
  else digits.take point.toNat ++ '.' :: digits.drop point.toNat

def withExponent (digits : List Char) (point : Int) : List Char :=
  let e := point - 1
  let size := Nat.toDigits 10 e.natAbs
  digits.take 1 ++ (if digits.length ≤ 1 then [] else '.' :: digits.drop 1) ++
    'e' :: (if e < 0 then '-' else '+') :: (if size.length < 2 then '0' :: size else size)

def magnitudeText (m : Nat) (q : Int) : List Char :=
  if m = 0 then ['0', '.', '0']
  else
    let (digits, point) := significant (shortest m q)
    if -4 < point ∧ point ≤ 16 then positional digits point else withExponent digits point

def sign (negative : Bool) : List Char :=
  if negative then ['-'] else []

def chars : Binary64 → List Char
  | .finite negative m q => sign negative ++ magnitudeText m q
  | .infinite negative => sign negative ++ ['i', 'n', 'f']
  | .nan => ['n', 'a', 'n']

def text (x : Binary64) : String :=
  String.ofList x.chars

end Binary64
end AssemblerTables
