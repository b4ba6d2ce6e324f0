/-
Integers as text.

Reading is generous.  Blanks may stand around the numeral and one sign before its
digits, single low lines may stand between digits, and the decimal digits of every
script count as their values.  A hexadecimal numeral may also announce itself by
`0x` or `0X`, after which one low line is allowed.  A decimal numeral has at most
`Radix.decimalLimit` digits.

Writing is plain: decimal, or upper case hexadecimal in at least two places.  It is
idealised in that it has no limit of digits.
-/
import AssemblerTables.Text.Blank
import AssemblerTables.Text.Digit

namespace AssemblerTables

inductive Radix where
  | decimal
  | hexadecimal
deriving DecidableEq, Repr

namespace Radix

def size : Radix → Nat
  | .decimal => 10
  | .hexadecimal => 16

/-- The most digits that a decimal numeral may have.  The conversion of a longer one
takes time out of proportion, so it is refused.  Hexadecimal numerals convert in
linear time and have no limit. -/
def decimalLimit : Nat := 4300

def admits (r : Radix) (digits : Nat) : Bool :=
  match r with
  | .decimal => digits ≤ decimalLimit
  | .hexadecimal => true

end Radix

namespace Numeral

/-- The value of an ASCII digit or of one of the letters `a` to `f` in either case. -/
def asciiValue? (c : Char) : Option Nat :=
  if '0' ≤ c ∧ c ≤ '9' then some (c.toNat - 48)
  else if 'a' ≤ c ∧ c ≤ 'f' then some (c.toNat - 87)
  else if 'A' ≤ c ∧ c ≤ 'F' then some (c.toNat - 55)
  else none

def digitValue? (r : Radix) (c : Char) : Option Nat :=
  (asciiValue? c).filter (· < r.size)

/-! ## Reading -/

/-- The blanks that may surround a numeral: all but the four information separators. -/
def isMargin (c : Char) : Bool :=
  Text.isBlank c && !(28 ≤ c.toNat && c.toNat ≤ 31)

/-- A decimal digit of any script as the ASCII digit of the same value. -/
def plainDigit (c : Char) : Char :=
  match Text.decimalValue? c with
  | some d => Nat.digitChar d
  | none => c

/-- A numeral without the blanks around it and with ASCII digits throughout. -/
def plain (s : List Char) : List Char :=
  (Text.dropEnd isMargin (Text.dropStart isMargin s)).map plainDigit

/-- Further digits after a value read so far, each alone or behind one low line. -/
def digitsAfter? (r : Radix) : Nat → List Char → Option Nat
  | value, [] => some value
  | value, '_' :: c :: rest =>
    match digitValue? r c with
    | some d => digitsAfter? r (value * r.size + d) rest
    | none => none
  | value, c :: rest =>
    match digitValue? r c with
    | some d => digitsAfter? r (value * r.size + d) rest
    | none => none

def digits? (r : Radix) : List Char → Option Nat
  | [] => none
  | c :: rest =>
    match digitValue? r c with
    | some d => digitsAfter? r d rest
    | none => none

/-- The numeral behind its announcement, if it has one.  Only a hexadecimal numeral
has; one low line may follow it. -/
def announced : Radix → List Char → List Char
  | .hexadecimal, '0' :: x :: rest =>
    if x = 'x' ∨ x = 'X' then
      match rest with
      | '_' :: rest => rest
      | rest => rest
    else '0' :: x :: rest
  | _, s => s

def digitCount (s : List Char) : Nat :=
  (s.filter (· ≠ '_')).length

def magnitude? (r : Radix) (s : List Char) : Option Nat :=
  let body := announced r s
  if r.admits (digitCount body) then digits? r body else none

def readChars? (r : Radix) (s : List Char) : Option Int :=
  match plain s with
  | '-' :: rest => (magnitude? r rest).map fun n => -(n : Int)
  | '+' :: rest => (magnitude? r rest).map fun n => (n : Int)
  | rest => (magnitude? r rest).map fun n => (n : Int)

def read? (r : Radix) (s : String) : Option Int :=
  readChars? r s.toList

/-! ## Writing -/

/-- Upper case hexadecimal digits, without a sign and without leading zeros. -/
def hexNat (n : Nat) : String :=
  String.ofList ((Nat.toDigits 16 n).map Char.toUpper)

/-- Hexadecimal in at least two places, of which a sign takes one. -/
def hex (n : Int) : String :=
  match n with
  | .ofNat n => if n < 16 then "0" ++ hexNat n else hexNat n
  | .negSucc n => "-" ++ hexNat (n + 1)

/-- All decimal digits, however many, as wherever a text shows an integer.  A conversion that
takes `Radix.decimalLimit` for a limit on writing too would fail on longer ones.  Integers that
were read from decimals are within it, so only one that a caller makes can be longer. -/
def decimal (n : Int) : String :=
  toString n

end Numeral
end AssemblerTables
