/-
Reading JSON text.

The grammar is the published one, with `NaN`, `Infinity` and `-Infinity` as further
numbers.  Control characters inside strings are refused.  A fault tells what was
expected and where; the place is that of the first character that does not fit,
except that a string without an end is told by its beginning and a bad escape by
its backslash or its `u`.

Reading works on what is left of the text, so inside this module a place is the
number of characters left; `read` turns it into a position.
-/
import AssemblerTables.Json.Value
import AssemblerTables.Text.Lines

namespace AssemblerTables
namespace Json

inductive Reason where
  | value
  | memberName
  | colon
  | comma
  | moreData
  | openString
  | controlCharacter
  | escape
  | unicodeEscape
  | byteOrderMark
deriving DecidableEq, Repr

def Reason.text : Reason → String
  | .value => "Expecting value"
  | .memberName => "Expecting property name enclosed in double quotes"
  | .colon => "Expecting ':' delimiter"
  | .comma => "Expecting ',' delimiter"
  | .moreData => "Extra data"
  | .openString => "Unterminated string starting at"
  | .controlCharacter => "Invalid control character at"
  | .escape => "Invalid \\escape"
  | .unicodeEscape => "Invalid \\uXXXX escape"
  | .byteOrderMark => "Unexpected UTF-8 BOM (decode using utf-8-sig)"

/-- Why reading stopped: the text is no JSON with `left` characters to go, or an
integer has more digits than a decimal numeral may have. -/
inductive Stop where
  | malformed (reason : Reason) (left : Nat)
  | tooManyDigits (count : Nat)

/-- A part of the text read, and what is left. -/
abbrev Reading (α : Type) : Type := Except Stop (α × List Char)

def stop {α : Type} (reason : Reason) (left : List Char) : Except Stop α :=
  .error (.malformed reason left.length)

def isSpace (c : Char) : Bool :=
  c = ' ' || c = '\t' || c = '\n' || c = '\r'

def skipSpace (s : List Char) : List Char :=
  s.dropWhile isSpace

/-! ## Strings -/

def hex4? (a b c d : Char) : Option Nat :=
  match Numeral.asciiValue? a, Numeral.asciiValue? b, Numeral.asciiValue? c,
      Numeral.asciiValue? d with
  | some a, some b, some c, some d => some (((a * 16 + b) * 16 + c) * 16 + d)
  | _, _, _, _ => none

def isHighSurrogate (n : Nat) : Bool := 0xD800 ≤ n && n < 0xDC00

def isLowSurrogate (n : Nat) : Bool := 0xDC00 ≤ n && n < 0xE000

/-- The character of a sixteen-bit unit.  A surrogate without its partner has none and
is replaced. -/
def unitChar (n : Nat) : Char :=
  if isHighSurrogate n || isLowSurrogate n then Char.ofNat 0xFFFD else Char.ofNat n

def pairChar (high low : Nat) : Char :=
  Char.ofNat (0x10000 + (high - 0xD800) * 0x400 + (low - 0xDC00))

def escaped? (c : Char) : Option Char :=
  match c with
  | '"' => some '"'
  | '\\' => some '\\'
  | '/' => some '/'
  | 'b' => some '\x08'
  | 'f' => some '\x0c'
  | 'n' => some '\n'
  | 'r' => some '\r'
  | 't' => some '\t'
  | _ => none

def cons (c : Char) (r : Reading (List Char)) : Reading (List Char) :=
  r.map fun (s, rest) => (c :: s, rest)

/-- The unit that a complete escape at the start of `s` gives, if such an escape with a
character behind it stands there: `some none` for one with bad digits. -/
def unitAhead? (s : List Char) : Option (Option Nat) :=
  match s with
  | '\\' :: 'u' :: a :: b :: c :: d :: _ :: _ => some (hex4? a b c d)
  | _ => none

/-- The rest of a string up to its closing quote.  `opened` is what was left at its
opening quote, and `high` the first unit of a pair whose second has been seen to
follow.  A unit escape needs one more character behind it. -/
def stringRest (opened : List Char) : Option Nat → List Char → Reading (List Char)
  | _, [] => stop .openString opened
  | _, ['\\'] => stop .openString opened
  | _, '"' :: rest => .ok ([], rest)
  | high, '\\' :: 'u' :: rest =>
    match rest with
    | a :: b :: c :: d :: tail =>
      match tail, hex4? a b c d with
      | [], _ => stop .unicodeEscape ('u' :: rest)
      | _, none => stop .unicodeEscape ('u' :: rest)
      | _, some n =>
        match high with
        | some first => cons (pairChar first n) (stringRest opened none tail)
        | none =>
          match isHighSurrogate n, unitAhead? tail with
          | true, some none => stop .unicodeEscape (tail.drop 1)
          | true, some (some low) =>
            if isLowSurrogate low then stringRest opened (some n) tail
            else cons (unitChar n) (stringRest opened none tail)
          | _, _ => cons (unitChar n) (stringRest opened none tail)
    | _ => stop .unicodeEscape ('u' :: rest)
  | _, '\\' :: c :: rest =>
    match escaped? c with
    | some e => cons e (stringRest opened none rest)
    | none => stop .escape ('\\' :: c :: rest)
  | _, c :: rest =>
    if c.toNat < 0x20 then stop .controlCharacter (c :: rest)
    else cons c (stringRest opened none rest)

def string (s : List Char) : Reading String :=
  (stringRest ('"' :: s) none s).map fun (chars, rest) => (String.ofList chars, rest)

/-! ## Numbers -/

def natOf (digits : List Char) : Nat :=
  digits.foldl (fun n c => n * 10 + (c.toNat - 48)) 0

/-- The digits before the point: a single zero, or digits that do not start with
one. -/
def wholePart? : List Char → Option (List Char × List Char)
  | '0' :: rest => some (['0'], rest)
  | c :: rest => if c.isDigit then some ((c :: rest).span Char.isDigit) else none
  | [] => none

def fraction : List Char → List Char × List Char
  | '.' :: rest =>
    match rest.span Char.isDigit with
    | ([], _) => ([], '.' :: rest)
    | read => read
  | s => ([], s)

def exponent? (s : List Char) : Option (Int × List Char) :=
  match s with
  | e :: rest =>
    if e = 'e' ∨ e = 'E' then
      let (negative, rest) :=
        match rest with
        | '-' :: rest => (true, rest)
        | '+' :: rest => (false, rest)
        | rest => (false, rest)
      match rest.span Char.isDigit with
      | ([], _) => none
      | (digits, rest) =>
        some (if negative then -(natOf digits : Int) else (natOf digits : Int), rest)
    else none
  | [] => none

def signed (negative : Bool) (n : Nat) : Int :=
  if negative then -(n : Int) else n

/-- A number: an integer unless it has a fraction or an exponent. -/
def number (s : List Char) : Reading Value :=
  let (negative, body) :=
    match s with
    | '-' :: rest => (true, rest)
    | rest => (false, rest)
  match wholePart? body with
  | none => stop .value s
  | some (whole, rest) =>
    let (places, rest) := fraction rest
    match places, exponent? rest with
    | [], none =>
      if Radix.decimal.admits whole.length then .ok (.int (signed negative (natOf whole)), rest)
      else .error (.tooManyDigits whole.length)
    | places, found =>
      let (power, rest) := found.getD (0, rest)
      .ok (.float (.ofDecimal negative (natOf (whole ++ places)) (power - places.length)), rest)

/-! ## Values -/

mutual
/-- A value at the start of the text.  The first argument bounds the nesting of calls;
twice the length of the text is enough. -/
def value : Nat → List Char → Reading Value
  | 0, s => stop .value s
  | fuel + 1, s =>
    match s with
    | '"' :: rest => (string rest).map fun (t, rest) => (.text t, rest)
    | '[' :: rest =>
      match skipSpace rest with
      | ']' :: rest => .ok (.list [], rest)
      | rest => (items fuel rest).map fun (vs, rest) => (.list vs, rest)
    | '\x7b' :: rest =>
      match skipSpace rest with
      | '\x7d' :: rest => .ok (.object [], rest)
      | rest => (members fuel [] rest).map fun (ms, rest) => (.object ms, rest)
    | 'n' :: 'u' :: 'l' :: 'l' :: rest => .ok (.null, rest)
    | 't' :: 'r' :: 'u' :: 'e' :: rest => .ok (.bool true, rest)
    | 'f' :: 'a' :: 'l' :: 's' :: 'e' :: rest => .ok (.bool false, rest)
    | 'N' :: 'a' :: 'N' :: rest => .ok (.float .nan, rest)
    | 'I' :: 'n' :: 'f' :: 'i' :: 'n' :: 'i' :: 't' :: 'y' :: rest =>
      .ok (.float (.infinite false), rest)
    | '-' :: 'I' :: 'n' :: 'f' :: 'i' :: 'n' :: 'i' :: 't' :: 'y' :: rest =>
      .ok (.float (.infinite true), rest)
    | s => number s

def items : Nat → List Char → Reading (List Value)
  | 0, s => stop .value s
  | fuel + 1, s =>
    match value fuel s with
    | .error e => .error e
    | .ok (v, rest) =>
      match skipSpace rest with
      | ']' :: rest => .ok ([v], rest)
      | ',' :: rest => (items fuel (skipSpace rest)).map fun (vs, rest) => (v :: vs, rest)
      | rest => stop .comma rest

/-- The members of an object up to its closing brace, at least one, added to those
read so far. -/
def members : Nat → List (String × Value) → List Char → Reading (List (String × Value))
  | 0, _, s => stop .value s
  | fuel + 1, before, s =>
    match s with
    | '"' :: rest =>
      match string rest with
      | .error e => .error e
      | .ok (name, rest) =>
        match skipSpace rest with
        | ':' :: rest =>
          match value fuel (skipSpace rest) with
          | .error e => .error e
          | .ok (v, rest) =>
            match skipSpace rest with
            | '\x7d' :: rest => .ok (put before name v, rest)
            | ',' :: rest => members fuel (put before name v) (skipSpace rest)
            | rest => stop .comma rest
        | rest => stop .colon rest
    | s => stop .memberName s
end

/-- One value and nothing else but space around it. -/
def document (s : List Char) : Except Stop Value :=
  match s with
  | '\ufeff' :: _ => stop .byteOrderMark s
  | _ =>
    match value (2 * s.length + 2) (skipSpace s) with
    | .error e => .error e
    | .ok (v, rest) =>
      match skipSpace rest with
      | [] => .ok v
      | rest => stop .moreData rest

inductive ReadFault where
  | malformed (reason : Reason) (position : Text.Position)
  | tooManyDigits (count : Nat)
deriving DecidableEq, Repr

def read (s : List Char) : Except ReadFault Value :=
  match document s with
  | .ok v => .ok v
  | .error (.malformed reason left) =>
    .error (.malformed reason (Text.Position.ofOffset s (s.length - left)))
  | .error (.tooManyDigits count) => .error (.tooManyDigits count)

end Json
end AssemblerTables
