/-
Characters from octets in UTF-8.

A character is a lead octet and up to three continuation octets.  The lead octet
fixes their number and narrows the range of the first, so that overlong forms,
surrogates and code points past the last plane are refused at that octet.  A
fault covers the longest start of a valid sequence at the place where reading
stopped.
-/

namespace AssemblerTables
namespace Text
namespace Utf8

inductive Reason where
  | startOctet
  | continuationOctet
  | endOfData
deriving DecidableEq, Repr

/-- The faulty octets: how many octets precede them, the first of them, and how many
they are. -/
structure Fault where
  offset : Nat
  octet : UInt8
  length : Nat
  reason : Reason
deriving DecidableEq, Repr

/-- What a lead octet announces: its part of the code point, the number of
continuation octets, and the bounds of the first of them. -/
structure Lead where
  bits : Nat
  more : Nat
  low : UInt8 := 0x80
  high : UInt8 := 0xBF

def lead? (b : UInt8) : Option Lead :=
  if b < 0xC2 then none
  else if b < 0xE0 then some { bits := b.toNat - 0xC0, more := 1 }
  else if b = 0xE0 then some { bits := 0, more := 2, low := 0xA0 }
  else if b = 0xED then some { bits := 0xD, more := 2, high := 0x9F }
  else if b < 0xF0 then some { bits := b.toNat - 0xE0, more := 2 }
  else if b = 0xF0 then some { bits := 0, more := 3, low := 0x90 }
  else if b < 0xF4 then some { bits := b.toNat - 0xF0, more := 3 }
  else if b = 0xF4 then some { bits := 4, more := 3, high := 0x8F }
  else none

/-- Reading state: between characters, or inside one with its bits so far, the
octets it still needs, the bounds of the next, its first octet and the octets it
has. -/
inductive State where
  | idle
  | inside (bits more : Nat) (low high : UInt8) (first : UInt8) (seen : Nat)

/-- Reads on from `state` with `offset` octets already read. -/
def decodeFrom (offset : Nat) (state : State) : List UInt8 → Except Fault (List Char)
  | [] =>
    match state with
    | .idle => .ok []
    | .inside _ _ _ _ first seen =>
      .error { offset := offset - seen, octet := first, length := seen, reason := .endOfData }
  | b :: rest =>
    match state with
    | .idle =>
      if b < 0x80 then (Char.ofNat b.toNat :: ·) <$> decodeFrom (offset + 1) .idle rest
      else
        match lead? b with
        | none => .error { offset := offset, octet := b, length := 1, reason := .startOctet }
        | some l => decodeFrom (offset + 1) (.inside l.bits l.more l.low l.high b 1) rest
    | .inside bits more low high first seen =>
      if b < low ∨ high < b then
        .error
          { offset := offset - seen, octet := first, length := seen, reason := .continuationOctet }
      else
        let bits := bits * 64 + (b.toNat - 0x80)
        if more ≤ 1 then (Char.ofNat bits :: ·) <$> decodeFrom (offset + 1) .idle rest
        else decodeFrom (offset + 1) (.inside bits (more - 1) 0x80 0xBF first (seen + 1)) rest

def decode (octets : List UInt8) : Except Fault (List Char) :=
  decodeFrom 0 .idle octets

def Reason.text : Reason → String
  | .startOctet => "invalid start byte"
  | .continuationOctet => "invalid continuation byte"
  | .endOfData => "unexpected end of data"

end Utf8
end Text
end AssemblerTables
