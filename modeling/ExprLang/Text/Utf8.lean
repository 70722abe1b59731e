/-
# ExprLang.Text.Utf8 — reading octets as text

`decode` reads a whole list of octets, one at a time. Between characters it
expects a lead octet; inside one it still owes some continuation octets, the
next of them from a range that the lead octet fixes (so overlong forms,
surrogates and numbers past the last code point stop at their second octet).
A fault tells where the bad sequence starts, how many octets it has, and which
of the three things went wrong.
-/
import ExprLang.Text.Quoted

namespace ExprLang.Text.Utf8

set_option autoImplicit false

/-- What can be wrong with an octet sequence. -/
inductive Reason where
  | invalidStart
  | invalidContinuation
  | endOfData
  deriving DecidableEq, Repr

def Reason.message : Reason → String
  | .invalidStart => "invalid start byte"
  | .invalidContinuation => "invalid continuation byte"
  | .endOfData => "unexpected end of data"

/-- A bad sequence: its offset, its first octet, its length and its reason. -/
structure Fault where
  start : Nat
  lead : UInt8
  length : Nat
  reason : Reason
  deriving DecidableEq, Repr

def Fault.message (fault : Fault) : String :=
  let place :=
    if fault.length = 1 then
      "byte 0x" ++ hex 2 fault.lead.toNat ++ " in position " ++ toString fault.start
    else
      "bytes in position " ++ toString fault.start ++ "-" ++
        toString (fault.start + fault.length - 1)
  "'utf-8' codec can't decode " ++ place ++ ": " ++ fault.reason.message

/-- An unfinished character: where it started, its lead octet, how many octets
it still owes, the range of the next one, and the bits read so far. -/
structure Partial where
  start : Nat
  lead : UInt8
  owed : Nat
  low : Nat
  high : Nat
  bits : Nat

/-- What a lead octet says: how many octets follow, the range of the first of
them, and the bits it carries. -/
def leadOctet (octet : Nat) : Option (Nat × Nat × Nat × Nat) :=
  if octet < 0x80 then some (0, 0, 0, octet)
  else if octet < 0xC2 then none
  else if octet < 0xE0 then some (1, 0x80, 0xBF, octet - 0xC0)
  else if octet = 0xE0 then some (2, 0xA0, 0xBF, 0)
  else if octet = 0xED then some (2, 0x80, 0x9F, 0xD)
  else if octet < 0xF0 then some (2, 0x80, 0xBF, octet - 0xE0)
  else if octet = 0xF0 then some (3, 0x90, 0xBF, 0)
  else if octet < 0xF4 then some (3, 0x80, 0xBF, octet - 0xF0)
  else if octet = 0xF4 then some (3, 0x80, 0x8F, 4)
  else none

/-- Read octets from offset `offset` on, with an unfinished character or
between two, after the characters `done` in reverse. -/
def decodeFrom (offset : Nat) (open? : Option Partial) (done : List Char) :
    List UInt8 → Except Fault (List Char)
  | [] =>
    match open? with
    | none => .ok done.reverse
    | some held => .error ⟨held.start, held.lead, offset - held.start, .endOfData⟩
  | octet :: rest =>
    match open? with
    | none =>
      match leadOctet octet.toNat with
      | none => .error ⟨offset, octet, 1, .invalidStart⟩
      | some (0, _, _, bits) => decodeFrom (offset + 1) none (Char.ofNat bits :: done) rest
      | some (owed, low, high, bits) =>
        decodeFrom (offset + 1) (some ⟨offset, octet, owed, low, high, bits⟩) done rest
    | some held =>
      if held.low ≤ octet.toNat ∧ octet.toNat ≤ held.high then
        let bits := held.bits * 64 + (octet.toNat - 0x80)
        if held.owed ≤ 1 then decodeFrom (offset + 1) none (Char.ofNat bits :: done) rest
        else
          decodeFrom (offset + 1)
            (some { held with owed := held.owed - 1, low := 0x80, high := 0xBF, bits }) done rest
      else .error ⟨held.start, held.lead, offset - held.start, .invalidContinuation⟩

/-- Read a list of octets as text. -/
def decode (octets : List UInt8) : Except Fault (List Char) := decodeFrom 0 none [] octets

end ExprLang.Text.Utf8
