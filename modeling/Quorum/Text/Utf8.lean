/-
  Quorum/Text/Utf8.lean
  =====================
  **Bytes as text.**

  UTF-8 writes a character in one to four bytes: a lead byte that tells how many follow, and
  continuation bytes.  A character is written in the shortest way, and no surrogates are
  written, so the byte after some lead bytes is restricted.  What breaks these rules is
  reported with its place.
-/
import Quorum.Text.Quoted

namespace Quorum.Text

/-- How bytes fail to be text. -/
inductive Utf8Flaw where
  /-- No character begins with the byte. -/
  | start
  /-- A character is broken off by a byte that does not continue it. -/
  | continuation
  /-- The bytes end inside a character. -/
  | truncated
deriving DecidableEq, Repr

/-- A flaw and the bytes it concerns. -/
structure Utf8Problem where
  flaw : Utf8Flaw
  /-- The first byte concerned. -/
  first : UInt8
  /-- The place of that byte, counted from zero. -/
  position : Nat
  /-- How many bytes are concerned. -/
  count : Nat
deriving DecidableEq, Repr

namespace Utf8Problem

def reason : Utf8Flaw → String
  | .start => "invalid start byte"
  | .continuation => "invalid continuation byte"
  | .truncated => "unexpected end of data"

def message (p : Utf8Problem) : String :=
  let place :=
    if p.count == 1 then
      s!"byte 0x{String.ofList (hexDigits 2 p.first.toNat)} in position {p.position}"
    else s!"bytes in position {p.position}-{p.position + p.count - 1}"
  s!"'utf-8' codec can't decode {place}: {reason p.flaw}"

/-- The problem as it looks to a reader who holds back the bytes of an unfinished character:
    what is left over at the end is counted from its own beginning. -/
def heldBack (p : Utf8Problem) : Utf8Problem :=
  if p.flaw = .truncated then { p with position := 0 } else p

end Utf8Problem

structure Unfinished where
  lead : UInt8
  position : Nat
  /-- The bytes read. -/
  taken : Nat
  /-- The bytes still to come. -/
  missing : Nat
  /-- The bits read. -/
  bits : Nat
  /-- The bounds of the next byte. -/
  low : Nat
  high : Nat

def Unfinished.begin? (lead : UInt8) (position : Nat) : Option Unfinished :=
  let n := lead.toNat
  if n < 0xC2 then none
  else if n < 0xE0 then some ⟨lead, position, 1, 1, n - 0xC0, 0x80, 0xBF⟩
  else if n < 0xF0 then
    some ⟨lead, position, 1, 2, n - 0xE0, if n == 0xE0 then 0xA0 else 0x80,
      if n == 0xED then 0x9F else 0xBF⟩
  else if n < 0xF5 then
    some ⟨lead, position, 1, 3, n - 0xF0, if n == 0xF0 then 0x90 else 0x80,
      if n == 0xF4 then 0x8F else 0xBF⟩
  else none

/-- The characters of bytes from a position on; `acc` holds the characters before them in
    reverse. -/
def decodeFrom (acc : List Char) (position : Nat) (pending : Option Unfinished) :
    List UInt8 → Except Utf8Problem (List Char)
  | [] =>
    match pending with
    | none => .ok acc.reverse
    | some u => .error ⟨.truncated, u.lead, u.position, u.taken⟩
  | b :: rest =>
    match pending with
    | none =>
      if b.toNat < 0x80 then decodeFrom (Char.ofNat b.toNat :: acc) (position + 1) none rest
      else
        match Unfinished.begin? b position with
        | some u => decodeFrom acc (position + 1) (some u) rest
        | none => .error ⟨.start, b, position, 1⟩
    | some u =>
      if u.low ≤ b.toNat ∧ b.toNat ≤ u.high then
        let bits := u.bits * 64 + (b.toNat - 0x80)
        if u.missing ≤ 1 then decodeFrom (Char.ofNat bits :: acc) (position + 1) none rest
        else
          decodeFrom acc (position + 1)
            (some { u with taken := u.taken + 1, missing := u.missing - 1, bits, low := 0x80, high := 0xBF })
            rest
      else .error ⟨.continuation, u.lead, u.position, u.taken⟩

def decodeUtf8 (bytes : List UInt8) : Except Utf8Problem (List Char) := decodeFrom [] 0 none bytes

end Quorum.Text
