import LittleComputer.Numeral

/-! # UTF-8

Files hold bytes. `Utf8.decode` reads them strictly, and its first defect tells where the bytes that
form no character start, where they end and why. `Utf8.encode` writes text, and `Utf8.unifyNewlines`
turns every line end of a file into a newline. -/

namespace LittleComputer.Utf8
set_option autoImplicit false

/-- Why bytes form no character. -/
inductive Reason where
  | invalidStart
  | invalidContinuation
  | unexpectedEnd
  deriving DecidableEq, Repr

/-- Bytes that form no character, from `start` up to `stop`, where the first is `lead`. -/
structure Defect where
  lead : UInt8
  start : Nat
  stop : Nat
  reason : Reason
  deriving DecidableEq, Repr

/-- The reason in words. -/
def Reason.text : Reason → Text
  | invalidStart => "invalid start byte".toList
  | invalidContinuation => "invalid continuation byte".toList
  | unexpectedEnd => "unexpected end of data".toList

/-- The defect in one sentence. -/
def Defect.message (defect : Defect) : Text :=
  let bytes :=
    if defect.stop = defect.start + 1 then
      "byte 0x".toList ++ (Numeral.padded 16 2 defect.lead.toNat).map Char.toLower
        ++ " in position ".toList ++ Numeral.decimal defect.start
    else
      "bytes in position ".toList ++ Numeral.decimal defect.start ++ "-".toList
        ++ Numeral.decimal (defect.stop - 1)
  "'utf-8' codec can't decode ".toList ++ bytes ++ ": ".toList ++ defect.reason.text

/-- A character whose first bytes are read: `missing + 1` more are due, and the next one lies between
`low` and `high`. -/
structure Begun where
  lead : UInt8
  start : Nat
  missing : Nat
  low : UInt8
  high : UInt8
  code : Nat
  deriving DecidableEq, Repr

/-- A character of several bytes after the first of them, if it can start one. -/
def begin? (start : Nat) (lead : UInt8) : Option Begun :=
  let begun (missing : Nat) (low high : UInt8) (bits : Nat) : Option Begun :=
    some ⟨lead, start, missing, low, high, lead.toNat - bits⟩
  if 0xC2 ≤ lead ∧ lead ≤ 0xDF then begun 0 0x80 0xBF 0xC0
  else if lead = 0xE0 then begun 1 0xA0 0xBF 0xE0
  else if lead = 0xED then begun 1 0x80 0x9F 0xE0
  else if 0xE1 ≤ lead ∧ lead ≤ 0xEF then begun 1 0x80 0xBF 0xE0
  else if lead = 0xF0 then begun 2 0x90 0xBF 0xF0
  else if lead = 0xF4 then begun 2 0x80 0x8F 0xF0
  else if 0xF1 ≤ lead ∧ lead ≤ 0xF3 then begun 2 0x80 0xBF 0xF0
  else none

/-- Reads bytes from a place in a file, with the character under way there, if any. -/
def decodeFrom (place : Nat) : Option Begun → List UInt8 → Except Defect Text
  | none, [] => .ok []
  | some begun, [] => .error ⟨begun.lead, begun.start, place, .unexpectedEnd⟩
  | none, byte :: rest =>
    if byte < 0x80 then do
      let text ← decodeFrom (place + 1) none rest
      .ok (Char.ofNat byte.toNat :: text)
    else
      match begin? place byte with
      | some begun => decodeFrom (place + 1) (some begun) rest
      | none => .error ⟨byte, place, place + 1, .invalidStart⟩
  | some begun, byte :: rest =>
    if begun.low ≤ byte ∧ byte ≤ begun.high then
      let code := begun.code * 64 + (byte.toNat - 0x80)
      match begun.missing with
      | 0 => do
        let text ← decodeFrom (place + 1) none rest
        .ok (Char.ofNat code :: text)
      | missing + 1 =>
        decodeFrom (place + 1) (some { begun with missing, low := 0x80, high := 0xBF, code }) rest
    else .error ⟨begun.lead, begun.start, place, .invalidContinuation⟩

/-- The text of a file. -/
def decode (bytes : List UInt8) : Except Defect Text :=
  decodeFrom 0 none bytes

/-- The bytes of a text. -/
def encode (text : Text) : List UInt8 :=
  text.flatMap String.utf8EncodeChar

/-- The text with a carriage return, and one followed by a newline, as a newline. -/
def unifyNewlines : Text → Text
  | [] => []
  | '\r' :: '\n' :: rest => '\n' :: unifyNewlines rest
  | '\r' :: rest => '\n' :: unifyNewlines rest
  | c :: rest => c :: unifyNewlines rest

end LittleComputer.Utf8
