import IncludeTrace.Text.Basic

/-!
# UTF-8

A byte sequence is read as a row of **pieces**: characters, and faults where no character can be
read. A fault covers the longest run of bytes that could still have begun a character, so reading
goes on at the byte that spoiled it. `Utf8.lossy` puts one replacement character for each fault,
`Utf8.strict` stops at the first one.
-/

namespace IncludeTrace

namespace Utf8

/-- Why no character could be read. -/
inductive Reason
  | invalidStart
  | invalidContinuation
  | unexpectedEnd
  deriving DecidableEq

/-- What one step of the reading gives. -/
inductive Piece
  | char (c : Char) (width : Nat)
  | fault (reason : Reason) (bytes : List UInt8)

/-- A character under way: the bytes `taken` so far, the bits they carry, how many bytes are still
to come and between which bounds the next of them must lie. -/
structure Pending where
  taken : List UInt8
  bits : Nat
  missing : Nat
  low : Nat
  high : Nat

/-- The state after a byte that can begin a character of several bytes. The bounds of the second
byte rule out long forms, surrogates and code points beyond the last one. -/
def Pending.ofStart? (b : UInt8) : Option Pending :=
  let n := b.toNat
  if 0xC2 ≤ n ∧ n ≤ 0xDF then some ⟨[b], n - 0xC0, 1, 0x80, 0xBF⟩
  else if n = 0xE0 then some ⟨[b], 0, 2, 0xA0, 0xBF⟩
  else if n = 0xED then some ⟨[b], 0xD, 2, 0x80, 0x9F⟩
  else if 0xE1 ≤ n ∧ n ≤ 0xEF then some ⟨[b], n - 0xE0, 2, 0x80, 0xBF⟩
  else if n = 0xF0 then some ⟨[b], 0, 3, 0x90, 0xBF⟩
  else if n = 0xF4 then some ⟨[b], 4, 3, 0x80, 0x8F⟩
  else if 0xF1 ≤ n ∧ n ≤ 0xF3 then some ⟨[b], n - 0xF0, 3, 0x80, 0xBF⟩
  else none

/-- Reading a byte at which a character must begin: pieces that are complete with it, and the
character under way after it. -/
def start (b : UInt8) : List Piece × Option Pending :=
  if b.toNat < 0x80 then ([.char (Char.ofNat b.toNat) 1], none)
  else match Pending.ofStart? b with
    | some p => ([], some p)
    | none => ([.fault .invalidStart [b]], none)

/-- Reading one byte in any state. -/
def step : Option Pending → UInt8 → List Piece × Option Pending
  | none, b => start b
  | some p, b =>
    if p.low ≤ b.toNat ∧ b.toNat ≤ p.high then
      let bits := 64 * p.bits + (b.toNat - 0x80)
      if p.missing ≤ 1 then ([.char (Char.ofNat bits) (p.taken.length + 1)], none)
      else ([], some ⟨p.taken ++ [b], bits, p.missing - 1, 0x80, 0xBF⟩)
    else
      let (pieces, next) := start b
      (.fault .invalidContinuation p.taken :: pieces, next)

/-- The pieces of a byte sequence, read on from a state. -/
def piecesFrom : Option Pending → List UInt8 → List Piece
  | none, [] => []
  | some p, [] => [.fault .unexpectedEnd p.taken]
  | state, b :: bytes =>
    let (pieces, next) := step state b
    pieces ++ piecesFrom next bytes

/-- The **pieces** of a byte sequence. -/
def pieces (bytes : List UInt8) : List Piece := piecesFrom none bytes

/-- A fault and the number of bytes before it. -/
structure Fault where
  reason : Reason
  bytes : List UInt8
  position : Nat

/-- The characters of pieces, unless a fault is among them; `position` bytes came before. -/
def strictPieces (position : Nat) : List Piece → Except Fault Text
  | [] => .ok []
  | .char c width :: rest => (strictPieces (position + width) rest).map (c :: ·)
  | .fault reason bytes :: _ => .error ⟨reason, bytes, position⟩

/-- The text that bytes encode, or their first fault. -/
def strict (bytes : List UInt8) : Except Fault Text := strictPieces 0 (pieces bytes)

/-- The text that bytes encode, with U+FFFD for each fault. -/
def lossy (bytes : List UInt8) : Text :=
  (pieces bytes).map fun
    | .char c _ => c
    | .fault _ _ => '\uFFFD'

/-- The bytes that encode a text. -/
def encode (t : Text) : List UInt8 := t.flatMap String.utf8EncodeChar

/-- The reason in words. -/
def Reason.message : Reason → Text
  | .invalidStart => "invalid start byte"
  | .invalidContinuation => "invalid continuation byte"
  | .unexpectedEnd => "unexpected end of data"

/-- The sentence that reports a fault: which bytes, where, and why. -/
def Fault.message (f : Fault) : Text :=
  let place : Text := match f.bytes with
    | [b] => "byte 0x" ++ Text.hex 2 b.toNat ++ " in position " ++ Text.ofNat f.position
    | bytes => "bytes in position " ++ Text.ofNat f.position ++ "-" ++
        Text.ofNat (f.position + bytes.length - 1)
  "'utf-8' codec can't decode " ++ place ++ ": " ++ f.reason.message

end Utf8

end IncludeTrace
