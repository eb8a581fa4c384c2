/-
  Rollbook.Text.Utf8 — the characters in a run of bytes.

  Bytes are cut into pieces: a character where they spell one, a broken piece where
  they do not. A broken piece is as long as it could still have become a
  character, at least one byte; the byte that breaks it starts the next piece.
  Surrogates, overlong forms and code points past the last one are broken at their
  first or second byte.
-/

namespace Rollbook.Text.Utf8

def encode (cs : List Char) : List UInt8 := cs.flatMap String.utf8EncodeChar

inductive Piece where
  | char (c : Char)
  /-- Bytes that spell nothing; `unfinished` when the end came before they were refuted. -/
  | broken (length : Nat) (unfinished : Bool)
  deriving DecidableEq, Repr

/-- A character of which the first bytes were read. -/
structure Pending where
  value : Nat
  read : Nat
  /-- The bytes still due, at least one. -/
  due : Nat
  /-- The range of the next byte. -/
  low : Nat
  high : Nat
  deriving DecidableEq, Repr

/-- What the first byte of a character starts: how many bytes are due after it and the range of the
    first of them. -/
def lead (b : Nat) : Option (Nat × Nat × Nat) :=
  if 0xC2 ≤ b ∧ b ≤ 0xDF then some (1, 0x80, 0xBF)
  else if b = 0xE0 then some (2, 0xA0, 0xBF)
  else if b = 0xED then some (2, 0x80, 0x9F)
  else if 0xE1 ≤ b ∧ b ≤ 0xEF then some (2, 0x80, 0xBF)
  else if b = 0xF0 then some (3, 0x90, 0xBF)
  else if 0xF1 ≤ b ∧ b ≤ 0xF3 then some (3, 0x80, 0xBF)
  else if b = 0xF4 then some (3, 0x80, 0x8F)
  else none

/-- The bits of a first byte that belong to the code point. -/
def leadBits (b due : Nat) : Nat := b % Nat.pow 2 (6 - due)

/-- The pieces completed by the first byte of a piece, and what is pending after it. -/
def start (b : Nat) : List Piece × Option Pending :=
  if b < 0x80 then ([.char (Char.ofNat b)], none)
  else match lead b with
    | some (due, low, high) => ([], some ⟨leadBits b due, 1, due, low, high⟩)
    | none => ([.broken 1 false], none)

/-- The pieces completed by the next byte, and what is pending after it. -/
def step (p : Option Pending) (byte : UInt8) : List Piece × Option Pending :=
  let b := byte.toNat
  match p with
  | none => start b
  | some p =>
    if p.low ≤ b ∧ b ≤ p.high then
      let value := p.value * 64 + b % 64
      if p.due = 1 then ([.char (Char.ofNat value)], none)
      else ([], some ⟨value, p.read + 1, p.due - 1, 0x80, 0xBF⟩)
    else
      let (done, next) := start b
      (.broken p.read false :: done, next)

def piecesFrom (p : Option Pending) : List UInt8 → List Piece
  | [] =>
    match p with
    | some p => [.broken p.read true]
    | none => []
  | b :: bs =>
    let (done, next) := step p b
    done ++ piecesFrom next bs

def pieces (bytes : List UInt8) : List Piece := piecesFrom none bytes

/-- Where and how bytes fail to be text: the position of the first broken piece, and its length
    unless the end cut it short. -/
structure Fault where
  index : Nat
  length : Option Nat
  deriving DecidableEq, Repr

def textFrom (index : Nat) (done : List Char) : List Piece → Except Fault (List Char)
  | [] => .ok done.reverse
  | .char c :: ps => textFrom (index + c.utf8Size) (c :: done) ps
  | .broken n unfinished :: _ => .error ⟨index, if unfinished then none else some n⟩

/-- The text of bytes that are all characters. -/
def decode? (bytes : List UInt8) : Except Fault (List Char) := textFrom 0 [] (pieces bytes)

/-- The text of any bytes, with U+FFFD for every broken piece. -/
def decodeLossy (bytes : List UInt8) : List Char :=
  (pieces bytes).map fun
    | .char c => c
    | .broken .. => '\uFFFD'

end Rollbook.Text.Utf8
