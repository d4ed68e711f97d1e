import Relocation.Text.Basic

/-!
# UTF-8

`encode` writes text as bytes. `pieces` reads bytes with a machine that takes one byte at a time and reports
characters and ill-formed runs; every run reported is the longest beginning of some encoded character, so that
`lossy` puts one replacement character where a run stood and `decode?` succeeds exactly when there is none.
-/

namespace Relocation.Utf8

/-! ### Writing -/

def encodeChar (c : Char) : Bytes :=
  let n := c.toNat
  if n < 0x80 then [UInt8.ofNat n]
  else if n < 0x800 then [UInt8.ofNat (0xC0 + n / 64), UInt8.ofNat (0x80 + n % 64)]
  else if n < 0x10000 then
    [UInt8.ofNat (0xE0 + n / 4096), UInt8.ofNat (0x80 + n / 64 % 64), UInt8.ofNat (0x80 + n % 64)]
  else
    [UInt8.ofNat (0xF0 + n / 262144), UInt8.ofNat (0x80 + n / 4096 % 64),
      UInt8.ofNat (0x80 + n / 64 % 64), UInt8.ofNat (0x80 + n % 64)]

def encode (t : Text) : Bytes :=
  t.flatMap encodeChar

theorem encode_cons (c : Char) (t : Text) : encode (c :: t) = encodeChar c ++ encode t := rfl

theorem encode_append (s t : Text) : encode (s ++ t) = encode s ++ encode t := by
  simp [encode]

/-! ### Reading -/

/-- What the reader reports: a character, or a run of bytes that belongs to none. -/
inductive Piece where
  | scalar (c : Char)
  | broken (run : Bytes)
  deriving DecidableEq

/-- A character whose first bytes have been read. -/
structure Pending where
  /-- The bytes read so far. -/
  run : Bytes
  /-- How many bytes are still missing. -/
  owed : Nat
  /-- The least value the next byte may have. -/
  low : Nat
  /-- The greatest value the next byte may have. -/
  high : Nat
  /-- The bits collected so far. -/
  value : Nat
  deriving DecidableEq

/-- What a first byte of a longer character announces. -/
def announce? (b : UInt8) : Option Pending :=
  let n := b.toNat
  if 0xC2 ≤ n ∧ n ≤ 0xDF then some ⟨[b], 1, 0x80, 0xBF, n % 32⟩
  else if n = 0xE0 then some ⟨[b], 2, 0xA0, 0xBF, 0⟩
  else if n = 0xED then some ⟨[b], 2, 0x80, 0x9F, 13⟩
  else if 0xE1 ≤ n ∧ n ≤ 0xEF then some ⟨[b], 2, 0x80, 0xBF, n % 16⟩
  else if n = 0xF0 then some ⟨[b], 3, 0x90, 0xBF, 0⟩
  else if 0xF1 ≤ n ∧ n ≤ 0xF3 then some ⟨[b], 3, 0x80, 0xBF, n % 8⟩
  else if n = 0xF4 then some ⟨[b], 3, 0x80, 0x8F, 4⟩
  else none

/-- A byte read between characters. -/
def stepFresh (b : UInt8) : List Piece × Option Pending :=
  if b.toNat < 0x80 then ([.scalar (Char.ofNat b.toNat)], none)
  else
    match announce? b with
    | some p => ([], some p)
    | none => ([.broken [b]], none)

/-- One byte: what is reported, and the character it leaves unfinished. A byte that cannot continue the
unfinished character ends its run and starts afresh. -/
def step : Option Pending → UInt8 → List Piece × Option Pending
  | none, b => stepFresh b
  | some p, b =>
    if p.low ≤ b.toNat ∧ b.toNat ≤ p.high then
      let value := p.value * 64 + b.toNat % 64
      if p.owed ≤ 1 then ([.scalar (Char.ofNat value)], none)
      else ([], some ⟨p.run ++ [b], p.owed - 1, 0x80, 0xBF, value⟩)
    else
      let fresh := stepFresh b
      (.broken p.run :: fresh.1, fresh.2)

/-- Everything reported for the bytes, starting from a character left unfinished. -/
def piecesFrom : Option Pending → Bytes → List Piece
  | none, [] => []
  | some p, [] => [.broken p.run]
  | s, b :: bs => (step s b).1 ++ piecesFrom (step s b).2 bs

/-- The bytes taken apart into characters and ill-formed runs. -/
def pieces (bs : Bytes) : List Piece :=
  piecesFrom none bs

/-- The replacement character that stands for an ill-formed run. -/
def replacement : Char := Char.ofNat 0xFFFD

/-- The characters, if there is no ill-formed run. -/
def allScalar? : List Piece → Option Text
  | [] => some []
  | .scalar c :: rest => (allScalar? rest).map (c :: ·)
  | .broken _ :: _ => none

/-- The text the bytes encode, if they encode one. -/
def decode? (bs : Bytes) : Option Text :=
  allScalar? (pieces bs)

def Piece.lossy : Piece → Char
  | .scalar c => c
  | .broken _ => replacement

/-- The text of the bytes with every ill-formed run replaced. -/
def lossy (bs : Bytes) : Text :=
  (pieces bs).map Piece.lossy

/-- Where decoding succeeds, nothing is replaced. -/
theorem lossy_of_allScalar? (ps : List Piece) (t : Text) (h : allScalar? ps = some t) :
    ps.map Piece.lossy = t := by
  induction ps generalizing t with
  | nil => simpa [allScalar?] using h
  | cons p rest ih =>
    cases p with
    | broken run => simp [allScalar?] at h
    | scalar c =>
      cases hr : allScalar? rest with
      | none => simp [allScalar?, hr] at h
      | some r =>
        simp [allScalar?, hr] at h
        simp [Piece.lossy, ih r hr, ← h]

/-- Well-formed bytes read the same way strictly and leniently. -/
theorem lossy_eq_of_decode? (bs : Bytes) (t : Text) (h : decode? bs = some t) : lossy bs = t :=
  lossy_of_allScalar? (pieces bs) t h

end Relocation.Utf8
