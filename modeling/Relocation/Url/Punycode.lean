import Relocation.Text.Basic

/-!
# Labels in ASCII

A label of a host name that is not ASCII is spelled with letters, digits and hyphens: first its ASCII characters,
then, after a hyphen, where the others go. They are inserted in rising order, and each insertion is one number:
the distance from the previous insertion, counted over positions and character numbers at once, with digits whose
weights adapt to the numbers seen so far.
-/

namespace Relocation.Url.Punycode

/-! ### Digits with adapting weights -/

/-- The least value a digit at weight `k` must have for another digit to follow. -/
def threshold (k bias : Nat) : Nat :=
  if k ≤ bias then 1 else if bias + 26 ≤ k then 26 else k - bias

theorem threshold_pos (k bias : Nat) : 1 ≤ threshold k bias := by
  unfold threshold
  split
  · omega
  · split <;> omega

theorem threshold_le (k bias : Nat) : threshold k bias ≤ 26 := by
  unfold threshold
  split
  · omega
  · split <;> omega

/-- Divides `delta` by 35 until it is small, counting weights. -/
def adaptFrom (delta weight : Nat) : Nat :=
  if 455 < delta then adaptFrom (delta / 35) (weight + 36)
  else weight + 36 * delta / (delta + 38)
termination_by delta
decreasing_by exact Nat.div_lt_self (by omega) (by omega)

/-- The bias after the number `delta` was written as one of `points` insertions. -/
def adapt (delta points : Nat) (first : Bool) : Nat :=
  let damped := if first then delta / 700 else delta / 2
  adaptFrom (damped + damped / points) 0

/-- The digit of a value below 36: letters first. -/
def digit (n : Nat) : Char :=
  if n < 26 then Char.ofNat (0x61 + n) else Char.ofNat (0x30 + (n - 26))

def digitOf? (c : Char) : Option Nat :=
  if c.isDigit then some (c.toNat - 0x30 + 26)
  else if c.isAlpha then some (c.toLower.toNat - 0x61)
  else none

def writeNumber (bias k n : Nat) : Text :=
  if n < threshold k bias then [digit n]
  else
    digit (threshold k bias + (n - threshold k bias) % (36 - threshold k bias))
      :: writeNumber bias (k + 36) ((n - threshold k bias) / (36 - threshold k bias))
termination_by n
decreasing_by
  have h1 := threshold_pos k bias
  calc (n - threshold k bias) / (36 - threshold k bias)
      ≤ n - threshold k bias := Nat.div_le_self _ _
    _ < n := by omega

/-- Reads a number from its digits: the value added to `acc`, and what follows. -/
def readNumber? (bias : Nat) : Nat → Nat → Nat → Text → Option (Nat × Text)
  | _, _, _, [] => none
  | k, weight, acc, c :: rest =>
    match digitOf? c with
    | none => none
    | some d =>
      if d < threshold k bias then some (acc + d * weight, rest)
      else readNumber? bias (k + 36) (weight * (36 - threshold k bias)) (acc + d * weight) rest

/-! ### Writing a label -/

/-- How far the writing of a label has come. -/
structure Encoder where
  /-- The distance from the previous insertion. -/
  delta : Nat
  bias : Nat
  /-- How many characters are already there. -/
  placed : Nat
  out : Text

/-- Passes one character of the label while the characters numbered `point` are being inserted. -/
def Encoder.pass (basics point : Nat) (e : Encoder) (c : Char) : Encoder :=
  if c.toNat < point then { e with delta := e.delta + 1 }
  else if c.toNat = point then
    { delta := 0, bias := adapt e.delta (e.placed + 1) (e.placed == basics), placed := e.placed + 1,
      out := e.out ++ writeNumber e.bias 36 e.delta }
  else e

/-- Inserts the characters of each number in turn; `reached` is the least number not yet inserted. -/
def Encoder.insertAll (label : Text) (basics : Nat) : Nat → List Nat → Encoder → Encoder
  | _, [], e => e
  | reached, point :: points, e =>
    let moved := { e with delta := e.delta + (point - reached) * (e.placed + 1) }
    let done := label.foldl (Encoder.pass basics point) moved
    Encoder.insertAll label basics (point + 1) points { done with delta := done.delta + 1 }

/-- A number put into a rising list that does not hold it yet. -/
def insertRising (n : Nat) : List Nat → List Nat
  | [] => [n]
  | m :: rest => if n < m then n :: m :: rest else if n = m then m :: rest else m :: insertRising n rest

/-- The label in ASCII, without any mark in front. -/
def encode (label : Text) : Text :=
  let basics := label.filter fun c => c.toNat < 0x80
  let points := (label.filter fun c => 0x80 ≤ c.toNat).foldr (fun c => insertRising c.toNat) []
  let start : Encoder := ⟨0, 72, basics.length, if basics = [] then [] else basics ++ ['-']⟩
  (Encoder.insertAll label basics.length 0x80 points start).out

/-! ### Reading a label -/

/-- Inserts the characters the digits ask for; each insertion uses up a digit, so their number bounds the fuel. -/
def decodeFrom? : Nat → Nat → Nat → Nat → Text → Text → Option Text
  | _, _, _, _, label, [] => some label
  | 0, _, _, _, _, _ => none
  | fuel + 1, bias, point, position, label, digits =>
    match readNumber? bias 36 1 position digits with
    | none => none
    | some (reached, rest) =>
      let points := label.length + 1
      let next := point + reached / points
      let place := reached % points
      if next < 0xD800 ∨ (0xDFFF < next ∧ next < 0x110000) then
        decodeFrom? fuel (adapt (reached - position) points (position == 0)) next (place + 1)
          (label.insertIdx place (Char.ofNat next)) rest
      else none

def decode? (t : Text) : Option Text :=
  let (basics, digits) :=
    match cutAtLast? '-' t with
    | some (before, after) => (before, after)
    | none => ([], t)
  if basics.any fun c => 0x80 ≤ c.toNat then none
  else decodeFrom? digits.length 72 0x80 0 basics digits

end Relocation.Url.Punycode
