import Relocation.Url.Error

/-!
# Numeric host names

A host whose last label is a number is an address and nothing else. Each of its up to four parts may be decimal,
octal (leading `0`) or hexadecimal (leading `0x`), and the last part fills all the bytes the others leave.
-/

namespace Relocation.Url.Ipv4

def bound : Nat := Nat.pow 2 32

/-- One part of an address. A part that is a number of its radix but does not fit an address is `some none`. -/
def readPart? (t : Text) : Option (Option Nat) :=
  let (radix, digits) : Nat × Text :=
    match t with
    | '0' :: 'x' :: rest => (16, rest)
    | '0' :: 'X' :: rest => (16, rest)
    | '0' :: c :: rest => (8, c :: rest)
    | other => (10, other)
  if t = [] then none
  else if digits = [] then some (some 0)
  else
    match readDigits? radix digits with
    | some n => if n < bound then some (some n) else some none
    | none => none

/-- The labels of a host without the empty one a final dot leaves. -/
def labels (host : Text) : List Text :=
  let parts := splitOn '.' host
  if parts.getLast? = some [] then parts.dropLast else parts

/-- Whether the last label is a number, so that the host must be an address. -/
def endsInNumber (host : Text) : Bool :=
  match (labels host).getLast? with
  | none => false
  | some last => (last ≠ [] && last.all Char.isDigit) || (readPart? last).isSome

def readParts? : List Text → Option (List Nat)
  | [] => some []
  | part :: rest =>
    match readPart? part, readParts? rest with
    | some (some n), some ns => some (n :: ns)
    | _, _ => none

/-- The parts put together: every part but the last is one byte, the last fills the rest. -/
def assemble? : Nat → List Nat → Option Nat
  | _, [] => none
  | places, [last] => if last < 256 ^ places then some last else none
  | places, n :: rest =>
    if n < 256 then (assemble? (places - 1) rest).map (n * 256 ^ (places - 1) + ·) else none

def read (host : Text) : Except Error Nat :=
  let parts := labels host
  if 4 < parts.length then .error .invalidIpv4
  else
    match readParts? parts with
    | none => .error .invalidIpv4
    | some numbers =>
      match assemble? 4 numbers with
      | some address => .ok address
      | none => .error .invalidIpv4

def write (address : Nat) : Text :=
  joinWith '.' ([address / 16777216 % 256, address / 65536 % 256, address / 256 % 256, address % 256].map decimal)

end Relocation.Url.Ipv4
