import Relocation.Url.Error

/-!
# Addresses of eight groups

An address in brackets is eight groups of up to four hexadecimal digits. A `::` stands for one or more groups of
zeros, and the last two groups may be given as four decimal numbers. It is written with the longest run of at
least two zero groups (the first of them, if several are longest) shown as `::`.
-/

namespace Relocation.Url.Ipv6

/-! ### Reading -/

/-- One group: one to four hexadecimal digits. -/
def readGroup? (t : Text) : Option Nat :=
  if t.length ≤ 4 then readDigits? 16 t else none

/-- One decimal number below 256 without leading zeros. -/
def readOctet? (t : Text) : Option Nat :=
  match t with
  | '0' :: _ :: _ => none
  | _ =>
    if 3 < t.length then none
    else
      match readDigits? 10 t with
      | some n => if n < 256 then some n else none
      | none => none

/-- Four decimal numbers, as two groups. -/
def readDotted? (t : Text) : Option (List Nat) :=
  match (splitOn '.' t).map readOctet? with
  | [some a, some b, some c, some d] => some [256 * a + b, 256 * c + d]
  | _ => none

/-- Groups between single colons; four decimal numbers may stand in the last place. -/
def readFields? : List Text → Option (List Nat)
  | [] => some []
  | [last] =>
    match readGroup? last with
    | some n => some [n]
    | none => readDotted? last
  | field :: rest =>
    match readGroup? field, readFields? rest with
    | some n, some ns => some (n :: ns)
    | _, _ => none

/-- A side of `::`, which may be empty. -/
def readSide? (t : Text) : Option (List Nat) :=
  if t = [] then some [] else readFields? (splitOn ':' t)

/-- Groups none of which is four decimal numbers. -/
def readHexSide? (t : Text) : Option (List Nat) :=
  if t.contains '.' then none else readSide? t

def cutAtGap? : Text → Option (Text × Text)
  | ':' :: ':' :: rest => some ([], rest)
  | c :: rest => (cutAtGap? rest).map fun (before, after) => (c :: before, after)
  | [] => none

def readGroups? (t : Text) : Option (List Nat) :=
  match cutAtGap? t with
  | none =>
    match readSide? t with
    | some groups => if groups.length = 8 then some groups else none
    | none => none
  | some (before, after) =>
    match readHexSide? before, readSide? after with
    | some left, some right =>
      if left.length + right.length ≤ 7 then
        some (left ++ List.replicate (8 - (left.length + right.length)) 0 ++ right)
      else none
    | _, _ => none

def read (t : Text) : Except Error (List Nat) :=
  match readGroups? t with
  | some groups => .ok groups
  | none => .error .invalidIpv6

theorem length_readGroups? (t : Text) (groups : List Nat) (h : readGroups? t = some groups) :
    groups.length = 8 := by
  unfold readGroups? at h
  split at h
  · split at h
    · split at h
      · cases h; assumption
      · cases h
    · cases h
  · split at h
    · split at h
      · cases h
        simp only [List.length_append, List.length_replicate]
        omega
      · cases h
    · cases h

/-! ### Writing -/

def zeroRun : List Nat → Nat
  | 0 :: rest => zeroRun rest + 1
  | _ => 0

def longestZeroRun : List Nat → Nat
  | [] => 0
  | n :: rest => max (zeroRun (n :: rest)) (longestZeroRun rest)

/-- The groups before and after the first run of `len` zeros. -/
def cutZeros (len : Nat) : List Nat → List Nat × List Nat
  | [] => ([], [])
  | n :: rest =>
    if len ≤ zeroRun (n :: rest) then ([], (n :: rest).drop len)
    else
      let (before, after) := cutZeros len rest
      (n :: before, after)

def writeGroups (groups : List Nat) : Text :=
  joinWith ':' (groups.map lowerHex)

def write (groups : List Nat) : Text :=
  let len := longestZeroRun groups
  if len < 2 then writeGroups groups
  else
    let (before, after) := cutZeros len groups
    writeGroups before ++ "::".toList ++ writeGroups after

end Relocation.Url.Ipv6
