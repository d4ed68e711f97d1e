/-!
# Text and bytes as lists

Text is a list of characters and raw data a list of bytes, so that every function below is a recursion over a
list and every statement about it an induction.

* `splitOn` / `joinWith`: cutting at every occurrence of a separator, and gluing back;
* `cutAt?` / `cutAtLast?`: cutting once, at the first or at the last occurrence;
* `readDigits?` / `lowerHex` / `upperHex`: numbers in a radix;
* `indexOf?`, `stripEnd?`, `trimEndWhere`, `trimWhere`: searching and trimming.
-/

namespace Relocation

/-- Text: a list of Unicode scalar values. -/
abbrev Text := List Char

/-- Raw data: a list of bytes. -/
abbrev Bytes := List UInt8

/-! ### Cutting and gluing -/

section Cutting

variable {α : Type} [DecidableEq α]

/-- The pieces between the occurrences of `sep`; there is always at least one piece. -/
def splitOn (sep : α) : List α → List (List α)
  | [] => [[]]
  | x :: xs =>
    if x = sep then [] :: splitOn sep xs
    else
      match splitOn sep xs with
      | [] => [[x]]
      | piece :: pieces => (x :: piece) :: pieces

/-- The pieces glued together with `sep` between neighbours. -/
def joinWith (sep : α) : List (List α) → List α
  | [] => []
  | [piece] => piece
  | piece :: pieces => piece ++ sep :: joinWith sep pieces

/-- What stands before and after the first `sep`. -/
def cutAt? (sep : α) : List α → Option (List α × List α)
  | [] => none
  | x :: xs =>
    if x = sep then some ([], xs)
    else
      match cutAt? sep xs with
      | some (before, after) => some (x :: before, after)
      | none => none

/-- What stands before and after the last `sep`. -/
def cutAtLast? (sep : α) : List α → Option (List α × List α)
  | [] => none
  | x :: xs =>
    match cutAtLast? sep xs with
    | some (before, after) => some (x :: before, after)
    | none => if x = sep then some ([], xs) else none

/-- The position of the first element satisfying `p`. -/
def indexOf? (p : α → Bool) : List α → Option Nat
  | [] => none
  | x :: xs => if p x then some 0 else (indexOf? p xs).map (· + 1)

/-- The list without the ending `tail`, if it has that ending. -/
def stripEnd? (tail : List α) : List α → Option (List α)
  | [] => if tail = [] then some [] else none
  | x :: xs => if x :: xs = tail then some [] else (stripEnd? tail xs).map (x :: ·)

/-- Splitting never yields an empty list of pieces. -/
theorem splitOn_ne_nil (sep : α) (l : List α) : splitOn sep l ≠ [] := by
  induction l with
  | nil => simp [splitOn]
  | cons x xs ih =>
    unfold splitOn
    split
    · simp
    · split <;> simp

theorem joinWith_splitOn (sep : α) (l : List α) : joinWith sep (splitOn sep l) = l := by
  induction l with
  | nil => rfl
  | cons x xs ih =>
    unfold splitOn
    split
    · next h =>
      subst h
      cases hs : splitOn x xs with
      | nil => exact absurd hs (splitOn_ne_nil x xs)
      | cons piece pieces => rw [hs] at ih; simp [joinWith, ih]
    · cases hs : splitOn sep xs with
      | nil => exact absurd hs (splitOn_ne_nil sep xs)
      | cons piece pieces =>
        rw [hs] at ih
        cases pieces with
        | nil => simpa [joinWith] using ih
        | cons next rest => simpa [joinWith] using ih

theorem sep_not_mem_splitOn (sep : α) (l piece : List α) (h : piece ∈ splitOn sep l) :
    sep ∉ piece := by
  induction l generalizing piece with
  | nil => simp [splitOn] at h; simp [h]
  | cons x xs ih =>
    unfold splitOn at h
    split at h
    · rcases List.mem_cons.mp h with h | h
      · simp [h]
      · exact ih piece h
    · next hx =>
      cases hs : splitOn sep xs with
      | nil => exact absurd hs (splitOn_ne_nil sep xs)
      | cons head tail =>
        rw [hs] at h
        rcases List.mem_cons.mp h with h | h
        · rw [h]
          intro hm
          rcases List.mem_cons.mp hm with e | e
          · exact hx e.symm
          · exact ih head (by rw [hs]; exact List.mem_cons_self) e
        · exact ih piece (by rw [hs]; exact List.mem_cons_of_mem _ h)

/-- A piece without the separator comes back as it is. -/
theorem splitOn_of_not_mem (sep : α) (l : List α) (h : sep ∉ l) : splitOn sep l = [l] := by
  induction l with
  | nil => rfl
  | cons x xs ih =>
    have hx : x ≠ sep := fun e => h (e ▸ List.mem_cons_self)
    have hxs : sep ∉ xs := fun e => h (List.mem_cons_of_mem _ e)
    simp [splitOn, hx, ih hxs]

/-- Cutting at the first separator loses nothing. -/
theorem cutAt?_eq_some (sep : α) (l before after : List α) (h : cutAt? sep l = some (before, after)) :
    l = before ++ sep :: after ∧ sep ∉ before := by
  induction l generalizing before with
  | nil => simp [cutAt?] at h
  | cons x xs ih =>
    unfold cutAt? at h
    split at h
    · next hx => simp at h; obtain ⟨rfl, rfl⟩ := h; simp [hx]
    · next hx =>
      cases hc : cutAt? sep xs with
      | none => simp [hc] at h
      | some pair =>
        obtain ⟨b, a⟩ := pair
        simp [hc] at h
        obtain ⟨rfl, rfl⟩ := h
        obtain ⟨h1, h2⟩ := ih b hc
        exact ⟨by simp [← h1], by simp [h2, Ne.symm hx]⟩

end Cutting

/-! ### Trimming -/

/-- The list without its longest ending of elements satisfying `p`. -/
def trimEndWhere {α : Type} (p : α → Bool) (l : List α) : List α :=
  (l.reverse.dropWhile p).reverse

/-- The list without its longest ends, on both sides, of elements satisfying `p`. -/
def trimWhere {α : Type} (p : α → Bool) (l : List α) : List α :=
  trimEndWhere p (l.dropWhile p)

def isBlank (c : Char) : Bool :=
  let n := c.toNat
  (9 ≤ n && n ≤ 13) || n == 0x20 || n == 0x85 || n == 0xA0 || n == 0x1680 || (0x2000 ≤ n && n ≤ 0x200A)
    || n == 0x2028 || n == 0x2029 || n == 0x202F || n == 0x205F || n == 0x3000

/-! ### Digits -/

/-- The value of a digit in any radix up to 36. -/
def digitValue? (c : Char) : Option Nat :=
  if c.isDigit then some (c.toNat - '0'.toNat)
  else if 'a' ≤ c ∧ c ≤ 'z' then some (c.toNat - 'a'.toNat + 10)
  else if 'A' ≤ c ∧ c ≤ 'Z' then some (c.toNat - 'A'.toNat + 10)
  else none

def digitIn? (radix : Nat) (c : Char) : Option Nat :=
  match digitValue? c with
  | some d => if d < radix then some d else none
  | none => none

/-- Reads further digits of a number whose value so far is `n`. -/
def readDigitsFrom? (radix : Nat) : Nat → Text → Option Nat
  | n, [] => some n
  | n, c :: cs =>
    match digitIn? radix c with
    | some d => readDigitsFrom? radix (n * radix + d) cs
    | none => none

/-- The number a non-empty run of digits stands for. -/
def readDigits? (radix : Nat) (t : Text) : Option Nat :=
  if t = [] then none else readDigitsFrom? radix 0 t

def decimal (n : Nat) : Text :=
  Nat.toDigits 10 n

/-- A number in lower-case hexadecimal digits, without leading zeros. -/
def lowerHex (n : Nat) : Text :=
  Nat.toDigits 16 n

/-- The upper-case hexadecimal digit of a number below sixteen. -/
def upperHexDigit (n : Nat) : Char :=
  (Nat.digitChar n).toUpper

def upperHexByte (b : UInt8) : Text :=
  [upperHexDigit (b.toNat / 16), upperHexDigit (b.toNat % 16)]

/-- Text filled up with `fill` on its right side to at least `width` characters. -/
def padRight (fill : Char) (width : Nat) (t : Text) : Text :=
  t ++ List.replicate (width - t.length) fill

/-- Text filled up with `fill` on its left side to at least `width` characters. -/
def padLeft (fill : Char) (width : Nat) (t : Text) : Text :=
  List.replicate (width - t.length) fill ++ t

theorem length_padRight (fill : Char) (width : Nat) (t : Text) :
    (padRight fill width t).length = max width t.length := by
  simp only [padRight, List.length_append, List.length_replicate]
  omega

/-- ASCII letters in lower case, everything else as it is. -/
def lowerAscii (t : Text) : Text :=
  t.map Char.toLower

end Relocation
