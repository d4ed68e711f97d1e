import Relocation.Toml.Value
import Relocation.Toml.Strings

/-!
# Numbers, dates and truth values

Each reader takes as much of the text as belongs to its value and gives what follows. A date is tried before a
number with a fraction or exponent, and that before a whole number.
-/

namespace Relocation.Toml

/-! ### Digits -/

/-- Further digits, any of which an underscore may precede. -/
def moreDigits (isDigit : Char → Bool) : Text → Text × Text
  | '_' :: c :: rest =>
    if isDigit c then
      let (digits, after) := moreDigits isDigit rest
      (c :: digits, after)
    else ([], '_' :: c :: rest)
  | c :: rest =>
    if isDigit c then
      let (digits, after) := moreDigits isDigit rest
      (c :: digits, after)
    else ([], c :: rest)
  | [] => ([], [])

/-- Digits with single underscores between them, without the underscores. -/
def readGrouped? (isDigit : Char → Bool) : Text → Option (Text × Text)
  | c :: rest =>
    if isDigit c then
      let (digits, after) := moreDigits isDigit rest
      some (c :: digits, after)
    else none
  | [] => none

/-- An optional sign: whether it is a minus, and what follows. -/
def readSign : Text → Bool × Text
  | '-' :: rest => (true, rest)
  | '+' :: rest => (false, rest)
  | t => (false, t)

/-- A whole number in decimal: its sign and digits, the first of which is a zero only if it stands alone. -/
def readWhole? (t : Text) : Option (Bool × Text × Text) :=
  let (negative, unsigned) := readSign t
  match unsigned with
  | '0' :: rest => some (negative, ['0'], rest)
  | _ => (readGrouped? Char.isDigit unsigned).map fun (digits, rest) => (negative, digits, rest)

/-- The least and the greatest whole number. -/
def isInRange (n : Int) : Bool :=
  -Int.pow 2 63 ≤ n && n < Int.pow 2 63

/-- A whole number of a given radix, behind its mark. -/
def readRadix? (radix : Nat) (t : Text) : Option (Value × Text) :=
  match readGrouped? (fun c => (digitIn? radix c).isSome) t with
  | none => none
  | some (digits, rest) =>
    match readDigits? radix digits with
    | none => none
    | some n => if isInRange n then some (.integer n, rest) else none

def readInteger? (t : Text) : Option (Value × Text) :=
  match t with
  | '0' :: 'x' :: rest => readRadix? 16 rest
  | '0' :: 'o' :: rest => readRadix? 8 rest
  | '0' :: 'b' :: rest => readRadix? 2 rest
  | _ =>
    match readWhole? t with
    | none => none
    | some (negative, digits, rest) =>
      match readDigits? 10 digits with
      | none => none
      | some n =>
        let value : Int := if negative then -n else n
        if isInRange value then some (.integer value, rest) else none

/-! ### Fractions -/

def readFraction? : Text → Option (Text × Text)
  | '.' :: rest => readGrouped? Char.isDigit rest
  | _ => none

def readExponent? : Text → Option (Int × Text)
  | c :: rest =>
    if c = 'e' ∨ c = 'E' then
      let (negative, unsigned) := readSign rest
      match readGrouped? Char.isDigit unsigned with
      | none => none
      | some (digits, after) =>
        (readDigits? 10 digits).map fun n => (if negative then -(n : Int) else n, after)
    else none
  | [] => none

/-- Whether `digits` times a power of ten rounds to a number beyond the greatest one of double precision. A power
so high or so low that the number of digits decides is not computed. -/
def overflows (digits : Text) (exponent : Int) : Bool :=
  let significant := digits.dropWhile (· == '0')
  let magnitude : Int := significant.length + exponent
  if significant = [] ∨ magnitude < 300 then false
  else if 320 < magnitude then true
  else
    let n := (readDigits? 10 significant).getD 0
    let bound := Nat.pow 2 1024 - Nat.pow 2 970
    if 0 ≤ exponent then bound ≤ n * Nat.pow 10 exponent.toNat else bound * Nat.pow 10 (-exponent).toNat ≤ n

/-- A number with a fraction, an exponent or both. A positive one must not be too great. -/
def readDecimal? (t : Text) : Option (Value × Text) :=
  match readWhole? t with
  | none => none
  | some (negative, whole, rest) =>
    let parts : Option (Text × Int × Text) :=
      match readFraction? rest with
      | some (fraction, after) =>
        match readExponent? after with
        | some (e, end_) => some (fraction, e, end_)
        | none => some (fraction, 0, after)
      | none => (readExponent? rest).map fun (e, after) => ([], e, after)
    match parts with
    | none => none
    | some (fraction, e, after) =>
      if !negative && overflows (whole ++ fraction) (e - fraction.length) then none
      else some (.float (t.take (t.length - after.length)), after)

def readSpecial? (t : Text) : Option (Value × Text) :=
  match (readSign t).2 with
  | 'i' :: 'n' :: 'f' :: rest => some (.float (t.take (t.length - rest.length)), rest)
  | 'n' :: 'a' :: 'n' :: rest => some (.float (t.take (t.length - rest.length)), rest)
  | _ => none

/-! ### Dates and times -/

def readFixed? (width : Nat) (t : Text) : Option (Nat × Text) :=
  let digits := t.take width
  if digits.length = width ∧ digits.all Char.isDigit then
    (readDigits? 10 digits).map fun n => (n, t.drop width)
  else none

def expect? (c : Char) : Text → Option Text
  | d :: rest => if d = c then some rest else none
  | [] => none

def daysIn (year month : Nat) : Nat :=
  if month = 2 then (if year % 4 = 0 ∧ (year % 100 ≠ 0 ∨ year % 400 = 0) then 29 else 28)
  else if month = 4 ∨ month = 6 ∨ month = 9 ∨ month = 11 then 30
  else 31

def readDate? (t : Text) : Option Text := do
  let (year, t) ← readFixed? 4 t
  let t ← expect? '-' t
  let (month, t) ← readFixed? 2 t
  let t ← expect? '-' t
  let (day, t) ← readFixed? 2 t
  if 1 ≤ month ∧ month ≤ 12 ∧ 1 ≤ day ∧ day ≤ daysIn year month then some t else none

def readHourMinute? (t : Text) : Option Text := do
  let (hour, t) ← readFixed? 2 t
  let t ← expect? ':' t
  let (minute, t) ← readFixed? 2 t
  if hour ≤ 23 ∧ minute ≤ 59 then some t else none

/-- What follows the fraction of a second, if there is one. -/
def dropFraction (t : Text) : Text :=
  match t with
  | '.' :: c :: rest => if c.isDigit then rest.dropWhile Char.isDigit else t
  | _ => t

def readTime? (t : Text) : Option Text := do
  let t ← readHourMinute? t
  let t ← expect? ':' t
  let (second, t) ← readFixed? 2 t
  if second ≤ 60 then some (dropFraction t) else none

/-- What follows the distance from universal time. -/
def readOffset? : Text → Option Text
  | c :: rest =>
    if c = 'Z' ∨ c = 'z' then some rest
    else if c = '+' ∨ c = '-' then readHourMinute? rest
    else none
  | [] => none

/-- What follows a time behind a date, if there is one. -/
def dropTime (t : Text) : Text :=
  match t with
  | c :: rest =>
    if c = 'T' ∨ c = 't' ∨ c = ' ' then
      match readTime? rest with
      | some after => (readOffset? after).getD after
      | none => t
    else t
  | [] => []

def readMoment? (t : Text) : Option (Value × Text) :=
  let after := match readDate? t with
    | some rest => some (dropTime rest)
    | none => readTime? t
  after.map fun rest => (.moment (t.take (t.length - rest.length)), rest)

/-! ### All of them -/

def readWord? (t : Text) : Option (Value × Text) :=
  match t with
  | 't' :: 'r' :: 'u' :: 'e' :: rest => some (.boolean true, rest)
  | 'f' :: 'a' :: 'l' :: 's' :: 'e' :: rest => some (.boolean false, rest)
  | _ => none

/-- A value that is neither a string nor made of other values. -/
def readScalar? (t : Text) : Option (Value × Text) :=
  (readMoment? t).or <| (readDecimal? t).or <| (readSpecial? t).or <| (readInteger? t).or (readWord? t)

end Relocation.Toml
