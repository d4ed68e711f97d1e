import Relocation.Text.Utf8

/-!
# Percent coding

A byte that may not stand in some part of a URL is written `%XX`. Which bytes those are depends on the part; a
set is a predicate on bytes, and always holds every byte from 0x80 on.

* the sets: `controls`, `fragmentSet`, `querySet`, `specialQuerySet`, `pathSet`, `userinfoSet`, `nameSet`;
* `encode` / `encodeText`: bytes or text with the bytes of a set escaped;
* `decode`: every well-formed escape replaced by its byte, anything else kept.
-/

namespace Relocation.Percent

/-! ### Sets -/

/-- A set of bytes that are escaped. -/
abbrev EscapeSet := UInt8 → Bool

/-- Whether the byte is one of the ASCII characters of `t`. -/
def among (t : Text) (b : UInt8) : Bool :=
  t.any fun c => c.toNat == b.toNat

/-- Controls and everything outside ASCII. -/
def controls : EscapeSet := fun b =>
  b.toNat < 0x20 || 0x7F ≤ b.toNat

def fragmentSet : EscapeSet := fun b =>
  controls b || among [' ', '\x22', '<', '>', '\x60'] b

def querySet : EscapeSet := fun b =>
  controls b || among [' ', '\x22', '#', '<', '>'] b

/-- What is escaped in the query of a special scheme. -/
def specialQuerySet : EscapeSet := fun b =>
  querySet b || among ['\x27'] b

def pathSet : EscapeSet := fun b =>
  controls b || among [' ', '\x22', '#', '<', '>', '?', '\x60', '\x7b', '\x7d'] b

def userinfoSet : EscapeSet := fun b =>
  pathSet b || among ['/', ':', ';', '=', '@', '[', '\\', ']', '^', '|'] b

/-- What is escaped in the name of a file so that it stays one segment of a path. -/
def nameSet : EscapeSet := fun b =>
  pathSet b || among ['/', '%', '\\'] b

/-! ### Coding -/

/-- One byte, escaped if the set holds it. -/
def encodeByte (set : EscapeSet) (b : UInt8) : Text :=
  if set b then '%' :: upperHexByte b else [Char.ofNat b.toNat]

def encode (set : EscapeSet) (bs : Bytes) : Text :=
  bs.flatMap (encodeByte set)

def encodeText (set : EscapeSet) (t : Text) : Text :=
  encode set (Utf8.encode t)

/-- The value of a byte read as a hexadecimal digit. -/
def hexByte? (b : UInt8) : Option Nat :=
  digitIn? 16 (Char.ofNat b.toNat)

/-- Every `%XX` replaced by the byte it stands for. -/
def decode : Bytes → Bytes
  | [] => []
  | [a] => [a]
  | [a, b] => [a, b]
  | a :: b :: c :: rest =>
    match (if a = 0x25 then hexByte? b else none), hexByte? c with
    | some high, some low => UInt8.ofNat (16 * high + low) :: decode rest
    | _, _ => a :: decode (b :: c :: rest)

def decodeText (t : Text) : Bytes :=
  decode (Utf8.encode t)

theorem encode_append (set : EscapeSet) (xs ys : Bytes) :
    encode set (xs ++ ys) = encode set xs ++ encode set ys := by
  simp [encode]

theorem encodeText_append (set : EscapeSet) (s t : Text) :
    encodeText set (s ++ t) = encodeText set s ++ encodeText set t := by
  simp [encodeText, Utf8.encode_append, encode_append]

/-- Bytes the set does not hold stay as they are. -/
theorem encode_of_none (set : EscapeSet) (bs : Bytes) (h : ∀ b ∈ bs, set b = false) :
    encode set bs = bs.map fun b => Char.ofNat b.toNat := by
  induction bs with
  | nil => rfl
  | cons b rest ih =>
    have hb : set b = false := h b List.mem_cons_self
    have hr := ih fun x hx => h x (List.mem_cons_of_mem _ hx)
    simp only [encode, List.flatMap_cons, List.map_cons] at hr ⊢
    rw [hr]
    simp [encodeByte, hb]

end Relocation.Percent
