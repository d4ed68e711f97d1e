import Mathlib.Data.Bool.AllAny
import Relocation.Percent

/-!
# What percent coding keeps

Escaped text is ASCII, nothing of it is escaped a second time, and decoding gives back the bytes.

* `Spelled`: text in which a set of bytes has nothing to escape;
* `spelled_encode`: what one set leaves is spelled for every set that escapes less;
* `decodeText_encode`: decoding undoes encoding if every byte of a percent sign is escaped;
* `encodeText_eq_self`: encoding that leaves no percent sign has left everything.
-/

namespace Relocation

/-! ### Bytes of characters -/

namespace Utf8

theorem encodeChar_of_lt (c : Char) (h : c.toNat < 0x80) : encodeChar c = [UInt8.ofNat c.toNat] := by
  rw [encodeChar]
  exact if_pos h

theorem encodeChar_ne_nil (c : Char) : encodeChar c ≠ [] := by
  simp only [encodeChar]
  split
  · simp
  · split
    · simp
    · split <;> simp

/-- The bytes of a character beyond ASCII are beyond ASCII. -/
theorem le_of_mem_encodeChar (c : Char) (b : UInt8) (h : 0x80 ≤ c.toNat) (hb : b ∈ encodeChar c) :
    0x80 ≤ b.toNat := by
  have hv : c.toNat < 0x110000 := by
    have hc : c.toNat < 0xD800 ∨ (0xDFFF < c.toNat ∧ c.toNat < 0x110000) := c.valid
    omega
  simp only [encodeChar] at hb
  rw [if_neg (by omega)] at hb
  split at hb
  · simp only [List.mem_cons, List.not_mem_nil, or_false] at hb
    rcases hb with rfl | rfl <;> rw [UInt8.toNat_ofNat'] <;> omega
  · split at hb
    · simp only [List.mem_cons, List.not_mem_nil, or_false] at hb
      rcases hb with rfl | rfl | rfl <;> rw [UInt8.toNat_ofNat'] <;> omega
    · simp only [List.mem_cons, List.not_mem_nil, or_false] at hb
      rcases hb with rfl | rfl | rfl | rfl <;> rw [UInt8.toNat_ofNat'] <;> omega

/-- A byte of ASCII at the beginning of an encoded text is its first character. -/
theorem encode_eq_cons {t : Text} {b : UInt8} {more : Bytes} (h : encode t = b :: more) (hb : b.toNat < 0x80) :
    ∃ c rest, t = c :: rest ∧ c.toNat = b.toNat ∧ encode rest = more := by
  cases t with
  | nil => cases h
  | cons c rest =>
    rw [encode_cons] at h
    by_cases hc : c.toNat < 0x80
    · rw [encodeChar_of_lt c hc, List.singleton_append, List.cons.injEq] at h
      refine ⟨c, rest, rfl, ?_, h.2⟩
      rw [← h.1, UInt8.toNat_ofNat', Nat.mod_eq_of_lt (by omega)]
    · -- every byte of such a character is beyond ASCII, and it has one
      obtain ⟨first, tail, hfirst⟩ := List.exists_cons_of_ne_nil (encodeChar_ne_nil c)
      rw [hfirst, List.cons_append, List.cons.injEq] at h
      have hlow := le_of_mem_encodeChar c first (by omega) (by rw [hfirst]; exact List.mem_cons_self)
      rw [h.1] at hlow
      omega

theorem encode_ascii (t : Text) (h : ∀ c ∈ t, c.toNat < 0x80) :
    encode t = t.map fun c => UInt8.ofNat c.toNat := by
  induction t with
  | nil => rfl
  | cons c rest ih =>
    rw [encode_cons, encodeChar_of_lt c (h c List.mem_cons_self),
      ih fun d hd => h d (List.mem_cons_of_mem _ hd)]
    rfl

theorem ofNat_toNat_ofNat (c : Char) (h : c.toNat < 0x80) : Char.ofNat (UInt8.ofNat c.toNat).toNat = c := by
  rw [UInt8.toNat_ofNat', Nat.mod_eq_of_lt (by omega), Char.ofNat_toNat]

theorem toNat_ofNat_toNat (b : UInt8) (h : b.toNat < 0x80) : (Char.ofNat b.toNat).toNat = b.toNat := by
  have hv : b.toNat.isValidChar := Or.inl (by omega)
  rw [Char.ofNat, dif_pos hv]
  rfl

/-- An ASCII byte of a text is a character of it. -/
theorem mem_of_mem_encode (t : Text) (b : UInt8) (hb : b ∈ encode t) (h : b.toNat < 0x80) :
    Char.ofNat b.toNat ∈ t := by
  obtain ⟨c, hc, hbc⟩ := List.mem_flatMap.mp hb
  by_cases ha : c.toNat < 0x80
  · rw [encodeChar_of_lt c ha, List.mem_singleton] at hbc
    rw [hbc, ofNat_toNat_ofNat c ha]
    exact hc
  · have hle := le_of_mem_encodeChar c b (by omega) hbc
    omega

end Utf8

namespace Percent

/-! ### Sets -/

/-- A set that holds every byte beyond ASCII, as all sets for parts of a URL do. -/
def HoldsHigh (set : EscapeSet) : Prop :=
  ∀ b, set b = false → b.toNat < 0x80

/-- The characters of escapes. -/
def escapeChars : Text := "%0123456789ABCDEF".toList

/-- A set that leaves escapes alone. -/
def KeepsEscapes (set : EscapeSet) : Prop :=
  ∀ c ∈ escapeChars, set (UInt8.ofNat c.toNat) = false

-- decided along the list, because there are too many characters to ask all of them
instance (set : EscapeSet) : Decidable (KeepsEscapes set) :=
  List.decidableBAll _ escapeChars

theorem holdsHigh_controls : HoldsHigh controls := by
  intro b h
  simp only [controls, Bool.or_eq_false_iff, decide_eq_false_iff_not] at h
  omega

theorem HoldsHigh.of_subset {set coarse : EscapeSet} (h : HoldsHigh set)
    (hs : ∀ b, coarse b = false → set b = false) : HoldsHigh coarse :=
  fun b hb => h b (hs b hb)

theorem controls_of_pathSet (b : UInt8) (h : pathSet b = false) : controls b = false := by
  rw [pathSet, Bool.or_eq_false_iff] at h
  exact h.1

theorem pathSet_of_userinfoSet (b : UInt8) (h : userinfoSet b = false) : pathSet b = false := by
  rw [userinfoSet, Bool.or_eq_false_iff] at h
  exact h.1

theorem pathSet_of_nameSet (b : UInt8) (h : nameSet b = false) : pathSet b = false := by
  rw [nameSet, Bool.or_eq_false_iff] at h
  exact h.1

theorem holdsHigh_pathSet : HoldsHigh pathSet :=
  holdsHigh_controls.of_subset controls_of_pathSet

theorem holdsHigh_userinfoSet : HoldsHigh userinfoSet :=
  holdsHigh_pathSet.of_subset pathSet_of_userinfoSet

theorem holdsHigh_nameSet : HoldsHigh nameSet :=
  holdsHigh_pathSet.of_subset pathSet_of_nameSet

theorem keepsEscapes_pathSet : KeepsEscapes pathSet := by
  decide

theorem ne_percent_of_nameSet (b : UInt8) (h : nameSet b = false) : b ≠ 0x25 := by
  rintro rfl
  exact absurd h (by decide)

/-! ### Escapes -/

theorem mem_escapeChars_of_mem_upperHexByte (b : UInt8) (c : Char) (h : c ∈ upperHexByte b) :
    c ∈ escapeChars := by
  have hd : ∀ n < 16, upperHexDigit n ∈ escapeChars := by decide
  have hb : b.toNat < 256 := b.toNat_lt
  simp only [upperHexByte, List.mem_cons, List.not_mem_nil, or_false] at h
  rcases h with rfl | rfl
  · exact hd _ (by omega)
  · exact hd _ (by omega)

/-- What a byte is written with: the characters of escapes, or itself. -/
theorem mem_encodeByte (set : EscapeSet) (b : UInt8) (c : Char) (h : c ∈ encodeByte set b) :
    c ∈ escapeChars ∨ (set b = false ∧ c = Char.ofNat b.toNat) := by
  rw [encodeByte] at h
  split at h
  · rcases List.mem_cons.mp h with rfl | h
    · exact Or.inl (by decide)
    · exact Or.inl (mem_escapeChars_of_mem_upperHexByte b c h)
  · next hs => exact Or.inr ⟨by simpa using hs, List.mem_singleton.mp h⟩

/-- What bytes are written with: the characters of escapes, or bytes the set does not hold. -/
theorem mem_encode (set : EscapeSet) (bs : Bytes) (c : Char) (h : c ∈ encode set bs) :
    c ∈ escapeChars ∨ ∃ b ∈ bs, set b = false ∧ c = Char.ofNat b.toNat := by
  obtain ⟨b, hb, hc⟩ := List.mem_flatMap.mp h
  rcases mem_encodeByte set b c hc with he | ⟨hs, rfl⟩
  · exact Or.inl he
  · exact Or.inr ⟨b, hb, hs, rfl⟩

/-! ### Spelled text -/

/-- Text in which the set has nothing to escape. -/
def Spelled (set : EscapeSet) (t : Text) : Prop :=
  ∀ c ∈ t, c.toNat < 0x80 ∧ set (UInt8.ofNat c.toNat) = false

theorem spelled_nil (set : EscapeSet) : Spelled set [] := by
  intro c h
  cases h

theorem Spelled.encodeText {set : EscapeSet} {t : Text} (h : Spelled set t) : encodeText set t = t := by
  induction t with
  | nil => rfl
  | cons c rest ih =>
    have hc := h c List.mem_cons_self
    have hr : Spelled set rest := fun d hd => h d (List.mem_cons_of_mem _ hd)
    have hone : Percent.encodeText set [c] = [c] := by
      rw [Percent.encodeText, Utf8.encode_ascii [c] (by simpa using hc.1)]
      simp only [List.map_cons, List.map_nil, encode, List.flatMap_cons, List.flatMap_nil, encodeByte,
        hc.2, List.append_nil]
      exact congrArg (· :: []) (Utf8.ofNat_toNat_ofNat c hc.1)
    rw [← List.singleton_append, encodeText_append, hone, ih hr]

/-- What one set leaves is spelled for every set that escapes less. -/
theorem spelled_encode {set coarse : EscapeSet} (hk : KeepsEscapes set) (hh : HoldsHigh coarse)
    (hs : ∀ b, coarse b = false → set b = false) (bs : Bytes) : Spelled set (encode coarse bs) := by
  intro c hc
  rcases mem_encode coarse bs c hc with he | ⟨b, -, hb, rfl⟩
  · have ha : ∀ c ∈ escapeChars, c.toNat < 0x80 := List.all_iff_forall_prop.mp (by decide)
    exact ⟨ha c he, hk c he⟩
  · have hn := Utf8.toNat_ofNat_toNat b (hh b hb)
    rw [hn]
    exact ⟨hh b hb, by rw [UInt8.ofNat_toNat]; exact hs b hb⟩

theorem spelled_encodeText_pathSet (t : Text) : Spelled pathSet (encodeText pathSet t) :=
  spelled_encode keepsEscapes_pathSet holdsHigh_pathSet (fun _ h => h) (Utf8.encode t)

theorem spelled_encode_nameSet (bs : Bytes) : Spelled pathSet (encode nameSet bs) :=
  spelled_encode keepsEscapes_pathSet holdsHigh_nameSet pathSet_of_nameSet bs

/-! ### Decoding -/

theorem decode_cons_of_ne (a : UInt8) (rest : Bytes) (h : a ≠ 0x25) : decode (a :: rest) = a :: decode rest := by
  match rest with
  | [] => rfl
  | [b] => rfl
  | b :: c :: more => rw [decode, if_neg h]

theorem decode_of_not_mem (bs : Bytes) (h : (0x25 : UInt8) ∉ bs) : decode bs = bs := by
  induction bs with
  | nil => rfl
  | cons b rest ih =>
    have hb : b ≠ 0x25 := fun e => h (e ▸ List.mem_cons_self)
    rw [decode_cons_of_ne b rest hb, ih fun hm => h (List.mem_cons_of_mem _ hm)]

/-- A decoded byte was there before, or two hexadecimal digits behind a percent sign stood for it. -/
theorem decode_eq_cons {bs more : Bytes} {b : UInt8} (h : decode bs = b :: more) :
    (∃ rest, bs = b :: rest ∧ decode rest = more)
      ∨ ∃ x y rest high low, bs = 0x25 :: x :: y :: rest ∧ hexByte? x = some high ∧ hexByte? y = some low
        ∧ b = UInt8.ofNat (16 * high + low) ∧ decode rest = more := by
  by_cases ha : bs.head? = some 0x25
  · match bs with
    | [] => cases h
    | [a] =>
      cases h
      exact .inl ⟨[], rfl, rfl⟩
    | [a, x] =>
      cases h
      exact .inl ⟨[x], rfl, rfl⟩
    | a :: x :: y :: rest =>
      obtain rfl : a = 0x25 := Option.some.inj ha
      rw [decode, if_pos rfl] at h
      split at h
      · next high low hx hy =>
        obtain ⟨hb, hmore⟩ := List.cons.inj h
        exact .inr ⟨x, y, rest, high, low, rfl, hx, hy, hb.symm, hmore⟩
      · obtain ⟨rfl, hmore⟩ := List.cons.inj h
        exact .inl ⟨_, rfl, hmore⟩
  · cases bs with
    | nil => cases h
    | cons a rest =>
      rw [decode_cons_of_ne a rest fun e => ha (by rw [e]; rfl)] at h
      obtain ⟨rfl, hmore⟩ := List.cons.inj h
      exact .inl ⟨rest, rfl, hmore⟩

theorem eq_nil_of_decode {bs : Bytes} (h : decode bs = []) : bs = [] := by
  match bs with
  | [] => rfl
  | [a] => cases h
  | [a, x] => cases h
  | a :: x :: y :: rest =>
    rw [decode] at h
    split at h <;> cases h

theorem eq_nil_of_decodeText {t : Text} (h : decodeText t = []) : t = [] := by
  have hbytes : Utf8.encode t = [] := eq_nil_of_decode h
  cases t with
  | nil => rfl
  | cons c rest =>
    rw [Utf8.encode_cons, List.append_eq_nil_iff] at hbytes
    exact absurd hbytes.1 (Utf8.encodeChar_ne_nil c)

theorem decode_escape (b : UInt8) (rest : Bytes) :
    decode (Utf8.encode ('%' :: upperHexByte b) ++ rest) = b :: decode rest := by
  have ha : ∀ n < 16, (upperHexDigit n).toNat < 0x80 := by decide
  have hv : ∀ n < 16, hexByte? (UInt8.ofNat (upperHexDigit n).toNat) = some n := by decide
  have hb : b.toNat < 256 := b.toNat_lt
  have hhigh : b.toNat / 16 < 16 := by omega
  have hlow : b.toNat % 16 < 16 := by omega
  have hbytes : Utf8.encode ('%' :: upperHexByte b)
      = [0x25, UInt8.ofNat (upperHexDigit (b.toNat / 16)).toNat, UInt8.ofNat (upperHexDigit (b.toNat % 16)).toNat] := by
    refine Utf8.encode_ascii _ fun c hc => ?_
    simp only [upperHexByte, List.mem_cons, List.not_mem_nil, or_false] at hc
    rcases hc with rfl | rfl | rfl
    · decide
    · exact ha _ hhigh
    · exact ha _ hlow
  rw [hbytes, List.cons_append, List.cons_append, List.cons_append, List.nil_append, decode, if_pos rfl,
    hv _ hhigh, hv _ hlow]
  show UInt8.ofNat (16 * (b.toNat / 16) + b.toNat % 16) :: decode rest = b :: decode rest
  rw [Nat.div_add_mod, UInt8.ofNat_toNat]

/-- Decoding undoes encoding if the bytes of percent signs are escaped, and goes on behind it. -/
theorem decode_encode_append {set : EscapeSet} (hh : HoldsHigh set) (bs tail : Bytes)
    (hp : ∀ b ∈ bs, set b = false → b ≠ 0x25) :
    decode (Utf8.encode (encode set bs) ++ tail) = bs ++ decode tail := by
  induction bs with
  | nil => rfl
  | cons b rest ih =>
    have ih := ih fun a ha => hp a (List.mem_cons_of_mem _ ha)
    rw [show encode set (b :: rest) = encodeByte set b ++ encode set rest from rfl, Utf8.encode_append,
      List.append_assoc, List.cons_append]
    by_cases hs : set b = true
    · rw [encodeByte, if_pos hs, decode_escape, ih]
    · -- a byte that is kept is ASCII and no percent sign, so that nothing begins with it
      have hf : set b = false := by simpa using hs
      have hone : Utf8.encode [Char.ofNat b.toNat] = [b] := by
        have hn := Utf8.toNat_ofNat_toNat b (hh b hf)
        rw [Utf8.encode_ascii _ (by simpa [hn] using hh b hf)]
        simp [hn]
      rw [encodeByte, if_neg hs, hone, List.singleton_append,
        decode_cons_of_ne b _ (hp b List.mem_cons_self hf), ih]

theorem decodeText_encode {set : EscapeSet} (hh : HoldsHigh set) (bs : Bytes)
    (hp : ∀ b ∈ bs, set b = false → b ≠ 0x25) : decodeText (encode set bs) = bs := by
  have h := decode_encode_append hh bs [] hp
  rw [List.append_nil] at h
  exact h.trans (List.append_nil bs)

theorem decodeText_encode_nameSet (bs : Bytes) : decodeText (encode nameSet bs) = bs :=
  decodeText_encode holdsHigh_nameSet bs fun b _ => ne_percent_of_nameSet b

/-- Decoding undoes the encoding of text without percent signs. -/
theorem decodeText_encodeText {set : EscapeSet} (hh : HoldsHigh set) (t : Text) (hp : '%' ∉ t) :
    decodeText (encodeText set t) = Utf8.encode t :=
  decodeText_encode hh (Utf8.encode t) fun b hb _ he => by
    subst he
    exact hp (Utf8.mem_of_mem_encode t 0x25 hb (by decide))

/-! ### One character at a time -/

/-- A character is left as it is, or what is written for it starts with a percent sign. -/
theorem encodeText_singleton {set : EscapeSet} (hh : HoldsHigh set) (c : Char) :
    encodeText set [c] = [c] ∨ ∃ more, encodeText set [c] = '%' :: more := by
  rw [encodeText, Utf8.encode_cons, show Utf8.encode [] = [] from rfl, List.append_nil]
  by_cases ha : c.toNat < 0x80
  · rw [Utf8.encodeChar_of_lt c ha]
    simp only [encode, List.flatMap_cons, List.flatMap_nil, List.append_nil, encodeByte]
    split
    · exact Or.inr ⟨_, rfl⟩
    · exact Or.inl (congrArg (· :: []) (Utf8.ofNat_toNat_ofNat c ha))
  · -- the first byte of any other character is escaped
    obtain ⟨b, more, hbs⟩ := List.exists_cons_of_ne_nil (Utf8.encodeChar_ne_nil c)
    have hb : b ∈ Utf8.encodeChar c := by
      rw [hbs]
      exact List.mem_cons_self
    have hs : set b = true := by
      by_cases hs : set b = true
      · exact hs
      · have h1 := Utf8.le_of_mem_encodeChar c b (by omega) hb
        have h2 := hh b (by simpa using hs)
        omega
    rw [hbs]
    simp only [encode, List.flatMap_cons, encodeByte, if_pos hs, List.cons_append]
    exact Or.inr ⟨_, rfl⟩

theorem encodeText_cons (set : EscapeSet) (c : Char) (t : Text) :
    encodeText set (c :: t) = encodeText set [c] ++ encodeText set t := by
  rw [← encodeText_append, List.singleton_append]

/-- What starts with no percent sign starts with the first character itself. -/
theorem encodeText_eq_cons {set : EscapeSet} (hh : HoldsHigh set) (t : Text) (d : Char) (rest : Text)
    (h : encodeText set t = d :: rest) (hd : d ≠ '%') : ∃ more, t = d :: more ∧ encodeText set more = rest := by
  cases t with
  | nil => cases h
  | cons c more =>
    rw [encodeText_cons] at h
    rcases encodeText_singleton hh c with hc | ⟨tail, hc⟩
    · rw [hc, List.singleton_append] at h
      obtain ⟨rfl, rfl⟩ := List.cons.inj h
      exact ⟨more, rfl, rfl⟩
    · rw [hc, List.cons_append] at h
      exact absurd (List.cons.inj h).1 (Ne.symm hd)

/-- Encoding that leaves no percent sign has left everything. -/
theorem encodeText_eq_self {set : EscapeSet} (hh : HoldsHigh set) (t : Text) (h : '%' ∉ encodeText set t) :
    encodeText set t = t := by
  induction t with
  | nil => rfl
  | cons c rest ih =>
    rw [encodeText_cons] at h ⊢
    rcases encodeText_singleton hh c with hc | ⟨tail, hc⟩
    · rw [hc, ih fun hm => h (List.mem_append_right _ hm), List.singleton_append]
    · rw [hc] at h
      exact absurd (List.mem_append_left _ List.mem_cons_self) h

/-- A text that the set leaves alone, and that holds no percent sign, is written for nothing but itself. -/
theorem encodeText_eq_iff {set : EscapeSet} (hh : HoldsHigh set) {d : Text} (hd : encodeText set d = d) (hp : '%' ∉ d)
    (t : Text) : encodeText set t = d ↔ t = d := by
  constructor
  · intro h
    rw [← encodeText_eq_self hh t (by rw [h]; exact hp)]
    exact h
  · intro h
    rw [h]
    exact hd

end Percent

end Relocation
