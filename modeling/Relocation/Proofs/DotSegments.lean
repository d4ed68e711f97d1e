import Relocation.Proofs.Escaping
import Relocation.Url.Path

/-!
# Dot segments and their spellings

A segment moves the reader of a path if, with every `%2e` read as a dot, it is one dot or two. Escaping neither
makes nor hides such a segment: an escape that is written for a byte is never `%2E`, because a dot is never escaped,
and a percent sign that stood in the text keeps the two characters behind it.

* `isSingleDot_encodeText`, `isDoubleDot_encodeText`: escaped text moves exactly where the text does;
* `isSingleDot_iff`, `isDoubleDot_iff`: the segments that move are those that are decoded to `.` and `..`;
* `isDots_encode_nameSet`: an escaped name moves only if it is `.` or `..` itself.
-/

namespace Relocation.Url

open Percent

/-- Whether the segment moves instead of naming something. -/
def isDots (segment : Text) : Bool :=
  isSingleDot segment || isDoubleDot segment

theorem dots_cons_of_ne (c : Char) (t : Text) (h : c ≠ '%') : dots (c :: t) = c :: dots t := by
  rw [dots]
  · rintro rest rfl
    simp at h
  · rintro rest rfl
    simp at h

theorem dots_of_not_mem (t : Text) (h : '%' ∉ t) : dots t = t := by
  induction t with
  | nil => rfl
  | cons c rest ih =>
    have hc : c ≠ '%' := fun e => h (e ▸ List.mem_cons_self)
    rw [dots_cons_of_ne c rest hc, ih fun hm => h (List.mem_cons_of_mem _ hm)]

/-- A percent sign that spells no dot. -/
theorem dots_percent (t : Text) (hl : ∀ rest, t ≠ '2' :: 'e' :: rest) (hu : ∀ rest, t ≠ '2' :: 'E' :: rest) :
    dots ('%' :: t) = '%' :: dots t := by
  rw [dots]
  · rintro rest - rfl
    exact hl rest rfl
  · rintro rest - rfl
    exact hu rest rfl

theorem dots_escape (b : UInt8) (t : Text) (h : b ≠ 0x2E) :
    dots ('%' :: upperHexByte b ++ t) = '%' :: upperHexByte b ++ dots t := by
  have hlow : ∀ n < 16, upperHexDigit n ≠ 'e' ∧ upperHexDigit n ≠ '%' := by decide
  have htwo : ∀ n < 16, upperHexDigit n = '2' → n = 2 := by decide
  have hfour : ∀ n < 16, upperHexDigit n = 'E' → n = 14 := by decide
  have hb : b.toNat < 256 := b.toNat_lt
  have hd1 := hlow (b.toNat / 16) (by omega)
  have hd2 := hlow (b.toNat % 16) (by omega)
  have hdots : dots ('%' :: (upperHexDigit (b.toNat / 16) :: upperHexDigit (b.toNat % 16) :: t))
      = '%' :: dots (upperHexDigit (b.toNat / 16) :: upperHexDigit (b.toNat % 16) :: t) := by
    refine dots_percent _ (fun rest he => ?_) (fun rest he => ?_)
    · exact hd2.1 (List.cons.inj (List.cons.inj he).2).1
    · have h1 := htwo _ (by omega) (List.cons.inj he).1
      have h2 := hfour _ (by omega) (List.cons.inj (List.cons.inj he).2).1
      apply h
      rw [← UInt8.toNat_inj]
      show b.toNat = 46
      omega
  show dots ('%' :: (upperHexDigit (b.toNat / 16) :: upperHexDigit (b.toNat % 16) :: t)) = _
  rw [hdots, dots_cons_of_ne _ _ hd1.2, dots_cons_of_ne _ _ hd2.2]
  rfl

/-- Bytes none of which is a kept percent sign spell dots only where they have them. -/
theorem dots_encode (set : EscapeSet) (hh : HoldsHigh set) (hdot : set 0x2E = false) (bs : Bytes) (t : Text)
    (hp : ∀ b ∈ bs, set b = false → b ≠ 0x25) : dots (encode set bs ++ t) = encode set bs ++ dots t := by
  induction bs with
  | nil => rfl
  | cons b rest ih =>
    have ih := ih fun a ha => hp a (List.mem_cons_of_mem _ ha)
    rw [show encode set (b :: rest) = encodeByte set b ++ encode set rest from rfl, List.append_assoc,
      List.append_assoc, ← ih, encodeByte]
    split
    · next hs =>
      refine dots_escape b _ ?_
      rintro rfl
      rw [hdot] at hs
      cases hs
    · next hs =>
      have hf : set b = false := by simpa using hs
      refine dots_cons_of_ne _ _ fun he => hp b List.mem_cons_self hf ?_
      rw [← UInt8.toNat_inj, ← Utf8.toNat_ofNat_toNat b (hh b hf), he]
      rfl

/-- Escaping the text of a path changes no dots. -/
theorem dots_encodeText (t : Text) : dots (encodeText pathSet t) = encodeText pathSet (dots t) := by
  have hone : ∀ c ∈ "%.2eE".toList, encodeText pathSet [c] = [c] := List.all_iff_forall_prop.mp (by decide)
  have hkept : ∀ c ∈ "%.2eE".toList, ∀ t, encodeText pathSet (c :: t) = c :: encodeText pathSet t := by
    intro c hc t
    rw [encodeText_cons, hone c hc, List.singleton_append]
  induction t using dots.induct with
  | case1 rest ih =>
    rw [hkept '%' (by decide), hkept '2' (by decide), hkept 'e' (by decide), dots, dots, ih, hkept '.' (by decide)]
  | case2 rest ih =>
    rw [hkept '%' (by decide), hkept '2' (by decide), hkept 'E' (by decide), dots, dots, ih, hkept '.' (by decide)]
  | case3 c rest hl hu ih =>
    by_cases hc : c = '%'
    · subst hc
      -- the two characters behind a percent sign are the same before and after
      have htwo : ∀ d, d ≠ '%' → ∀ more, encodeText pathSet rest = '2' :: d :: more →
          ∃ more, rest = '2' :: d :: more := by
        intro d hd more he
        obtain ⟨tail, rfl, htail⟩ := encodeText_eq_cons holdsHigh_pathSet rest '2' _ he (by decide)
        obtain ⟨final, rfl, -⟩ := encodeText_eq_cons holdsHigh_pathSet tail d _ htail hd
        exact ⟨final, rfl⟩
      have h1 : dots ('%' :: encodeText pathSet rest) = '%' :: dots (encodeText pathSet rest) := by
        refine dots_percent _ (fun more he => ?_) (fun more he => ?_)
        · obtain ⟨final, hf⟩ := htwo 'e' (by decide) more he
          exact hl final rfl hf
        · obtain ⟨final, hf⟩ := htwo 'E' (by decide) more he
          exact hu final rfl hf
      have h2 : dots ('%' :: rest) = '%' :: dots rest :=
        dots_percent rest (fun more he => hl more rfl he) (fun more he => hu more rfl he)
      rw [hkept '%' (by decide), h1, h2, ih, hkept '%' (by decide)]
    · rw [encodeText_cons, dots_cons_of_ne c rest hc, encodeText_cons _ c (dots rest), ← ih]
      refine dots_encode pathSet holdsHigh_pathSet (by decide) _ _ fun b hb _ he => hc ?_
      subst he
      have hm := Utf8.mem_of_mem_encode [c] 0x25 hb (by decide)
      exact (List.mem_singleton.mp hm).symm
  | case4 => rfl

/-- Escaped text is a dot exactly where the text is. -/
theorem isSingleDot_encodeText (t : Text) : isSingleDot (encodeText pathSet t) = isSingleDot t := by
  rw [isSingleDot, isSingleDot, dots_encodeText, Bool.eq_iff_iff, beq_iff_eq, beq_iff_eq]
  exact encodeText_eq_iff holdsHigh_pathSet (by decide) (by decide) (dots t)

/-- Escaped text is two dots exactly where the text is. -/
theorem isDoubleDot_encodeText (t : Text) : isDoubleDot (encodeText pathSet t) = isDoubleDot t := by
  rw [isDoubleDot, isDoubleDot, dots_encodeText, Bool.eq_iff_iff, beq_iff_eq, beq_iff_eq]
  exact encodeText_eq_iff holdsHigh_pathSet (by decide) (by decide) (dots t)

/-! ### Dots among decoded bytes -/

/-- Hexadecimal digits that stand for a dot. -/
theorem hexDigits_of_dot {x y : UInt8} {high low : Nat} (hx : hexByte? x = some high) (hy : hexByte? y = some low)
    (h : 0x2E = UInt8.ofNat (16 * high + low)) : x.toNat = 0x32 ∧ (y.toNat = 0x65 ∨ y.toNat = 0x45) := by
  have htwo : ∀ n < 256, hexByte? (UInt8.ofNat n) = some 2 → n = 0x32 := by decide +kernel
  have hfourteen : ∀ n < 256, hexByte? (UInt8.ofNat n) = some 14 → n = 0x65 ∨ n = 0x45 := by decide +kernel
  have hsmall : ∀ n < 256, ∀ d ∈ hexByte? (UInt8.ofNat n), d < 16 := by decide +kernel
  have hhigh : high < 16 := hsmall x.toNat x.toNat_lt high (by rw [UInt8.ofNat_toNat]; exact hx)
  have hlow : low < 16 := hsmall y.toNat y.toNat_lt low (by rw [UInt8.ofNat_toNat]; exact hy)
  have hvalue := congrArg UInt8.toNat h
  rw [UInt8.toNat_ofNat', Nat.mod_eq_of_lt (by omega)] at hvalue
  have hvalue : 46 = 16 * high + low := hvalue
  obtain rfl : high = 2 := by omega
  obtain rfl : low = 14 := by omega
  exact ⟨htwo x.toNat x.toNat_lt (by rw [UInt8.ofNat_toNat]; exact hx),
    hfourteen y.toNat y.toNat_lt (by rw [UInt8.ofNat_toNat]; exact hy)⟩

/-- A dot that is decoded counts as a dot of the segment. -/
theorem dots_of_decodeText {t : Text} {more : Bytes} (h : decodeText t = 0x2E :: more) :
    ∃ rest, dots t = '.' :: dots rest ∧ decodeText rest = more := by
  have hchar (c : Char) (n : Nat) (hc : c.toNat = n) : c = Char.ofNat n := by rw [← hc, Char.ofNat_toNat]
  rcases decode_eq_cons h with ⟨bs, hbs, hmore⟩ | ⟨x, y, bs, high, low, hbs, hx, hy, hb, hmore⟩
  · obtain ⟨c, rest, rfl, hc, hrest⟩ := Utf8.encode_eq_cons hbs (by decide)
    obtain rfl : c = '.' := hchar c _ hc
    exact ⟨rest, dots_cons_of_ne '.' rest (by decide), by rw [decodeText, hrest, hmore]⟩
  · obtain ⟨hx, hy⟩ := hexDigits_of_dot hx hy hb
    obtain ⟨c, tail, rfl, hc, htail⟩ := Utf8.encode_eq_cons hbs (by decide)
    obtain ⟨d, end2, rfl, hd, hend⟩ := Utf8.encode_eq_cons htail (by omega)
    obtain ⟨e, rest, rfl, he, hrest⟩ := Utf8.encode_eq_cons hend (by omega)
    obtain rfl : c = '%' := hchar c _ hc
    obtain rfl : d = '2' := hchar d _ (hd.trans hx)
    refine ⟨rest, ?_, by rw [decodeText, hrest, hmore]⟩
    rcases hy with hy | hy
    · obtain rfl : e = 'e' := hchar e _ (he.trans hy)
      rw [dots]
    · obtain rfl : e = 'E' := hchar e _ (he.trans hy)
      rw [dots]

/-- A dot of the segment is decoded to a dot. -/
theorem decodeText_of_dots {t more : Text} (h : dots t = '.' :: more) :
    ∃ rest, decodeText t = 0x2E :: decodeText rest ∧ dots rest = more := by
  rw [dots.eq_def] at h
  split at h
  · next rest => exact ⟨rest, rfl, (List.cons.inj h).2⟩
  · next rest => exact ⟨rest, rfl, (List.cons.inj h).2⟩
  · next c rest _ _ =>
    obtain ⟨rfl, hmore⟩ := List.cons.inj h
    exact ⟨rest, decode_cons_of_ne 0x2E (Utf8.encode rest) (by decide), hmore⟩
  · cases h

theorem eq_nil_of_dots {t : Text} (h : dots t = []) : t = [] := by
  rw [dots.eq_def] at h
  split at h
  · cases h
  · cases h
  · cases h
  · rfl

/-- A segment stays where it is exactly if it is decoded to a dot. -/
theorem isSingleDot_iff (t : Text) : isSingleDot t = true ↔ decodeText t = [0x2E] := by
  rw [isSingleDot, beq_iff_eq]
  constructor
  · intro h
    obtain ⟨rest, ht, hrest⟩ := decodeText_of_dots h
    rw [ht, eq_nil_of_dots hrest]
    rfl
  · intro h
    obtain ⟨rest, ht, hrest⟩ := dots_of_decodeText h
    rw [ht, eq_nil_of_decodeText hrest]
    rfl

/-- A segment goes one up exactly if it is decoded to two dots. -/
theorem isDoubleDot_iff (t : Text) : isDoubleDot t = true ↔ decodeText t = [0x2E, 0x2E] := by
  rw [isDoubleDot, beq_iff_eq]
  constructor
  · intro h
    obtain ⟨second, ht, hsecond⟩ := decodeText_of_dots h
    obtain ⟨rest, hs, hrest⟩ := decodeText_of_dots hsecond
    rw [ht, hs, eq_nil_of_dots hrest]
    rfl
  · intro h
    obtain ⟨second, ht, hsecond⟩ := dots_of_decodeText h
    obtain ⟨rest, hs, hrest⟩ := dots_of_decodeText hsecond
    rw [ht, hs, eq_nil_of_decodeText hrest]
    rfl

/-- A name is no dots once it is escaped, unless it is one or two dots itself. -/
theorem isDots_encode_nameSet (name : Bytes) (h1 : name ≠ [0x2E]) (h2 : name ≠ [0x2E, 0x2E]) :
    isDots (encode nameSet name) = false := by
  rw [isDots, Bool.or_eq_false_iff, Bool.eq_false_iff, Bool.eq_false_iff, Ne, Ne, isSingleDot_iff, isDoubleDot_iff,
    decodeText_encode_nameSet]
  exact ⟨h1, h2⟩

end Relocation.Url
