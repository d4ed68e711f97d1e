import Relocation.NativePath

/-!
# Text survives as bytes

The first byte of a character announces how many follow and in which bounds the second one lies; each of the others
adds six bits. Read byte by byte, the bytes of a character report that character and leave nothing unfinished.

* `piecesFrom_encodeChar`: the bytes of one character, whatever follows;
* `decode?_encode`: the bytes of a text are read as that text;
* `display_ofText`: so is the path of a text.
-/

namespace Relocation

namespace Utf8

/-! ### The first byte -/

theorem announce?_two {lead : Nat} (h1 : 2 ≤ lead) (h2 : lead < 32) :
    announce? (UInt8.ofNat (0xC0 + lead)) = some ⟨[UInt8.ofNat (0xC0 + lead)], 1, 0x80, 0xBF, lead⟩ := by
  have hb := UInt8.toNat_ofNat_of_lt' (show 0xC0 + lead < 256 by omega)
  have hlead : (0xC0 + lead) % 32 = lead := by omega
  simp only [announce?, hb, hlead]
  rw [if_pos (by omega)]

/-- The second byte of three must not lead below the third length or to a surrogate. -/
theorem announce?_three {lead second : Nat} (h : lead < 16) (hs : second < 64) (h0 : lead = 0 → 32 ≤ second)
    (hd : lead = 13 → second < 32) :
    ∃ low high, announce? (UInt8.ofNat (0xE0 + lead)) = some ⟨[UInt8.ofNat (0xE0 + lead)], 2, low, high, lead⟩
      ∧ low ≤ 0x80 + second ∧ 0x80 + second ≤ high := by
  have hb := UInt8.toNat_ofNat_of_lt' (show 0xE0 + lead < 256 by omega)
  have hlead : (0xE0 + lead) % 16 = lead := by omega
  simp only [announce?, hb, hlead]
  rw [if_neg (by omega)]
  by_cases hzero : lead = 0
  · rw [if_pos (by omega), hzero]
    exact ⟨0xA0, 0xBF, rfl, by omega, by omega⟩
  · rw [if_neg (by omega)]
    by_cases hsurrogate : lead = 13
    · rw [if_pos (by omega), hsurrogate]
      exact ⟨0x80, 0x9F, rfl, by omega, by omega⟩
    · rw [if_neg (by omega), if_pos (by omega)]
      exact ⟨0x80, 0xBF, rfl, by omega, by omega⟩

/-- The second byte of four must not lead below the fourth length or beyond the last character. -/
theorem announce?_four {lead second : Nat} (h : lead < 5) (hs : second < 64) (h0 : lead = 0 → 16 ≤ second)
    (h4 : lead = 4 → second < 16) :
    ∃ low high, announce? (UInt8.ofNat (0xF0 + lead)) = some ⟨[UInt8.ofNat (0xF0 + lead)], 3, low, high, lead⟩
      ∧ low ≤ 0x80 + second ∧ 0x80 + second ≤ high := by
  have hb := UInt8.toNat_ofNat_of_lt' (show 0xF0 + lead < 256 by omega)
  have hlead : (0xF0 + lead) % 8 = lead := by omega
  simp only [announce?, hb, hlead]
  rw [if_neg (by omega), if_neg (by omega), if_neg (by omega), if_neg (by omega)]
  by_cases hzero : lead = 0
  · rw [if_pos (by omega), hzero]
    exact ⟨0x90, 0xBF, rfl, by omega, by omega⟩
  · rw [if_neg (by omega)]
    by_cases hlast : lead = 4
    · rw [if_neg (by omega), if_pos (by omega), hlast]
      exact ⟨0x80, 0x8F, rfl, by omega, by omega⟩
    · rw [if_pos (by omega)]
      exact ⟨0x80, 0xBF, rfl, by omega, by omega⟩

/-! ### One byte after the other -/

theorem piecesFrom_announce {b : UInt8} {p : Pending} (hb : 0x80 ≤ b.toNat) (h : announce? b = some p) (bs : Bytes) :
    piecesFrom none (b :: bs) = piecesFrom (some p) bs := by
  have hstep : step none b = ([], some p) := by
    rw [step, stepFresh, if_neg (by omega), h]
  rw [piecesFrom, hstep]
  rfl

section Pending

variable {run : Bytes} {low high value m : Nat} (hm : m < 64) (hlow : low ≤ 0x80 + m) (hhigh : 0x80 + m ≤ high)
include hm hlow hhigh

/-- A byte that is not the last one adds six bits. -/
theorem piecesFrom_more (owed : Nat) (bs : Bytes) :
    piecesFrom (some ⟨run, owed + 2, low, high, value⟩) (UInt8.ofNat (0x80 + m) :: bs)
      = piecesFrom (some ⟨run ++ [UInt8.ofNat (0x80 + m)], owed + 1, 0x80, 0xBF, value * 64 + m⟩) bs := by
  have hb := UInt8.toNat_ofNat_of_lt' (show 0x80 + m < 256 by omega)
  have hbits : (0x80 + m) % 64 = m := by omega
  have hstep : step (some ⟨run, owed + 2, low, high, value⟩) (UInt8.ofNat (0x80 + m))
      = ([], some ⟨run ++ [UInt8.ofNat (0x80 + m)], owed + 1, 0x80, 0xBF, value * 64 + m⟩) := by
    simp only [step, hb, hbits]
    rw [if_pos ⟨hlow, hhigh⟩, if_neg (by omega)]
    rfl
  rw [piecesFrom, hstep]
  rfl

/-- The last byte completes the character. -/
theorem piecesFrom_last (bs : Bytes) :
    piecesFrom (some ⟨run, 1, low, high, value⟩) (UInt8.ofNat (0x80 + m) :: bs)
      = .scalar (Char.ofNat (value * 64 + m)) :: piecesFrom none bs := by
  have hb := UInt8.toNat_ofNat_of_lt' (show 0x80 + m < 256 by omega)
  have hbits : (0x80 + m) % 64 = m := by omega
  have hstep : step (some ⟨run, 1, low, high, value⟩) (UInt8.ofNat (0x80 + m))
      = ([.scalar (Char.ofNat (value * 64 + m))], none) := by
    simp only [step, hb, hbits]
    rw [if_pos ⟨hlow, hhigh⟩, if_pos (by omega)]
  rw [piecesFrom, hstep]
  rfl

end Pending

/-! ### Characters and texts -/

theorem isScalar (c : Char) : c.toNat < 0xD800 ∨ (0xDFFF < c.toNat ∧ c.toNat < 0x110000) := c.valid

/-- The bytes of a character report it, whatever follows. -/
theorem piecesFrom_encodeChar (c : Char) (bs : Bytes) :
    piecesFrom none (encodeChar c ++ bs) = .scalar c :: piecesFrom none bs := by
  have hc := isScalar c
  have hchar : ∀ n, n = c.toNat → Piece.scalar (Char.ofNat n) = .scalar c := by
    rintro n rfl
    rw [Char.ofNat_toNat]
  generalize hn : c.toNat = n at hc hchar
  simp only [encodeChar, hn]
  by_cases h1 : n < 0x80
  · have hb := UInt8.toNat_ofNat_of_lt' (show n < 256 by omega)
    have hstep : step none (UInt8.ofNat n) = ([.scalar (Char.ofNat n)], none) := by
      rw [step, stepFresh, hb, if_pos h1]
    rw [if_pos h1, List.singleton_append, piecesFrom, hstep, hchar n rfl]
    rfl
  by_cases h2 : n < 0x800
  · rw [if_neg h1, if_pos h2]
    show piecesFrom none (UInt8.ofNat (0xC0 + n / 64) :: UInt8.ofNat (0x80 + n % 64) :: bs) = _
    have hfirst := announce?_two (show 2 ≤ n / 64 by omega) (by omega)
    have hb := UInt8.toNat_ofNat_of_lt' (show 0xC0 + n / 64 < 256 by omega)
    rw [piecesFrom_announce (by omega) hfirst, piecesFrom_last (by omega) (by omega) (by omega), hchar _ (by omega)]
  by_cases h3 : n < 0x10000
  · rw [if_neg h1, if_neg h2, if_pos h3]
    show piecesFrom none (UInt8.ofNat (0xE0 + n / 4096) :: UInt8.ofNat (0x80 + n / 64 % 64)
      :: UInt8.ofNat (0x80 + n % 64) :: bs) = _
    obtain ⟨low, high, hfirst, hlow, hhigh⟩ :=
      announce?_three (show n / 4096 < 16 by omega) (show n / 64 % 64 < 64 by omega) (by omega) (by omega)
    have hb := UInt8.toNat_ofNat_of_lt' (show 0xE0 + n / 4096 < 256 by omega)
    rw [piecesFrom_announce (by omega) hfirst, piecesFrom_more (by omega) hlow hhigh 0,
      piecesFrom_last (by omega) (by omega) (by omega), hchar _ (by omega)]
  · rw [if_neg h1, if_neg h2, if_neg h3]
    show piecesFrom none (UInt8.ofNat (0xF0 + n / 262144) :: UInt8.ofNat (0x80 + n / 4096 % 64)
      :: UInt8.ofNat (0x80 + n / 64 % 64) :: UInt8.ofNat (0x80 + n % 64) :: bs) = _
    obtain ⟨low, high, hfirst, hlow, hhigh⟩ :=
      announce?_four (show n / 262144 < 5 by omega) (show n / 4096 % 64 < 64 by omega) (by omega) (by omega)
    have hb := UInt8.toNat_ofNat_of_lt' (show 0xF0 + n / 262144 < 256 by omega)
    rw [piecesFrom_announce (by omega) hfirst, piecesFrom_more (by omega) hlow hhigh 1,
      piecesFrom_more (by omega) (by omega) (by omega) 0, piecesFrom_last (by omega) (by omega) (by omega),
      hchar _ (by omega)]

theorem pieces_encode (t : Text) : pieces (encode t) = t.map Piece.scalar := by
  induction t with
  | nil => rfl
  | cons c rest ih => rw [encode_cons, pieces, piecesFrom_encodeChar, ← pieces, ih, List.map_cons]

theorem allScalar?_map (t : Text) : allScalar? (t.map Piece.scalar) = some t := by
  induction t with
  | nil => rfl
  | cons c rest ih => rw [List.map_cons, allScalar?, ih, Option.map_some]

/-- The bytes of a text are read as that text. -/
@[simp]
theorem decode?_encode (t : Text) : decode? (encode t) = some t := by
  rw [decode?, pieces_encode, allScalar?_map]

end Utf8

namespace NativePath

@[simp]
theorem display_ofText (t : Text) : (ofText t).display = t :=
  Utf8.lossy_eq_of_decode? _ t (Utf8.decode?_encode t)

end NativePath

end Relocation
