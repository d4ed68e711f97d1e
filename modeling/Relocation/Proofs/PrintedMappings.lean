import Mathlib.Algebra.Group.Nat.Defs
import Relocation.Proofs.MapLines
import Relocation.Proofs.Numerals

/-!
# What is read of a printed mapping

The kernel prints each bound of a mapping with at least eight hexadecimal digits and with more where it needs them, so
that the two bounds differ in width if a power of sixteen lies between them. What is mapped stands in the last column:
the path of a file, the name of some memory, or nothing. The reader asks for bounds of the same width, and takes all
from the first slash of the line on for the path.

* `Region.line`: the line the kernel prints;
* `Region.isLevel_iff`: the bounds that have the same width;
* `Region.readLine?_of_slash` / `Region.readLine?_eq_none_iff`: what is read of any printed line.
-/

namespace Relocation

open MemoryMap

/-! ### Numbers in columns -/

/-- A hexadecimal number of at least `width` digits. -/
def fixedHex (width n : Nat) : Text :=
  padLeft '0' width (lowerHex n)

theorem isNumeral_fixedHex (width n : Nat) : IsNumeral (fixedHex width n) :=
  isNumeral_padLeft width n

theorem readAddress?_fixedHex {n : Nat} (h : n < addressBound) (width : Nat) :
    readAddress? (fixedHex width n) = some n := by
  have hplus : '+' ∉ fixedHex width n := (isNumeral_fixedHex width n).not_mem (by decide)
  have hdigits : readDigits? 16 (fixedHex width n) = some n := readDigits?_padLeft width n
  rw [readAddress?, hdigits]
  · exact if_pos h
  · exact fun rest he => hplus (he ▸ List.mem_cons_self)

theorem length_fixedHex (width n : Nat) : (fixedHex width n).length = max width (lowerHex n).length := by
  rw [fixedHex, padLeft, List.length_append, List.length_replicate]
  omega

/-- A number needs more digits than its column has exactly if it is not below a power of sixteen. -/
theorem length_fixedHex_le_iff {width k : Nat} (hpos : 0 < k) (hk : width ≤ k) (n : Nat) :
    (fixedHex width n).length ≤ k ↔ n < 16 ^ k := by
  rw [length_fixedHex, Nat.max_le, and_iff_right hk, lowerHex, Nat.length_toDigits_le_iff (by decide) hpos]

/-! ### Text in front of what is mapped -/

/-- Text that is one field of a line and ends before any path. -/
def IsUnbroken (t : Text) : Prop :=
  ∀ c ∈ t, isBlank c = false ∧ c ≠ '/'

instance (t : Text) : Decidable (IsUnbroken t) :=
  List.decidableBAll _ t

/-- What is printed in front of what is mapped begins no path and ends no line. -/
def IsInner (t : Text) : Prop :=
  '/' ∉ t ∧ '\n' ∉ t

theorem isInner_of_isNumeral {t : Text} (h : IsNumeral t) : IsInner t :=
  ⟨h.not_mem (by decide), h.not_mem (by decide)⟩

theorem IsUnbroken.isInner {t : Text} (h : IsUnbroken t) : IsInner t :=
  ⟨fun hm => (h _ hm).2 rfl, fun hm => absurd (h _ hm).1 (by decide)⟩

theorem IsInner.append {front back : Text} (hf : IsInner front) (hb : IsInner back) : IsInner (front ++ back) :=
  ⟨List.not_mem_append hf.1 hb.1, List.not_mem_append hf.2 hb.2⟩

theorem IsInner.cons {c : Char} {t : Text} (hc : '/' ≠ c ∧ '\n' ≠ c) (ht : IsInner t) : IsInner (c :: t) :=
  ⟨List.not_mem_cons_of_ne_of_not_mem hc.1 ht.1, List.not_mem_cons_of_ne_of_not_mem hc.2 ht.2⟩

theorem isInner_blanks (count : Nat) : IsInner (List.replicate count ' ') :=
  ⟨fun h => absurd (List.eq_of_mem_replicate h) (by decide), fun h => absurd (List.eq_of_mem_replicate h) (by decide)⟩

/-! ### Regions -/

/-- A mapping as the kernel prints it. -/
structure Region where
  start : Nat
  /-- The first address behind the mapping. -/
  stop : Nat
  permissions : Text
  offset : Nat
  major : Nat
  minor : Nat
  inode : Nat
  /-- What stands in the last column. -/
  name : Text
  start_lt : start < addressBound
  stop_lt : stop < addressBound
  length_permissions : permissions.length = 4
  isUnbroken_permissions : IsUnbroken permissions

namespace Region

/-- The two bounds of a mapping. -/
def bounds (r : Region) : Text :=
  fixedHex 8 r.start ++ '-' :: fixedHex 8 r.stop

/-- What stands between the permissions and what is mapped. -/
def numbers (r : Region) : Text :=
  fixedHex 8 r.offset ++ ' ' :: (fixedHex 2 r.major ++ ':' :: (fixedHex 2 r.minor ++ ' ' :: (decimal r.inode ++ [' '])))

def fields (r : Region) : Text :=
  r.bounds ++ ' ' :: (r.permissions ++ ' ' :: r.numbers)

/-- The line of a region; what is mapped stands behind column 72, one blank away. -/
def line (r : Region) : Text :=
  if r.name = [] then r.fields else padRight ' ' 72 r.fields ++ ' ' :: r.name

/-- No power of sixteen with more than eight digits is above one bound and not above the other. -/
def IsLevel (r : Region) : Prop :=
  ∀ k, 8 ≤ k → (r.start < 16 ^ k ↔ r.stop < 16 ^ k)

variable (r : Region)

/-- The bounds have the same width unless a power of sixteen lies between them. -/
theorem isLevel_iff : r.IsLevel ↔ (fixedHex 8 r.start).length = (fixedHex 8 r.stop).length := by
  have hle (k : Nat) (hk : 8 ≤ k) (n : Nat) : (fixedHex 8 n).length ≤ k ↔ n < 16 ^ k :=
    length_fixedHex_le_iff (by omega) hk n
  constructor
  · intro h
    have height (n : Nat) : 8 ≤ (fixedHex 8 n).length := by
      rw [length_fixedHex]
      omega
    have hstop := (hle _ (height r.start) r.stop).mpr ((h _ (height _)).mp ((hle _ (height _) _).mp (Nat.le_refl _)))
    have hstart := (hle _ (height r.stop) r.start).mpr ((h _ (height _)).mpr ((hle _ (height _) _).mp (Nat.le_refl _)))
    exact Nat.le_antisymm hstart hstop
  · intro h k hk
    rw [← hle k hk, ← hle k hk, h]

instance : Decidable r.IsLevel :=
  decidable_of_iff _ r.isLevel_iff.symm

/-! ### Their lines -/

theorem isInner_bounds : IsInner r.bounds :=
  (isInner_of_isNumeral (isNumeral_fixedHex 8 _)).append
    (.cons (by decide) (isInner_of_isNumeral (isNumeral_fixedHex 8 _)))

theorem isInner_numbers : IsInner r.numbers := by
  refine (isInner_of_isNumeral (isNumeral_fixedHex 8 _)).append (.cons (by decide) ?_)
  refine (isInner_of_isNumeral (isNumeral_fixedHex 2 _)).append (.cons (by decide) ?_)
  refine (isInner_of_isNumeral (isNumeral_fixedHex 2 _)).append (.cons (by decide) ?_)
  exact (isInner_of_isNumeral (isNumeral_decimal _)).append (isInner_blanks 1)

theorem isField_bounds : IsField r.bounds := by
  refine ⟨by simp [bounds], fun c hc => ?_⟩
  rcases List.mem_append.mp hc with hc | hc
  · exact (isNumeral_fixedHex 8 r.start).isBlank hc
  · rcases List.mem_cons.mp hc with rfl | hc
    · decide
    · exact (isNumeral_fixedHex 8 r.stop).isBlank hc

theorem isField_permissions : IsField r.permissions := by
  refine ⟨?_, fun c hc => (r.isUnbroken_permissions c hc).1⟩
  intro h
  have hlen := r.length_permissions
  rw [h] at hlen
  cases hlen

/-- What is printed of a region, up to what is mapped. -/
def front (r : Region) (blanks : Text) : Text :=
  r.bounds ++ ' ' :: (r.permissions ++ ' ' :: (r.numbers ++ blanks))

theorem isInner_front {blanks : Text} (h : IsInner blanks) : IsInner (r.front blanks) :=
  r.isInner_bounds.append
    (.cons (by decide) (r.isUnbroken_permissions.isInner.append (.cons (by decide) (r.isInner_numbers.append h))))

theorem exists_line_eq : ∃ blanks, IsInner blanks ∧ r.line = r.front blanks ++ r.name := by
  rw [line, fields]
  split
  · next hn =>
    refine ⟨[], isInner_blanks 0, ?_⟩
    rw [hn, front, List.append_nil, List.append_nil]
  · refine ⟨List.replicate (72 - r.fields.length) ' ' ++ [' '], (isInner_blanks _).append (isInner_blanks 1), ?_⟩
    rw [padRight, fields, front]
    simp

theorem slash_mem_line : '/' ∈ r.line ↔ '/' ∈ r.name := by
  obtain ⟨blanks, hb, hline⟩ := r.exists_line_eq
  rw [hline, List.mem_append, or_iff_right (r.isInner_front hb).1]

theorem newline_mem_line : '\n' ∈ r.line ↔ '\n' ∈ r.name := by
  obtain ⟨blanks, hb, hline⟩ := r.exists_line_eq
  rw [hline, List.mem_append, or_iff_right (r.isInner_front hb).2]

/-! ### What is read -/

variable {r}

theorem readBounds?_bounds (h : r.IsLevel) : readBounds? r.bounds = some (r.start, r.stop) := by
  have hcut : cutAt? '-' r.bounds = some (fixedHex 8 r.start, fixedHex 8 r.stop) :=
    cutAt?_append_sep '-' _ _ ((isNumeral_fixedHex 8 r.start).not_mem (by decide))
  simp only [readBounds?, hcut, r.isLevel_iff.mp h, ne_eq, not_true_eq_false, if_false,
    readAddress?_fixedHex r.start_lt, readAddress?_fixedHex r.stop_lt]

theorem readBounds?_of_not_isLevel (h : ¬r.IsLevel) : readBounds? r.bounds = none := by
  have hcut : cutAt? '-' r.bounds = some (fixedHex 8 r.start, fixedHex 8 r.stop) :=
    cutAt?_append_sep '-' _ _ ((isNumeral_fixedHex 8 r.start).not_mem (by decide))
  rw [readBounds?, hcut]
  exact if_pos fun he => h (r.isLevel_iff.mpr he)

/-- Bounds of different widths are taken for no mapping, whatever is mapped. -/
theorem readLine?_of_not_isLevel (h : ¬r.IsLevel) : readLine? r.line = none := by
  obtain ⟨blanks, -, hline⟩ := r.exists_line_eq
  rw [hline, front, List.append_assoc, List.cons_append]
  exact readLine?_of_readBounds? _ r.isField_bounds (readBounds?_of_not_isLevel h)

/-- All from the first slash of what is mapped is taken for the path. -/
theorem readLine?_of_slash {before tail : Text} (h : r.IsLevel) (hn : r.name = before ++ '/' :: tail)
    (hb : '/' ∉ before) :
    readLine? r.line
      = some ⟨r.start, r.stop, r.permissions, withoutMark ('/' :: trimEndWhere isLineEnd tail)⟩ := by
  obtain ⟨blanks, hblanks, hline⟩ := r.exists_line_eq
  have hslash : '/' ∉ r.front blanks ++ before := List.not_mem_append (r.isInner_front hblanks).1 hb
  have hassoc : r.front blanks ++ before
      = r.bounds ++ ' ' :: (r.permissions ++ ' ' :: (r.numbers ++ blanks ++ before)) := by
    rw [front]
    simp
  rw [hline, hn, ← List.append_assoc, hassoc]
  rw [hassoc] at hslash
  exact readLine?_fields tail r.isField_bounds r.isField_permissions hslash (readBounds?_bounds h)

/-- Nothing is read of a printed line if what is mapped holds no slash, or if a power of sixteen lies between the
bounds. -/
theorem readLine?_eq_none_iff : readLine? r.line = none ↔ '/' ∉ r.name ∨ ¬r.IsLevel := by
  constructor
  · intro h
    by_cases hslash : '/' ∈ r.name
    · refine .inr fun hlevel => ?_
      obtain ⟨before, tail, hn, hb⟩ := List.eq_append_cons_of_mem hslash
      rw [readLine?_of_slash hlevel hn hb] at h
      cases h
    · exact .inl hslash
  · rintro (hslash | hlevel)
    · exact MemoryMap.readLine?_eq_none fun hm => hslash (r.slash_mem_line.mp hm)
    · exact readLine?_of_not_isLevel hlevel

end Region

end Relocation
