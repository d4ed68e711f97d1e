import Relocation.Text.Basic

/-!
# Numbers written and read

The digits of a number are those of its quotient by the radix and then that of its remainder. By this one recursion,
what is written is made of digits, and what is written in hexadecimal, also behind zeros, is read back.

* `exists_of_mem_toDigits`: every character written is a digit;
* `readDigits?_padLeft`: a hexadecimal number behind any number of zeros is read back;
* `isNumeral_decimal`, `isNumeral_padLeft`: what is no digit is in no numeral.
-/

namespace Relocation

theorem exists_of_mem_toDigits {radix : Nat} (hr : 1 < radix) (n : Nat) {c : Char} (h : c ∈ Nat.toDigits radix n) :
    ∃ d, d < radix ∧ c = d.digitChar := by
  induction n using Nat.strongRecOn with
  | ind n ih =>
    rw [Nat.toDigits_eq_if hr] at h
    split at h
    · next hn => exact ⟨n, hn, List.mem_singleton.mp h⟩
    · next hn =>
      rcases List.mem_append.mp h with h | h
      · exact ih (n / radix) (Nat.div_lt_self (by omega) hr) h
      · exact ⟨n % radix, Nat.mod_lt n (by omega), List.mem_singleton.mp h⟩

theorem toDigits_ne_nil (radix n : Nat) : Nat.toDigits radix n ≠ [] :=
  List.ne_nil_of_length_pos Nat.length_toDigits_pos

theorem readDigitsFrom?_append (radix n : Nat) (front rest : Text) :
    readDigitsFrom? radix n (front ++ rest)
      = (readDigitsFrom? radix n front).bind fun m => readDigitsFrom? radix m rest := by
  induction front generalizing n with
  | nil => rfl
  | cons c cs ih =>
    rw [List.cons_append, readDigitsFrom?, readDigitsFrom?]
    cases digitIn? radix c with
    | none => rfl
    | some d => exact ih _

theorem digitIn?_digitChar {d : Nat} (h : d < 16) : digitIn? 16 d.digitChar = some d := by
  have hall : ∀ d < 16, digitIn? 16 (Nat.digitChar d) = some d := by decide
  exact hall d h

theorem readDigitsFrom?_lowerHex (n : Nat) : readDigitsFrom? 16 0 (lowerHex n) = some n := by
  induction n using Nat.strongRecOn with
  | ind n ih =>
    rw [lowerHex, Nat.toDigits_eq_if (by decide)]
    split
    · next hn =>
      rw [readDigitsFrom?, digitIn?_digitChar hn]
      simp [readDigitsFrom?]
    · next hn =>
      have hq := ih (n / 16) (by omega)
      rw [lowerHex] at hq
      rw [readDigitsFrom?_append, hq, Option.bind_some, readDigitsFrom?, digitIn?_digitChar (Nat.mod_lt n (by decide))]
      show some (n / 16 * 16 + n % 16) = some n
      rw [Nat.div_add_mod']

/-- Zeros in front change nothing. -/
theorem readDigitsFrom?_zeros (count : Nat) (t : Text) :
    readDigitsFrom? 16 0 (List.replicate count '0' ++ t) = readDigitsFrom? 16 0 t := by
  induction count with
  | zero => rfl
  | succ count ih => exact ih

theorem readDigits?_padLeft (width n : Nat) : readDigits? 16 (padLeft '0' width (lowerHex n)) = some n := by
  have hne : padLeft '0' width (lowerHex n) ≠ [] := fun h => toDigits_ne_nil 16 n (List.append_eq_nil_iff.mp h).2
  rw [readDigits?, if_neg hne, padLeft, readDigitsFrom?_zeros, readDigitsFrom?_lowerHex]

/-! ### What numerals are made of -/

/-- Text that is made of digits, of any radix up to sixteen. -/
def IsNumeral (t : Text) : Prop :=
  ∀ c ∈ t, ∃ d, d < 16 ∧ c = Nat.digitChar d

theorem isNumeral_decimal (n : Nat) : IsNumeral (decimal n) := by
  intro c hc
  obtain ⟨d, hd, rfl⟩ := exists_of_mem_toDigits (by decide) n hc
  exact ⟨d, by omega, rfl⟩

theorem IsNumeral.padLeft {t : Text} (h : IsNumeral t) (width : Nat) : IsNumeral (padLeft '0' width t) := by
  intro c hc
  rcases List.mem_append.mp hc with hz | ht
  · exact ⟨0, by decide, List.eq_of_mem_replicate hz⟩
  · exact h c ht

theorem isNumeral_padLeft (width n : Nat) : IsNumeral (padLeft '0' width (lowerHex n)) :=
  IsNumeral.padLeft (fun _ => exists_of_mem_toDigits (by decide) n) width

theorem IsNumeral.not_mem {t : Text} (h : IsNumeral t) {x : Char} (hx : ∀ d < 16, Nat.digitChar d ≠ x) : x ∉ t := by
  intro hm
  obtain ⟨d, hd, he⟩ := h x hm
  exact hx d hd he.symm

theorem IsNumeral.isBlank {t : Text} (h : IsNumeral t) {c : Char} (hc : c ∈ t) : isBlank c = false := by
  have hall : ∀ d < 16, Relocation.isBlank (Nat.digitChar d) = false := by decide
  obtain ⟨d, hd, rfl⟩ := h c hc
  exact hall d hd

end Relocation
