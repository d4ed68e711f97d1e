import Mathlib.Data.List.Basic
import Relocation.Proofs.Numerals
import Relocation.Toml.Writer

/-!
# Strings of TOML are read as they were written

Whatever is in a string, one of the four ways to quote it holds it, and what is read back is the string. Between three
quotes, quotes in a row may belong to the string or close it: the reader counts them, and as the writer never lets more
than two stand in a row, the first three behind which no further one stands close the string.

* `readBasic_writeBasic`, `readLiteral_append`: strings on one line;
* `readBlock_writeBasicBlock`, `readBlock_append`: strings on several lines;
* `readString?_writeString`: any string, in the quotes that are chosen for it.
-/

namespace Relocation.Toml

/-! ### Escapes -/

/-- A character that stands for itself. -/
def IsOwn (c : Char) : Prop :=
  isPlain c = true ∧ c ≠ basicQuote ∧ c ≠ '\\' ∧ c ≠ '\n' ∧ c ≠ '\r'

/-- What a letter behind a backslash stands for, unless the line may end there. -/
def IsLetterFor (letter c : Char) : Prop :=
  escaped? letter = some c ∧ isSpace letter = false ∧ letter ≠ '\n' ∧ letter ≠ '\r'

instance (letter c : Char) : Decidable (IsLetterFor letter c) :=
  inferInstanceAs (Decidable (_ ∧ _ ∧ _ ∧ _))

/-- The letters, each with what it stands for. -/
def letters : List (Char × Char) :=
  [('b', '\x08'), ('t', '\t'), ('n', '\n'), ('f', '\x0c'), ('r', '\r'), (basicQuote, basicQuote), ('\\', '\\')]

theorem letterFor?_eq_some {c letter : Char} (h : letterFor? c = some letter) : IsLetterFor letter c := by
  have hall : (letters.all fun pair => IsLetterFor pair.1 pair.2) = true := by decide
  have hmem : (letter, c) ∈ letters := by
    rw [letterFor?] at h
    grind [letters]
  exact of_decide_eq_true (List.all_eq_true.mp hall (letter, c) hmem)

theorem letterFor?_eq_none {c : Char} (h : letterFor? c = none) : c ≠ basicQuote ∧ c ≠ '\\' ∧ c ≠ '\n' ∧ c ≠ '\r' := by
  refine ⟨?_, ?_, ?_, ?_⟩ <;> rintro rfl <;> exact absurd h (by decide)

theorem digitIn?_upperHexDigit {d : Nat} (h : d < 16) : digitIn? 16 (upperHexDigit d) = some d := by
  have hall : ∀ d < 16, digitIn? 16 (upperHexDigit d) = some d := by decide
  exact hall d h

theorem map_toUpper_padLeft {n : Nat} (h : n < 0x80) :
    (padLeft '0' 4 (lowerHex n)).map Char.toUpper = ['0', '0', upperHexDigit (n / 16), upperHexDigit (n % 16)] := by
  have hall : ∀ n < 0x80, (padLeft '0' 4 (lowerHex n)).map Char.toUpper
      = ['0', '0', upperHexDigit (n / 16), upperHexDigit (n % 16)] := by decide
  exact hall n h

/-- A character is written by a letter, by its number or as it is. -/
theorem escape_cases (c : Char) :
    (∃ letter, escape c = ['\\', letter] ∧ IsLetterFor letter c)
      ∨ (c.toNat < 0x80
        ∧ escape c = ['\\', 'u', '0', '0', upperHexDigit (c.toNat / 16), upperHexDigit (c.toNat % 16)])
      ∨ (escape c = [c] ∧ IsOwn c) := by
  cases hl : letterFor? c with
  | some letter =>
    refine Or.inl ⟨letter, ?_, letterFor?_eq_some hl⟩
    simp only [escape, hl]
  | none =>
    obtain ⟨hq, hb, hn, hr⟩ := letterFor?_eq_none hl
    by_cases hcode : c.toNat < 0x20 ∨ c.toNat = 0x7F
    · have hlt : c.toNat < 0x80 := by omega
      refine Or.inr (Or.inl ⟨hlt, ?_⟩)
      simp only [escape, hl]
      rw [if_pos hcode, map_toUpper_padLeft hlt]
      rfl
    · refine Or.inr (Or.inr ⟨?_, ?_, hq, hb, hn, hr⟩)
      · simp only [escape, hl]
        rw [if_neg hcode]
      · simp only [isPlain, Bool.or_eq_true, Bool.and_eq_true, decide_eq_true_eq, beq_iff_eq]
        omega

theorem charOf?_toNat {c : Char} (h : c.toNat < 0x80) : charOf? c.toNat = some c := by
  rw [charOf?, if_pos (Or.inl (by omega)), Char.ofNat_toNat]

theorem value_eq (n : Nat) : 16 * (16 * (16 * (16 * 0 + 0) + 0) + n / 16) + n % 16 = n := by omega

/-! ### One line -/

theorem readBasic_escape (c : Char) (rest : Text) :
    readBasic .plain (escape c ++ rest) = StringRead.after [c] (readBasic .plain rest) := by
  have hback : '\\' ≠ basicQuote := by decide
  rcases escape_cases c with ⟨letter, he, hletter, -⟩ | ⟨hlt, he⟩ | ⟨he, hplain, hquote, hslash, -⟩
  · rw [he, List.cons_append, readBasic, if_neg hback, if_pos rfl, List.singleton_append, readBasic, hletter]
  · have hu : escaped? 'u' = none := by decide
    have hdigits : digitsAfter? 'u' = some 4 := by decide
    have hzero : digitIn? 16 '0' = some 0 := by decide
    have hhigh := digitIn?_upperHexDigit (show c.toNat / 16 < 16 by omega)
    have hlow := digitIn?_upperHexDigit (show c.toNat % 16 < 16 by omega)
    rw [he]
    simp only [List.cons_append, List.nil_append, readBasic, if_neg hback, if_true, hu, hdigits, hzero, hhigh, hlow]
    simp only [Nat.reduceLeDiff, if_false, Nat.reduceSub, if_true, value_eq, charOf?_toNat hlt]
  · rw [he, List.singleton_append, readBasic, if_neg hquote, if_neg hslash, if_pos hplain]

theorem readBasic_writeBasic (t rest : Text) :
    readBasic .plain (writeBasic t ++ basicQuote :: rest) = some (t, rest) := by
  induction t with
  | nil => rfl
  | cons c more ih =>
    rw [writeBasic, List.flatMap_cons, List.append_assoc, readBasic_escape, ← writeBasic, ih]
    rfl

theorem readLiteral_append (t rest : Text) (h : ∀ c ∈ t, isPlain c = true ∧ c ≠ literalQuote) :
    readLiteral (t ++ literalQuote :: rest) = some (t, rest) := by
  induction t with
  | nil => rfl
  | cons c more ih =>
    obtain ⟨hplain, hquote⟩ := h c List.mem_cons_self
    rw [List.cons_append, readLiteral, if_neg hquote, if_pos hplain, ih fun d hd => h d (List.mem_cons_of_mem _ hd)]
    rfl

/-! ### Several lines -/

@[simp]
theorem StringRead.after_nil (r : StringRead) : StringRead.after [] r = r := by
  cases r <;> rfl

@[simp]
theorem StringRead.after_after (front back : Text) (r : StringRead) :
    StringRead.after front (StringRead.after back r) = StringRead.after (front ++ back) r := by
  cases r with
  | none => rfl
  | some pair =>
    show some (front ++ (back ++ pair.1), pair.2) = some ((front ++ back) ++ pair.1, pair.2)
    rw [List.append_assoc]

section Block

variable {quote : Char} {escapes : Bool}

theorem readBlock_cons {s next : BlockState} {c : Char} {rest out : Text} (hc : isClosed quote s (c :: rest) = false)
    (hs : blockStep quote escapes s c = some (out, next)) :
    readBlock quote escapes s (c :: rest) = StringRead.after out (readBlock quote escapes next rest) := by
  rw [readBlock, hc, hs, if_neg (by simp)]

theorem isClosed_eq_false {quotes : Nat} (h : quotes ≤ 2) (c : Char) (rest : Text) :
    isClosed quote (.body quotes) (c :: rest) = false := by
  rw [isClosed, Bool.and_eq_false_iff, decide_eq_false_iff_not]
  omega

/-- No quote closes the string while a further one follows that may belong to it. -/
theorem readBlock_quote {quotes : Nat} (h : quotes ≤ 4) (rest : Text) :
    readBlock quote escapes (.body quotes) (quote :: rest) = readBlock quote escapes (.body (quotes + 1)) rest := by
  have hclosed : isClosed quote (.body quotes) (quote :: rest) = false := by
    simp only [isClosed, bne_self_eq_false, Bool.false_or, Bool.and_eq_false_iff, beq_eq_false_iff_ne]
    exact Or.inr (by omega)
  have hstep : blockStep quote escapes (.body quotes) quote = some ([], .body (quotes + 1)) := by
    rw [blockStep, if_pos rfl]
  rw [readBlock_cons hclosed hstep, StringRead.after_nil]

/-- Three quotes behind at most two, and then the end of the line, close the string. -/
theorem readBlock_closing (hq : quote ≠ '\n') {quotes : Nat} (h : quotes ≤ 2) (rest : Text) :
    readBlock quote escapes (.body quotes) (tripled quote ++ '\n' :: rest)
      = some (List.replicate quotes quote, '\n' :: rest) := by
  have hend : isClosed quote (.body (quotes + 3)) ('\n' :: rest) = true := by
    simp only [isClosed, Bool.and_eq_true, decide_eq_true_eq, Bool.or_eq_true, bne_iff_ne]
    exact ⟨by omega, Or.inl hq.symm⟩
  show readBlock quote escapes (.body quotes) (quote :: quote :: quote :: '\n' :: rest) = _
  rw [readBlock_quote (by omega), readBlock_quote (by omega), readBlock_quote (by omega), readBlock, if_pos hend]
  rfl

/-- A character that stands for itself follows the quotes before it into the string. -/
theorem readBlock_own {quotes : Nat} (h : quotes ≤ 2) {c : Char} (hq : c ≠ quote) (hb : ¬(c = '\\' ∧ escapes = true))
    (hc : c = '\n' ∨ isPlain c = true) (rest : Text) :
    readBlock quote escapes (.body quotes) (c :: rest)
      = StringRead.after (List.replicate quotes quote ++ [c]) (readBlock quote escapes (.body 0) rest) := by
  have hr : c ≠ '\r' := by
    rintro rfl
    rcases hc with hc | hc <;> exact absurd hc (by decide)
  refine readBlock_cons (isClosed_eq_false h c rest) ?_
  rw [blockStep, if_neg hq]
  simp only
  rw [if_neg hb]
  by_cases hn : c = '\n'
  · rw [if_pos hn, hn]
  · rw [if_neg hn, if_neg hr, if_pos (hc.resolve_left hn)]

theorem runInFront_le_longestRun (c : Char) (t : Text) : runInFront c t ≤ longestRun c t := by
  cases t with
  | nil => exact Nat.le_refl 0
  | cons d rest => exact Nat.le_max_left _ _

/-- Characters that stand for themselves, with at most two quotes in a row, are read as they are. -/
theorem readBlock_append (hq : quote ≠ '\n') (he : escapes = false) (quotes : Nat) (t rest : Text)
    (hfront : quotes + runInFront quote t ≤ 2) (hrun : longestRun quote t ≤ 2)
    (hc : ∀ c ∈ t, c = '\n' ∨ isPlain c = true) :
    readBlock quote escapes (.body quotes) (t ++ (tripled quote ++ '\n' :: rest))
      = some (List.replicate quotes quote ++ t, '\n' :: rest) := by
  -- the quotes counted so far are held back, and the next character that is none gives them back
  induction t generalizing quotes with
  | nil =>
    rw [List.nil_append, readBlock_closing hq (by omega), List.append_nil]
  | cons c more ih =>
    rw [longestRun] at hrun
    have hmore : ∀ d ∈ more, d = '\n' ∨ isPlain d = true := fun d hd => hc d (List.mem_cons_of_mem _ hd)
    rw [List.cons_append]
    by_cases hcq : c = quote
    · subst hcq
      rw [runInFront, if_pos rfl] at hfront
      rw [readBlock_quote (by omega), ih _ (by omega) (by omega) hmore, List.replicate_succ', List.append_assoc]
      rfl
    · have hle := runInFront_le_longestRun quote more
      rw [readBlock_own (by omega) hcq (by simp [he]) (hc c List.mem_cons_self), ih 0 (by omega) (by omega) hmore]
      show some ((List.replicate quotes quote ++ [c]) ++ more, _) = _
      rw [List.append_assoc]
      rfl

end Block

/-! ### Several lines with escapes -/

theorem readBlock_escape {quotes : Nat} (h : quotes ≤ 2) {c : Char} (rest : Text) :
    readBlock basicQuote true (.body quotes) (escape c ++ rest)
      = StringRead.after (List.replicate quotes basicQuote ++ [c]) (readBlock basicQuote true (.body 0) rest) := by
  have hback : blockStep basicQuote true (.body quotes) '\\' = some (List.replicate quotes basicQuote, .escape) := by
    rw [blockStep, if_neg (by decide)]
    exact if_pos ⟨rfl, rfl⟩
  rcases escape_cases c with ⟨letter, he, hletter, hspace, hn, hr⟩ | ⟨hlt, he⟩ | ⟨he, hplain, hquote, hslash, -, -⟩
  · have hstep : blockStep basicQuote true .escape letter = some ([c], .body 0) := by
      rw [blockStep, hspace, if_neg (by simp), if_neg hn, if_neg hr, hletter]
    rw [he, List.cons_append, List.singleton_append, readBlock_cons (isClosed_eq_false h _ _) hback,
      readBlock_cons rfl hstep, StringRead.after_after]
  · have hu : blockStep basicQuote true .escape 'u' = some ([], .number 4 0) := by decide
    have hfirst : blockStep basicQuote true (.number 4 0) '0' = some ([], .number 3 0) := by decide
    have hsecond : blockStep basicQuote true (.number 3 0) '0' = some ([], .number 2 0) := by decide
    have hhigh : blockStep basicQuote true (.number 2 0) (upperHexDigit (c.toNat / 16))
        = some ([], .number 1 (c.toNat / 16)) := by
      rw [blockStep, digitIn?_upperHexDigit (by omega)]
      simp
    have hlow : blockStep basicQuote true (.number 1 (c.toNat / 16)) (upperHexDigit (c.toNat % 16))
        = some ([c], .body 0) := by
      rw [blockStep, digitIn?_upperHexDigit (by omega)]
      simp only [Nat.le_refl, if_true, Nat.div_add_mod, charOf?_toNat hlt, Option.map_some]
    rw [he]
    show readBlock basicQuote true (.body quotes) ('\\' :: 'u' :: '0' :: '0' :: upperHexDigit (c.toNat / 16)
      :: upperHexDigit (c.toNat % 16) :: rest) = _
    rw [readBlock_cons (isClosed_eq_false h _ _) hback, readBlock_cons rfl hu, readBlock_cons rfl hfirst,
      readBlock_cons rfl hsecond, readBlock_cons rfl hhigh, readBlock_cons rfl hlow]
    simp only [StringRead.after_after, List.nil_append]
  · rw [he, List.singleton_append, readBlock_own h hquote (fun hb => hslash hb.1) (Or.inr hplain)]

/-- What is written between three double quotes is read back, and so are the quotes in front of it. -/
theorem readBlock_writeBasicBlock (quotes : Nat) (h : quotes ≤ 2) (t rest : Text) :
    readBlock basicQuote true (.body quotes) (writeBasicBlock quotes t ++ (tripled basicQuote ++ '\n' :: rest))
      = some (List.replicate quotes basicQuote ++ t, '\n' :: rest) := by
  -- writer and reader count the same quotes, so neither ever has more than two
  induction t generalizing quotes with
  | nil => rw [writeBasicBlock, List.nil_append, readBlock_closing (by decide) h, List.append_nil]
  | cons c more ih =>
    have hafter : ∀ out, StringRead.after (out ++ [c]) (some (List.replicate 0 basicQuote ++ more, '\n' :: rest))
        = some (out ++ c :: more, '\n' :: rest) := by
      intro out
      show some ((out ++ [c]) ++ more, _) = _
      rw [List.append_assoc]
      rfl
    rw [writeBasicBlock]
    by_cases hq : c = basicQuote
    · subst hq
      rw [if_pos rfl]
      by_cases hmany : 2 ≤ quotes
      · -- a third quote in a row is escaped
        have hescape : (['\\', basicQuote] : Text) = escape basicQuote := by decide
        rw [if_pos hmany, List.append_assoc, hescape, readBlock_escape h, ih _ (by omega), hafter]
      · rw [if_neg hmany, List.cons_append, readBlock_quote (by omega), ih _ (by omega), List.replicate_succ',
          List.append_assoc]
        rfl
    · rw [if_neg hq]
      by_cases hn : c = '\n'
      · subst hn
        rw [if_pos rfl, List.cons_append, readBlock_own h hq (by simp) (Or.inl rfl), ih _ (by omega), hafter]
      · rw [if_neg hn, List.append_assoc, readBlock_escape h, ih _ (by omega), hafter]

/-! ### The quotes that are chosen -/

theorem longestRun_eq_zero {c : Char} {t : Text} (h : longestRun c t = 0) : c ∉ t := by
  induction t with
  | nil => exact List.not_mem_nil
  | cons d rest ih =>
    rw [longestRun] at h
    rw [List.mem_cons, not_or]
    refine ⟨?_, ih (by omega)⟩
    rintro rfl
    rw [runInFront, if_pos rfl] at h
    omega

theorem isPlain_of_needsCode {c : Char} (h : needsCode c = false) : c = '\n' ∨ isPlain c = true := by
  by_cases ht : c = '\t'
  · rw [ht]
    decide
  by_cases hn : c = '\n'
  · exact Or.inl hn
  · have hcode : 0x20 ≤ c.toNat ∧ c.toNat ≠ 0x7F := by simpa [needsCode, ht, hn] using h
    simp only [isPlain, Bool.or_eq_true, Bool.and_eq_true, decide_eq_true_eq, beq_iff_eq]
    omega

/-- A string between single quotes holds nothing that would need an escape. -/
theorem quotingOf_literal {t : Text} (h : quotingOf t = .literal) :
    (∀ c ∈ t, needsCode c = false) ∧ literalQuote ∉ t ∧ '\n' ∉ t := by
  rw [quotingOf] at h
  split at h
  · cases h
  · split at h
    · next hc =>
      simp only [Bool.and_eq_true, Bool.not_eq_true', beq_iff_eq, List.any_eq_false, Bool.not_eq_true,
        List.contains_eq_mem, decide_eq_false_iff_not] at hc
      exact ⟨hc.1.1, longestRun_eq_zero hc.1.2, hc.2⟩
    · grind

theorem quotingOf_literalBlock {t : Text} (h : quotingOf t = .literalBlock) :
    (∀ c ∈ t, needsCode c = false) ∧ longestRun literalQuote t ≤ 2 := by
  rw [quotingOf] at h
  split at h
  · cases h
  · split at h
    · cases h
    · split at h
      · cases h
      · split at h
        · next hc =>
          simp only [Bool.and_eq_true, Bool.not_eq_true', List.any_eq_false, Bool.not_eq_true, decide_eq_true_eq] at hc
          exact hc
        · split at h <;> cases h

/-! ### Any string -/

/-- One quote opens a string on one line, unless two more follow. -/
theorem readString?_line {quote : Char} (hq : quote = basicQuote ∨ quote = literalQuote) {body rest : Text}
    (hb : ∀ c ∈ body.head?, c ≠ quote) :
    readString? (quote :: (body ++ quote :: '\n' :: rest))
      = if quote = basicQuote then readBasic .plain (body ++ quote :: '\n' :: rest)
        else readLiteral (body ++ quote :: '\n' :: rest) := by
  obtain ⟨second, third, more, he, hne⟩ : ∃ second third more,
      body ++ quote :: '\n' :: rest = second :: third :: more ∧ ¬(second = quote ∧ third = quote) := by
    cases body with
    | nil =>
      refine ⟨quote, '\n', rest, rfl, ?_⟩
      rcases hq with rfl | rfl <;> decide
    | cons c front =>
      cases front with
      | nil => exact ⟨c, quote, _, rfl, fun h => hb c rfl h.1⟩
      | cons d back => exact ⟨c, d, _, rfl, fun h => hb c rfl h.1⟩
  rw [he]
  rcases hq with rfl | rfl
  · rw [readString?, if_neg fun h => hne h.2, if_neg fun h => absurd h.1 (by decide), if_pos rfl, if_pos rfl]
  · rw [readString?, if_neg fun h => absurd h.1 (by decide), if_neg fun h => hne h.2, if_neg (by decide), if_pos rfl,
      if_neg (by decide)]

/-- Three quotes open a string on several lines. -/
theorem readString?_block {quote : Char} (hq : quote = basicQuote ∨ quote = literalQuote) (inner : Text) :
    readString? (tripled quote ++ inner)
      = readBlock quote (quote == basicQuote) (.body 0) (dropLineEnd inner) := by
  show readString? (quote :: quote :: quote :: inner) = _
  rcases hq with rfl | rfl
  · rw [readString?, if_pos ⟨rfl, rfl, rfl⟩]
    rfl
  · rw [readString?, if_neg fun h => absurd h.1 (by decide), if_pos ⟨rfl, rfl, rfl⟩]
    rfl

theorem dropLineEnd_of_head {t : Text} (h : ∀ c ∈ t.head?, c ≠ '\n' ∧ c ≠ '\r') : dropLineEnd t = t := by
  unfold dropLineEnd
  split
  · exact absurd rfl (h _ rfl).1
  · exact absurd rfl (h _ rfl).2
  · rfl

theorem head_escape (c : Char) : ∀ d ∈ (escape c).head?, d ≠ basicQuote ∧ d ≠ '\r' ∧ (d = '\n' → c = '\n') := by
  intro d hd
  rcases escape_cases c with ⟨letter, he, -⟩ | ⟨-, he⟩ | ⟨he, -, hquote, -, -, hr⟩
  all_goals
    rw [he, List.head?_cons, Option.mem_some_iff] at hd
    subst hd
  · exact ⟨by decide, by decide, fun h => absurd h (by decide)⟩
  · exact ⟨by decide, by decide, fun h => absurd h (by decide)⟩
  · exact ⟨hquote, hr, id⟩

theorem escape_ne_nil (c : Char) : escape c ≠ [] := by
  rcases escape_cases c with ⟨letter, he, -⟩ | ⟨-, he⟩ | ⟨he, -⟩ <;> rw [he] <;> exact List.cons_ne_nil _ _

theorem head_writeBasic (t : Text) : ∀ d ∈ (writeBasic t).head?, d ≠ basicQuote := by
  intro d hd
  cases t with
  | nil => cases hd
  | cons c more =>
    rw [writeBasic, List.flatMap_cons, List.head?_append_of_ne_nil _ (escape_ne_nil c)] at hd
    exact (head_escape c d hd).1

theorem head_writeBasicBlock {t : Text} (h : '\n' ∉ t) (rest : Text) :
    ∀ d ∈ (writeBasicBlock 0 t ++ (tripled basicQuote ++ rest)).head?, d ≠ '\n' ∧ d ≠ '\r' := by
  intro d hd
  cases t with
  | nil =>
    cases hd
    decide
  | cons c more =>
    have hn : c ≠ '\n' := fun e => h (e ▸ List.mem_cons_self)
    rw [writeBasicBlock] at hd
    by_cases hq : c = basicQuote
    · rw [if_pos hq, if_neg (by decide)] at hd
      cases hd
      decide
    · rw [if_neg hq, if_neg hn, List.append_assoc, List.head?_append_of_ne_nil _ (escape_ne_nil c)] at hd
      obtain ⟨-, hr, hnew⟩ := head_escape c d hd
      exact ⟨fun e => hn (hnew e), hr⟩

/-- A string on several lines starts on a line of its own, and that line end is dropped; one without line ends starts
with none. -/
theorem dropLineEnd_firstLine {t body : Text} (h : '\n' ∉ t → ∀ d ∈ body.head?, d ≠ '\n' ∧ d ≠ '\r') :
    dropLineEnd ((if t.contains '\n' then ['\n'] else []) ++ body) = body := by
  by_cases hn : '\n' ∈ t
  · rw [if_pos (List.contains_iff_mem.mpr hn)]
    rfl
  · rw [if_neg fun hc => hn (List.contains_iff_mem.mp hc)]
    exact dropLineEnd_of_head (h hn)

/-- Any string is read as it was written, up to the end of its line. -/
theorem readString?_writeString (t rest : Text) :
    readString? (writeString t ++ '\n' :: rest) = some (t, '\n' :: rest) := by
  rw [writeString]
  cases hq : quotingOf t with
  | basic =>
    simp only [List.cons_append, List.append_assoc, List.nil_append]
    rw [readString?_line (Or.inl rfl) (head_writeBasic t), if_pos rfl, readBasic_writeBasic]
  | literal =>
    obtain ⟨hcode, hquote, hnewline⟩ := quotingOf_literal hq
    have hplain : ∀ c ∈ t, isPlain c = true ∧ c ≠ literalQuote := fun c hc =>
      ⟨(isPlain_of_needsCode (hcode c hc)).resolve_left fun e => hnewline (e ▸ hc), fun e => hquote (e ▸ hc)⟩
    have hhead : ∀ c ∈ t.head?, c ≠ literalQuote := fun c hc => (hplain c (List.mem_of_head? hc)).2
    simp only [List.cons_append, List.append_assoc, List.nil_append]
    rw [readString?_line (Or.inr rfl) hhead, if_neg (by decide), readLiteral_append t _ hplain]
  | basicBlock =>
    simp only [List.append_assoc]
    rw [readString?_block (Or.inl rfl), dropLineEnd_firstLine fun hn => head_writeBasicBlock hn _]
    exact readBlock_writeBasicBlock 0 (by decide) t rest
  | literalBlock =>
    obtain ⟨hcode, hrun⟩ := quotingOf_literalBlock hq
    have hplain : ∀ c ∈ t, c = '\n' ∨ isPlain c = true := fun c hc => isPlain_of_needsCode (hcode c hc)
    have hhead : '\n' ∉ t → ∀ d ∈ (t ++ (tripled literalQuote ++ '\n' :: rest)).head?, d ≠ '\n' ∧ d ≠ '\r' := by
      intro hn d hd
      cases t with
      | nil =>
        cases hd
        decide
      | cons c more =>
        rw [List.cons_append, List.head?_cons, Option.mem_some_iff] at hd
        subst hd
        have hc := (hplain c List.mem_cons_self).resolve_left fun e => hn (e ▸ List.mem_cons_self)
        refine ⟨fun e => hn (e ▸ List.mem_cons_self), ?_⟩
        rintro rfl
        exact absurd hc (by decide)
    simp only [List.append_assoc]
    rw [readString?_block (Or.inr rfl), dropLineEnd_firstLine hhead]
    have hfront := runInFront_le_longestRun literalQuote t
    exact readBlock_append (by decide) rfl 0 t rest (by omega) hrun hplain

end Relocation.Toml
