import Relocation.Proofs.DotSegments
import Relocation.Proofs.Pieces

/-!
# What reading a path leaves

Reading goes from left to right, and what it does with the rest of a path depends only on the segments it has
closed (`readSegments_below`). A raw segment can do four things (`moveOf_cases`), and what each of them keeps, reading
keeps (`IsKept.finishOn`). Above all it keeps what is true of every list of segments that was read, whatever the text
was (`WellRead`):

* every segment is in its final spelling, so that escaping it again changes nothing;
* no segment is a dot segment, except the second one of a `file` path behind a drive letter, where it can be left
  by a character that vanishes directly behind the colon of that letter.

`WellRead.finishOn` says so for any raw segments.
-/

namespace Relocation.Url

open Percent

/-! ### Separators and characters that vanish -/

theorem isSeparator_eq_false {kind : SchemeKind} {c : Char} (hs : c ≠ '/') (hb : c ≠ '\\') :
    isSeparator kind c = false := by
  simp [isSeparator, hs, hb]

theorem isSeparator_of_mem_escapeChars (kind : SchemeKind) {c : Char} (h : c ∈ escapeChars) :
    isSeparator kind c = false := by
  have hall : ∀ c ∈ escapeChars, c ≠ '/' ∧ c ≠ '\\' := List.all_iff_forall_prop.mp (by decide)
  exact isSeparator_eq_false (hall c h).1 (hall c h).2

theorem slash_not_mem_of_whole {kind : SchemeKind} {s : Text} (h : ∀ c ∈ s, isSeparator kind c = false) : '/' ∉ s := by
  intro hm
  have hslash : isSeparator kind '/' = true := rfl
  rw [h '/' hm] at hslash
  cases hslash

theorem rawSegments_eq_splitOn {kind : SchemeKind} {t : Text} (h : ∀ c ∈ t, isSeparator kind c = true → c = '/') :
    rawSegments kind t = splitOn '/' t := by
  have hid : ∀ c ∈ t, (if isSeparator kind c = true then '/' else c) = id c := by
    intro c hc
    split
    · next hs => exact (h c hc hs).symm
    · rfl
  rw [rawSegments, List.map_congr_left hid, List.map_id]

theorem isSkipped_eq_false {c : Char} (ht : c ≠ '\t') (hr : c ≠ '\r') (hn : c ≠ '\n') : isSkipped c = false := by
  simp [isSkipped, ht, hr, hn]

theorem unskipped_eq_self (t : Text) (h : ∀ c ∈ t, isSkipped c = false) : unskipped t = t := by
  refine List.filter_eq_self.mpr fun c hc => ?_
  rw [h c hc]
  rfl

theorem mem_of_mem_unskipped (t : Text) (c : Char) (h : c ∈ unskipped t) : c ∈ t :=
  (List.mem_filter.mp h).1

theorem tidySegment_eq_encodeText {raw : Text} (h : ∀ c ∈ raw, isSkipped c = false) :
    tidySegment raw = encodeText pathSet raw := by
  rw [tidySegment, unskipped_eq_self raw h]

/-! ### One segment at a time -/

/-- The closed segments after one more raw segment that another one follows. -/
def closeOn (kind : SchemeKind) (closed : List Text) (raw : Text) : List Text :=
  (Trail.close kind ⟨closed, false⟩ raw).closed

/-- The closed segments after several more. -/
def closeAll (kind : SchemeKind) (closed raws : List Text) : List Text :=
  raws.foldl (closeOn kind) closed

/-- The segments of a path whose remaining raw segments are read behind the closed ones. -/
def finishOn (kind : SchemeKind) (closed raws : List Text) : List Text :=
  (Trail.readAll kind ⟨closed, false⟩ raws).closed

/-- The segments of a path once all of it has been read. -/
def settle (kind : SchemeKind) (list : List Text) : List Text :=
  if kind = .file then dropLeadingEmpty list else list

/-- What a segment does to the closed ones does not depend on drives met before. -/
theorem closed_close (kind : SchemeKind) (trail : Trail) (raw : Text) :
    (trail.close kind raw).closed = closeOn kind trail.closed raw := by
  obtain ⟨closed, onDrive⟩ := trail
  simp only [closeOn, Trail.close]
  cases moveOf kind closed raw <;> rfl

theorem closed_finish (kind : SchemeKind) (trail : Trail) (raw : Text) :
    (trail.finish kind raw).closed = finishOn kind trail.closed [raw] := by
  obtain ⟨closed, onDrive⟩ := trail
  simp only [finishOn, Trail.readAll, Trail.finish]
  cases moveOf kind closed raw <;> rfl

theorem closed_readAll (kind : SchemeKind) (trail : Trail) (raws : List Text) :
    (trail.readAll kind raws).closed = finishOn kind trail.closed raws := by
  induction raws generalizing trail with
  | nil => rfl
  | cons raw rest ih =>
    cases rest with
    | nil => exact closed_finish kind trail raw
    | cons next more =>
      -- the two trails differ in the drive they have met, which no segment asks for
      show ((trail.close kind raw).readAll kind (next :: more)).closed
        = ((Trail.close kind ⟨trail.closed, false⟩ raw).readAll kind (next :: more)).closed
      rw [ih, ih, closed_close, closed_close]

theorem finishOn_cons (kind : SchemeKind) (closed : List Text) (raw next : Text) (more : List Text) :
    finishOn kind closed (raw :: next :: more) = finishOn kind (closeOn kind closed raw) (next :: more) := by
  show ((Trail.close kind ⟨closed, false⟩ raw).readAll kind (next :: more)).closed = _
  rw [closed_readAll, closed_close]

/-- Segments that others follow are closed first. -/
theorem finishOn_append (kind : SchemeKind) (closed front raws : List Text) (h : raws ≠ []) :
    finishOn kind closed (front ++ raws) = finishOn kind (closeAll kind closed front) raws := by
  induction front generalizing closed with
  | nil => rfl
  | cons raw rest ih =>
    obtain ⟨next, more, hn⟩ := List.exists_cons_of_ne_nil (l := rest ++ raws) (by simp [h])
    rw [List.cons_append, hn, finishOn_cons, ← hn, ih]
    rfl

/-! ### The text below complete segments -/

/-- Segments without separators come back from the text that goes on below them. -/
theorem rawSegments_below (kind : SchemeKind) (list : List Text) (t : Text)
    (h : ∀ s ∈ list, ∀ c ∈ s, isSeparator kind c = false) :
    rawSegments kind ((list.flatMap fun s => s ++ ['/']) ++ t) = list ++ rawSegments kind t := by
  have hid : ∀ c ∈ list.flatMap fun s => s ++ ['/'], (if isSeparator kind c = true then '/' else c) = id c := by
    intro c hc
    obtain ⟨s, hs, hcs⟩ := List.mem_flatMap.mp hc
    rcases List.mem_append.mp hcs with hcs | hcs
    · rw [if_neg (by rw [h s hs c hcs]; simp), id]
    · rw [List.mem_singleton.mp hcs]
      exact if_pos rfl
  rw [rawSegments, List.map_append, List.map_congr_left hid, List.map_id,
    splitOn_below '/' list _ fun s hs => slash_not_mem_of_whole (h s hs)]
  rfl

/-- The segments of a path, told from its raw segments. -/
theorem closed_readTrail (kind : SchemeKind) (t : Text) :
    (readTrail kind t).closed = settle kind (finishOn kind [] (rawSegments kind t)) := by
  rw [readTrail, settle, ← closed_readAll kind ⟨[], false⟩]
  split <;> rfl

/-- A path text that goes on below complete segments: they are closed first, and the rest is read behind them. -/
theorem readSegments_below (kind : SchemeKind) (list : List Text) (t : Text)
    (h : ∀ s ∈ list, ∀ c ∈ s, isSeparator kind c = false) :
    readSegments kind (segmentsText list ++ '/' :: t)
      = settle kind (finishOn kind (closeAll kind [] list) (rawSegments kind t)) := by
  have hne : rawSegments kind t ≠ [] := splitOn_ne_nil '/' _
  rw [segmentsText_slash]
  generalize htail : (list.flatMap fun piece => piece ++ ['/']) ++ t = tail
  have hunskipped : unskipped ('/' :: tail) = '/' :: unskipped tail := rfl
  have hdrop : dropSeparator kind ('/' :: tail) = tail := rfl
  rw [readSegments, hunskipped, hdrop, closed_readTrail, ← htail, rawSegments_below kind list t h, finishOn_append _ _ _ _ hne]
  simp

/-! ### Spelled segments -/

/-- A segment in its final spelling. -/
structure IsTidy (kind : SchemeKind) (segment : Text) : Prop where
  spelled : Spelled pathSet segment
  whole : ∀ c ∈ segment, isSeparator kind c = false

theorem isTidy_nil (kind : SchemeKind) : IsTidy kind [] :=
  ⟨spelled_nil pathSet, fun c h => by cases h⟩

theorem toNat_of_isAlpha (c : Char) (h : c.isAlpha = true) :
    (65 ≤ c.toNat ∧ c.toNat ≤ 90) ∨ (97 ≤ c.toNat ∧ c.toNat ≤ 122) := by
  have hsides : (decide ('A'.val ≤ c.val ∧ c.val ≤ 'Z'.val)
      || (decide ('a'.val ≤ c.val) && decide (c.val ≤ 'z'.val))) = true := h
  simp only [Bool.or_eq_true, Bool.and_eq_true, decide_eq_true_eq, UInt32.le_iff_toNat_le] at hsides
  exact hsides

theorem isTidy_drive (kind : SchemeKind) (letter : Char) (h : letter.isAlpha = true) :
    IsTidy kind [letter, ':'] := by
  have hn := toNat_of_isAlpha letter h
  have hset : ∀ n < 128, (65 ≤ n ∧ n ≤ 90) ∨ (97 ≤ n ∧ n ≤ 122) → pathSet (UInt8.ofNat n) = false := by decide
  constructor
  · intro c hc
    rcases List.mem_cons.mp hc with rfl | hc
    · exact ⟨by omega, hset _ (by omega) hn⟩
    · rw [List.mem_singleton.mp hc]
      decide
  · intro c hc
    rcases List.mem_cons.mp hc with rfl | hc
    · refine isSeparator_eq_false ?_ ?_ <;> rintro rfl <;> exact absurd hn (by decide)
    · rw [List.mem_singleton.mp hc]
      exact isSeparator_eq_false (by decide) (by decide)

theorem isDots_drive (letter : Char) (h : letter.isAlpha = true) : isDots [letter, ':'] = false := by
  have hne : letter ≠ '%' := by
    rintro rfl
    cases h
  have hd : dots [letter, ':'] = [letter, ':'] := by
    rw [dots_cons_of_ne letter _ hne]
    rfl
  rw [isDots, isSingleDot, isDoubleDot, hd]
  simp

/-- What is escaped for a path keeps free of separators. -/
theorem isTidy_encodeText (kind : SchemeKind) (t : Text) (h : ∀ c ∈ t, isSeparator kind c = false) :
    IsTidy kind (encodeText pathSet t) := by
  refine ⟨spelled_encodeText_pathSet t, fun c hc => ?_⟩
  rcases mem_encode pathSet _ c hc with he | ⟨b, hb, hs, rfl⟩
  · exact isSeparator_of_mem_escapeChars kind he
  · exact h _ (Utf8.mem_of_mem_encode t b hb (holdsHigh_pathSet b hs))

/-- A name stays one segment, whatever its bytes are. -/
theorem isTidy_encode_nameSet (kind : SchemeKind) (name : Bytes) : IsTidy kind (encode nameSet name) := by
  refine ⟨spelled_encode_nameSet name, fun c hc => ?_⟩
  rcases mem_encode nameSet name c hc with he | ⟨b, -, hb, rfl⟩
  · exact isSeparator_of_mem_escapeChars kind he
  · -- the byte of a separator would have been escaped
    have hkept : ∀ d : Char, nameSet (UInt8.ofNat d.toNat) = true → Char.ofNat b.toNat ≠ d := by
      intro d hd he
      rw [← he, Utf8.toNat_ofNat_toNat b (holdsHigh_nameSet b hb), UInt8.ofNat_toNat, hb] at hd
      cases hd
    exact isSeparator_eq_false (hkept '/' (by decide)) (hkept '\\' (by decide))

theorem isSkipped_of_spelled (t : Text) (h : Spelled pathSet t) : ∀ c ∈ t, isSkipped c = false := by
  intro c hc
  have hs := (h c hc).2
  refine isSkipped_eq_false ?_ ?_ ?_ <;> rintro rfl <;> exact absurd hs (by decide)

theorem IsTidy.tidySegment {kind : SchemeKind} {s : Text} (h : IsTidy kind s) : tidySegment s = s := by
  rw [tidySegment_eq_encodeText (isSkipped_of_spelled s h.spelled), h.spelled.encodeText]

/-! ### What a raw segment can do -/

/-- Only a raw segment with something that vanishes is split behind a drive letter. -/
theorem splitDrive?_eq_none (raw : Text) (h : ∀ c ∈ raw, isSkipped c = false) : splitDrive? raw = none := by
  rw [splitDrive?]
  split
  · next letter afterLetter h1 =>
    split
    · next next rest h2 =>
      have hm1 : ∀ c ∈ afterLetter, c ∈ raw := fun c hc =>
        (List.dropWhile_sublist isSkipped).mem (h1 ▸ List.mem_cons_of_mem _ hc)
      have hm2 : next ∈ afterLetter :=
        (List.dropWhile_sublist isSkipped).mem (h2 ▸ List.mem_cons_of_mem _ List.mem_cons_self)
      rw [h next (hm1 next hm2)]
      simp
    · rfl
  · rfl

/-- What a split raw segment gives: a drive letter with its colon, and characters of the segment. -/
theorem splitDrive?_eq_some (raw drive tail : Text) (h : splitDrive? raw = some (drive, tail)) :
    ∃ letter : Char, letter.isAlpha = true ∧ drive = [letter, ':'] ∧ ∀ c ∈ tail, c ∈ raw := by
  rw [splitDrive?] at h
  split at h
  · next letter afterLetter h1 =>
    split at h
    · next next rest h2 =>
      split at h
      · next hc =>
        simp only [Option.some.injEq, Prod.mk.injEq] at h
        obtain ⟨rfl, rfl⟩ := h
        simp only [Bool.and_eq_true] at hc
        refine ⟨letter, hc.1.1, rfl, fun c hm => ?_⟩
        have hm1 : c ∈ afterLetter := (List.dropWhile_sublist isSkipped).mem
          (h2 ▸ List.mem_cons_of_mem _ (List.mem_cons_of_mem _ (mem_of_mem_unskipped rest c hm)))
        exact (List.dropWhile_sublist isSkipped).mem (h1 ▸ List.mem_cons_of_mem _ hm1)
      · cases h
    · cases h
  · cases h

theorem isDriveLetter_eq_true (s : Text) (h : isDriveLetter s = true) :
    ∃ letter sign : Char, letter.isAlpha = true ∧ (sign = ':' ∨ sign = '|') ∧ s = [letter, sign] := by
  match s, h with
  | [letter, sign], h =>
    simp only [isDriveLetter, isDrivePair, Bool.and_eq_true, Bool.or_eq_true, beq_iff_eq] at h
    exact ⟨letter, sign, h.1, h.2, rfl⟩

theorem percent_not_mem_of_isDriveLetter {s : Text} (h : isDriveLetter s = true) : '%' ∉ s := by
  obtain ⟨letter, sign, hl, hs, rfl⟩ := isDriveLetter_eq_true s h
  intro hm
  rcases List.mem_cons.mp hm with rfl | hm
  · cases hl
  · rw [← List.mem_singleton.mp hm] at hs
    rcases hs with hs | hs <;> cases hs

/-- Everything a raw segment can do: take back, stay, add one segment that moves nobody, or, as the first one of a
`file` path, add a drive letter with its colon and one segment more. -/
theorem moveOf_cases (kind : SchemeKind) (closed : List Text) (raw : Text)
    (h : ∀ c ∈ raw, isSeparator kind c = false) :
    moveOf kind closed raw = .up ∨ moveOf kind closed raw = .stay
      ∨ (∃ s drive, moveOf kind closed raw = .into [s] drive ∧ IsTidy kind s ∧ isDots s = false)
      ∨ (kind = .file ∧ closed = [] ∧ ∃ (letter : Char) (rest : Text), letter.isAlpha = true ∧ IsTidy kind rest
          ∧ moveOf kind closed raw = .into [[letter, ':'], rest] false) := by
  have htidy : IsTidy kind (tidySegment raw) :=
    isTidy_encodeText kind _ fun c hc => h c (mem_of_mem_unskipped raw c hc)
  simp only [moveOf]
  split
  · next drive rest hs =>
    split at hs
    · next hfirst =>
      simp only [Bool.and_eq_true, beq_iff_eq] at hfirst
      obtain ⟨letter, hl, rfl, hmem⟩ := splitDrive?_eq_some raw drive rest hs
      refine Or.inr (Or.inr (Or.inr ⟨hfirst.1, hfirst.2, letter, _, hl, ?_, rfl⟩))
      exact isTidy_encodeText kind rest fun c hc => h c (hmem c hc)
    · cases hs
  · next hs =>
    split
    · exact Or.inl rfl
    · next hdouble =>
      split
      · exact Or.inr (Or.inl rfl)
      · next hsingle =>
        refine Or.inr (Or.inr (Or.inl ?_))
        split
        · next hdrive =>
          -- a drive letter gets its colon
          simp only [Bool.and_eq_true] at hdrive
          obtain ⟨letter, sign, hl, -, heq⟩ := isDriveLetter_eq_true _ hdrive.2
          refine ⟨[letter, ':'], true, ?_, isTidy_drive kind letter hl, isDots_drive letter hl⟩
          rw [heq]
          rfl
        · exact ⟨tidySegment raw, false, rfl, htidy, by simp [isDots, hsingle, hdouble]⟩

/-! ### What survives reading -/

/-- What is true of the closed segments stays true, whatever a raw segment does to them. -/
structure IsKept (kind : SchemeKind) (P : List Text → Prop) : Prop where
  back : ∀ list, P list → P (takeBack list)
  snoc : ∀ list s, IsTidy kind s → isDots s = false → P list → P (list ++ [s])
  drive : kind = .file → P [] → ∀ (letter : Char) (s : Text), letter.isAlpha = true → IsTidy kind s →
    P [[letter, ':'], s]

section Kept

variable {kind : SchemeKind} {P : List Text → Prop} (hP : IsKept kind P)
include hP

theorem IsKept.closeOn {closed : List Text} {raw : Text} (hraw : ∀ c ∈ raw, isSeparator kind c = false)
    (h : P closed) : P (closeOn kind closed raw) := by
  rw [Url.closeOn, Trail.close]
  rcases moveOf_cases kind closed raw hraw with hm | hm | ⟨s, drive, hm, hs, hd⟩ | ⟨hk, rfl, letter, rest, hl, hs, hm⟩
  · rw [hm]
    exact hP.back closed h
  · rw [hm]
    exact h
  · rw [hm]
    exact hP.snoc closed s hs hd h
  · rw [hm]
    exact hP.drive hk h letter rest hl hs

theorem IsKept.finishOn_singleton {closed : List Text} {raw : Text} (hraw : ∀ c ∈ raw, isSeparator kind c = false)
    (h : P closed) : P (finishOn kind closed [raw]) := by
  have hempty (list : List Text) (hlist : P list) : P (list ++ [[]]) :=
    hP.snoc list [] (isTidy_nil kind) (by decide) hlist
  rw [finishOn, Trail.readAll, Trail.finish]
  rcases moveOf_cases kind closed raw hraw with hm | hm | ⟨s, drive, hm, hs, hd⟩ | ⟨hk, rfl, letter, rest, hl, hs, hm⟩
  · rw [hm]
    exact hempty _ (hP.back closed h)
  · rw [hm]
    exact hempty _ h
  · rw [hm]
    exact hP.snoc closed s hs hd h
  · rw [hm]
    exact hP.drive hk h letter rest hl hs

/-- What every single segment keeps, reading keeps. -/
theorem IsKept.finishOn {closed raws : List Text} (hraws : ∀ raw ∈ raws, ∀ c ∈ raw, isSeparator kind c = false)
    (h : P closed) : P (finishOn kind closed raws) := by
  induction raws generalizing closed with
  | nil => exact h
  | cons raw rest ih =>
    have hraw := hraws raw List.mem_cons_self
    cases rest with
    | nil => exact hP.finishOn_singleton hraw h
    | cons next more =>
      rw [finishOn_cons]
      exact ih (fun r hr => hraws r (List.mem_cons_of_mem _ hr)) (hP.closeOn hraw h)

end Kept

/-! ### What every read path is like -/

/-- A list of segments as reading leaves it: all are in their final spelling, and a dot segment stands at most right
behind the drive letter a `file` path begins with. -/
structure WellRead (kind : SchemeKind) (list : List Text) : Prop where
  tidy : ∀ s ∈ list, IsTidy kind s
  dots : ∀ before s after, list = before ++ s :: after → isDots s = true →
    kind = .file ∧ ∃ letter : Char, letter.isAlpha = true ∧ before = [[letter, ':']]

theorem wellRead_nil (kind : SchemeKind) : WellRead kind [] := by
  constructor
  · intro s h
    cases h
  · intro before s after h
    simp at h

theorem wellRead_of_not_dots {kind : SchemeKind} {list : List Text} (ht : ∀ s ∈ list, IsTidy kind s)
    (hd : ∀ s ∈ list, isDots s = false) : WellRead kind list := by
  refine ⟨ht, fun before s after he hs => ?_⟩
  rw [hd s (he ▸ List.mem_append_right _ List.mem_cons_self)] at hs
  cases hs

theorem WellRead.of_append {kind : SchemeKind} {front back : List Text} (h : WellRead kind (front ++ back)) :
    WellRead kind front := by
  refine ⟨fun s hs => h.tidy s (List.mem_append_left _ hs), fun before s after he hd => ?_⟩
  refine h.dots before s (after ++ back) ?_ hd
  rw [he, List.append_assoc, List.cons_append]

theorem WellRead.dropLast {kind : SchemeKind} {list : List Text} (h : WellRead kind list) :
    WellRead kind list.dropLast := by
  rcases List.eq_nil_or_concat list with rfl | ⟨front, last, rfl⟩
  · exact h
  · rw [List.concat_eq_append] at h ⊢
    rw [List.dropLast_concat]
    exact h.of_append

theorem WellRead.snoc {kind : SchemeKind} {list : List Text} {s : Text} (h : WellRead kind list)
    (hs : IsTidy kind s)
    (hd : isDots s = true → kind = .file ∧ ∃ letter : Char, letter.isAlpha = true ∧ list = [[letter, ':']]) :
    WellRead kind (list ++ [s]) := by
  constructor
  · intro r hr
    rcases List.mem_append.mp hr with hr | hr
    · exact h.tidy r hr
    · exact List.mem_singleton.mp hr ▸ hs
  · intro before r after he hr
    -- the dots are the new segment or stood in the list before
    rcases List.eq_nil_or_concat after with rfl | ⟨middle, last, rfl⟩
    · obtain ⟨rfl, h1⟩ := List.append_inj' he rfl
      rw [List.cons.injEq] at h1
      exact hd (h1.1 ▸ hr)
    · rw [List.concat_eq_append, ← List.cons_append, ← List.append_assoc] at he
      obtain ⟨rfl, -⟩ := List.append_inj' he rfl
      exact h.dots before r middle rfl hr

/-- A segment that moves nobody can follow any read path. -/
theorem WellRead.snoc_of_not_dots {kind : SchemeKind} {list : List Text} {s : Text} (h : WellRead kind list)
    (hs : IsTidy kind s) (hd : isDots s = false) : WellRead kind (list ++ [s]) :=
  h.snoc hs fun ht => by
    rw [hd] at ht
    cases ht

theorem WellRead.takeBack {kind : SchemeKind} {list : List Text} (h : WellRead kind list) :
    WellRead kind (takeBack list) := by
  rw [Url.takeBack]
  split
  · split
    · exact h
    · exact h.dropLast
  · exact h

theorem wellRead_drive (letter : Char) (s : Text) (hl : letter.isAlpha = true) (hs : IsTidy .file s) :
    WellRead .file [[letter, ':'], s] := by
  have h1 : WellRead .file [[letter, ':']] :=
    (wellRead_nil .file).snoc_of_not_dots (isTidy_drive .file letter hl) (isDots_drive letter hl)
  exact h1.snoc hs fun _ => ⟨rfl, letter, hl, rfl⟩

theorem isKept_wellRead (kind : SchemeKind) : IsKept kind (WellRead kind) where
  back _ h := h.takeBack
  snoc _ _ hs hd h := h.snoc_of_not_dots hs hd
  drive hk _ letter s hl hs := by
    subst hk
    exact wellRead_drive letter s hl hs

/-- Reading any raw segments gives a read path. -/
theorem WellRead.finishOn {kind : SchemeKind} {closed raws : List Text} (h : WellRead kind closed)
    (hraws : ∀ raw ∈ raws, ∀ c ∈ raw, isSeparator kind c = false) : WellRead kind (finishOn kind closed raws) :=
  (isKept_wellRead kind).finishOn hraws h

/-- Leading empty segments can be dropped from a read path. -/
theorem WellRead.settle {kind : SchemeKind} {list : List Text} (h : WellRead kind list) :
    WellRead kind (settle kind list) := by
  rw [Url.settle]
  split
  · induction list using dropLeadingEmpty.induct with
    | case1 next rest ih =>
      rw [dropLeadingEmpty]
      -- a path that begins with an empty segment has no drive letter in front, and so no dots at all
      refine ih ⟨fun s hs => h.tidy s (List.mem_cons_of_mem _ hs), fun before s after he hd => ?_⟩
      obtain ⟨-, letter, -, hb⟩ := h.dots ([] :: before) s after (by rw [he, List.cons_append]) hd
      rw [List.cons.injEq] at hb
      cases hb.1
    | case2 list hl =>
      rw [dropLeadingEmpty]
      · exact h
      · exact hl
  · exact h

/-- A path settles as it is if it does not begin with an empty segment, or if that is all of it. -/
theorem settle_eq_self {kind : SchemeKind} {list : List Text}
    (h : kind = .file → ∀ rest, list = [] :: rest → rest = []) : settle kind list = list := by
  rw [settle]
  split
  · next hk =>
    rw [dropLeadingEmpty]
    intro next rest he
    cases h hk (next :: rest) he
  · rfl

theorem isSeparator_of_mem_rawSegments (kind : SchemeKind) (t raw : Text) (h : raw ∈ rawSegments kind t) :
    ∀ c ∈ raw, isSeparator kind c = false := by
  intro c hc
  have hm := mem_of_mem_splitOn '/' c _ raw h hc
  have hne : c ≠ '/' := fun he => sep_not_mem_splitOn '/' _ raw h (he ▸ hc)
  obtain ⟨d, -, hd⟩ := List.mem_map.mp hm
  by_cases hs : isSeparator kind d = true
  · rw [if_pos hs] at hd
    exact absurd hd.symm hne
  · rw [if_neg hs] at hd
    rw [← hd]
    simpa using hs

/-- A read `file` path starts with an empty segment only if it has no other. -/
theorem eq_nil_of_dropLeadingEmpty (list rest : List Text) (h : dropLeadingEmpty list = [] :: rest) : rest = [] := by
  induction list using dropLeadingEmpty.induct with
  | case1 next more ih =>
    rw [dropLeadingEmpty] at h
    exact ih h
  | case2 list hl =>
    rw [dropLeadingEmpty] at h
    · cases rest with
      | nil => rfl
      | cons next more => exact absurd h (hl next more)
    · exact hl

end Relocation.Url
