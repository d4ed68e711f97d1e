import Mathlib.Data.List.Flatten
import Mathlib.Data.List.TakeWhile
import Relocation.Locate
import Relocation.NativePath
import Relocation.Url.Basic

/-!
# Pieces of a text and where they were cut

Cutting at slashes is undone by writing slashes, and what stands behind the last cut of one text is cut as if it
stood alone. With the two questions asked of a path, where its last and where its second-last slash is, this gives
the places of a path in its segments:

* `splitOn_below`: the pieces of a text that goes on behind complete segments;
* `startupDir?_segmentsText` / `installBase?_segmentsText`: the directory of a path is all its segments but the last,
  its base all but the last two, and there is none exactly when there are too few.
-/

namespace Relocation

variable {α : Type} [DecidableEq α]

/-! ### Cutting at every separator -/

theorem splitOn_cons_sep (sep : α) (l : List α) : splitOn sep (sep :: l) = [] :: splitOn sep l := by
  simp [splitOn]

/-- A separator cuts what stands before it off from what stands behind it. -/
theorem splitOn_append (sep : α) (l rest : List α) :
    splitOn sep (l ++ sep :: rest) = splitOn sep l ++ splitOn sep rest := by
  induction l with
  | nil => exact splitOn_cons_sep sep rest
  | cons x xs ih =>
    rw [List.cons_append, splitOn, splitOn, ih]
    split
    · rfl
    · cases hs : splitOn sep xs with
      | nil => exact absurd hs (splitOn_ne_nil sep xs)
      | cons piece more => rfl

theorem splitOn_append_sep (sep : α) (l rest : List α) (h : sep ∉ l) :
    splitOn sep (l ++ sep :: rest) = l :: splitOn sep rest := by
  rw [splitOn_append, splitOn_of_not_mem sep l h, List.singleton_append]

theorem splitOn_snoc_sep (sep : α) (l : List α) : splitOn sep (l ++ [sep]) = splitOn sep l ++ [[]] :=
  splitOn_append sep l []

/-- Complete pieces in front of a text stay pieces. -/
theorem splitOn_below (sep : α) (pieces : List (List α)) (rest : List α) (h : ∀ piece ∈ pieces, sep ∉ piece) :
    splitOn sep ((pieces.flatMap fun piece => piece ++ [sep]) ++ rest) = pieces ++ splitOn sep rest := by
  induction pieces with
  | nil => rfl
  | cons piece more ih =>
    have hp : sep ∉ piece := h piece List.mem_cons_self
    have hm : ∀ q ∈ more, sep ∉ q := fun q hq => h q (List.mem_cons_of_mem _ hq)
    rw [List.flatMap_cons, List.append_assoc, List.append_assoc, List.singleton_append,
      splitOn_append_sep sep piece _ hp, ih hm, List.cons_append]

theorem mem_of_mem_splitOn (sep x : α) (l piece : List α) (hp : piece ∈ splitOn sep l) (hx : x ∈ piece) :
    x ∈ l := by
  induction l generalizing piece with
  | nil =>
    rw [splitOn, List.mem_singleton] at hp
    rw [hp] at hx
    exact hx
  | cons y ys ih =>
    rw [splitOn] at hp
    split at hp
    · rcases List.mem_cons.mp hp with rfl | hp
      · cases hx
      · exact List.mem_cons_of_mem _ (ih piece hp hx)
    · cases hs : splitOn sep ys with
      | nil => exact absurd hs (splitOn_ne_nil sep ys)
      | cons head tail =>
        rw [hs] at hp ih
        rcases List.mem_cons.mp hp with rfl | hp
        · rcases List.mem_cons.mp hx with rfl | hx
          · exact List.mem_cons_self
          · exact List.mem_cons_of_mem _ (ih head List.mem_cons_self hx)
        · exact List.mem_cons_of_mem _ (ih piece (List.mem_cons_of_mem _ hp) hx)

theorem head_splitOn_isPrefix (sep : α) (l : List α) : ∀ piece ∈ (splitOn sep l).head?, piece <+: l := by
  induction l with
  | nil =>
    intro piece h
    rw [splitOn, List.head?_cons, Option.mem_some_iff] at h
    exact h ▸ List.prefix_rfl
  | cons x xs ih =>
    intro piece h
    rw [splitOn] at h
    split at h
    · rw [List.head?_cons, Option.mem_some_iff] at h
      rw [← h]
      exact List.nil_prefix
    · cases hs : splitOn sep xs with
      | nil => exact absurd hs (splitOn_ne_nil sep xs)
      | cons head tail =>
        rw [hs] at h ih
        rw [List.head?_cons, Option.mem_some_iff] at h
        rw [← h]
        exact (List.prefix_cons_inj x).mpr (ih head rfl)

theorem flatMap_splitOn (sep : α) (l : List α) : ((splitOn sep l).flatMap fun piece => sep :: piece) = sep :: l := by
  induction l with
  | nil => rfl
  | cons x xs ih =>
    rw [splitOn]
    split
    · next hx =>
      rw [List.flatMap_cons, ih, hx]
      rfl
    · cases hs : splitOn sep xs with
      | nil => exact absurd hs (splitOn_ne_nil sep xs)
      | cons piece more =>
        rw [hs, List.flatMap_cons, List.cons_append, List.cons.injEq] at ih
        rw [List.flatMap_cons, ← ih.2]
        rfl

theorem splitOn_flatMap (sep : α) (piece : List α) (more : List (List α)) (hp : sep ∉ piece)
    (hm : ∀ q ∈ more, sep ∉ q) : splitOn sep (piece ++ more.flatMap fun q => sep :: q) = piece :: more := by
  induction more generalizing piece with
  | nil => rw [List.flatMap_nil, List.append_nil, splitOn_of_not_mem sep piece hp]
  | cons next rest ih =>
    rw [List.flatMap_cons, List.cons_append, splitOn_append_sep sep piece _ hp,
      ih next (hm next List.mem_cons_self) fun q hq => hm q (List.mem_cons_of_mem _ hq)]

/-- A separator in front of each piece, or behind it. -/
theorem flatMap_sep_append {β : Type} (sep : β) (list : List (List β)) (rest : List β) :
    (list.flatMap fun piece => sep :: piece) ++ sep :: rest
      = sep :: ((list.flatMap fun piece => piece ++ [sep]) ++ rest) := by
  induction list with
  | nil => rfl
  | cons piece more ih =>
    rw [List.flatMap_cons, List.append_assoc, ih]
    simp

/-! ### Cutting once -/

theorem cutAt?_append_sep (sep : α) (before after : List α) (h : sep ∉ before) :
    cutAt? sep (before ++ sep :: after) = some (before, after) := by
  induction before with
  | nil => simp [cutAt?]
  | cons x xs ih =>
    have hx : x ≠ sep := fun e => h (e ▸ List.mem_cons_self)
    rw [List.cons_append, cutAt?, if_neg hx, ih fun e => h (List.mem_cons_of_mem _ e)]

theorem cutAtLast?_append_sep (sep : α) (before after : List α) (h : sep ∉ after) :
    cutAtLast? sep (before ++ sep :: after) = some (before, after) := by
  induction before with
  | nil =>
    have hn : cutAtLast? sep after = none := (cutAtLast?_eq_none sep after).mpr h
    rw [List.nil_append, cutAtLast?, hn]
    simp
  | cons x xs ih =>
    rw [List.cons_append, cutAtLast?, ih]

/-! ### Searching and trimming -/

theorem indexOf?_append_cons {β : Type} (p : β → Bool) (front : List β) (x : β) (back : List β)
    (hf : ∀ y ∈ front, p y = false) (hx : p x = true) : indexOf? p (front ++ x :: back) = some front.length := by
  induction front with
  | nil =>
    rw [List.nil_append, indexOf?, if_pos hx]
    rfl
  | cons y rest ih =>
    rw [List.cons_append, indexOf?, hf y List.mem_cons_self, ih fun z hz => hf z (List.mem_cons_of_mem _ hz)]
    rfl

theorem indexOf?_eq_none {β : Type} (p : β → Bool) (l : List β) (h : ∀ x ∈ l, p x = false) : indexOf? p l = none := by
  induction l with
  | nil => rfl
  | cons x xs ih =>
    rw [indexOf?, h x List.mem_cons_self, ih fun y hy => h y (List.mem_cons_of_mem _ hy)]
    rfl

/-- At the position found stands what was searched for. -/
theorem drop_of_indexOf? {β : Type} (p : β → Bool) (l : List β) (k : Nat) (h : indexOf? p l = some k) :
    ∃ x rest, l.drop k = x :: rest ∧ p x = true := by
  induction l generalizing k with
  | nil => cases h
  | cons x xs ih =>
    rw [indexOf?] at h
    split at h
    · next hx =>
      cases h
      exact ⟨x, xs, rfl, hx⟩
    · obtain ⟨n, hn, rfl⟩ := Option.map_eq_some_iff.mp h
      exact ih n hn

theorem stripEnd?_eq_some (tail l front : List α) : stripEnd? tail l = some front ↔ l = front ++ tail := by
  induction l generalizing front with
  | nil =>
    rw [stripEnd?]
    by_cases ht : tail = []
    · simp [ht, eq_comm]
    · simp [ht]
  | cons x xs ih =>
    rw [stripEnd?]
    by_cases ht : x :: xs = tail
    · rw [if_pos ht, ← ht, Option.some.injEq, List.self_eq_append_left, eq_comm]
    · rw [if_neg ht, Option.map_eq_some_iff]
      constructor
      · rintro ⟨rest, hr, rfl⟩
        rw [(ih rest).mp hr, List.cons_append]
      · intro h
        cases front with
        | nil => exact absurd h ht
        | cons y rest =>
          rw [List.cons_append, List.cons.injEq] at h
          exact ⟨rest, (ih rest).mpr h.2, by rw [h.1]⟩

theorem trimEndWhere_append_tail {β : Type} (p : β → Bool) (l : List β) :
    ∃ tail, l = trimEndWhere p l ++ tail ∧ ∀ x ∈ tail, p x = true := by
  refine ⟨(l.reverse.takeWhile p).reverse, ?_, ?_⟩
  · rw [trimEndWhere, ← List.reverse_append, List.takeWhile_append_dropWhile, List.reverse_reverse]
  · intro x hx
    exact List.mem_takeWhile_imp (List.mem_reverse.mp hx)

/-- What is left after trimming does not end in what was to be trimmed. -/
theorem getLast?_trimEndWhere {β : Type} (p : β → Bool) (l : List β) (x : β)
    (h : (trimEndWhere p l).getLast? = some x) : p x = false := by
  rw [trimEndWhere, List.getLast?_reverse] at h
  have hnot := List.head?_dropWhile_not p l.reverse
  rw [h] at hnot
  simpa using hnot

theorem trimEndWhere_append_cons {β : Type} (p : β → Bool) (front : List β) (x : β) (back : List β)
    (h : p x = false) : trimEndWhere p (front ++ x :: back) = front ++ x :: trimEndWhere p back := by
  rw [trimEndWhere, trimEndWhere, List.reverse_append, List.reverse_cons, List.append_assoc, List.dropWhile_append]
  have hx : ([x] ++ front.reverse).dropWhile p = [x] ++ front.reverse := by
    rw [List.singleton_append, List.dropWhile_cons_of_neg (by rw [h]; simp)]
  split
  · next he =>
    rw [hx, List.isEmpty_iff.mp he]
    simp
  · simp

theorem trimEndWhere_concat {β : Type} (p : β → Bool) (l : List β) (x : β) (h : p x = false) :
    trimEndWhere p (l ++ [x]) = l ++ [x] :=
  trimEndWhere_append_cons p l x [] h

theorem trimEndWhere_eq_self {β : Type} (p : β → Bool) (l : List β) (h : ∀ x ∈ l.getLast?, p x = false) :
    trimEndWhere p l = l := by
  rcases List.eq_nil_or_concat l with rfl | ⟨front, last, rfl⟩
  · rfl
  · rw [List.concat_eq_append] at h ⊢
    exact trimEndWhere_concat p front last (h last List.getLast?_concat)

/-! ### Names of native paths -/

/-- Names, each behind a slash. -/
def behindSlashes (names : List Bytes) : Bytes :=
  names.flatMap fun name => slashByte :: name

theorem behindSlashes_eq_joinWith {names : List Bytes} (h : names ≠ []) :
    behindSlashes names = slashByte :: joinWith slashByte names := by
  induction names with
  | nil => exact absurd rfl h
  | cons name rest ih =>
    rw [behindSlashes, List.flatMap_cons]
    cases rest with
    | nil => simp [joinWith]
    | cons next more =>
      show slashByte :: name ++ behindSlashes (next :: more) = _
      rw [ih (by simp)]
      rfl

theorem splitOn_behindSlashes (names : List Bytes) (h : ∀ name ∈ names, slashByte ∉ name) :
    splitOn slashByte (behindSlashes names) = [] :: names :=
  splitOn_flatMap slashByte [] names (by simp) h

theorem splitOn_behindSlashes_slash (names : List Bytes) (rest : Bytes) (h : ∀ name ∈ names, slashByte ∉ name) :
    splitOn slashByte (behindSlashes names ++ slashByte :: rest) = [] :: (names ++ splitOn slashByte rest) := by
  rw [behindSlashes, flatMap_sep_append, splitOn_cons_sep, splitOn_below slashByte names rest h]

/-- The names of an absolute path are found in it, each behind a slash. -/
theorem behindSlashes_names_sublist (p : NativePath) (h : p.isAbsolute = true) :
    (behindSlashes p.names).Sublist p.bytes := by
  obtain ⟨bytes⟩ := p
  cases bytes with
  | nil => cases h
  | cons b rest =>
    have hb : b = slashByte := by simpa [NativePath.isAbsolute] using h
    subst hb
    have hnames : (NativePath.names ⟨slashByte :: rest⟩).Sublist (splitOn slashByte rest) := by
      rw [NativePath.names, splitOn_cons_sep]
      show ((splitOn slashByte rest).filter _).Sublist _
      exact List.filter_sublist
    have hbytes := hnames.flatMap fun name => slashByte :: name
    rw [flatMap_splitOn] at hbytes
    exact hbytes

/-- What stands in front of a slash and what stands behind it have names of their own. -/
theorem names_append_slash (front rest : Bytes) :
    NativePath.names ⟨front ++ slashByte :: rest⟩ = NativePath.names ⟨front⟩ ++ NativePath.names ⟨rest⟩ := by
  rw [NativePath.names, NativePath.names, NativePath.names, splitOn_append, List.filter_append]

theorem names_snoc_slash (front : Bytes) :
    NativePath.names ⟨front ++ [slashByte]⟩ = NativePath.names ⟨front⟩ :=
  (names_append_slash front []).trans (List.append_nil _)

theorem bytes_of_endsWithSlash {p : NativePath} (h : p.endsWithSlash = true) : ∃ front, p = ⟨front ++ [slashByte]⟩ := by
  obtain ⟨bytes⟩ := p
  rcases List.eq_nil_or_concat bytes with rfl | ⟨front, last, rfl⟩
  · cases h
  · have hl : last = slashByte := by simpa [NativePath.endsWithSlash] using h
    exact ⟨front, by rw [hl, List.concat_eq_append]⟩

theorem behindSlashes_names_slash_sublist {p : NativePath} (h : p.isAbsolute = true) (hs : p.endsWithSlash = true) :
    (behindSlashes p.names ++ [slashByte]).Sublist p.bytes := by
  obtain ⟨front, rfl⟩ := bytes_of_endsWithSlash hs
  rw [names_snoc_slash]
  cases front with
  | nil => exact List.Sublist.refl _
  | cons b rest => exact (behindSlashes_names_sublist ⟨b :: rest⟩ h).append_right [slashByte]

/-! ### Segments -/

/-- Segments written with slashes in front, seen from behind the first slash. -/
theorem segmentsText_slash (list : List Text) (rest : Text) :
    Url.segmentsText list ++ '/' :: rest = '/' :: ((list.flatMap fun piece => piece ++ ['/']) ++ rest) :=
  flatMap_sep_append '/' list rest

/-- The pieces of a path between its slashes are its segments. -/
theorem splitOn_segmentsText {list : List Text} (h : ∀ s ∈ list, '/' ∉ s) :
    splitOn '/' (Url.segmentsText list) = [] :: list :=
  splitOn_flatMap '/' [] list List.not_mem_nil h

theorem segmentsText_snoc (list : List Text) (last : Text) :
    Url.segmentsText (list ++ [last]) = Url.segmentsText list ++ '/' :: last := by
  rw [Url.segmentsText_append, Url.segmentsText_cons]
  simp [Url.segmentsText]

theorem startupDir?_snoc (list : List Text) (last : Text) (h : '/' ∉ last) :
    startupDir? (Url.segmentsText (list ++ [last])) = some (Url.segmentsText list ++ ['/']) := by
  rw [startupDir?, segmentsText_snoc, cutAtLast?_append_sep '/' _ last h]

/-- The base of a path is the directory of its directory. -/
theorem installBase?_snoc (list : List Text) (last : Text) (h : '/' ∉ last) :
    installBase? (Url.segmentsText (list ++ [last])) = startupDir? (Url.segmentsText list) := by
  rw [installBase?, segmentsText_snoc, cutAtLast?_append_sep '/' _ last h]

/-- The directory of a path, told from its segments. -/
theorem startupDir?_segmentsText (list : List Text) (h : ∀ s ∈ list, '/' ∉ s) :
    startupDir? (Url.segmentsText list)
      = if list.length < 1 then none else some (Url.segmentsText list.dropLast ++ ['/']) := by
  rcases List.eq_nil_or_concat list with rfl | ⟨front, last, rfl⟩
  · rfl
  · rw [List.concat_eq_append] at h ⊢
    rw [startupDir?_snoc front last (h last (by simp)), List.dropLast_concat,
      if_neg (by rw [List.length_append]; simp)]

/-- The base of a path, told from its segments. -/
theorem installBase?_segmentsText (list : List Text) (h : ∀ s ∈ list, '/' ∉ s) :
    installBase? (Url.segmentsText list)
      = if list.length < 2 then none else some (Url.segmentsText list.dropLast.dropLast ++ ['/']) := by
  rcases List.eq_nil_or_concat list with rfl | ⟨front, last, rfl⟩
  · rfl
  · rw [List.concat_eq_append] at h ⊢
    have hf : ∀ s ∈ front, '/' ∉ s := fun s hs => h s (List.mem_append_left _ hs)
    rw [installBase?_snoc front last (h last (by simp)), startupDir?_segmentsText front hf,
      List.dropLast_concat, List.length_append, List.length_singleton]
    by_cases hl : front.length < 1
    · rw [if_pos hl, if_pos (by omega)]
    · rw [if_neg hl, if_neg (by omega)]

end Relocation
