import Mathlib.Data.List.TakeDrop
import Relocation.Proofs.TomlStrings
import Relocation.Toml.Reader

/-!
# Tables of strings are read as they were written

A table of strings is written as one pair a line, each under a key that needs no quotes. Every line is read up to its
end and leaves the rest of the text as it is, and what the lines say is put together to the table again, as long as no
key stands in it twice.

* `readPair?_writePair`, `readHeader?_writeHeader`: one line, whatever follows;
* `readLines?_writePairs`: all lines of a table;
* `isBroken_of_bareKey`, `IsBroken.writePairs`: a line that breaks off, and a table in front of it;
* `addPairs_strings`: the pairs put together.
-/

namespace Relocation.Toml

/-! ### Keys -/

/-- A key that is written without quotes. -/
def IsBareKey (key : Text) : Prop :=
  key ≠ [] ∧ ∀ c ∈ key, isKeyChar c = true

-- decided along the key, because there are too many characters to ask all of them
instance (key : Text) : Decidable (IsBareKey key) :=
  @instDecidableAnd (key ≠ []) _ inferInstance (List.decidableBAll _ key)

theorem dropSpaces_of_head {t : Text} (h : ∀ c ∈ t.head?, isSpace c = false) : dropSpaces t = t := by
  cases t with
  | nil => rfl
  | cons c rest => exact List.dropWhile_cons_of_neg (by rw [h c rfl]; simp)

theorem isSpace_of_isKeyChar {c : Char} (h : isKeyChar c = true) : isSpace c = false := by
  rw [isSpace, Bool.or_eq_false_iff, beq_eq_false_iff_ne, beq_eq_false_iff_ne]
  constructor <;> rintro rfl <;> exact absurd h (by decide)

namespace IsBareKey

variable {key : Text} (h : IsBareKey key)
include h

theorem exists_cons : ∃ c more, key = c :: more ∧ isKeyChar c = true := by
  obtain ⟨c, more, rfl⟩ := List.exists_cons_of_ne_nil h.1
  exact ⟨c, more, rfl, h.2 c List.mem_cons_self⟩

theorem dropSpaces_append (rest : Text) : dropSpaces (key ++ rest) = key ++ rest := by
  obtain ⟨c, more, rfl, hc⟩ := h.exists_cons
  refine dropSpaces_of_head fun d hd => ?_
  cases hd
  exact isSpace_of_isKeyChar hc

theorem readName?_append {rest : Text} (hr : ∀ c ∈ rest.head?, isKeyChar c = false) :
    readName? (key ++ rest) = some (key, rest) := by
  have hrest : rest.takeWhile isKeyChar = [] ∧ rest.dropWhile isKeyChar = rest := by
    cases rest with
    | nil => exact ⟨rfl, rfl⟩
    | cons c more =>
      have hc : ¬isKeyChar c = true := by rw [hr c rfl]; simp
      exact ⟨List.takeWhile_cons_of_neg hc, List.dropWhile_cons_of_neg hc⟩
  have hspan : (key ++ rest).span isKeyChar = (key, rest) := by
    rw [List.span_eq_takeWhile_dropWhile, List.takeWhile_append_of_pos h.2, List.dropWhile_append_of_pos h.2, hrest.1,
      hrest.2, List.append_nil]
  rw [readName?, hspan]
  split
  · next he => exact absurd (congrArg Prod.fst he) h.1
  · next he => rw [← he]

/-- A key without quotes is one name, unless a dot follows. -/
theorem readKey?_append {rest : Text} (hr : ∀ c ∈ rest.head?, isKeyChar c = false)
    (hdot : ∀ more, dropSpaces rest ≠ '.' :: more) : readKey? (key ++ rest) = some (([], key), dropSpaces rest) := by
  have hnames : readNames? maxDepth (key ++ rest) = some ([key], dropSpaces rest) := by
    show readNames? (78 + 1) (key ++ rest) = _
    rw [readNames?, h.dropSpaces_append, h.readName?_append hr]
    simp only
  rw [readKey?, hnames]
  rfl

end IsBareKey

/-! ### Lines -/

theorem head_writeString (t : Text) : ∃ c more, writeString t = c :: more ∧ (c = basicQuote ∨ c = literalQuote) := by
  rw [writeString]
  cases quotingOf t with
  | basic => exact ⟨_, _, rfl, Or.inl rfl⟩
  | literal => exact ⟨_, _, rfl, Or.inr rfl⟩
  | basicBlock => exact ⟨_, _, rfl, Or.inl rfl⟩
  | literalBlock => exact ⟨_, _, rfl, Or.inr rfl⟩

theorem readValue?_writeString (fuel depth : Nat) (t rest : Text) :
    readValue? (fuel + 1) depth (writeString t ++ '\n' :: rest) = some (.string t, '\n' :: rest) := by
  have hread := readString?_writeString t rest
  obtain ⟨c, more, hw, hc⟩ := head_writeString t
  have hopen : c ≠ '[' ∧ c ≠ '\x7b' := by
    rcases hc with rfl | rfl <;> decide
  rw [hw, List.cons_append] at hread ⊢
  unfold readValue?
  simp only
  rw [if_neg hopen.1, if_neg hopen.2, if_pos hc, hread]
  rfl

theorem writePair_append (key t rest : Text) :
    writePair key t ++ rest = key ++ ' ' :: '=' :: ' ' :: (writeString t ++ '\n' :: rest) := by
  simp [writePair]

theorem readPair?_writePair {key : Text} (h : IsBareKey key) (fuel : Nat) (t rest : Text) :
    readPair? (fuel + 1) (writePair key t ++ rest) = some (.pair [] key (.string t), rest) := by
  have hkey : readKey? (writePair key t ++ rest)
      = some (([], key), '=' :: ' ' :: (writeString t ++ '\n' :: rest)) := by
    rw [writePair_append, h.readKey?_append (by simp; decide) (by simp [dropSpaces, isSpace])]
    rfl
  have hvalue : dropSpaces (' ' :: (writeString t ++ '\n' :: rest)) = writeString t ++ '\n' :: rest := by
    obtain ⟨c, more, hw, hc⟩ := head_writeString t
    rw [hw]
    refine dropSpaces_of_head (t := c :: _) fun d hd => ?_
    cases hd
    rcases hc with rfl | rfl <;> decide
  rw [readPair?, hkey]
  simp only [hvalue, readValue?_writeString]
  rfl

theorem writeHeader_append (name rest : Text) : writeHeader name ++ rest = '[' :: (name ++ ']' :: '\n' :: rest) := by
  simp [writeHeader]

theorem readHeader?_writeHeader {name : Text} (h : IsBareKey name) (rest : Text) :
    readHeader? (name ++ ']' :: '\n' :: rest) = some (.header [] name false, rest) := by
  have hkey : readKey? (name ++ ']' :: '\n' :: rest) = some (([], name), ']' :: '\n' :: rest) := by
    rw [h.readKey?_append (by simp; decide) (by simp [dropSpaces, isSpace])]
    rfl
  obtain ⟨c, more, rfl, hc⟩ := h.exists_cons
  rw [readHeader?, hkey]
  · rfl
  · intro inner he
    cases he
    exact absurd hc (by decide)

/-- A line is read, and then the rest. -/
theorem readLines?_of_line {t next : Text} {line : Option Line} (ht : dropSpaces t ≠ [])
    (h : readLine? (dropSpaces t) = some (line, next)) (fuel : Nat) :
    readLines? (fuel + 1) t = (readLines? fuel next).map (line.toList ++ ·) := by
  obtain ⟨c, rest, hd⟩ := List.exists_cons_of_ne_nil ht
  rw [hd] at h
  rw [readLines?, hd]
  simp only [h]

theorem readLines?_newline (fuel : Nat) (rest : Text) : readLines? (fuel + 1) ('\n' :: rest) = readLines? fuel rest := by
  rw [readLines?_of_line (t := '\n' :: rest) (by simp [dropSpaces, isSpace]) rfl]
  exact Option.map_id_apply

/-- A line that begins with a name is read as a pair. -/
theorem readLine?_of_isKeyChar {c : Char} (hc : isKeyChar c = true) (rest : Text) :
    readLine? (c :: rest)
      = (readPair? (2 * (c :: rest).length + 2) (c :: rest)).map fun (line, next) => (some line, next) := by
  rw [readLine?]
  all_goals
    intro more he
    cases he
    exact absurd hc (by decide)

theorem readLines?_writePair {key : Text} (h : IsBareKey key) (fuel : Nat) (t rest : Text) :
    readLines? (fuel + 1) (writePair key t ++ rest)
      = (readLines? fuel rest).map (.pair [] key (.string t) :: ·) := by
  have hdrop := h.dropSpaces_append (' ' :: '=' :: ' ' :: (writeString t ++ '\n' :: rest))
  rw [← writePair_append] at hdrop
  obtain ⟨c, more, hk, hc⟩ := h.exists_cons
  obtain ⟨tail, htail⟩ : ∃ tail, writePair key t ++ rest = c :: tail := by
    rw [writePair_append, hk]
    exact ⟨_, rfl⟩
  have hline : readLine? (writePair key t ++ rest) = some (some (.pair [] key (.string t)), rest) := by
    rw [htail, readLine?_of_isKeyChar hc, ← htail, readPair?_writePair h]
    rfl
  rw [readLines?_of_line (by rw [hdrop, htail]; simp) (by rw [hdrop, hline])]
  rfl

theorem readLines?_writeHeader {name : Text} (h : IsBareKey name) (fuel : Nat) (rest : Text) :
    readLines? (fuel + 1) (writeHeader name ++ rest) = (readLines? fuel rest).map (.header [] name false :: ·) := by
  have hdrop : dropSpaces (writeHeader name ++ rest) = '[' :: (name ++ ']' :: '\n' :: rest) := by
    rw [writeHeader_append]
    rfl
  have hline : readLine? ('[' :: (name ++ ']' :: '\n' :: rest)) = some (some (.header [] name false), rest) := by
    rw [readLine?, readHeader?_writeHeader h]
    rfl
  rw [readLines?_of_line (by rw [hdrop]; simp) (by rw [hdrop, hline])]
  rfl

/-- The lines of a table of strings. -/
def writePairs (pairs : List (Text × Text)) : Text :=
  pairs.flatMap fun pair => writePair pair.1 pair.2

/-- A pair as it is read from its line. -/
def lineOf (pair : Text × Text) : Line :=
  .pair [] pair.1 (.string pair.2)

theorem readLines?_writePairs (pairs : List (Text × Text)) (h : ∀ pair ∈ pairs, IsBareKey pair.1) {fuel : Nat}
    (hf : pairs.length < fuel) : readLines? fuel (writePairs pairs) = some (pairs.map lineOf) := by
  induction pairs generalizing fuel with
  | nil =>
    obtain ⟨more, rfl⟩ := Nat.exists_eq_add_of_lt hf
    rfl
  | cons pair rest ih =>
    cases fuel with
    | zero => cases hf
    | succ fuel =>
      have hrest := ih (fun p hp => h p (List.mem_cons_of_mem _ hp)) (Nat.lt_of_succ_lt_succ hf)
      rw [writePairs, List.flatMap_cons, readLines?_writePair (h pair List.mem_cons_self), ← writePairs, hrest]
      rfl

theorem length_le_writePairs (pairs : List (Text × Text)) : pairs.length ≤ (writePairs pairs).length := by
  induction pairs with
  | nil => exact Nat.le_refl 0
  | cons pair rest ih =>
    rw [writePairs, List.flatMap_cons, ← writePairs, List.length_append, List.length_cons, writePair,
      List.length_append, List.length_singleton]
    omega

/-- A header and the lines of its table. -/
theorem readLines?_table {name : Text} (h : IsBareKey name) (pairs : List (Text × Text))
    (hp : ∀ pair ∈ pairs, IsBareKey pair.1) {fuel : Nat} (hf : (writePairs pairs).length + 1 < fuel) :
    readLines? fuel (writeHeader name ++ writePairs pairs)
      = some (.header [] name false :: pairs.map lineOf) := by
  have hle := length_le_writePairs pairs
  obtain ⟨less, rfl⟩ : ∃ less, fuel = less + 1 := ⟨fuel - 1, by omega⟩
  rw [readLines?_writeHeader h, readLines?_writePairs pairs hp (by omega)]
  rfl

/-! ### Lines that break off -/

/-- A text that cannot be read line by line, with any fuel. -/
def IsBroken (t : Text) : Prop :=
  ∀ fuel, readLines? fuel t = none

/-- A line that begins with a name breaks off at what can neither lead to its value nor to another name. -/
theorem isBroken_of_bareKey {key : Text} (h : IsBareKey key) {c : Char} (hkey : isKeyChar c = false)
    (hspace : isSpace c = false) (hdot : c ≠ '.') (hequals : c ≠ '=') (rest : Text) : IsBroken (key ++ c :: rest) := by
  have hdrop : dropSpaces (c :: rest) = c :: rest := dropSpaces_of_head fun d hd => by
    cases hd
    exact hspace
  have hread : readKey? (key ++ c :: rest) = some (([], key), c :: rest) := by
    rw [h.readKey?_append (fun d hd => by cases hd; exact hkey), hdrop]
    rw [hdrop]
    intro more he
    cases he
    exact hdot rfl
  have hpair (fuel : Nat) : readPair? fuel (key ++ c :: rest) = none := by
    rw [readPair?, hread]
    split
    · next he =>
      cases he
      exact absurd rfl hequals
    · rfl
  obtain ⟨first, more, rfl, hfirst⟩ := h.exists_cons
  intro fuel
  cases fuel with
  | zero => rfl
  | succ fuel =>
    rw [readLines?, h.dropSpaces_append]
    simp only [List.cons_append, readLine?_of_isKeyChar hfirst] at hpair ⊢
    rw [hpair]
    rfl

/-- A line in front of such a text makes no difference. -/
theorem IsBroken.of_line {t rest : Text} (h : IsBroken rest) {lines : List Line → List Line}
    (hline : ∀ fuel, readLines? (fuel + 1) t = (readLines? fuel rest).map lines) : IsBroken t := by
  intro fuel
  cases fuel with
  | zero => rfl
  | succ fuel =>
    rw [hline, h]
    rfl

section Broken

variable {rest : Text} (h : IsBroken rest)
include h

theorem IsBroken.newline : IsBroken ('\n' :: rest) :=
  h.of_line fun fuel => (readLines?_newline fuel rest).trans Option.map_id_apply.symm

theorem IsBroken.writePair {key : Text} (hk : IsBareKey key) (t : Text) : IsBroken (writePair key t ++ rest) :=
  h.of_line fun fuel => readLines?_writePair hk fuel t rest

theorem IsBroken.writeHeader {name : Text} (hn : IsBareKey name) : IsBroken (writeHeader name ++ rest) :=
  h.of_line fun fuel => readLines?_writeHeader hn fuel rest

theorem IsBroken.writePairs {pairs : List (Text × Text)} (hp : ∀ pair ∈ pairs, IsBareKey pair.1) :
    IsBroken (writePairs pairs ++ rest) := by
  induction pairs with
  | nil => exact h
  | cons pair more ih =>
    rw [Toml.writePairs, List.flatMap_cons, List.append_assoc, ← Toml.writePairs]
    exact (ih fun p hm => hp p (List.mem_cons_of_mem _ hm)).writePair (hp pair List.mem_cons_self) pair.2

end Broken

theorem readDocument?_of_isBroken {t : Text} (h : IsBroken (dropMark t)) : readDocument? t = none := by
  rw [readDocument?, h]

/-! ### Tables -/

/-- A pair as a table takes it. -/
def entryOf (pair : Text × Text) : List Text × Text × Value :=
  ([], pair.1, .string pair.2)

theorem blocksOf_lines (pairs : List (Text × Text)) : blocksOf (pairs.map lineOf) = (pairs.map entryOf, []) := by
  induction pairs with
  | nil => rfl
  | cons pair rest ih =>
    rw [List.map_cons, lineOf, blocksOf, ih]
    rfl

theorem blocksOf_table (before pairs : List (Text × Text)) (name : Text) :
    blocksOf (before.map lineOf ++ .header [] name false :: pairs.map lineOf)
      = (before.map entryOf, [⟨[], name, false, pairs.map entryOf⟩]) := by
  induction before with
  | nil =>
    rw [List.map_nil, List.nil_append, blocksOf, blocksOf_lines]
    rfl
  | cons pair rest ih =>
    rw [List.map_cons, List.cons_append, lineOf, blocksOf, ih]
    rfl

theorem withValue_eq_append {key : Text} (v : Value) {entries : Entries} (h : valueOf? key entries = none) :
    withValue key v entries = entries ++ [(key, v)] := by
  induction entries with
  | nil => rfl
  | cons pair rest ih =>
    obtain ⟨k, old⟩ := pair
    rw [valueOf?] at h
    by_cases hk : k = key
    · rw [if_pos hk] at h
      cases h
    · rw [if_neg hk] at h
      rw [withValue, if_neg hk, ih h, List.cons_append]

/-- Values that are there for some of many names are found under theirs. -/
theorem valueOf?_filterMap {ι ν : Type} {name : ι → Text} (hinj : ∀ i j, name i = name j → i = j) (value : ι → Option ν)
    {list : List ι} {i : ι} (hi : i ∈ list) :
    valueOf? (name i) (list.filterMap fun j => (value j).map fun v => (name j, v)) = value i := by
  have hnone : ∀ rest : List ι, value i = none →
      valueOf? (name i) (rest.filterMap fun j => (value j).map fun v => (name j, v)) = none := by
    intro rest hv
    induction rest with
    | nil => rfl
    | cons j more ih =>
      rw [List.filterMap_cons]
      cases hj : value j with
      | none => exact ih
      | some v =>
        have hne : name j ≠ name i := fun h => by
          rw [hinj j i h, hv] at hj
          cases hj
        exact (if_neg hne).trans ih
  induction list with
  | nil => cases hi
  | cons j rest ih =>
    rw [List.filterMap_cons]
    by_cases hj : name j = name i
    · rw [hinj j i hj]
      cases hv : value i with
      | none => exact hnone rest hv
      | some v => exact if_pos rfl
    · have hrest : i ∈ rest := (List.mem_cons.mp hi).resolve_left fun h => hj (h ▸ rfl)
      cases value j with
      | none => exact ih hrest
      | some v => exact (if_neg hj).trans (ih hrest)

/-- Pairs are added in their order, as long as no key is there twice. -/
theorem addPairs_strings (pairs : List (Text × Text)) (entries : Entries) (hnodup : (pairs.map Prod.fst).Nodup)
    (hnew : ∀ pair ∈ pairs, valueOf? pair.1 entries = none) :
    addPairs (pairs.map entryOf) entries = some (entries ++ pairs.map fun pair => (pair.1, .string pair.2)) := by
  induction pairs generalizing entries with
  | nil => simp [addPairs]
  | cons pair rest ih =>
    rw [List.map_cons, List.nodup_cons] at hnodup
    have hnone := hnew pair List.mem_cons_self
    have hrest : ∀ other ∈ rest, valueOf? other.1 (withValue pair.1 (.string pair.2) entries) = none := by
      intro other ho
      have hne : other.1 ≠ pair.1 := fun e => hnodup.1 (e ▸ List.mem_map_of_mem ho)
      rw [valueOf?_withValue_other _ _ _ _ hne]
      exact hnew other (List.mem_cons_of_mem _ ho)
    rw [List.map_cons, entryOf, addPairs, addPair_plain _ _ _ hnone]
    simp only
    rw [ih _ hnodup.2 hrest, withValue_eq_append _ hnone, List.append_assoc]
    rfl

/-- The document of some pairs and one table. -/
theorem readDocument?_table {t name : Text} {before pairs : List (Text × Text)} {root sub : Entries}
    (hl : readLines? (t.length + 1) (dropMark t)
      = some (before.map lineOf ++ .header [] name false :: pairs.map lineOf))
    (hroot : addPairs (before.map entryOf) [] = some root) (hnone : valueOf? name root = none)
    (hsub : addPairs (pairs.map entryOf) [] = some sub) :
    readDocument? t = some (withValue name (.table .opened sub) root) := by
  have hopen : openBlock ⟨[], name, false, pairs.map entryOf⟩ root = some (withValue name (.table .opened sub) root) := by
    rw [openBlock, if_neg (by simp)]
    simp only [hnone, hsub, Option.map_some]
  rw [readDocument?, hl]
  simp only [blocksOf_table, hroot, addBlocks, changeAt, hopen]

end Relocation.Toml
