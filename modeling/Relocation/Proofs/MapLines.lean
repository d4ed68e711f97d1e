import Mathlib.Data.List.Basic
import Mathlib.Data.List.TakeDrop
import Relocation.MemoryMap
import Relocation.Proofs.Pieces

/-!
# Lines of a memory map

A line is cut into fields at blanks, but its path is everything from its first slash on. So a line without a slash
describes no mapping, whatever its fields are, and in one whose fields hold no slash the path begins behind them.

* `lines_append`: the lines in front of a line end and behind it;
* `readLine?_eq_none`: what holds no slash describes no mapping;
* `readLine?_fields`: two fields, more text without a slash, and a path;
* `mappings_line`, `moduleAt?_line`, `executable?_line`: what one line adds to the answers;
* `executable?_eq_some`: the program is the path on the first line.
-/

namespace Relocation

namespace MemoryMap

/-! ### Cutting into lines -/

theorem lines_append (line rest : Text) :
    lines (line ++ '\n' :: rest) = (splitOn '\n' line).map dropReturn ++ lines rest := by
  have hne := splitOn_ne_nil '\n' rest
  have hlast : (splitOn '\n' line ++ splitOn '\n' rest).getLast? = (splitOn '\n' rest).getLast? :=
    List.getLast?_append_of_ne_nil _ hne
  rw [lines, lines, splitOn_append, hlast, List.dropLast_append_of_ne_nil hne]
  simp only [List.map_append]
  split
  · split
    · rfl
    · rw [List.append_assoc]
  · rfl

theorem lines_append_newline (line rest : Text) (h : '\n' ∉ line) :
    lines (line ++ '\n' :: rest) = dropReturn line :: lines rest := by
  rw [lines_append, splitOn_of_not_mem _ _ h, List.map_singleton, List.singleton_append]

theorem trimEndWhere_dropReturn (line : Text) :
    trimEndWhere isLineEnd (dropReturn line) = trimEndWhere isLineEnd line := by
  rw [dropReturn]
  split
  · next h =>
    obtain ⟨front, rfl⟩ := List.getLast?_eq_some_iff.mp h
    rw [List.dropLast_concat, trimEndWhere, trimEndWhere, List.reverse_append]
    rfl
  · rfl

theorem dropReturn_eq_self {line : Text} (h : ∀ c ∈ line.getLast?, isLineEnd c = false) : dropReturn line = line := by
  rw [dropReturn, if_neg]
  intro hr
  exact absurd (h _ hr) (by decide)

theorem dropReturn_sublist (line : Text) : (dropReturn line).Sublist line := by
  rw [dropReturn]
  split
  · exact List.dropLast_sublist line
  · exact List.Sublist.refl line

/-! ### Fields -/

/-- Characters that stand together. -/
def IsField (t : Text) : Prop :=
  t ≠ [] ∧ ∀ c ∈ t, isBlank c = false

theorem nextField?_blank (t : Text) : nextField? (' ' :: t) = nextField? t := by
  rw [nextField?, nextField?, List.dropWhile_cons_of_pos (by decide)]

theorem nextField?_append {field : Text} (h : IsField field) (rest : Text) :
    nextField? (field ++ ' ' :: rest) = some (field, ' ' :: rest) := by
  obtain ⟨hne, hall⟩ := h
  have hblank : isBlank ' ' = true := by decide
  have hnot : ∀ c ∈ field, (!isBlank c) = true := fun c hc => by rw [hall c hc]; rfl
  have hdrop : (field ++ ' ' :: rest).dropWhile isBlank = field ++ ' ' :: rest := by
    obtain ⟨c, cs, rfl⟩ := List.exists_cons_of_ne_nil hne
    exact List.dropWhile_cons_of_neg (by rw [hall c List.mem_cons_self]; simp)
  rw [nextField?, hdrop]
  split
  · next he => simp at he
  · next he =>
    rw [List.span_eq_takeWhile_dropWhile, List.takeWhile_append_of_pos hnot, List.dropWhile_append_of_pos hnot,
      List.takeWhile_cons_of_neg (by rw [hblank]; simp), List.dropWhile_cons_of_neg (by rw [hblank]; simp),
      List.append_nil]

/-! ### One line -/

/-- Whatever is read of a line, its path begins with the first slash of the line. -/
theorem exists_slash_of_readLine? {line : Text} {m : Mapping} (h : readLine? line = some m) :
    ∃ slash, indexOf? (· == '/') (trimEndWhere isLineEnd line) = some slash
      ∧ m.path = withoutMark ((trimEndWhere isLineEnd line).drop slash) := by
  simp only [readLine?] at h
  split at h
  · cases h
  · split at h
    · cases h
    · split at h
      · next hslash =>
        split at h
        · cases h
        · exact ⟨_, hslash, by rw [← Option.some.inj h]⟩
      · cases h

theorem readLine?_eq_none {line : Text} (h : '/' ∉ line) : readLine? line = none := by
  have hindex : indexOf? (· == '/') (trimEndWhere isLineEnd line) = none := by
    refine indexOf?_eq_none _ _ fun c hc => ?_
    obtain ⟨tail, htail, -⟩ := trimEndWhere_append_tail isLineEnd line
    rw [beq_eq_false_iff_ne]
    rintro rfl
    exact h (htail ▸ List.mem_append_left tail hc)
  cases hr : readLine? line with
  | none => rfl
  | some m =>
    obtain ⟨slash, hslash, -⟩ := exists_slash_of_readLine? hr
    rw [hindex] at hslash
    cases hslash

theorem indexOf?_slash {fields : Text} (tail : Text) (h : '/' ∉ fields) :
    indexOf? (· == '/') (fields ++ '/' :: tail) = some fields.length := by
  refine indexOf?_append_cons _ fields '/' _ (fun c hc => ?_) rfl
  rw [beq_eq_false_iff_ne]
  exact fun e => h (e ▸ hc)

/-- Nothing is read of a line whose first field does not tell the bounds of a mapping. -/
theorem readLine?_of_readBounds? {bounds : Text} (rest : Text) (hb : IsField bounds) (hr : readBounds? bounds = none) :
    readLine? (bounds ++ ' ' :: rest) = none := by
  have htrim := trimEndWhere_append_cons isLineEnd bounds ' ' rest (by decide)
  simp only [readLine?, htrim, nextField?_append hb, hr]
  split <;> rfl

/-- A line of two fields, more text and a path describes a mapping of the path. -/
theorem readLine?_fields {bounds permissions between : Text} {start stop : Nat} (tail : Text) (hb : IsField bounds)
    (hp : IsField permissions) (hs : '/' ∉ bounds ++ ' ' :: (permissions ++ ' ' :: between))
    (hr : readBounds? bounds = some (start, stop)) :
    readLine? ((bounds ++ ' ' :: (permissions ++ ' ' :: between)) ++ '/' :: tail)
      = some ⟨start, stop, permissions, withoutMark ('/' :: trimEndWhere isLineEnd tail)⟩ := by
  have htrim := trimEndWhere_append_cons isLineEnd (bounds ++ ' ' :: (permissions ++ ' ' :: between)) '/' tail (by decide)
  generalize trimEndWhere isLineEnd tail = rest at htrim ⊢
  have hfirst : nextField? ((bounds ++ ' ' :: (permissions ++ ' ' :: between)) ++ '/' :: rest)
      = some (bounds, ' ' :: ((permissions ++ ' ' :: between) ++ '/' :: rest)) := by
    rw [List.append_assoc]
    exact nextField?_append hb _
  have hsecond : nextField? (' ' :: ((permissions ++ ' ' :: between) ++ '/' :: rest))
      = some (permissions, ' ' :: (between ++ '/' :: rest)) := by
    rw [nextField?_blank, List.append_assoc]
    exact nextField?_append hp _
  have hlen : ¬(bounds ++ ' ' :: (permissions ++ ' ' :: between)).length ≤ bounds.length := by
    rw [List.length_append, List.length_cons]
    omega
  simp only [readLine?, htrim, hfirst, hsecond, hr, indexOf?_slash rest hs, if_neg hlen, List.drop_left]

/-- A carriage return at the end of a line does not matter. -/
theorem readLine?_dropReturn (line : Text) : readLine? (dropReturn line) = readLine? line := by
  rw [readLine?, trimEndWhere_dropReturn, readLine?]

/-! ### One line among others -/

theorem mappings_append (front rest : Text) :
    mappings (front ++ '\n' :: rest) = (splitOn '\n' front).filterMap readLine? ++ mappings rest := by
  rw [mappings, lines_append, List.filterMap_append, List.filterMap_map, mappings]
  exact congrArg (· ++ _) (List.filterMap_congr fun line _ => readLine?_dropReturn line)

/-- The mapping of a line comes before those of the lines behind it. -/
theorem mappings_line {line : Text} (hline : '\n' ∉ line) (rest : Text) :
    mappings (line ++ '\n' :: rest) = (readLine? line).toList ++ mappings rest := by
  rw [mappings_append, splitOn_of_not_mem _ _ hline]
  cases hr : readLine? line <;> simp [hr]

theorem mappings_single {line : Text} (hline : '\n' ∉ line) : mappings line = (readLine? line).toList := by
  have hpieces := splitOn_of_not_mem _ _ hline
  by_cases hne : line = []
  · subst hne
    rfl
  · rw [mappings, lines, hpieces]
    cases hr : readLine? line <;> simp [hne, hr]

theorem find?_toList {α : Type} (p : α → Bool) (o : Option α) : o.toList.find? p = o.filter p := by
  cases o with
  | none => rfl
  | some x =>
    rw [Option.toList_some, List.find?_singleton]
    rfl

/-- The first line is asked before the others. -/
theorem moduleAt?_line {line : Text} (hline : '\n' ∉ line) (rest : Text) (address : Nat) :
    moduleAt? (line ++ '\n' :: rest) address
      = (((readLine? line).filter fun m => m.isCode && m.holds address).map Mapping.path).or
          (moduleAt? rest address) := by
  rw [moduleAt?, moduleAt?, mappings_line hline, List.find?_append, Option.map_or, find?_toList]

/-- A text of one line, which may be ended, tells the file if its mapping is one of code at the address. -/
theorem moduleAt?_only {line ending : Text} (hline : '\n' ∉ line) (he : ending = [] ∨ ending = ['\n']) (address : Nat) :
    moduleAt? (line ++ ending) address
      = ((readLine? line).filter fun m => m.isCode && m.holds address).map Mapping.path := by
  rcases he with rfl | rfl
  · rw [List.append_nil, moduleAt?, mappings_single hline, find?_toList]
  · rw [moduleAt?_line hline]
    exact Option.or_none

/-! ### The first line -/

theorem executable?_line {line : Text} (hline : '\n' ∉ line) (rest : Text) :
    executable? (line ++ '\n' :: rest)
      = (readLine? line).bind fun m =>
          if (mappings (line ++ '\n' :: rest)).any fun other => other.isCode && other.path == m.path then some m.path
          else none := by
  rw [executable?, lines_append_newline _ _ hline]
  simp only [readLine?_dropReturn]
  cases readLine? line <;> rfl

/-- The program is told by the first line and by the mappings that are read. -/
theorem executable?_congr {t s : Text} (hfirst : (lines t).head? = (lines s).head?) (hm : mappings t = mappings s) :
    executable? t = executable? s := by
  rw [executable?, executable?, hm]
  cases ht : lines t with
  | nil =>
    rw [ht, List.head?_nil, eq_comm, List.head?_eq_none_iff] at hfirst
    rw [hfirst]
  | cons first more =>
    rw [ht, List.head?_cons, eq_comm] at hfirst
    obtain ⟨others, hs⟩ := List.head?_eq_some_iff.mp hfirst
    rw [hs]

theorem head?_lines_append (before rest : Text) :
    (lines (before ++ '\n' :: rest)).head? = (splitOn '\n' before).head?.map dropReturn := by
  rw [lines_append, List.head?_append_of_ne_nil _ (by simp [splitOn_ne_nil]), List.head?_map]

/-- The path of a mapping is what begins with the first slash of its line, without the mark. -/
theorem path_of_readLine? {fields tail : Text} {found : Mapping} (hf : '/' ∉ fields)
    (h : readLine? (fields ++ '/' :: tail) = some found) :
    found.path = withoutMark (trimEndWhere isLineEnd ('/' :: tail)) := by
  have hend : isLineEnd '/' = false := by decide
  -- nothing is trimmed beyond the first slash
  have htrim : trimEndWhere isLineEnd (fields ++ '/' :: tail) = fields ++ '/' :: trimEndWhere isLineEnd tail :=
    trimEndWhere_append_cons _ fields '/' tail hend
  have hname : trimEndWhere isLineEnd ('/' :: tail) = '/' :: trimEndWhere isLineEnd tail :=
    trimEndWhere_append_cons _ [] '/' tail hend
  obtain ⟨slash, hslash, hpath⟩ := exists_slash_of_readLine? h
  rw [htrim, indexOf?_slash _ hf, Option.some.injEq] at hslash
  rw [hpath, htrim, ← hslash, List.drop_left, hname]

theorem executable?_eq_some (fields tail rest path : Text) (hf : '/' ∉ fields) (hn : '\n' ∉ fields ++ '/' :: tail)
    (h : executable? ((fields ++ '/' :: tail) ++ '\n' :: rest) = some path) :
    path = withoutMark (trimEndWhere isLineEnd ('/' :: tail)) := by
  rw [executable?_line hn, Option.bind_eq_some_iff] at h
  obtain ⟨found, hfound, hpath⟩ := h
  split at hpath
  · rw [← Option.some.inj hpath]
    exact path_of_readLine? hf hfound
  · cases hpath

/-! ### The mark of a removed file -/

theorem withoutMark_slash (tail : Text) : ∃ rest, withoutMark ('/' :: tail) = '/' :: rest := by
  rw [withoutMark, stripEnd?, if_neg (by intro h; cases h)]
  cases stripEnd? Mapping.deletedMark tail with
  | none => exact ⟨tail, rfl⟩
  | some front => exact ⟨front, rfl⟩

theorem withoutMark_append (path : Text) : withoutMark (path ++ Mapping.deletedMark) = path := by
  rw [withoutMark, (stripEnd?_eq_some Mapping.deletedMark _ path).mpr rfl]
  rfl

theorem withoutMark_of_not_isSuffix {path : Text} (h : ¬Mapping.deletedMark <:+ path) : withoutMark path = path := by
  rw [withoutMark]
  cases hs : stripEnd? Mapping.deletedMark path with
  | none => rfl
  | some front => exact absurd ⟨front, ((stripEnd?_eq_some _ _ _).mp hs).symm⟩ h

end MemoryMap

end Relocation
