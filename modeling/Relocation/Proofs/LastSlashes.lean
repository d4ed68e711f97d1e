import Mathlib.Data.List.Basic
import Relocation.Proofs.Pieces

/-!
# The base of a path is its one cut in three

A path is cut in one way only into a directory that ends in a slash and a last piece without slashes, and in one way
only into a base, the piece behind it and the last piece. `startupDir?` and `installBase?` are these cuts: they find
one whenever there is one, and what they give depends on where the last two slashes are and on nothing between them.

* `startupDir?_eq_some_iff`, `installBase?_eq_some_iff`: the two cuts, told without searching for slashes;
* `startupDir?_eq_some_iff_take`, `installBase?_eq_some_iff_take`: the same cuts, told by positions;
* `installBase?_isUniqueCut`: all of it at once, and what joining a suffix to a base does.
-/

namespace Relocation

/-! ### Cuts told by their pieces -/

/-- The directory of a path is what ends in a slash and has no slash behind it. -/
theorem startupDir?_eq_some_iff {path dir : Text} :
    startupDir? path = some dir ↔ dir.getLast? = some '/' ∧ ∃ last, '/' ∉ last ∧ path = dir ++ last := by
  constructor
  · intro h
    refine ⟨startupDir?_getLast? path dir h, ?_⟩
    rw [startupDir?] at h
    split at h
    · next before after hcut =>
      cases h
      obtain ⟨hpath, hafter⟩ := cutAtLast?_eq_some '/' path before after hcut
      exact ⟨after, hafter, by rw [hpath, List.append_assoc, List.singleton_append]⟩
    · cases h
  · rintro ⟨hdir, last, hlast, rfl⟩
    obtain ⟨front, rfl⟩ := List.getLast?_eq_some_iff.mp hdir
    rw [startupDir?, List.append_assoc, List.singleton_append, cutAtLast?_append_sep '/' front last hlast]

/-- The base of a path is the directory of what stands before its last slash. -/
theorem installBase?_append_slash (front : Text) {last : Text} (h : '/' ∉ last) :
    installBase? (front ++ '/' :: last) = startupDir? front := by
  rw [installBase?, cutAtLast?_append_sep '/' front last h]

/-- The base of a path is what ends in a slash and has one slash behind it. -/
theorem installBase?_eq_some_iff {path base : Text} :
    installBase? path = some base ↔ base.getLast? = some '/'
      ∧ ∃ middle last, '/' ∉ middle ∧ '/' ∉ last ∧ path = base ++ middle ++ '/' :: last := by
  constructor
  · intro h
    rw [installBase?] at h
    split at h
    · next before last hcut =>
      obtain ⟨hpath, hlast⟩ := cutAtLast?_eq_some '/' path before last hcut
      obtain ⟨hbase, middle, hmiddle, rfl⟩ := startupDir?_eq_some_iff.mp h
      exact ⟨hbase, middle, last, hmiddle, hlast, hpath⟩
    · cases h
  · rintro ⟨hbase, middle, last, hmiddle, hlast, rfl⟩
    rw [installBase?_append_slash _ hlast]
    exact startupDir?_eq_some_iff.mpr ⟨hbase, middle, hmiddle, rfl⟩

/-! ### Cuts told by positions -/

/-- At the position stands a slash, and behind it none. -/
def IsLastSlash (path : Text) (i : Nat) : Prop :=
  path[i]? = some '/' ∧ ∀ j, path[j]? = some '/' → j ≤ i

/-- At the position stands the last slash before the last one. -/
def IsSecondLastSlash (path : Text) (i : Nat) : Prop :=
  ∃ k, IsLastSlash path k ∧ IsLastSlash (path.take k) i

theorem isLastSlash_append {front last : Text} (h : '/' ∉ last) : IsLastSlash (front ++ '/' :: last) front.length := by
  refine ⟨by simp, fun j hj => ?_⟩
  by_contra hlt
  -- a slash further on would be one of the last piece
  obtain ⟨n, rfl⟩ : ∃ n, j = front.length + (n + 1) := ⟨j - front.length - 1, by omega⟩
  rw [List.getElem?_append_right (by omega), Nat.add_sub_cancel_left, List.getElem?_cons_succ] at hj
  exact h (List.mem_of_getElem? hj)

theorem isLastSlash_iff {path : Text} {i : Nat} :
    IsLastSlash path i ↔ ∃ front last, '/' ∉ last ∧ path = front ++ '/' :: last ∧ i = front.length := by
  constructor
  · rintro ⟨hi, hall⟩
    obtain ⟨hlt, hslash⟩ := List.getElem?_eq_some_iff.mp hi
    refine ⟨path.take i, path.drop (i + 1), fun hmem => ?_, ?_, (List.length_take_of_le hlt.le).symm⟩
    · obtain ⟨n, hn⟩ := List.mem_iff_getElem?.mp hmem
      rw [List.getElem?_drop] at hn
      have hle := hall _ hn
      omega
    · rw [← hslash, List.getElem_cons_drop, List.take_append_drop]
  · rintro ⟨front, last, hlast, rfl, rfl⟩
    exact isLastSlash_append hlast

theorem take_append_slash (front last : Text) : (front ++ '/' :: last).take (front.length + 1) = front ++ ['/'] := by
  rw [List.take_length_add_append, List.take_succ_cons, List.take_zero]

/-- The directory of a path goes up to its last slash. -/
theorem startupDir?_eq_some_iff_take {path dir : Text} :
    startupDir? path = some dir ↔ ∃ i, IsLastSlash path i ∧ dir = path.take (i + 1) := by
  constructor
  · intro h
    obtain ⟨hdir, last, hlast, rfl⟩ := startupDir?_eq_some_iff.mp h
    obtain ⟨front, rfl⟩ := List.getLast?_eq_some_iff.mp hdir
    rw [List.append_assoc, List.singleton_append]
    exact ⟨front.length, isLastSlash_append hlast, (take_append_slash front last).symm⟩
  · rintro ⟨i, hi, rfl⟩
    obtain ⟨front, last, hlast, rfl, rfl⟩ := isLastSlash_iff.mp hi
    rw [take_append_slash, startupDir?, cutAtLast?_append_sep '/' front last hlast]

/-- The base of a path goes up to its second-last slash. -/
theorem installBase?_eq_some_iff_take {path base : Text} :
    installBase? path = some base ↔ ∃ i, IsSecondLastSlash path i ∧ base = path.take (i + 1) := by
  have hsame {front last : Text} {i : Nat} (hi : IsLastSlash front i) :
      (front ++ '/' :: last).take (i + 1) = front.take (i + 1) := by
    obtain ⟨hlt, -⟩ := List.getElem?_eq_some_iff.mp hi.1
    exact List.take_append_of_le_length hlt
  constructor
  · intro h
    obtain ⟨hbase, middle, last, hmiddle, hlast, rfl⟩ := installBase?_eq_some_iff.mp h
    rw [installBase?_append_slash _ hlast] at h
    obtain ⟨i, hi, hdir⟩ := startupDir?_eq_some_iff_take.mp h
    have htake : (base ++ middle ++ '/' :: last).take (base ++ middle).length = base ++ middle := List.take_left
    exact ⟨i, ⟨_, isLastSlash_append hlast, htake.symm ▸ hi⟩, (hsame hi).symm ▸ hdir⟩
  · rintro ⟨i, ⟨k, hk, hi⟩, rfl⟩
    obtain ⟨front, last, hlast, rfl, rfl⟩ := isLastSlash_iff.mp hk
    rw [List.take_left] at hi
    rw [installBase?_append_slash _ hlast, hsame hi]
    exact startupDir?_eq_some_iff_take.mpr ⟨i, hi, rfl⟩

/-! ### The cuts and what joining does -/

/-- The base of a path is the one beginning that ends in a slash and has one slash behind it, the directory of a path
the one that ends in a slash and has none behind it; where there is no such beginning, there is no base and no directory.
The base is a beginning of the directory, and the two are what the path is up to its second-last and up to its last
slash. A piece, a slash and a piece joined to a base have this base again. -/
theorem installBase?_isUniqueCut (path : Text) :
    (∀ base, installBase? path = some base ↔ base.getLast? = some '/'
        ∧ ∃ middle last, '/' ∉ middle ∧ '/' ∉ last ∧ path = base ++ middle ++ '/' :: last)
      ∧ (∀ dir, startupDir? path = some dir ↔ dir.getLast? = some '/' ∧ ∃ last, '/' ∉ last ∧ path = dir ++ last)
      ∧ (∀ base, installBase? path = some base → ∃ dir, startupDir? path = some dir ∧ base <+: dir)
      ∧ (∀ dir, startupDir? path = some dir → dir <+: path)
      ∧ (∀ base, installBase? path = some base ↔ ∃ i, IsSecondLastSlash path i ∧ base = path.take (i + 1))
      ∧ (∀ dir, startupDir? path = some dir ↔ ∃ i, IsLastSlash path i ∧ dir = path.take (i + 1))
      ∧ ∀ base middle last : Text, base.getLast? = some '/' → '/' ∉ middle → '/' ∉ last →
          installBase? (joinSuffix base (middle ++ '/' :: last)) = some base
          ∧ startupDir? (joinSuffix base (middle ++ '/' :: last)) = some (base ++ middle ++ ['/']) := by
  refine ⟨fun _ => installBase?_eq_some_iff, fun _ => startupDir?_eq_some_iff, ?_, ?_,
    fun _ => installBase?_eq_some_iff_take, fun _ => startupDir?_eq_some_iff_take, ?_⟩
  · intro base h
    obtain ⟨hbase, middle, last, hmiddle, hlast, rfl⟩ := installBase?_eq_some_iff.mp h
    refine ⟨base ++ middle ++ ['/'], startupDir?_eq_some_iff.mpr ⟨by simp, last, hlast, by simp⟩, ?_⟩
    rw [List.append_assoc]
    exact List.prefix_append base _
  · intro dir h
    obtain ⟨-, last, -, rfl⟩ := startupDir?_eq_some_iff.mp h
    exact List.prefix_append dir last
  · intro base middle last hbase hmiddle hlast
    have hjoin : joinSuffix base (middle ++ '/' :: last) = base ++ middle ++ '/' :: last :=
      (List.append_assoc base middle _).symm
    rw [hjoin]
    exact ⟨installBase?_eq_some_iff.mpr ⟨hbase, middle, last, hmiddle, hlast, rfl⟩,
      startupDir?_eq_some_iff.mpr ⟨by simp, last, hlast, by simp⟩⟩

theorem installBase?_isUniqueCut_emptyPieces :
    installBase? "opt//é".toList = some "opt/".toList
      ∧ ∃ dir, startupDir? "opt//é".toList = some dir ∧ dir <+: "opt//é".toList
      ∧ installBase? (joinSuffix "opt/".toList "/é".toList) = some "opt/".toList := by
  obtain ⟨hbase, -, hdir, hpath, -, -, hjoin⟩ := installBase?_isUniqueCut "opt//é".toList
  have hcut : installBase? "opt//é".toList = some "opt/".toList :=
    (hbase _).mpr ⟨rfl, [], "é".toList, by decide, by decide, rfl⟩
  obtain ⟨dir, hd, -⟩ := hdir _ hcut
  exact ⟨hcut, dir, hd, hpath dir hd, (hjoin "opt/".toList [] "é".toList rfl (by decide) (by decide)).1⟩

end Relocation
