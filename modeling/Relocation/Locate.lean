import Relocation.Text.Basic

/-!
# Where a program's files are, read off its path

A program installed as `<base>/bin/name` keeps its files below `<base>/`. On the text of its path that is a matter
of slashes alone: the base ends at the second-last slash, the directory of the program itself at the last one.
-/

namespace Relocation

/-- The path up to and including its last slash: the directory the program was started from. -/
def startupDir? (path : Text) : Option Text :=
  match cutAtLast? '/' path with
  | some (before, _) => some (before ++ ['/'])
  | none => none

/-- The path up to and including its second-last slash: the base of the installation. -/
def installBase? (path : Text) : Option Text :=
  match cutAtLast? '/' path with
  | some (before, _) => startupDir? before
  | none => none

/-- A path below the base. Nothing is put between the two. -/
def joinSuffix (base suffix : Text) : Text :=
  base ++ suffix

/-! ### What cutting at the last slash does -/

/-- There is no cut exactly when there is no separator. -/
theorem cutAtLast?_eq_none {α : Type} [DecidableEq α] (sep : α) (l : List α) :
    cutAtLast? sep l = none ↔ sep ∉ l := by
  induction l with
  | nil => simp [cutAtLast?]
  | cons x xs ih =>
    unfold cutAtLast?
    cases hc : cutAtLast? sep xs with
    | some pair =>
      have hm : sep ∈ xs := by
        rcases Classical.em (sep ∈ xs) with h | h
        · exact h
        · rw [ih.mpr h] at hc; cases hc
      simp [hm]
    | none =>
      have hn := ih.mp hc
      by_cases hx : x = sep
      · simp [hx]
      · simp [hx, hn, Ne.symm hx]

/-- Cutting at the last separator loses nothing, and what follows holds no separator. -/
theorem cutAtLast?_eq_some {α : Type} [DecidableEq α] (sep : α) (l before after : List α)
    (h : cutAtLast? sep l = some (before, after)) : l = before ++ sep :: after ∧ sep ∉ after := by
  induction l generalizing before with
  | nil => simp [cutAtLast?] at h
  | cons x xs ih =>
    unfold cutAtLast? at h
    cases hc : cutAtLast? sep xs with
    | some pair =>
      obtain ⟨b, a⟩ := pair
      simp [hc] at h
      obtain ⟨rfl, rfl⟩ := h
      obtain ⟨h1, h2⟩ := ih b hc
      exact ⟨by simp [← h1], h2⟩
    | none =>
      simp only [hc] at h
      split at h
      · next hx =>
        simp at h
        obtain ⟨rfl, rfl⟩ := h
        exact ⟨by simp [hx], (cutAtLast?_eq_none sep xs).mp hc⟩
      · cases h

theorem startupDir?_getLast? (path dir : Text) (h : startupDir? path = some dir) :
    dir.getLast? = some '/' := by
  unfold startupDir? at h
  split at h
  · cases h; simp
  · cases h

theorem installBase?_getLast? (path base : Text) (h : installBase? path = some base) :
    base.getLast? = some '/' := by
  unfold installBase? at h
  split at h
  · exact startupDir?_getLast? _ _ h
  · cases h

end Relocation
