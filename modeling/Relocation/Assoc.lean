/-!
# Tables of keys and values

A table is a list of pairs in which the first pair with a key gives its value.
-/

namespace Relocation

def valueOf? {κ ν : Type} [DecidableEq κ] (key : κ) : List (κ × ν) → Option ν
  | [] => none
  | (k, v) :: rest => if k = key then some v else valueOf? key rest

def withValue {κ ν : Type} [DecidableEq κ] (key : κ) (value : ν) : List (κ × ν) → List (κ × ν)
  | [] => [(key, value)]
  | (k, v) :: rest => if k = key then (k, value) :: rest else (k, v) :: withValue key value rest

def withoutKey {κ ν : Type} [DecidableEq κ] (key : κ) (table : List (κ × ν)) : List (κ × ν) :=
  table.filter fun pair => pair.1 ≠ key

theorem mem_of_valueOf? {κ ν : Type} [DecidableEq κ] {key : κ} {value : ν} {table : List (κ × ν)}
    (h : valueOf? key table = some value) : (key, value) ∈ table := by
  induction table with
  | nil => cases h
  | cons pair rest ih =>
    obtain ⟨k, v⟩ := pair
    rw [valueOf?] at h
    split at h
    · next hk =>
      cases h
      exact hk ▸ List.mem_cons_self
    · exact List.mem_cons_of_mem _ (ih h)

theorem valueOf?_withValue_same {κ ν : Type} [DecidableEq κ] (key : κ) (value : ν) (table : List (κ × ν)) :
    valueOf? key (withValue key value table) = some value := by
  induction table with
  | nil => simp [withValue, valueOf?]
  | cons pair rest ih =>
    obtain ⟨k, v⟩ := pair
    by_cases h : k = key
    · simp [withValue, valueOf?, h]
    · simp [withValue, valueOf?, h, ih]

theorem valueOf?_withValue_other {κ ν : Type} [DecidableEq κ] (key other : κ) (value : ν)
    (table : List (κ × ν)) (h : other ≠ key) :
    valueOf? other (withValue key value table) = valueOf? other table := by
  induction table with
  | nil => simp [withValue, valueOf?, Ne.symm h]
  | cons pair rest ih =>
    obtain ⟨k, v⟩ := pair
    by_cases hk : k = key
    · subst hk
      simp [withValue, valueOf?, Ne.symm h]
    · by_cases ho : k = other
      · subst ho
        simp [withValue, valueOf?, hk]
      · simp [withValue, valueOf?, hk, ho, ih]

/-- A value that is set twice is as if it was set once. -/
theorem withValue_withValue {κ ν : Type} [DecidableEq κ] (key : κ) (former value : ν) (table : List (κ × ν)) :
    withValue key value (withValue key former table) = withValue key value table := by
  induction table with
  | nil => simp [withValue]
  | cons pair rest ih =>
    obtain ⟨k, v⟩ := pair
    by_cases h : k = key
    · simp [withValue, h]
    · simp [withValue, h, ih]

/-- Setting a value adds its key if it is new, and no other. -/
theorem map_fst_withValue {κ ν : Type} [DecidableEq κ] (key : κ) (value : ν) (table : List (κ × ν)) :
    (withValue key value table).map Prod.fst
      = if key ∈ table.map Prod.fst then table.map Prod.fst else table.map Prod.fst ++ [key] := by
  induction table with
  | nil => rfl
  | cons pair rest ih =>
    obtain ⟨k, v⟩ := pair
    by_cases h : k = key
    · simp [withValue, h]
    · by_cases hr : key ∈ rest.map Prod.fst
      · rw [if_pos hr] at ih
        simp [withValue, h, ih, hr]
      · rw [if_neg hr] at ih
        simp [withValue, h, ih, hr, Ne.symm h]

theorem valueOf?_withoutKey {κ ν : Type} [DecidableEq κ] (key : κ) (table : List (κ × ν)) :
    valueOf? key (withoutKey key table) = none := by
  induction table with
  | nil => rfl
  | cons pair rest ih =>
    obtain ⟨k, v⟩ := pair
    by_cases h : k = key
    · simpa [withoutKey, h] using ih
    · simpa [withoutKey, valueOf?, h] using ih

end Relocation
