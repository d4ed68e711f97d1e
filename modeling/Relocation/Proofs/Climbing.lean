import Relocation.Proofs.SameTree
import Relocation.Proofs.WhenPlacesExist

/-!
# Climbing from base to base

The base of an origin is an origin, and so is the base of that. Each base is the directory above the one before, down to
one slash less in its path, and after the root there is none. What has to be seen is that no reading of a path on the
way changes it. The first step is the only one that can: it rereads segments as they came, and they may hold dots behind
a drive letter, which go with one more slash (`holdsDotsAbove`). What a step leaves is settled, and the next step takes
exactly one segment off it (`IsSettled.step`).

* `length_reread`, `firstLoss_eq`: the first step;
* `IsSettled.step`, `climb_of_isSettled`: one more step, and all of them;
* `climb_parse`: how often every origin that was read can climb, and where it arrives.
-/

namespace Relocation

open Url

/-- The origin at the base of the base, and so on, so many times. -/
def climb (o : Origin) : Nat → Option Origin
  | 0 => some o
  | k + 1 => (climb o k).bind fun p => (subpath? p []).map Origin.mk

/-- Whether the path of the origin is a drive letter, dots held behind it, and at least two segments more. -/
def holdsDotsAbove (o : Origin) : Bool :=
  match o.url.path with
  | .segments _ (_ :: held :: _ :: _ :: _) => isDots held
  | _ => false

/-- How many slashes the first step up takes. -/
def firstLoss (o : Origin) : Nat :=
  if holdsDotsAbove o = true then 2 else 1

/-! ### Steps in a row -/

theorem climb_one (o : Origin) : climb o 1 = (subpath? o []).map Origin.mk := rfl

theorem climb_succ_of_subpath? {o : Origin} {u : Url} (h : subpath? o [] = some u) (k : Nat) :
    climb o (k + 1) = climb ⟨u⟩ k := by
  induction k with
  | zero =>
    rw [climb_one, h]
    rfl
  | succ k ih => rw [climb, ih, climb]

/-- Where there is no base there is none above it. -/
theorem climb_eq_none_of_le {o : Origin} {j k : Nat} (hjk : j ≤ k) (h : climb o j = none) : climb o k = none := by
  induction hjk with
  | refl => exact h
  | step _ ih => rw [climb, ih, Option.bind_none]

/-! ### Slashes of segments -/

theorem count_segmentsText {list : List Text} (h : ∀ s ∈ list, '/' ∉ s) :
    (segmentsText list).count '/' = list.length := by
  induction list with
  | nil => rfl
  | cons s rest ih =>
    have hs : s.count '/' = 0 := List.count_eq_zero.mpr (h s List.mem_cons_self)
    rw [segmentsText_cons, List.cons_append, List.count_cons_self, List.count_append, hs,
      ih fun r hr => h r (List.mem_cons_of_mem _ hr), List.length_cons, Nat.zero_add]

theorem count_pathText {o : Origin} {guarded : Bool} {list : List Text} (hp : o.url.path = .segments guarded list)
    (hr : WellRead o.url.kind list) : o.pathText.count '/' = list.length := by
  rw [Origin.pathText, pathText_of_segments hp, count_segmentsText hr.slash_not_mem]

/-! ### The first step -/

/-- How many segments go when segments that were read are reread: held dots, if there are. -/
def heldDots : List Text → Nat
  | _ :: held :: _ => if isDots held = true then 1 else 0
  | _ => 0

theorem length_reread {kind : SchemeKind} {list : List Text} (h : WellRead kind list) :
    (reread kind list).length + heldDots list = list.length := by
  match list with
  | [] => rfl
  | [first] =>
    rw [reread]
    split <;> rfl
  | first :: held :: more =>
    rw [reread, heldDots]
    by_cases hd : isDots held = true
    · obtain ⟨hk, -⟩ := h.first_of_isDots hd
      rw [if_pos hk, withoutDots, if_pos hd, if_pos hd]
      rfl
    · rw [if_neg hd]
      split
      · rw [withoutDots, if_neg hd]
        rfl
      · rfl

/-- The first step takes one slash, and one for dots held in the base. -/
theorem firstLoss_eq {o : Origin} {guarded : Bool} {list : List Text} (hp : o.url.path = .segments guarded list) :
    firstLoss o = 1 + heldDots list.dropLast.dropLast := by
  rw [firstLoss, holdsDotsAbove, hp]
  match list with
  | [] => rfl
  | [_] => rfl
  | [_, _] => rfl
  | [_, _, _] => rfl
  | _ :: held :: _ :: _ :: _ =>
    show (if isDots held = true then 2 else 1) = 1 + if isDots held = true then 1 else 0
    split <;> rfl

theorem firstLoss_of_short {o : Origin} {guarded : Bool} {list : List Text} (hp : o.url.path = .segments guarded list)
    (hl : list.length < 2) : firstLoss o = 1 := by
  have hnil : list.dropLast.dropLast = [] := by
    rw [List.eq_nil_iff_length_eq_zero, List.length_dropLast, List.length_dropLast]
    omega
  rw [firstLoss_eq hp, hnil]
  rfl

/-! ### Every other step -/

/-- A directory whose segments reading leaves as they are. -/
structure IsSettled (u : Url) (guarded : Bool) (front : List Text) : Prop where
  path : u.path = .segments guarded (front ++ [[]])
  read : IsReadPath u.kind (front ++ [[]])
  stable : IsStable u.kind front

section Settled

variable {o : Origin} {guarded : Bool} {front : List Text} (h : IsSettled o.url guarded front)
include h

/-- A settled directory is its own directory. -/
theorem IsSettled.startup?_eq : startup? o = some o.url := by
  rw [startup?_eq_some h.path h.read (by simp), startupSegments, List.dropLast_concat, reread_eq_self h.stable,
    withSegments_eq_self h.path]

theorem IsSettled.count : o.pathText.count '/' = front.length + 1 := by
  rw [count_pathText h.path h.read.toWellRead, List.length_append, List.length_singleton]

/-- The base of a settled directory is the settled directory above it. -/
theorem IsSettled.step (hne : front ≠ []) : ∃ u, subpath? o [] = some u ∧ IsSettled u guarded front.dropLast := by
  have hl : 2 ≤ (front ++ [[]]).length := by
    have := List.length_pos_iff.mpr hne
    rw [List.length_append, List.length_singleton]
    omega
  have hbase := subpath?_base h.path h.read hl
  have hread := hasReadPath_subpath? (hasReadPath_of_segments h.path h.read) hbase guarded _ rfl
  rw [List.dropLast_concat, reread_eq_self h.stable.dropLast] at hbase hread
  exact ⟨_, hbase, rfl, hread, h.stable.dropLast⟩

theorem IsSettled.subpath?_eq_none (hroot : front = []) : subpath? o [] = none := by
  rw [subpath?_of_segments [] h.path h.read.toWellRead, hroot, if_pos (by decide)]

/-- As long as there are segments, each step takes one off. -/
theorem climb_of_isSettled {k : Nat} (hk : k ≤ front.length) :
    ∃ p rest, climb o k = some p ∧ IsSettled p.url guarded rest ∧ rest.length + k = front.length := by
  induction k with
  | zero => exact ⟨o, front, rfl, h, rfl⟩
  | succ k ih =>
    obtain ⟨p, rest, hp, hrest, hlen⟩ := ih (by omega)
    have hne : rest ≠ [] := List.length_pos_iff.mp (by omega)
    obtain ⟨u, hu, hup⟩ := hrest.step hne
    refine ⟨⟨u⟩, rest.dropLast, ?_, hup, ?_⟩
    · rw [climb, hp, Option.bind_some, hu]
      rfl
    · rw [List.length_dropLast]
      omega

theorem climb_eq_none_of_isSettled {k : Nat} (hk : front.length < k) : climb o k = none := by
  obtain ⟨p, rest, hp, hrest, hlen⟩ := climb_of_isSettled h (Nat.le_refl front.length)
  have hroot : rest = [] := List.eq_nil_of_length_eq_zero (by omega)
  have hnone : climb o (front.length + 1) = none := by
    rw [climb, hp, Option.bind_some, hrest.subpath?_eq_none hroot]
    rfl
  exact climb_eq_none_of_le hk hnone

end Settled

/-! ### All steps -/

section All

variable {o : Origin} {guarded : Bool} {list : List Text} (hp : o.url.path = .segments guarded list)
  (hr : IsReadPath o.url.kind list)
include hp hr

/-- The first step leaves a settled directory. -/
theorem exists_settled_base (hl : 2 ≤ list.length) :
    ∃ u front, subpath? o [] = some u ∧ IsSettled u guarded front ∧ front.length + firstLoss o + 1 = list.length := by
  have hbase := subpath?_base hp hr hl
  have hread := hasReadPath_subpath? (hasReadPath_of_segments hp hr) hbase guarded _ rfl
  have hwell := hr.toWellRead.dropLast.dropLast
  refine ⟨_, _, hbase, ⟨rfl, hread, isStable_reread hwell⟩, ?_⟩
  have hlen := length_reread hwell
  rw [List.length_dropLast, List.length_dropLast] at hlen
  rw [firstLoss_eq hp]
  omega

theorem climb_one_eq_none (hl : list.length < 2) : climb o 1 = none := by
  rw [climb_one, subpath?_of_segments [] hp hr.toWellRead, if_pos hl]
  rfl

/-- Wherever climbing arrives is a settled directory. -/
theorem exists_settled_of_climb {k : Nat} {p : Origin} (h : climb o (k + 1) = some p) :
    ∃ front, IsSettled p.url guarded front ∧ front.length + k + firstLoss o + 1 = list.length := by
  by_cases hl : list.length < 2
  · rw [climb_eq_none_of_le (Nat.le_add_left 1 k) (climb_one_eq_none hp hr hl)] at h
    cases h
  · obtain ⟨u, front, hu, hsettled, hlen⟩ := exists_settled_base hp hr (by omega)
    rw [climb_succ_of_subpath? hu] at h
    by_cases hk : k ≤ front.length
    · obtain ⟨q, rest, hq, hrest, hsum⟩ := climb_of_isSettled (o := ⟨u⟩) hsettled hk
      rw [h, Option.some.injEq] at hq
      exact ⟨rest, hq ▸ hrest, by omega⟩
    · rw [climb_eq_none_of_isSettled (o := ⟨u⟩) hsettled (by omega)] at h
      cases h

/-- The first step takes no more slashes than there are. -/
theorem firstLoss_lt (hl : 2 ≤ list.length) : firstLoss o < list.length := by
  obtain ⟨-, front, -, -, hlen⟩ := exists_settled_base hp hr hl
  omega

/-- Climbing goes on as long as there are slashes, and the first step may take two. -/
theorem isSome_climb (hne : list ≠ []) (k : Nat) : (climb o k).isSome = true ↔ k + firstLoss o ≤ list.length := by
  have hpos := List.length_pos_iff.mpr hne
  cases k with
  | zero =>
    refine iff_of_true rfl ?_
    by_cases hl : list.length < 2
    · rw [firstLoss_of_short hp hl]
      omega
    · have := firstLoss_lt hp hr (by omega)
      omega
  | succ k =>
    constructor
    · intro hsome
      obtain ⟨p, hclimb⟩ := Option.isSome_iff_exists.mp hsome
      obtain ⟨front, -, hlen⟩ := exists_settled_of_climb hp hr hclimb
      omega
    · intro hk
      by_cases hl : list.length < 2
      · rw [firstLoss_of_short hp hl] at hk
        omega
      · obtain ⟨u, front, hu, hsettled, hlen⟩ := exists_settled_base hp hr (by omega)
        obtain ⟨p, -, hclimb, -⟩ := climb_of_isSettled (o := ⟨u⟩) hsettled (k := k) (by omega)
        rw [climb_succ_of_subpath? hu, hclimb]
        rfl

/-- The first step takes what it takes, and each other step one slash. -/
theorem count_climb {k : Nat} {p q : Origin} (hpk : climb o k = some p) (hq : climb o (k + 1) = some q) :
    q.pathText.count '/' + (if k = 0 then firstLoss o else 1) = p.pathText.count '/' := by
  obtain ⟨front, hfront, hlen⟩ := exists_settled_of_climb hp hr hq
  rw [hfront.count]
  cases k with
  | zero =>
    obtain rfl : o = p := Option.some.inj hpk
    rw [count_pathText hp hr.toWellRead, if_pos rfl]
    omega
  | succ k =>
    obtain ⟨before, hbefore, hsum⟩ := exists_settled_of_climb hp hr hpk
    rw [hbefore.count, if_neg (by omega)]
    omega

/-- Where the next step fails, all segments but the empty one are gone. -/
theorem pathText_of_climb_end (hl : 2 ≤ list.length) {k : Nat} {p : Origin} (hpk : climb o k = some p)
    (hnone : climb o (k + 1) = none) : p.pathText = ['/'] := by
  have hend : ¬k + 1 + firstLoss o ≤ list.length := by
    rw [← isSome_climb hp hr (List.length_pos_iff.mp (by omega)), hnone]
    simp
  cases k with
  | zero =>
    have := firstLoss_lt hp hr hl
    omega
  | succ k =>
    obtain ⟨front, hfront, hlen⟩ := exists_settled_of_climb hp hr hpk
    have hroot : front = [] := List.eq_nil_of_length_eq_zero (by omega)
    rw [Origin.pathText, pathText_of_segments hfront.path, hroot]
    rfl

/-- Wherever climbing arrives, there is a directory, and after a step it is the origin's own. -/
theorem startup?_of_climb (hne : list ≠ []) {k : Nat} {p : Origin} (hpk : climb o k = some p) :
    ∃ d, startup? p = some d ∧ (0 < k → d = p.url) := by
  cases k with
  | zero =>
    obtain rfl : o = p := Option.some.inj hpk
    exact ⟨_, startup?_eq_some hp hr (List.length_pos_iff.mpr hne), fun hk => absurd hk (Nat.lt_irrefl 0)⟩
  | succ k =>
    obtain ⟨front, hfront, -⟩ := exists_settled_of_climb hp hr hpk
    exact ⟨_, hfront.startup?_eq, fun _ => rfl⟩

end All

/-- From an origin that was read, with a slash in its path, climbing succeeds as often as there are slashes behind the
first one, then never again. Each step takes one slash off the path, and if there were two, climbing arrives at the
root. Only where dots are held behind a drive letter above the base does the first step take one slash more, and there
is one step less. There is a directory of the origin all the way, and every origin climbed to is its own. -/
theorem climb_parse (t : Text) (o : Origin) (h : Origin.parse t = .ok o) (hv : o.url.isVerbatim = false)
    (hslash : 1 ≤ o.pathText.count '/') :
    (∀ k, (climb o k).isSome = true ↔ k + firstLoss o ≤ o.pathText.count '/')
      ∧ (∀ k p q, climb o k = some p → climb o (k + 1) = some q →
        q.pathText.count '/' + (if k = 0 then firstLoss o else 1) = p.pathText.count '/')
      ∧ (∀ k p, 2 ≤ o.pathText.count '/' → climb o k = some p → climb o (k + 1) = none → p.pathText = ['/'])
      ∧ ∀ k p, climb o k = some p → ∃ d, startup? p = some d ∧ (0 < k → d = p.url) := by
  have hread : HasReadPath o.url := hasReadPath_parse t o.url (parse_of_origin_parse h)
  cases hp : o.url.path with
  | verbatim text =>
    rw [isVerbatim, hp] at hv
    cases hv
  | segments guarded list =>
    have hr := hread guarded list hp
    rw [count_pathText hp hr.toWellRead] at hslash ⊢
    have hne : list ≠ [] := List.length_pos_iff.mp hslash
    exact ⟨isSome_climb hp hr hne, fun k p q => count_climb hp hr, fun k p hl => pathText_of_climb_end hp hr hl,
      fun k p => startup?_of_climb hp hr hne⟩

/-- Empty segments are climbed like all others. -/
theorem climb_parse_emptySegments :
    ∃ o p, Origin.parse "http://h//a//b?q".toList = .ok o ∧ climb o 3 = some p ∧ climb o 4 = none
      ∧ p.pathText = ['/'] ∧ startup? p = some p.url := by
  have hread : Origin.parse "http://h//a//b?q".toList
      = .ok ⟨⟨"http".toList, some ⟨[], none, some (.domain "h".toList), none⟩,
        .segments false [[], "a".toList, [], "b".toList], some "q".toList, none⟩⟩ := by rfl
  obtain ⟨hsome, -, hlast, hstart⟩ := climb_parse _ _ hread (by decide) (by decide)
  obtain ⟨p, hp⟩ := Option.isSome_iff_exists.mp ((hsome 3).mpr (by decide))
  have hnone : climb _ 4 = none := Option.not_isSome_iff_eq_none.mp fun h => absurd ((hsome 4).mp h) (by decide)
  obtain ⟨d, hd, hsame⟩ := hstart 3 p hp
  exact ⟨_, p, hread, hp, hnone, hlast 3 p (by decide) hp hnone, hsame (by decide) ▸ hd⟩

/-- A tab behind the colon of a drive letter keeps the dots that follow, and the first step drops them with the rest:
there are four slashes, and no third base. -/
theorem climb_eq_none_heldDots :
    ∃ o, Origin.parse "file:/C:\t../x/y".toList = .ok o ∧ o.url.isVerbatim = false ∧ o.pathText.count '/' = 4
      ∧ climb o 3 = none := by
  have hread : Origin.parse "file:/C:\t../x/y".toList
      = .ok ⟨⟨"file".toList, some Authority.empty,
        .segments false ["C:".toList, "..".toList, "x".toList, "y".toList], none, none⟩⟩ := by rfl
  exact ⟨_, hread, rfl, by decide, by decide⟩

end Relocation
