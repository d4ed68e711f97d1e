import Mathlib.Data.List.Basic
import Relocation.Files.Change
import Relocation.Proofs.FollowingLinks

/-!
# Paths without links

The steps of a path alone tell where it leads, as long as no link is on the way. Then a walk can only end there, and
whatever is made under the name of the path is made there. The places of the paths above a path are all on its way.

* `walk_eq_reached`: where a walk without links ends;
* `makeDirectory_of_isLinkless`: which directory is made;
* `Passes.of_mem_ancestors` / `Passes.of_join`: what a path above another passes, the other passes, too;
* `join_join`: what is seen from the end of a path is seen from its beginning.
-/

namespace Relocation

open FileSystem

/-! ### Where steps lead -/

/-- Where a step leads if no link is in the way. -/
def WalkStep.next (dir : Location) : WalkStep → Location
  | .into name => dir ++ [name]
  | .stay => dir
  | .slash => dir
  | .up => dir.dropLast

/-- Where steps lead if no link is in the way. -/
def reached (dir : Location) (steps : List WalkStep) : Location :=
  steps.foldl WalkStep.next dir

theorem reached_cons (dir : Location) (step : WalkStep) (rest : List WalkStep) :
    reached dir (step :: rest) = reached (step.next dir) rest := rfl

theorem reached_append (dir : Location) (front back : List WalkStep) :
    reached dir (front ++ back) = reached (reached dir front) back :=
  List.foldl_append

theorem reached_idle (dir : Location) {idle : List WalkStep} (h : ∀ step ∈ idle, IsIdleStep step) :
    reached dir idle = dir := by
  induction idle with
  | nil => rfl
  | cons step rest ih =>
    have hstep : step.next dir = dir := by
      rcases h step List.mem_cons_self with rfl | rfl <;> rfl
    rw [reached_cons, hstep, ih fun s hs => h s (List.mem_cons_of_mem _ hs)]

namespace NativePath

/-- Where a path leads if no link is in the way. -/
def place (p : NativePath) : Location :=
  reached [] p.steps

/-- Whether a location is on the way of a path, its end included. -/
def Passes (p : NativePath) (here : Location) : Prop :=
  ∃ front, front <+: p.steps ∧ reached [] front = here

theorem passes_place (p : NativePath) : p.Passes p.place :=
  ⟨p.steps, List.prefix_rfl, rfl⟩

/-- Slashes behind a name lead nowhere. -/
theorem reached_stepsOfName (p : NativePath) : reached [] p.stepsOfName = p.place := by
  obtain ⟨tail, htail, hall⟩ := trimEndWhere_append_tail (· == WalkStep.slash) p.steps
  have hidle : ∀ step ∈ tail, IsIdleStep step := fun step hs => Or.inr (by simpa using hall step hs)
  conv_rhs => rw [place, htail, reached_append, reached_idle _ hidle]
  rfl

theorem stepsOfName_isPrefix (p : NativePath) : p.stepsOfName <+: p.steps := by
  obtain ⟨tail, htail, -⟩ := trimEndWhere_append_tail (· == WalkStep.slash) p.steps
  exact ⟨tail, htail.symm⟩

end NativePath

/-! ### Walks -/

namespace FileSystem

/-- No link is on the way of the steps. -/
def NoLinks (fs : FileSystem) (dir : Location) (steps : List WalkStep) : Prop :=
  ∀ front target, front <+: steps → fs.entryAt? (reached dir front) ≠ some (.link target)

theorem NoLinks.tail {fs : FileSystem} {dir : Location} {step : WalkStep} {rest : List WalkStep}
    (h : fs.NoLinks dir (step :: rest)) : fs.NoLinks (step.next dir) rest := fun front target hf =>
  h (step :: front) target ((List.prefix_cons_inj step).mpr hf)

/-- Without links a walk ends where the steps lead. -/
theorem walk_eq_reached {fs : FileSystem} {purpose : Purpose} {links : Nat} {dir : Location} {steps : List WalkStep}
    {here : Location} (hl : fs.NoLinks dir steps) (h : fs.walk purpose links dir steps = .ok here) :
    here = reached dir steps := by
  induction steps generalizing dir with
  | nil =>
    rw [walk] at h
    cases h
    rfl
  | cons step rest ih =>
    cases step with
    | slash =>
      rw [walk] at h
      exact ih hl.tail h
    | stay =>
      rw [walk_stay (searched_of_walk h (by simp))] at h
      exact ih hl.tail h
    | up =>
      rw [walk_up (searched_of_walk h (by simp))] at h
      exact ih hl.tail h
    | into name =>
      have hnot (target : NativePath) : fs.entryAt? (dir ++ [name]) ≠ some (.link target) :=
        hl [.into name] target (List.prefix_append [_] rest)
      -- where the walk ends at the name, nothing is left to walk
      have hend (hr : rest = []) (he : dir ++ [name] = here) : here = reached dir (.into name :: rest) := by
        rw [hr, ← he]
        rfl
      have hd := searched_of_walk h (by simp)
      rw [walk, hd] at h
      simp only at h
      split at h
      · cases h
      · split at h
        · cases h
        · split at h
          · split at h
            · next hr => exact hend hr (Except.ok.inj h)
            · cases h
          · exact ih hl.tail h
          · split at h
            · next hr => exact hend hr (Except.ok.inj h)
            · cases h
          · next target hlink => exact absurd hlink (hnot target)

/-- No link is on the way of the path. -/
def IsLinkless (fs : FileSystem) (p : NativePath) : Prop :=
  ∀ here target, p.Passes here → fs.entryAt? here ≠ some (.link target)

variable {fs : FileSystem} {p : NativePath}

theorem IsLinkless.noLinks (h : fs.IsLinkless p) {steps : List WalkStep} (hs : steps <+: p.steps) :
    fs.NoLinks [] steps := fun front target hf =>
  h (reached [] front) target ⟨front, hf.trans hs, rfl⟩

theorem resolve_of_isLinkless (h : fs.IsLinkless p) {purpose : Purpose} {here : Location}
    (hr : fs.resolve purpose p = .ok here) : here = p.place := by
  rw [resolve] at hr
  split at hr
  · cases hr
  · exact walk_eq_reached (h.noLinks List.prefix_rfl) hr

/-- The only directory that is made under the name of a path is the one it leads to. -/
theorem makeDirectory_of_isLinkless (h : fs.IsLinkless p) {made : FileSystem} (hm : fs.makeDirectory p = .ok made) :
    fs.entryAt? p.place = none ∧ made = fs.withEntry p.place .directory := by
  obtain ⟨here, hr, hnone, rfl⟩ := makeDirectory_eq_ok fs made p hm
  have hplace : here = p.place := by
    rw [resolveName] at hr
    split at hr
    · cases hr
    · rw [← p.reached_stepsOfName]
      exact walk_eq_reached (h.noLinks p.stepsOfName_isPrefix) hr
  subst hplace
  exact ⟨hnone, rfl⟩

end FileSystem

/-! ### Paths above a path -/

namespace NativePath

/-- A path whose steps are the first ones of another passes only what the other passes. -/
theorem Passes.of_steps {p up : NativePath} {front idle : List WalkStep} {here : Location}
    (hs : up.steps = front ++ idle) (hf : front <+: p.steps) (hi : ∀ step ∈ idle, IsIdleStep step)
    (h : up.Passes here) : p.Passes here := by
  obtain ⟨start, hstart, rfl⟩ := h
  rw [hs] at hstart
  rcases List.prefix_or_prefix_of_prefix hstart (List.prefix_append front idle) with hshort | ⟨more, rfl⟩
  · exact ⟨start, hshort.trans hf, rfl⟩
  · have hmore : more <+: idle := (List.prefix_append_right_inj front).mp hstart
    exact ⟨front, hf, by rw [reached_append, reached_idle _ fun step hm => hi step (hmore.subset hm)]⟩

/-- The pieces of a path, joined again, are walked as before. -/
theorem exists_steps_joinWith {pieces : List Bytes} {bytes : Bytes} (h : pieces <+: splitOn slashByte bytes) :
    ∃ idle, (⟨joinWith slashByte pieces⟩ : NativePath).steps = pieces.map stepOf ++ idle
      ∧ ∀ step ∈ idle, IsIdleStep step := by
  by_cases hne : pieces = []
  · subst hne
    exact ⟨[.slash], rfl, fun step hs => Or.inr (List.mem_singleton.mp hs)⟩
  · have hslash : ∀ name ∈ pieces, slashByte ∉ name := fun name hn => sep_not_mem_splitOn _ _ _ (h.subset hn)
    have hsplit := splitOn_behindSlashes pieces hslash
    rw [behindSlashes_eq_joinWith hne, splitOn_cons_sep, List.cons.injEq] at hsplit
    exact ⟨[], by rw [steps, hsplit.2, List.append_nil], by simp⟩

theorem trimIdle_isPrefix (parts : List Bytes) : trimIdle parts <+: parts := by
  obtain ⟨tail, htail, -⟩ := trimEndWhere_append_tail isIdle parts
  exact ⟨tail, htail.symm⟩

theorem trimIdleRelative_isPrefix (parts : List Bytes) : trimIdleRelative parts <+: parts := by
  cases parts with
  | nil => exact List.prefix_rfl
  | cons first rest =>
    rw [trimIdleRelative]
    split
    · split
      · exact List.nil_prefix
      · exact List.prefix_append [first] rest
    · exact (List.prefix_cons_inj first).mpr (trimIdle_isPrefix rest)

/-- A parent is what the first pieces of a path, joined again, spell. -/
theorem exists_pieces_of_parent? {p up : NativePath} (h : p.parent? = some up) :
    ∃ pieces idle, pieces <+: splitOn slashByte p.bytes ∧ up.steps = pieces.map stepOf ++ idle
      ∧ ∀ step ∈ idle, IsIdleStep step := by
  obtain ⟨bytes⟩ := p
  cases bytes with
  | nil => cases h
  | cons b body =>
    simp only [parent?] at h
    split at h
    · next hb =>
      subst hb
      split at h
      · cases h
      · cases h
        have hfront := List.dropLast_prefix (trimIdle (splitOn slashByte body))
        have hpieces := (trimIdle_isPrefix _).trans (hfront.trans (trimIdle_isPrefix (splitOn slashByte body)))
        generalize trimIdle (trimIdle (splitOn slashByte body)).dropLast = pieces at hpieces
        obtain ⟨idle, hsteps, hidle⟩ := exists_steps_joinWith hpieces
        refine ⟨[] :: pieces, idle, ?_, ?_, hidle⟩
        · rw [splitOn_cons_sep]
          exact (List.prefix_cons_inj _).mpr hpieces
        · rw [List.map_cons, List.cons_append, ← hsteps, steps, splitOn_cons_sep]
          rfl
    · split at h
      · cases h
      · cases h
        have hfront := List.dropLast_prefix (trimIdleRelative (splitOn slashByte (b :: body)))
        have hpieces := (trimIdleRelative_isPrefix _).trans (hfront.trans (trimIdleRelative_isPrefix _))
        obtain ⟨idle, hsteps, hidle⟩ := exists_steps_joinWith hpieces
        exact ⟨_, idle, hpieces, hsteps, hidle⟩

/-- The parent of a path is on its way. -/
theorem Passes.of_parent? {p up : NativePath} {here : Location} (hp : p.parent? = some up) (h : up.Passes here) :
    p.Passes here := by
  obtain ⟨pieces, idle, hpieces, hsteps, hidle⟩ := exists_pieces_of_parent? hp
  exact h.of_steps hsteps (hpieces.map stepOf) hidle

/-- Everything above a path is on its way. -/
theorem Passes.of_mem_ancestors {p up : NativePath} {here : Location} (hm : up ∈ p.ancestors) (h : up.Passes here) :
    p.Passes here := by
  rw [ancestors] at hm
  generalize p.bytes.length = fuel at hm
  induction fuel generalizing p with
  | zero => cases hm
  | succ fuel ih =>
    rw [ancestorsWithin] at hm
    split at hm
    · cases hm
    · next above habove =>
      rcases List.mem_cons.mp hm with rfl | hm
      · exact h
      · exact (ih hm).of_parent? habove

/-! ### Paths below a path -/

/-- The text of a path in front of a relative one that is seen from it. -/
def frontBytes (p : NativePath) : Bytes :=
  if p.bytes = [] ∨ p.endsWithSlash then p.bytes else p.bytes ++ [slashByte]

theorem join_of_relative (base : NativePath) {tail : NativePath} (ht : tail.isAbsolute = false) :
    base.join tail = ⟨base.frontBytes ++ tail.bytes⟩ := by
  rw [join, ht, if_neg (by simp), frontBytes]
  split
  · rfl
  · rw [List.append_assoc, List.singleton_append]

/-- The text in front of a relative path is empty or ends in a slash. -/
theorem frontBytes_cases (p : NativePath) : p.frontBytes = [] ∨ ∃ front, p.frontBytes = front ++ [slashByte] := by
  rw [frontBytes]
  split
  · next h =>
    rcases h with hempty | hends
    · exact .inl hempty
    · obtain ⟨front, rfl⟩ := bytes_of_endsWithSlash hends
      exact .inr ⟨front, rfl⟩
  · exact .inr ⟨p.bytes, rfl⟩

theorem frontBytes_append (front : Bytes) {p : NativePath} (hp : p.bytes ≠ []) :
    (⟨front ++ p.bytes⟩ : NativePath).frontBytes = front ++ p.frontBytes := by
  have hends : (⟨front ++ p.bytes⟩ : NativePath).endsWithSlash = p.endsWithSlash := by
    rw [endsWithSlash, endsWithSlash, List.getLast?_append, List.getLast?_eq_some_getLast hp, Option.some_or]
  rw [frontBytes, frontBytes, hends]
  simp only [List.append_eq_nil_iff, hp, and_false, false_or]
  split
  · rfl
  · rw [List.append_assoc]

theorem frontBytes_join (base : NativePath) {mid : NativePath} (hm : mid.isAbsolute = false) :
    (base.join mid).frontBytes = base.frontBytes ++ mid.frontBytes := by
  rw [join_of_relative base hm]
  by_cases hempty : mid.bytes = []
  · have hmid : mid.frontBytes = [] := by rw [frontBytes, if_pos (Or.inl hempty), hempty]
    rw [hempty, hmid, List.append_nil]
    rcases base.frontBytes_cases with hnil | ⟨front, hfront⟩
    · rw [hnil]
      rfl
    · rw [hfront, frontBytes, if_pos (Or.inr (by simp [endsWithSlash]))]
  · exact frontBytes_append _ hempty

/-- The names of a path seen from another stand behind the names of that. -/
theorem names_join (base : NativePath) {tail : NativePath} (ht : tail.isAbsolute = false) :
    (base.join tail).names = base.names ++ tail.names := by
  rw [join_of_relative base ht, frontBytes]
  split
  · next h =>
    rcases h with hempty | hends
    · obtain ⟨bytes⟩ := base
      obtain rfl : bytes = [] := hempty
      rfl
    · obtain ⟨front, rfl⟩ := bytes_of_endsWithSlash hends
      rw [List.append_assoc, List.singleton_append, names_append_slash, names_snoc_slash]
  · rw [List.append_assoc, List.singleton_append, names_append_slash]

/-- What is seen from the end of a path is seen from its beginning. -/
theorem join_join (base mid : NativePath) {tail : NativePath} (ht : tail.isAbsolute = false) :
    base.join (mid.join tail) = (base.join mid).join tail := by
  by_cases hm : mid.isAbsolute = true
  · rw [join_of_isAbsolute base mid hm, join_of_isAbsolute base _ (isAbsolute_join mid tail hm)]
  · rw [Bool.not_eq_true] at hm
    have habs : (mid.join tail).isAbsolute = false := by
      rw [join_of_relative mid ht]
      by_cases hempty : mid.bytes = []
      · rw [frontBytes, if_pos (Or.inl hempty), hempty]
        exact ht
      · obtain ⟨b, rest, hb⟩ := List.exists_cons_of_ne_nil hempty
        rw [isAbsolute, hb] at hm
        rw [frontBytes, hb]
        split
        · exact hm
        · exact hm
    rw [join_of_relative base habs, join_of_relative mid ht, join_of_relative _ ht, frontBytes_join base hm,
      List.append_assoc]

/-- A relative path is walked behind the path it is seen from, but for a slash at the end of that. -/
theorem exists_steps_join (base : NativePath) {tail : NativePath} (ht : tail.isAbsolute = false) :
    ∃ front idle, base.steps = front ++ idle ∧ (∀ step ∈ idle, IsIdleStep step)
      ∧ (base.join tail).steps = front ++ tail.steps := by
  have hslash : ∀ step ∈ [WalkStep.slash], IsIdleStep step := fun step hs => Or.inr (List.mem_singleton.mp hs)
  rw [join_of_relative base ht, frontBytes]
  split
  · next hb =>
    rcases hb with hempty | hends
    · refine ⟨[], [.slash], ?_, hslash, ?_⟩
      · rw [steps, hempty]
        rfl
      · rw [hempty]
        rfl
    · obtain ⟨front, rfl⟩ := bytes_of_endsWithSlash hends
      refine ⟨steps ⟨front⟩, [.slash], steps_snoc_slash front, hslash, ?_⟩
      rw [List.append_assoc, List.singleton_append, steps, splitOn_append, List.map_append]
      rfl
  · refine ⟨base.steps, [], by rw [List.append_nil], by simp, ?_⟩
    rw [List.append_assoc, List.singleton_append, steps, splitOn_append, List.map_append]
    rfl

theorem place_join (base : NativePath) {tail : NativePath} (ht : tail.isAbsolute = false) :
    (base.join tail).place = reached base.place tail.steps := by
  obtain ⟨front, idle, hbase, hidle, hjoin⟩ := exists_steps_join base ht
  rw [place, place, hjoin, hbase, reached_append, reached_append, reached_idle _ hidle]

/-- What a path is seen from is on its way. -/
theorem Passes.of_join {base tail : NativePath} {here : Location} (ht : tail.isAbsolute = false)
    (h : base.Passes here) : (base.join tail).Passes here := by
  obtain ⟨front, idle, hbase, hidle, hjoin⟩ := exists_steps_join base ht
  exact h.of_steps hbase (hjoin ▸ List.prefix_append front _) hidle

end NativePath

end Relocation
