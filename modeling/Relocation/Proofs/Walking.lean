import Relocation.Files.Resolve
import Relocation.Proofs.Pieces

/-!
# Walks to what is there

A walk that ends at something that is there has never needed the steps that lead nowhere, because a walk that goes on
behind a name goes on in a directory. So a path can be told from its names alone where it names a regular file, and a
directory is found without the slash at the end of its path:

* `walk_of_thins`: such steps can be left out anywhere on the way, also behind the target of a link;
* `find_behindSlashes`: a path finds the same file as its names, each behind a slash;
* `isDirectory_of_snoc_slash`: a directory, without the slash at the end;
* `walk_intoAll`: names that lead through directories lead to the location they spell.
-/

namespace Relocation

/-! ### Steps of names -/

namespace NativePath

theorem slash_not_mem_of_mem_names {p : NativePath} {name : Bytes} (h : name ∈ p.names) : slashByte ∉ name :=
  sep_not_mem_splitOn slashByte p.bytes name (List.mem_filter.mp h).1

theorem steps_behindSlashes (names : List Bytes) (h : ∀ name ∈ names, slashByte ∉ name) :
    (⟨behindSlashes names⟩ : NativePath).steps = .slash :: names.map stepOf := by
  rw [steps, splitOn_behindSlashes names h]
  rfl

theorem steps_snoc_slash (front : Bytes) :
    NativePath.steps ⟨front ++ [slashByte]⟩ = NativePath.steps ⟨front⟩ ++ [.slash] := by
  rw [steps, steps, splitOn_snoc_sep, List.map_append]
  rfl

end NativePath

/-! ### Steps that lead nowhere -/

/-- The second list is the first one without some steps that lead nowhere. -/
inductive Thins : List WalkStep → List WalkStep → Prop
  | nil : Thins [] []
  | keep (step : WalkStep) {steps thin : List WalkStep} : Thins steps thin → Thins (step :: steps) (step :: thin)
  | stay {steps thin : List WalkStep} : Thins steps thin → Thins (.stay :: steps) thin
  | slash {steps thin : List WalkStep} : Thins steps thin → Thins (.slash :: steps) thin

theorem thins_refl (steps : List WalkStep) : Thins steps steps := by
  induction steps with
  | nil => exact .nil
  | cons step rest ih => exact .keep step ih

theorem Thins.append_left {steps thin : List WalkStep} (h : Thins steps thin) (front : List WalkStep) :
    Thins (front ++ steps) (front ++ thin) := by
  induction front with
  | nil => exact h
  | cons step rest ih => exact .keep step ih

theorem Thins.append_right {steps thin : List WalkStep} (h : Thins steps thin) (back : List WalkStep) :
    Thins (steps ++ back) (thin ++ back) := by
  induction h with
  | nil => exact thins_refl back
  | keep step _ ih => exact .keep step ih
  | stay _ ih => exact .stay ih
  | slash _ ih => exact .slash ih

theorem Thins.nil_eq {thin : List WalkStep} (h : Thins [] thin) : thin = [] := by
  cases h
  rfl

theorem thins_pieces (pieces : List Bytes) :
    Thins (pieces.map NativePath.stepOf)
      ((pieces.filter fun name => !NativePath.isIdle name).map NativePath.stepOf) := by
  induction pieces with
  | nil => exact .nil
  | cons piece more ih =>
    by_cases h1 : piece = []
    · subst h1
      exact .slash ih
    · by_cases h2 : piece = [dotByte]
      · subst h2
        exact .stay ih
      · have hi : (!NativePath.isIdle piece) = true := by simp [NativePath.isIdle, h1, h2]
        rw [List.filter_cons_of_pos (by exact hi), List.map_cons, List.map_cons]
        exact .keep _ ih

/-- The steps of a path, without those that its names do not ask for. -/
theorem thins_names (p : NativePath) (h : p.isAbsolute = true) :
    Thins p.steps (.slash :: p.names.map NativePath.stepOf) := by
  obtain ⟨bytes⟩ := p
  cases bytes with
  | nil => cases h
  | cons b rest =>
    have hb : b = slashByte := by simpa [NativePath.isAbsolute] using h
    subst hb
    rw [NativePath.steps, NativePath.names, splitOn_cons_sep]
    exact .keep .slash (thins_pieces _)

/-- A slash at the end of the path may stay. -/
theorem thins_names_slash (p : NativePath) (h : p.isAbsolute = true) (hs : p.endsWithSlash = true) :
    Thins p.steps (.slash :: p.names.map NativePath.stepOf ++ [.slash]) := by
  obtain ⟨front, rfl⟩ := bytes_of_endsWithSlash hs
  cases front with
  | nil => exact thins_refl _
  | cons b rest =>
    have hthin := thins_names ⟨b :: rest⟩ h
    rw [NativePath.steps_snoc_slash, names_snoc_slash]
    exact hthin.append_right [.slash]

namespace FileSystem

/-- From a directory that may not be searched, no step but a slash goes on. -/
theorem walk_of_denial {fs : FileSystem} {dir : Location} {e : FileError} (h : fs.denial? (.search dir) = some e)
    (purpose : Purpose) (links : Nat) {step : WalkStep} (hs : step ≠ .slash) (rest : List WalkStep) :
    fs.walk purpose links dir (step :: rest) = .error e := by
  cases step with
  | slash => exact absurd rfl hs
  | stay | up | into => simp only [walk, h]

theorem searched_of_walk {fs : FileSystem} {purpose : Purpose} {links : Nat} {dir here : Location} {step : WalkStep}
    {rest : List WalkStep} (h : fs.walk purpose links dir (step :: rest) = .ok here) (hs : step ≠ .slash) :
    fs.denial? (.search dir) = none := by
  cases hd : fs.denial? (.search dir) with
  | none => rfl
  | some e =>
    rw [walk_of_denial hd _ _ hs] at h
    cases h

theorem short_of_walk {fs : FileSystem} {purpose : Purpose} {links : Nat} {dir here : Location} {name : Bytes}
    {rest : List WalkStep} (h : fs.walk purpose links dir (.into name :: rest) = .ok here) : ¬maxName < name.length := by
  intro hl
  have hd := searched_of_walk h (by simp)
  rw [walk, hd] at h
  simp only [if_pos hl] at h
  split at h <;> cases h

section Searched

variable {fs : FileSystem} {dir : Location} (hd : fs.denial? (.search dir) = none)
include hd

theorem walk_stay (purpose : Purpose) (links : Nat) (rest : List WalkStep) :
    fs.walk purpose links dir (.stay :: rest) = fs.walk purpose links dir rest := by
  rw [walk, hd]

theorem walk_up (purpose : Purpose) (links : Nat) (rest : List WalkStep) :
    fs.walk purpose links dir (.up :: rest) = fs.walk purpose links dir.dropLast rest := by
  rw [walk, hd]

/-- A step to a name depends on what stands there; only a walk to a place for a file looks at the rest first. -/
theorem walk_into {purpose : Purpose} (hp : purpose ≠ .file) (links : Nat) (name : Bytes) (rest : List WalkStep)
    (hl : ¬maxName < name.length) :
    fs.walk purpose links dir (.into name :: rest) = match fs.entryAt? (dir ++ [name]) with
      | none => if rest = [] then .ok (dir ++ [name]) else .error .noEntry
      | some .directory => fs.walk purpose links (dir ++ [name]) rest
      | some (.file _) => if rest = [] then .ok (dir ++ [name]) else .error .notDirectory
      | some (.link target) =>
        if rest = [] ∧ purpose = .self then .ok (dir ++ [name])
        else
          match links with
          | 0 => .error .linkLoop
          | left + 1 => fs.walk purpose left (if target.isAbsolute then [] else dir) (target.steps ++ rest) := by
  have hf : ¬(purpose = .file ∧ rest ≠ [] ∧ rest.all (· == .slash)) := fun h => hp h.1
  rw [walk, hd]
  exact (if_neg hf).trans (if_neg hl)

end Searched

/-- A walk to something that is there gets there without the steps that lead nowhere. -/
theorem walk_of_thins (fs : FileSystem) (links : Nat) (dir : Location) (steps thin : List WalkStep) (here : Location)
    (e : Entry) (ht : Thins steps thin) (hw : fs.walk .target links dir steps = .ok here)
    (he : fs.entryAt? here = some e) : fs.walk .target links dir thin = .ok here := by
  have htarget : Purpose.target ≠ .file := by decide
  -- along the walk: a step that leads nowhere may be gone, every other one is still there
  induction links, dir, steps using walk.induct fs .target generalizing thin with
  | case1 links dir =>
    rw [ht.nil_eq]
    exact hw
  | case2 links dir rest ih =>
    rw [walk] at hw
    cases ht with
    | keep _ ht =>
      rw [walk]
      exact ih _ ht hw
    | slash ht => exact ih _ ht hw
  | case3 links dir rest e hd | case5 links dir rest e hd | case7 links dir name rest e hd =>
    rw [walk_of_denial hd _ _ (by simp)] at hw
    cases hw
  | case4 links dir rest hd ih =>
    rw [walk_stay hd] at hw
    cases ht with
    | keep _ ht =>
      rw [walk_stay hd]
      exact ih _ ht hw
    | stay ht => exact ih _ ht hw
  | case6 links dir rest hd ih =>
    rw [walk_up hd] at hw
    cases ht with
    | keep _ ht =>
      rw [walk_up hd]
      exact ih _ ht hw
  | case8 links dir name rest hd h => cases h.1
  | case9 links dir name rest hd h hl => exact absurd hl (short_of_walk hw)
  | case10 links dir name hd hl place hnone _ =>
    rw [walk_into hd htarget links name [] hl, hnone] at hw
    cases hw
    rw [hnone] at he
    cases he
  | case11 links dir name rest hd _ hl place hnone hr =>
    rw [walk_into hd htarget links name rest hl, hnone] at hw
    simp only [if_neg hr] at hw
    cases hw
  | case12 links dir name rest hd _ hl place hdir ih =>
    rw [walk_into hd htarget links name rest hl, hdir] at hw
    cases ht with
    | keep _ ht =>
      rw [walk_into hd htarget links name _ hl, hdir]
      exact ih _ ht hw
  | case13 links dir name hd hl place number hfile _ =>
    -- the file ends the walk, so nothing stands behind it
    cases ht with
    | keep _ ht =>
      rw [ht.nil_eq]
      exact hw
  | case14 links dir name rest hd _ hl place number hfile hr =>
    rw [walk_into hd htarget links name rest hl, hfile] at hw
    simp only [if_neg hr] at hw
    cases hw
  | case15 links dir name rest hd _ hl place target hlink hs => cases hs.2
  | case16 dir name rest hd _ hl place target hlink hs =>
    rw [walk_into hd htarget 0 name rest hl, hlink] at hw
    simp only [if_neg hs] at hw
    cases hw
  | case17 dir name rest hd _ hl place target hlink hs left ih =>
    -- the target keeps its steps, and what stands behind it is thinned
    rw [walk_into hd htarget (left + 1) name rest hl, hlink] at hw
    simp only [if_neg hs] at hw
    cases ht with
    | keep _ ht =>
      rw [walk_into hd htarget (left + 1) name _ hl, hlink]
      simp only [reduceCtorEq, and_false, if_false]
      exact ih _ (ht.append_left target.steps) hw

/-! ### Paths to what is there -/

theorem find_eq_ok {fs : FileSystem} {purpose : Purpose} {p : NativePath} {here : Location} {e : Entry}
    (h : fs.find purpose p = .ok (here, e)) :
    refusal? p = none ∧ fs.walk purpose maxLinks [] p.steps = .ok here ∧ fs.entryAt? here = some e := by
  rw [find, resolve] at h
  cases hr : refusal? p with
  | some cause =>
    rw [hr] at h
    cases h
  | none =>
    rw [hr] at h
    cases hw : fs.walk purpose maxLinks [] p.steps with
    | error cause =>
      rw [hw] at h
      cases h
    | ok place =>
      rw [hw] at h
      cases he : fs.entryAt? place with
      | none =>
        simp only [he] at h
        cases h
      | some found =>
        simp only [he] at h
        cases h
        exact ⟨rfl, rfl, he⟩

theorem isDirectory_iff {fs : FileSystem} {p : NativePath} :
    fs.isDirectory p = true ↔ ∃ here, fs.find .target p = .ok (here, .directory) := by
  rw [isDirectory]
  cases fs.find .target p with
  | error e => simp
  | ok found =>
    obtain ⟨here, e⟩ := found
    cases e <;> simp

/-- Fewer bytes of a path that can be walked can be walked, too. -/
theorem refusal?_of_sublist {p q : NativePath} (hp : refusal? p = none) (hq : q.bytes.Sublist p.bytes)
    (hne : q.bytes ≠ []) : refusal? q = none := by
  have hlen := hq.length_le
  rw [refusal?] at hp ⊢
  split at hp
  · cases hp
  · next hz =>
    split at hp
    · cases hp
    · split at hp
      · cases hp
      · next hl => rw [if_neg fun h => hz (hq.mem h), if_neg hne, if_neg (by omega)]

/-- A path with fewer steps that lead nowhere finds the same. -/
theorem find_of_thins {fs : FileSystem} {p q : NativePath} {here : Location} {e : Entry}
    (h : fs.find .target p = .ok (here, e)) (ht : Thins p.steps q.steps) (hq : q.bytes.Sublist p.bytes)
    (hne : q.bytes ≠ []) : fs.find .target q = .ok (here, e) := by
  obtain ⟨hr, hw, he⟩ := find_eq_ok h
  have hresolve : fs.resolve .target q = .ok here := by
    rw [resolve, refusal?_of_sublist hr hq hne]
    exact walk_of_thins fs maxLinks [] p.steps q.steps here e ht hw he
  rw [find, hresolve]
  simp only [he]

/-- A directory is found without the slash at the end of its path. -/
theorem isDirectory_of_snoc_slash {fs : FileSystem} {front : Bytes} (hne : front ≠ [])
    (h : fs.isDirectory ⟨front ++ [slashByte]⟩ = true) : fs.isDirectory ⟨front⟩ = true := by
  obtain ⟨here, hf⟩ := isDirectory_iff.mp h
  refine isDirectory_iff.mpr ⟨here, find_of_thins hf ?_ (List.sublist_append_left front _) hne⟩
  have hthin := (Thins.slash .nil).append_left (NativePath.steps ⟨front⟩)
  rwa [← NativePath.steps_snoc_slash, List.append_nil] at hthin

/-- A path without names leads to the root, which is a directory. -/
theorem names_ne_nil {fs : FileSystem} {p : NativePath} {here : Location} {n : Nat} (habs : p.isAbsolute = true)
    (h : fs.find .target p = .ok (here, .file n)) : p.names ≠ [] := by
  intro hnil
  obtain ⟨-, hw, he⟩ := find_eq_ok h
  have hthin := walk_of_thins fs maxLinks [] p.steps _ here _ (thins_names p habs) hw he
  rw [hnil, List.map_nil, walk, walk] at hthin
  cases hthin
  rw [entryAt?, if_pos rfl] at he
  cases he

/-- An absolute path to a regular file finds it by its names alone. -/
theorem find_behindSlashes {fs : FileSystem} {p : NativePath} {here : Location} {n : Nat} (habs : p.isAbsolute = true)
    (h : fs.find .target p = .ok (here, .file n)) : fs.find .target ⟨behindSlashes p.names⟩ = .ok (here, .file n) := by
  have hslash : ∀ name ∈ p.names, slashByte ∉ name := fun _ hm => NativePath.slash_not_mem_of_mem_names hm
  have hne : behindSlashes p.names ≠ [] := by
    obtain ⟨name, rest, hn⟩ := List.exists_cons_of_ne_nil (names_ne_nil habs h)
    rw [hn, behindSlashes]
    simp
  refine find_of_thins h ?_ (behindSlashes_names_sublist p habs) hne
  rw [NativePath.steps_behindSlashes _ hslash]
  exact thins_names p habs

/-- A slash at the end of the path may stay. -/
theorem find_behindSlashes_slash {fs : FileSystem} {p : NativePath} {here : Location} {n : Nat}
    (habs : p.isAbsolute = true) (hs : p.endsWithSlash = true) (h : fs.find .target p = .ok (here, .file n)) :
    fs.find .target ⟨behindSlashes p.names ++ [slashByte]⟩ = .ok (here, .file n) := by
  have hslash : ∀ name ∈ p.names, slashByte ∉ name := fun _ hm => NativePath.slash_not_mem_of_mem_names hm
  refine find_of_thins h ?_ (behindSlashes_names_slash_sublist habs hs) (by simp)
  rw [NativePath.steps_snoc_slash, NativePath.steps_behindSlashes _ hslash]
  exact thins_names_slash p habs hs

/-! ### Locations spelled by their names -/

/-- A name a directory entry can have. -/
structure IsName (name : Bytes) : Prop where
  nonempty : name ≠ []
  dot : name ≠ [dotByte]
  dots : name ≠ [dotByte, dotByte]
  slash : slashByte ∉ name
  zero : (0 : UInt8) ∉ name
  short : name.length ≤ maxName

instance (name : Bytes) : Decidable (IsName name) :=
  decidable_of_iff (name ≠ [] ∧ name ≠ [dotByte] ∧ name ≠ [dotByte, dotByte] ∧ slashByte ∉ name
      ∧ (0 : UInt8) ∉ name ∧ name.length ≤ maxName)
    ⟨fun ⟨h1, h2, h3, h4, h5, h6⟩ => ⟨h1, h2, h3, h4, h5, h6⟩, fun ⟨h1, h2, h3, h4, h5, h6⟩ => ⟨h1, h2, h3, h4, h5, h6⟩⟩

theorem IsName.stepOf {name : Bytes} (h : IsName name) : NativePath.stepOf name = .into name := by
  rw [NativePath.stepOf, if_neg h.nonempty, if_neg h.dot, if_neg h.dots]

/-- A regular file with nothing but directories above it. -/
structure IsFileAt (fs : FileSystem) (dir names : Location) (n : Nat) : Prop where
  named : ∀ name ∈ names, IsName name
  above : ∀ k < names.length, 0 < k → fs.entryAt? (dir ++ names.take k) = some .directory
  found : fs.entryAt? (dir ++ names) = some (.file n)

/-- Names below a directory can be followed: it may be searched, and so may every directory on the way. -/
def CanReach (fs : FileSystem) (dir names : Location) : Prop :=
  ∀ k < names.length, fs.denial? (.search (dir ++ names.take k)) = none

theorem CanReach.here {fs : FileSystem} {dir rest : Location} {name : Bytes} (h : fs.CanReach dir (name :: rest)) :
    fs.denial? (.search dir) = none := by
  have hfirst := h 0 (by rw [List.length_cons]; omega)
  rwa [List.take_zero, List.append_nil] at hfirst

theorem CanReach.below {fs : FileSystem} {dir rest : Location} {name : Bytes} (h : fs.CanReach dir (name :: rest)) :
    fs.CanReach (dir ++ [name]) rest := by
  intro k hk
  have hnext := h (k + 1) (by rw [List.length_cons]; omega)
  rwa [List.append_assoc, List.singleton_append]

/-- The names of a regular file lead to it. -/
theorem walk_intoAll {fs : FileSystem} {purpose : Purpose} (hp : purpose ≠ .file) (links : Nat) {dir names : Location}
    {n : Nat} (hne : names ≠ []) (h : IsFileAt fs dir names n) (hreach : fs.CanReach dir names) :
    fs.walk purpose links dir (names.map .into) = .ok (dir ++ names) := by
  induction names generalizing dir with
  | nil => exact absurd rfl hne
  | cons name rest ih =>
    have hshort : ¬maxName < name.length := by
      have := (h.named name List.mem_cons_self).short
      omega
    rw [List.map_cons, walk_into hreach.here hp links name _ hshort]
    by_cases hr : rest = []
    · subst hr
      rw [h.found]
      rfl
    · -- what stands above the file is a directory, and the rest is walked below it
      have hrest := List.length_pos_iff.mpr hr
      have hdir : fs.entryAt? (dir ++ [name]) = some .directory :=
        h.above 1 (by rw [List.length_cons]; omega) (by decide)
      have hstep : dir ++ name :: rest = (dir ++ [name]) ++ rest := by
        rw [List.append_assoc, List.singleton_append]
      have hbelow : IsFileAt fs (dir ++ [name]) rest n := by
        refine ⟨fun q hq => h.named q (List.mem_cons_of_mem _ hq), fun k hk _ => ?_, ?_⟩
        · have habove := h.above (k + 1) (by rw [List.length_cons]; omega) (by omega)
          rw [List.append_assoc, List.singleton_append]
          exact habove
        · rw [← hstep]
          exact h.found
      rw [hdir, hstep]
      exact ih hr hbelow hreach.below

/-- The path that spells the location of a regular file finds it, whatever it is looked up for. -/
theorem find_isFileAt {fs : FileSystem} {purpose : Purpose} (hp : purpose ≠ .file) {entry : Location} {n : Nat}
    (h : IsFileAt fs [] entry n) (hreach : fs.CanReach [] entry) (hlen : (behindSlashes entry).length < maxPath) :
    fs.find purpose ⟨behindSlashes entry⟩ = .ok (entry, .file n) := by
  have hne : entry ≠ [] := by
    rintro rfl
    have hroot := h.found
    rw [List.nil_append, entryAt?, if_pos rfl] at hroot
    cases hroot
  have hzero : (0 : UInt8) ∉ behindSlashes entry := by
    intro hm
    obtain ⟨name, hname, hz⟩ := List.mem_flatMap.mp hm
    rcases List.mem_cons.mp hz with hz | hz
    · exact absurd hz (by decide)
    · exact (h.named name hname).zero hz
  have hbytes : behindSlashes entry ≠ [] := by
    obtain ⟨name, rest, rfl⟩ := List.exists_cons_of_ne_nil hne
    rw [behindSlashes]
    simp
  have hrefusal : refusal? ⟨behindSlashes entry⟩ = none := by
    rw [refusal?, if_neg hzero, if_neg hbytes, if_neg (by show ¬maxPath ≤ (behindSlashes entry).length; omega)]
  have hsteps : (⟨behindSlashes entry⟩ : NativePath).steps = .slash :: entry.map .into := by
    rw [NativePath.steps_behindSlashes entry fun name hn => (h.named name hn).slash]
    exact congrArg _ (List.map_congr_left fun name hn => (h.named name hn).stepOf)
  have hwalk := walk_intoAll hp maxLinks hne h hreach
  rw [List.nil_append] at hwalk
  have hresolve : fs.resolve purpose ⟨behindSlashes entry⟩ = .ok entry := by
    rw [resolve, hrefusal, hsteps]
    show fs.walk purpose maxLinks [] (.slash :: entry.map .into) = _
    rw [walk, hwalk]
  have hfound := h.found
  rw [List.nil_append] at hfound
  rw [find, hresolve]
  simp only [hfound]

end FileSystem

end Relocation
