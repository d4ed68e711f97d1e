import Mathlib.Logic.Relation
import Relocation.Proofs.LinklessPaths

/-!
# What a file system may become

Whatever is done to a file system without removing anything is a sequence of single changes: a directory is made, a file
is made, or a file grows at its end. A permit says where each may happen. What is found at a place afterwards then
follows from the permit for that place, whatever else is changed; only a file with several hard links could grow
somewhere else.

* `Keeps.walk`: a walk does not notice what is made elsewhere;
* `Change`: one change a permit allows;
* `Change.mayBecome` / `Changes.mayBecome`: what one change, and any number of them, make of a place;
* `changes_makeDirectories`, `changes_appendFile`, `changes_writeFile`: the operations as changes.
-/

namespace Relocation

/-- What is found at a place. -/
inductive Found where
  | nothing
  | directory
  | link (target : NativePath)
  | file (number : Nat) (content : Bytes)
  deriving DecidableEq

/-- What may be changed, and where. -/
structure Permit where
  /-- A directory may be made. -/
  directory : Location → Prop
  /-- A file may be made, and may grow at its end. -/
  grow : Location → Prop
  /-- A file with this content may be made. -/
  create : Location → Bytes → Prop

/-- What a permit allows something found at a place to become. -/
inductive MayBecome (may : Permit) (here : Location) : Found → Found → Prop
  | same (found : Found) : MayBecome may here found found
  | directory : may.directory here → MayBecome may here .nothing .directory
  | file (number : Nat) (content : Bytes) :
      may.grow here ∨ may.create here content → MayBecome may here .nothing (.file number content)
  | grown (number : Nat) (content more : Bytes) :
      may.grow here → MayBecome may here (.file number content) (.file number (content ++ more))

theorem MayBecome.trans {may : Permit} {here : Location} {a b c : Found} (h : MayBecome may here a b)
    (k : MayBecome may here b c) : MayBecome may here a c := by
  cases h with
  | same => exact k
  | directory hd =>
    cases k with
    | same => exact .directory hd
  | file number content hf =>
    cases k with
    | same => exact .file number content hf
    | grown _ _ more hg => exact .file number (content ++ more) (.inl hg)
  | grown number content more hg =>
    cases k with
    | same => exact .grown number content more hg
    | grown _ _ again _ =>
      rw [List.append_assoc]
      exact .grown number content (more ++ again) hg

namespace FileSystem

/-! ### Entries -/

theorem entryAt?_withEntry (fs : FileSystem) {place : Location} (e : Entry) (h : place ≠ []) (other : Location) :
    (fs.withEntry place e).entryAt? other = if other = place then some e else fs.entryAt? other := by
  split
  · next ho => rw [ho, entryAt?_withEntry_same fs place e h]
  · next ho => exact entryAt?_withEntry_other fs place other e ho

theorem ne_nil_of_entryAt? {fs : FileSystem} {here : Location} (h : fs.entryAt? here = none) : here ≠ [] := by
  rintro rfl
  rw [entryAt?, if_pos rfl] at h
  cases h

theorem mem_of_entryAt? {fs : FileSystem} {here : Location} {e : Entry} (h : fs.entryAt? here = some e)
    (he : e ≠ .directory) : (here, e) ∈ fs.entries := by
  rw [entryAt?] at h
  split at h
  · exact absurd (Option.some.inj h).symm he
  · exact mem_of_valueOf? h

/-- A file at the location has no hard link elsewhere. -/
def IsSole (fs : FileSystem) (here : Location) : Prop :=
  ∀ other number, fs.entryAt? here = some (.file number) → fs.entryAt? other = some (.file number) → other = here

/-- The file system with one more file, which has a number of its own. -/
def withNewFile (fs : FileSystem) (place : Location) (content : Bytes) : FileSystem :=
  (fs.withEntry place (.file fs.freshNumber)).withContent fs.freshNumber content

theorem entryAt?_withNewFile (fs : FileSystem) {place : Location} (content : Bytes) (h : place ≠ [])
    (other : Location) : (fs.withNewFile place content).entryAt? other
      = if other = place then some (.file fs.freshNumber) else fs.entryAt? other :=
  entryAt?_withEntry fs (.file fs.freshNumber) h other

theorem ne_freshNumber {fs : FileSystem} {here : Location} {number : Nat}
    (h : fs.entryAt? here = some (.file number)) : number ≠ fs.freshNumber :=
  fs.entry_ne_fresh here number (mem_of_entryAt? h (by simp))

/-- A number that is not in use stands for a file without content. -/
theorem content_freshNumber (fs : FileSystem) : fs.content fs.freshNumber = [] := by
  rw [content]
  cases h : valueOf? fs.freshNumber fs.contents with
  | none => rfl
  | some bs =>
    have hused : fs.freshNumber ∈ fs.numbers :=
      List.mem_append_left _ (List.mem_append_right _ (List.mem_map.mpr ⟨_, mem_of_valueOf? h, rfl⟩))
    exact absurd rfl (ne_freshNumber_of_mem hused)

/-! ### Entries that stay -/

/-- What stands in the first file system stands in the second, and the rights are the same. -/
structure Keeps (fs gs : FileSystem) : Prop where
  entries : ∀ here e, fs.entryAt? here = some e → gs.entryAt? here = some e
  denials : gs.denials = fs.denials

theorem Keeps.refl (fs : FileSystem) : Keeps fs fs :=
  ⟨fun _ _ => id, rfl⟩

theorem Keeps.trans {fs gs hs : FileSystem} (h : Keeps fs gs) (k : Keeps gs hs) : Keeps fs hs :=
  ⟨fun here e he => k.entries here e (h.entries here e he), k.denials.trans h.denials⟩

theorem Keeps.denial?_eq {fs gs : FileSystem} (h : Keeps fs gs) (wanted : Access) :
    gs.denial? wanted = fs.denial? wanted := by
  rw [denial?, denial?, h.denials]

theorem keeps_withEntry {fs : FileSystem} {place : Location} (e : Entry) (h : fs.entryAt? place = none) :
    Keeps fs (fs.withEntry place e) := by
  refine ⟨fun here found hf => ?_, rfl⟩
  have hne : here ≠ place := by
    rintro rfl
    rw [h] at hf
    cases hf
  rw [entryAt?_withEntry_other fs place here e hne]
  exact hf

theorem keeps_withContent (fs : FileSystem) (number : Nat) (bs : Bytes) : Keeps fs (fs.withContent number bs) :=
  ⟨fun _ _ => id, rfl⟩

section Keeps

variable {fs gs : FileSystem}

/-- A walk leads to the same place when more is made, unless a link is made there; and where a file can be made, there
it is found. -/
theorem Keeps.walk (h : Keeps fs gs) {purpose other : Purpose}
    (hp : other = purpose ∨ purpose = .file ∧ other = .target) {links : Nat} {dir : Location} {steps : List WalkStep}
    {here : Location} (hw : fs.walk purpose links dir steps = .ok here)
    (hnew : fs.entryAt? here = none → ∀ target, gs.entryAt? here ≠ some (.link target)) :
    gs.walk other links dir steps = .ok here := by
  match steps with
  | [] => simpa only [FileSystem.walk] using hw
  | .slash :: rest =>
    rw [FileSystem.walk] at hw ⊢
    exact h.walk hp hw hnew
  | .stay :: rest =>
    have hd := searched_of_walk hw (by simp)
    rw [walk_stay hd] at hw
    rw [walk_stay ((h.denial?_eq _).trans hd)]
    exact h.walk hp hw hnew
  | .up :: rest =>
    have hd := searched_of_walk hw (by simp)
    rw [walk_up hd] at hw
    rw [walk_up ((h.denial?_eq _).trans hd)]
    exact h.walk hp hw hnew
  | .into name :: rest =>
    have hd := searched_of_walk hw (by simp)
    simp only [FileSystem.walk, h.denial?_eq, hd] at hw ⊢
    split at hw
    · cases hw
    · next hfile =>
      -- the other purpose asks for nothing more of the name, and follows a link in the last place if this one does
      have hother : ¬(other = .file ∧ rest ≠ [] ∧ rest.all (· == .slash)) := by
        rcases hp with rfl | ⟨-, rfl⟩
        · exact hfile
        · simp
      have hself : (rest = [] ∧ other = .self) ↔ (rest = [] ∧ purpose = .self) := by
        rcases hp with rfl | ⟨rfl, rfl⟩
        · rfl
        · simp
      rw [if_neg hother]
      split at hw
      · cases hw
      · next hshort =>
        rw [if_neg hshort]
        have hkept := h.entries (dir ++ [name])
        generalize hentry : fs.entryAt? (dir ++ [name]) = found at hw hkept
        cases found with
        | none =>
          dsimp only at hw
          split at hw
          · next hr =>
            cases hw
            -- nothing stood where the walk ends, so that whatever was made there is no link
            have hlink := hnew hentry
            subst hr
            generalize gs.entryAt? (dir ++ [name]) = made at hlink ⊢
            rcases made with _ | _ | number | target
            · rfl
            · show gs.walk other links (dir ++ [name]) [] = _
              rw [FileSystem.walk]
            · rfl
            · exact absurd rfl (hlink target)
          · cases hw
        | some entry =>
          rw [hkept entry rfl]
          cases entry with
          | directory => exact h.walk hp hw hnew
          | file number => exact hw
          | link target =>
            simp only [hself] at hw ⊢
            split at hw
            · next hend =>
              rw [if_pos hend]
              exact hw
            · next hend =>
              rw [if_neg hend]
              cases links with
              | zero => cases hw
              | succ left => exact h.walk hp hw hnew
  termination_by (links, steps.length)

theorem Keeps.resolve (h : Keeps fs gs) {purpose other : Purpose}
    (hp : other = purpose ∨ purpose = .file ∧ other = .target) {p : NativePath} {here : Location}
    (hr : fs.resolve purpose p = .ok here)
    (hnew : fs.entryAt? here = none → ∀ target, gs.entryAt? here ≠ some (.link target)) :
    gs.resolve other p = .ok here := by
  rw [FileSystem.resolve] at hr ⊢
  split at hr
  · cases hr
  · exact h.walk hp hr hnew

/-- What a path names stays under its name. -/
theorem Keeps.find (h : Keeps fs gs) {purpose : Purpose} {p : NativePath} {here : Location} {e : Entry}
    (hf : fs.find purpose p = .ok (here, e)) : gs.find purpose p = .ok (here, e) := by
  obtain ⟨hrefusal, hwalk, hentry⟩ := find_eq_ok hf
  have hresolve : fs.resolve purpose p = .ok here := by rw [FileSystem.resolve, hrefusal, hwalk]
  have hfound := h.resolve (.inl rfl) hresolve fun hnone => by simp [hentry] at hnone
  rw [FileSystem.find, hfound]
  simp only [h.entries here _ hentry]

/-- If nothing exists under the name of a path, nothing is where a file would be made for it. -/
theorem entryAt?_of_not_pathExists {p : NativePath} {here : Location} (h : fs.pathExists p = false)
    (hr : fs.resolve .file p = .ok here) : fs.entryAt? here = none := by
  cases he : fs.entryAt? here with
  | none => rfl
  | some e =>
    have htarget := (Keeps.refl fs).resolve (.inr ⟨rfl, rfl⟩) hr fun hnone => by simp [he] at hnone
    rw [pathExists, find, htarget] at h
    simp only [he] at h
    cases h

end Keeps

/-! ### What is found -/

def foundAt (fs : FileSystem) (here : Location) : Found :=
  match fs.entryAt? here with
  | none => .nothing
  | some .directory => .directory
  | some (.link target) => .link target
  | some (.file number) => .file number (fs.content number)

theorem foundAt_of_none {fs : FileSystem} {here : Location} (h : fs.entryAt? here = none) :
    fs.foundAt here = .nothing := by
  simp only [foundAt, h]

theorem foundAt_of_directory {fs : FileSystem} {here : Location} (h : fs.entryAt? here = some .directory) :
    fs.foundAt here = .directory := by
  simp only [foundAt, h]

theorem foundAt_of_file {fs : FileSystem} {here : Location} {number : Nat}
    (h : fs.entryAt? here = some (.file number)) : fs.foundAt here = .file number (fs.content number) := by
  simp only [foundAt, h]

theorem foundAt_eq_file {fs : FileSystem} {here : Location} {number : Nat} {content : Bytes}
    (h : fs.foundAt here = .file number content) :
    fs.entryAt? here = some (.file number) ∧ fs.content number = content := by
  rw [foundAt] at h
  split at h
  · cases h
  · cases h
  · cases h
  · next found hfile =>
    cases h
    exact ⟨hfile, rfl⟩

/-- The same entry is the same thing if a file in it has the same content. -/
theorem foundAt_eq {fs gs : FileSystem} {here : Location} (he : gs.entryAt? here = fs.entryAt? here)
    (hc : ∀ number, fs.entryAt? here = some (.file number) → gs.content number = fs.content number) :
    gs.foundAt here = fs.foundAt here := by
  rw [foundAt, foundAt, he]
  split
  · rfl
  · rfl
  · rfl
  · next number hf => rw [hc number hf]

/-! ### What the operations do -/

/-- What every directory that is made leaves true is true once all of them are made, or as far as that went. -/
theorem makeAll_invariant {holds : FileSystem → Prop} {paths : List NativePath}
    (hstep : ∀ p ∈ paths, ∀ gs made, holds gs → gs.makeDirectory p = .ok made → holds made) {fs : FileSystem}
    (h : holds fs) : holds (fs.makeAll paths).1 := by
  induction paths with
  | nil => exact h
  | cons p above ih =>
    have habove := ih fun q hq => hstep q (List.mem_cons_of_mem _ hq)
    rw [makeAll]
    split
    · next made hm => exact hstep p List.mem_cons_self fs made h hm
    · -- what is missing above is made first, and then the directory itself is tried again
      split
      · next left e hleft =>
        rw [hleft] at habove
        exact habove
      · next ready hready =>
        rw [hready] at habove
        split
        · next made hm => exact hstep p List.mem_cons_self ready made habove hm
        · exact habove
    · exact h

/-- An update is of a file that is there, or makes one. -/
theorem update_eq_ok {fs gs : FileSystem} {p : NativePath} {change : Bytes → Bytes} (h : fs.update p change = .ok gs) :
    ∃ here, fs.resolve .file p = .ok here
      ∧ ((∃ number, fs.entryAt? here = some (.file number) ∧ fs.denial? (.write number) = none
          ∧ gs = fs.withContent number (change (fs.content number)))
        ∨ fs.entryAt? here = none ∧ gs = fs.withNewFile here (change [])) := by
  rw [update] at h
  split at h
  · cases h
  · next here hr =>
    refine ⟨here, hr, ?_⟩
    rw [updateAt] at h
    split at h
    · next number hf =>
      split at h
      · cases h
      · next hwrite => exact .inl ⟨number, hf, hwrite, (Except.ok.inj h).symm⟩
    · next hnone =>
      split at h
      · cases h
      · next made hmade =>
        rw [addEntry_eq_ok hmade] at h
        exact .inr ⟨hnone, (Except.ok.inj h).symm⟩
    · cases h

theorem keeps_makeDirectory {fs gs : FileSystem} {p : NativePath} (h : fs.makeDirectory p = .ok gs) : Keeps fs gs := by
  obtain ⟨here, -, hnone, rfl⟩ := makeDirectory_eq_ok fs gs p h
  exact keeps_withEntry .directory hnone

theorem keeps_makeDirectories (fs : FileSystem) (p : NativePath) : Keeps fs (fs.makeDirectories p).1 :=
  makeAll_invariant (fun _ _ _ _ h hm => h.trans (keeps_makeDirectory hm)) (.refl fs)

theorem keeps_update {fs gs : FileSystem} {p : NativePath} {change : Bytes → Bytes} (h : fs.update p change = .ok gs) :
    Keeps fs gs := by
  obtain ⟨here, -, ⟨number, -, -, rfl⟩ | ⟨hnone, rfl⟩⟩ := update_eq_ok h
  · exact keeps_withContent fs number _
  · exact (keeps_withEntry (.file fs.freshNumber) hnone).trans (keeps_withContent _ _ _)

/-- Making directories leaves what is in the files. -/
theorem content_makeDirectories (fs : FileSystem) (p : NativePath) (number : Nat) :
    (fs.makeDirectories p).1.content number = fs.content number := by
  refine @makeAll_invariant (fun gs => gs.content number = fs.content number) _ (fun q _ gs made h hm => ?_) _ rfl
  obtain ⟨here, -, -, rfl⟩ := makeDirectory_eq_ok gs made q hm
  exact h

/-- Appending to a file leaves what is in the others. -/
theorem content_appendFile {fs gs : FileSystem} {p : NativePath} {bs : Bytes} (h : fs.appendFile p bs = .ok gs)
    (number : Nat) : gs.content number = fs.content number ∨ gs.content number = fs.content number ++ bs := by
  obtain ⟨here, -, ⟨appended, -, -, rfl⟩ | ⟨-, rfl⟩⟩ := update_eq_ok h
  · by_cases hn : number = appended
    · subst hn
      exact .inr (content_withContent_same _ _ _)
    · exact .inl (content_withContent_other _ _ _ _ hn)
  · by_cases hn : number = fs.freshNumber
    · subst hn
      rw [content_freshNumber]
      exact .inr (content_withContent_same _ _ _)
    · exact .inl (content_withContent_other _ _ _ _ hn)

/-- Where a file has been written, its path leads to it, and it may be written again. -/
theorem resolve_of_update {fs gs : FileSystem} {p : NativePath} {change : Bytes → Bytes}
    (h : fs.update p change = .ok gs) :
    ∃ here number, gs.resolve .file p = .ok here ∧ gs.entryAt? here = some (.file number)
      ∧ gs.denial? (.write number) = none := by
  have hkeeps := keeps_update h
  obtain ⟨here, hr, ⟨number, hfile, hwrite, rfl⟩ | ⟨hnone, rfl⟩⟩ := update_eq_ok h
  · exact ⟨here, number, hkeeps.resolve (.inl rfl) hr fun hnone => by simp [hfile] at hnone, hfile, hwrite⟩
  · have hentry : (fs.withNewFile here (change [])).entryAt? here = some (.file fs.freshNumber) := by
      rw [entryAt?_withNewFile fs _ (ne_nil_of_entryAt? hnone), if_pos rfl]
    exact ⟨here, _, hkeeps.resolve (.inl rfl) hr fun _ target => by simp [hentry], hentry,
      fs.denial?_write_freshNumber⟩

end FileSystem

open FileSystem

/-! ### One change -/

/-- One change that a permit allows. -/
inductive Change (may : Permit) (fs : FileSystem) : FileSystem → Prop
  | directory {here : Location} : may.directory here → fs.entryAt? here = none →
      Change may fs (fs.withEntry here .directory)
  | file {here : Location} (content : Bytes) : may.grow here ∨ may.create here content → fs.entryAt? here = none →
      Change may fs (fs.withNewFile here content)
  | grown {here : Location} {number : Nat} (more : Bytes) : may.grow here →
      fs.entryAt? here = some (.file number) → Change may fs (fs.withContent number (fs.content number ++ more))

namespace Change

variable {may : Permit} {fs gs : FileSystem}

/-- What stands at a place afterwards stood there before, or is new and no link. -/
theorem entryAt?_cases (h : Change may fs gs) (here : Location) :
    gs.entryAt? here = fs.entryAt? here
      ∨ gs.entryAt? here = some .directory ∨ gs.entryAt? here = some (.file fs.freshNumber) := by
  cases h with
  | @directory made _ hnone =>
    rw [entryAt?_withEntry fs _ (ne_nil_of_entryAt? hnone)]
    split
    · exact .inr (.inl rfl)
    · exact .inl rfl
  | @file made content _ hnone =>
    have hentry := entryAt?_withNewFile fs content (ne_nil_of_entryAt? hnone) here
    split at hentry
    · exact .inr (.inr hentry)
    · exact .inl hentry
  | grown => exact .inl rfl

theorem isLinkless (h : Change may fs gs) {p : NativePath} (hl : fs.IsLinkless p) : gs.IsLinkless p := by
  intro here target hp hlink
  rcases h.entryAt?_cases here with he | he | he
  · exact hl here target hp (he ▸ hlink)
  · rw [he] at hlink
    cases hlink
  · rw [he] at hlink
    cases hlink

/-- A new file has a number of its own, so that no file gets another hard link. -/
theorem isSole (h : Change may fs gs) {here : Location} (hs : fs.IsSole here) : gs.IsSole here := by
  cases h with
  | @directory made _ hnone =>
    have hentry := entryAt?_withEntry fs .directory (ne_nil_of_entryAt? hnone)
    intro other number h1 h2
    rw [hentry] at h1 h2
    split at h1
    · cases h1
    · split at h2
      · cases h2
      · exact hs other number h1 h2
  | @file made content _ hnone =>
    have hentry := entryAt?_withNewFile fs content (ne_nil_of_entryAt? hnone)
    intro other number h1 h2
    rw [hentry] at h1 h2
    split at h1
    · next hh =>
      cases h1
      split at h2
      · next ho => rw [hh, ho]
      · exact absurd rfl (ne_freshNumber h2)
    · split at h2
      · cases h2
        exact absurd rfl (ne_freshNumber h1)
      · exact hs other number h1 h2
  | grown => exact hs

/-- What one change makes of a place. -/
theorem mayBecome (h : Change may fs gs) (hsole : ∀ here, may.grow here → fs.IsSole here) (here : Location) :
    MayBecome may here (fs.foundAt here) (gs.foundAt here) := by
  cases h with
  | @directory made hmay hnone =>
    have hentry := entryAt?_withEntry fs .directory (ne_nil_of_entryAt? hnone) here
    by_cases hh : here = made
    · subst hh
      rw [if_pos rfl] at hentry
      rw [foundAt_of_none hnone, foundAt_of_directory hentry]
      exact .directory hmay
    · rw [if_neg hh] at hentry
      rw [foundAt_eq hentry fun _ _ => rfl]
      exact .same _
  | @file made content hmay hnone =>
    have hentry := entryAt?_withNewFile fs content (ne_nil_of_entryAt? hnone) here
    by_cases hh : here = made
    · subst hh
      rw [if_pos rfl] at hentry
      rw [foundAt_of_none hnone, foundAt_of_file hentry, withNewFile, content_withContent_same]
      exact .file _ content hmay
    · rw [if_neg hh] at hentry
      have hcontent (number : Nat) (hn : fs.entryAt? here = some (.file number)) :
          (fs.withNewFile made content).content number = fs.content number :=
        content_withContent_other _ _ _ _ (ne_freshNumber hn)
      rw [foundAt_eq hentry hcontent]
      exact .same _
  | @grown made number more hmay hfile =>
    by_cases hh : here = made
    · subst hh
      have hentry : (fs.withContent number (fs.content number ++ more)).entryAt? here = some (.file number) := hfile
      rw [foundAt_of_file hfile, foundAt_of_file hentry, content_withContent_same]
      exact .grown number _ more hmay
    · -- the file is at no other place, so that what is here has another number
      have hcontent (other : Nat) (ho : fs.entryAt? here = some (.file other)) :
          (fs.withContent number (fs.content number ++ more)).content other = fs.content other := by
        refine content_withContent_other _ _ _ _ fun he => hh ?_
        subst he
        exact hsole made hmay here other hfile ho
      have hentry : (fs.withContent number (fs.content number ++ more)).entryAt? here = fs.entryAt? here := rfl
      rw [foundAt_eq hentry hcontent]
      exact .same _

end Change

/-! ### Any number of changes -/

/-- Changes that a permit allows, one after the other. -/
def Changes (may : Permit) : FileSystem → FileSystem → Prop :=
  Relation.ReflTransGen (Change may)

namespace Changes

variable {may : Permit} {fs gs hs : FileSystem}

theorem refl (may : Permit) (fs : FileSystem) : Changes may fs fs :=
  Relation.ReflTransGen.refl

theorem trans (h : Changes may fs gs) (k : Changes may gs hs) : Changes may fs hs :=
  Relation.ReflTransGen.trans h k

theorem of_change (h : Change may fs gs) : Changes may fs gs :=
  Relation.ReflTransGen.single h

theorem isLinkless (h : Changes may fs gs) {p : NativePath} (hl : fs.IsLinkless p) : gs.IsLinkless p := by
  induction h with
  | refl => exact hl
  | tail _ hc ih => exact hc.isLinkless ih

theorem isSole (h : Changes may fs gs) {here : Location} (hsole : fs.IsSole here) : gs.IsSole here := by
  induction h with
  | refl => exact hsole
  | tail _ hc ih => exact hc.isSole ih

/-- What any number of changes make of a place. -/
theorem mayBecome (h : Changes may fs gs) (hsole : ∀ here, may.grow here → fs.IsSole here) (here : Location) :
    MayBecome may here (fs.foundAt here) (gs.foundAt here) := by
  induction h with
  | refl => exact .same _
  | @tail mid last hfirst hc ih =>
    have hmid (there : Location) (hm : may.grow there) : mid.IsSole there := isSole hfirst (hsole there hm)
    exact ih.trans (hc.mayBecome hmid here)

end Changes

/-! ### The operations -/

section Operations

variable {may : Permit} {fs gs : FileSystem} {p : NativePath}

theorem changes_makeDirectory (hmay : may.directory p.place) (hl : fs.IsLinkless p)
    (h : fs.makeDirectory p = .ok gs) : Changes may fs gs := by
  obtain ⟨hnone, rfl⟩ := makeDirectory_of_isLinkless hl h
  exact .of_change (.directory hmay hnone)

theorem changes_makeAll {paths : List NativePath} (hmay : ∀ p ∈ paths, may.directory p.place)
    (hl : ∀ p ∈ paths, fs.IsLinkless p) : Changes may fs (fs.makeAll paths).1 :=
  makeAll_invariant (fun p hp _ _ h hm => h.trans (changes_makeDirectory (hmay p hp) (h.isLinkless (hl p hp)) hm))
    (.refl may fs)

/-- Making a directory and what is missing above it makes directories on its way. -/
theorem changes_makeDirectories (hmay : ∀ here, p.Passes here → may.directory here) (hl : fs.IsLinkless p) :
    Changes may fs (fs.makeDirectories p).1 :=
  changes_makeAll (fun q hq => hmay q.place (q.passes_place.of_mem_ancestors hq))
    fun _ hq here target hp => hl here target (hp.of_mem_ancestors hq)

theorem changes_appendFile {bs : Bytes} (hmay : may.grow p.place) (hl : fs.IsLinkless p)
    (h : fs.appendFile p bs = .ok gs) : Changes may fs gs := by
  obtain ⟨here, hr, hcases⟩ := update_eq_ok h
  obtain rfl := resolve_of_isLinkless hl hr
  obtain ⟨number, hfile, -, rfl⟩ | ⟨hnone, rfl⟩ := hcases
  · exact .of_change (.grown bs hmay hfile)
  · exact .of_change (.file _ (.inl hmay) hnone)

/-- Writing a file where nothing exists makes a new one. -/
theorem changes_writeFile {bs : Bytes} (hmay : may.create p.place bs) (hl : fs.IsLinkless p)
    (hfree : fs.pathExists p = false) (h : fs.writeFile p bs = .ok gs) : Changes may fs gs := by
  obtain ⟨here, hr, hcases⟩ := update_eq_ok h
  have hnone := entryAt?_of_not_pathExists hfree hr
  obtain rfl := resolve_of_isLinkless hl hr
  obtain ⟨number, hfile, -⟩ | ⟨-, rfl⟩ := hcases
  · rw [hnone] at hfile
    cases hfile
  · exact .of_change (.file bs (.inr hmay) hnone)

end Operations

end Relocation
