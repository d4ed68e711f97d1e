import Relocation.Proofs.Walking

/-!
# Walks without a bound on links

The operating system follows at most so many links on one walk. `Leads` is the same walk without that bound, as a
relation made of single steps, so that two paths can be compared that need different numbers of links.

* `Leads.unique`: a walk leads to one place;
* `leads_append`: steps with others behind them lead to a directory, from which the others are walked;
* `walk_ends`: a bounded walk ends where the boundless one does, or at a link in the last place;
* `leads_iff_walk`: the boundless walk is what bounded ones find with links enough.
-/

namespace Relocation

namespace FileSystem

variable {fs : FileSystem} {dir next here : Location}

/-! ### Steps and walks -/

/-- A directory may be searched, and under a name it has an entry. -/
structure Shows (fs : FileSystem) (dir : Location) (name : Bytes) (e : Entry) : Prop where
  searched : fs.denial? (.search dir) = none
  short : ¬maxName < name.length
  found : fs.entryAt? (dir ++ [name]) = some e

/-- One step from a directory, and the steps that are left then. A link is replaced by the steps of its target, which
start at the root or at the directory that really holds the link; `..` goes to the directory that really holds the
current one. -/
inductive Goes (fs : FileSystem) : Location → List WalkStep → Location → List WalkStep → Prop
  | slash (dir : Location) (rest : List WalkStep) : Goes fs dir (.slash :: rest) dir rest
  | stay {dir : Location} (rest : List WalkStep) : fs.denial? (.search dir) = none → Goes fs dir (.stay :: rest) dir rest
  | up {dir : Location} (rest : List WalkStep) : fs.denial? (.search dir) = none →
      Goes fs dir (.up :: rest) dir.dropLast rest
  | directory {dir : Location} {name : Bytes} (rest : List WalkStep) : fs.Shows dir name .directory →
      Goes fs dir (.into name :: rest) (dir ++ [name]) rest
  /-- Nothing may follow a file, not even a slash. -/
  | file {dir : Location} {name : Bytes} {number : Nat} : fs.Shows dir name (.file number) →
      Goes fs dir [.into name] (dir ++ [name]) []
  | link {dir : Location} {name : Bytes} {target : NativePath} (rest : List WalkStep) : fs.Shows dir name (.link target) →
      Goes fs dir (.into name :: rest) (if target.isAbsolute then [] else dir) (target.steps ++ rest)

/-- Where steps lead from a directory if every link is followed. -/
inductive Leads (fs : FileSystem) : Location → List WalkStep → Location → Prop
  | done (dir : Location) : Leads fs dir [] dir
  | step {dir next here : Location} {steps left : List WalkStep} :
      Goes fs dir steps next left → Leads fs next left here → Leads fs dir steps here

/-- Where a path leads from the root if every link is followed. -/
def PathLeads (fs : FileSystem) (p : NativePath) (here : Location) : Prop :=
  Leads fs [] p.steps here

theorem Shows.unique {name : Bytes} {e e' : Entry} (h : fs.Shows dir name e) (h' : fs.Shows dir name e') : e = e' :=
  Option.some.inj (h.found.symm.trans h'.found)

/-- What stands at a place decides how the walk goes on. -/
theorem Goes.unique {other : Location} {steps left more : List WalkStep} (h : Goes fs dir steps next left)
    (h' : Goes fs dir steps other more) : next = other ∧ left = more := by
  cases h with
  | stay | slash | up =>
    cases h'
    exact ⟨rfl, rfl⟩
  | directory _ he =>
    cases h' with
    | directory => exact ⟨rfl, rfl⟩
    | file he' => cases he.unique he'
    | link _ he' => cases he.unique he'
  | file he =>
    cases h' with
    | directory _ he' => cases he.unique he'
    | file => exact ⟨rfl, rfl⟩
    | link _ he' => cases he.unique he'
  | link _ he =>
    cases h' with
    | directory _ he' => cases he.unique he'
    | file he' => cases he.unique he'
    | link _ he' =>
      cases he.unique he'
      exact ⟨rfl, rfl⟩

theorem Leads.unique {other : Location} {steps : List WalkStep} (h : Leads fs dir steps here)
    (h' : Leads fs dir steps other) : here = other := by
  induction h with
  | done dir =>
    cases h' with
    | done => rfl
    | step hg _ => cases hg
  | step hg _ ih =>
    cases h' with
    | done => cases hg
    | step hg' h' =>
      obtain ⟨rfl, rfl⟩ := hg.unique hg'
      exact ih h'

/-! ### Steps behind a directory -/

/-- A step into steps that others follow does not depend on the others. -/
theorem Goes.of_append {front back left : List WalkStep} (hf : front ≠ []) (hb : back ≠ [])
    (h : Goes fs dir (front ++ back) next left) :
    ∃ more, left = more ++ back ∧ ∀ other, other ≠ [] → Goes fs dir (front ++ other) next (more ++ other) := by
  obtain ⟨step, rest, rfl⟩ := List.exists_cons_of_ne_nil hf
  rw [List.cons_append] at h
  generalize hr : rest ++ back = tail at h
  have hassoc : ∀ (steps other : List WalkStep), steps ++ (rest ++ other) = (steps ++ rest) ++ other :=
    fun _ _ => (List.append_assoc _ _ _).symm
  cases h with
  | slash => exact ⟨rest, hr.symm, fun other _ => .slash dir _⟩
  | stay _ hd => exact ⟨rest, hr.symm, fun other _ => .stay _ hd⟩
  | up _ hd => exact ⟨rest, hr.symm, fun other _ => .up _ hd⟩
  | directory _ he => exact ⟨rest, hr.symm, fun other _ => .directory _ he⟩
  | file => exact absurd (List.append_eq_nil_iff.mp hr).2 hb
  | link _ he => exact ⟨_, hr ▸ hassoc _ _, fun other _ => hassoc _ other ▸ .link _ he⟩

/-- Steps with others behind them lead to a directory, and the others are walked from there. A slash asks for the
directory and for no right to it. -/
theorem leads_append (front : List WalkStep) {back : List WalkStep} (hb : back ≠ []) :
    Leads fs dir (front ++ back) here ↔ ∃ mid, Leads fs dir (front ++ [.slash]) mid ∧ Leads fs mid back here := by
  have hslash : [WalkStep.slash] ≠ [] := by simp
  constructor
  · intro h
    generalize hs : front ++ back = steps at h
    induction h generalizing front with
    | done dir => exact absurd (List.append_eq_nil_iff.mp hs).2 hb
    | step hg hl ih =>
      by_cases hf : front = []
      · subst hf
        rw [List.nil_append] at hs
        exact ⟨_, .step (.slash _ _) (.done _), hs ▸ .step hg hl⟩
      · subst hs
        obtain ⟨more, rfl, hall⟩ := hg.of_append hf hb
        obtain ⟨mid, hm, hback⟩ := ih more rfl
        exact ⟨mid, .step (hall _ hslash) hm, hback⟩
  · rintro ⟨mid, h, hback⟩
    generalize hs : front ++ [.slash] = steps at h
    revert hback
    induction h generalizing front with
    | done dir => exact absurd (List.append_eq_nil_iff.mp hs).2 hslash
    | step hg hl ih =>
      by_cases hf : front = []
      · subst hf
        subst hs
        cases hg
        cases hl with
        | done => exact id
        | step hg _ => cases hg
      · subst hs
        obtain ⟨more, rfl, hall⟩ := hg.of_append hf hslash
        exact fun hback => .step (hall back hb) (ih more rfl hback)

/-- Steps that lead nowhere. -/
def IsIdleStep (step : WalkStep) : Prop :=
  step = .stay ∨ step = .slash

/-- A walk goes on where it was behind steps that lead nowhere; but these may need a right that it does not. -/
theorem Leads.of_idle {idle back : List WalkStep} (h : ∀ step ∈ idle, IsIdleStep step)
    (hl : Leads fs dir (idle ++ back) here) : Leads fs dir back here := by
  induction idle with
  | nil => exact hl
  | cons step rest ih =>
    refine ih (fun s hs => h s (List.mem_cons_of_mem _ hs)) ?_
    cases hl with
    | step hg hl =>
      rcases h step List.mem_cons_self with rfl | rfl
      · cases hg
        exact hl
      · cases hg
        exact hl

/-! ### The bounded walk -/

theorem walk_slashes (fs : FileSystem) (purpose : Purpose) (links : Nat) (dir : Location) (steps : List WalkStep)
    (h : ∀ step ∈ steps, step = .slash) : fs.walk purpose links dir steps = .ok dir := by
  induction steps with
  | nil => rw [walk]
  | cons step rest ih =>
    obtain rfl := h step List.mem_cons_self
    rw [walk, ih fun s hs => h s (List.mem_cons_of_mem _ hs)]

/-- Steps that lead nowhere lead nowhere else. -/
theorem eq_of_walk_idle {purpose : Purpose} {links : Nat} {steps : List WalkStep}
    (h : ∀ step ∈ steps, IsIdleStep step) (hw : fs.walk purpose links dir steps = .ok here) : here = dir := by
  induction steps with
  | nil =>
    rw [walk] at hw
    exact (Except.ok.inj hw).symm
  | cons step rest ih =>
    refine ih (fun s hs => h s (List.mem_cons_of_mem _ hs)) ?_
    rcases h step List.mem_cons_self with rfl | rfl
    · rwa [walk_stay (searched_of_walk hw (by simp))] at hw
    · rwa [walk] at hw

/-- Steps that end in the name of a link, behind others that lead to the directory that really holds it. -/
inductive LinkEnd (fs : FileSystem) (dir : Location) : List WalkStep → Location → Prop
  | intro {front : List WalkStep} {mid : Location} {name : Bytes} {target : NativePath} :
      Leads fs dir (front ++ [.slash]) mid → fs.Shows mid name (.link target) →
      LinkEnd fs dir (front ++ [.into name]) (mid ++ [name])

theorem LinkEnd.step {step : WalkStep} {rest left : List WalkStep} (hg : Goes fs dir (step :: rest) next left)
    (hr : rest = [] → left = []) (h : LinkEnd fs next left here) : LinkEnd fs dir (step :: rest) here := by
  rcases List.eq_nil_or_concat rest with hnil | ⟨front, last, hlast⟩
  · rw [hr hnil] at h
    generalize hn : ([] : List WalkStep) = none at h
    cases h
    simp at hn
  · -- the last step is still to come behind the first one
    rw [hlast, List.concat_eq_append, ← List.cons_append] at hg ⊢
    obtain ⟨more, rfl, hall⟩ := hg.of_append (by simp) (by simp)
    generalize hm : more ++ [last] = steps at h
    cases h with
    | intro hl he =>
      obtain ⟨rfl, hname⟩ := List.append_inj' hm rfl
      rw [List.cons.injEq] at hname
      rw [hname.1]
      exact .intro (.step (hall _ (by simp)) hl) he

/-- A walk to something ends where it would without a bound, or at a link in the last place that it was not to
follow. -/
theorem walk_ends {purpose : Purpose} (hp : purpose ≠ .file) {links : Nat} {steps : List WalkStep} {e : Entry}
    (hw : fs.walk purpose links dir steps = .ok here) (he : fs.entryAt? here = some e) :
    fs.walk .target links dir steps = .ok here ∧ Leads fs dir steps here
      ∨ purpose = .self ∧ LinkEnd fs dir steps here := by
  have htarget : Purpose.target ≠ .file := by decide
  induction links, dir, steps using walk.induct fs purpose with
  | case1 links dir =>
    rw [walk] at hw
    cases hw
    exact Or.inl ⟨by rw [walk], .done _⟩
  | case2 links dir rest ih =>
    rw [walk] at hw ⊢
    exact (ih hw).imp (And.imp id (.step (.slash dir rest))) (And.imp id (.step (.slash dir rest) id))
  | case3 links dir rest cause hd | case5 links dir rest cause hd | case7 links dir name rest cause hd =>
    rw [walk_of_denial hd _ _ (by simp)] at hw
    cases hw
  | case4 links dir rest hd ih =>
    rw [walk_stay hd] at hw ⊢
    exact (ih hw).imp (And.imp id (.step (.stay rest hd))) (And.imp id (.step (.stay rest hd) id))
  | case6 links dir rest hd ih =>
    rw [walk_up hd] at hw ⊢
    exact (ih hw).imp (And.imp id (.step (.up rest hd))) (And.imp id (.step (.up rest hd) id))
  | case8 links dir name rest hd h => exact absurd h.1 hp
  | case9 links dir name rest hd h hl => exact absurd hl (short_of_walk hw)
  | case10 links dir name hd hl place hnone _ =>
    rw [walk_into hd hp links name [] hl, hnone] at hw
    cases hw
    rw [hnone] at he
    cases he
  | case11 links dir name rest hd _ hl place hnone hr =>
    rw [walk_into hd hp links name rest hl, hnone] at hw
    simp only [if_neg hr] at hw
    cases hw
  | case12 links dir name rest hd _ hl place hdir ih =>
    rw [walk_into hd hp links name rest hl, hdir] at hw
    rw [walk_into hd htarget links name rest hl, hdir]
    have hg := Goes.directory rest ⟨hd, hl, hdir⟩
    exact (ih hw).imp (And.imp id (.step hg)) (And.imp id (.step hg id))
  | case13 links dir name hd hl place number hfile _ =>
    rw [walk_into hd hp links name [] hl, hfile] at hw
    rw [walk_into hd htarget links name [] hl, hfile]
    cases hw
    exact Or.inl ⟨rfl, .step (.file ⟨hd, hl, hfile⟩) (.done _)⟩
  | case14 links dir name rest hd _ hl place number hfile hr =>
    rw [walk_into hd hp links name rest hl, hfile] at hw
    simp only [if_neg hr] at hw
    cases hw
  | case15 links dir name rest hd _ hl place target hlink hs =>
    -- the walk ends here, at a link it is not to follow
    obtain ⟨rfl, rfl⟩ := hs
    rw [walk_into hd hp links name [] hl, hlink] at hw
    simp only [and_self, if_true] at hw
    cases hw
    have hslash : Leads fs dir ([] ++ [.slash]) dir := .step (.slash dir []) (.done dir)
    exact Or.inr ⟨rfl, .intro hslash ⟨hd, hl, hlink⟩⟩
  | case16 dir name rest hd _ hl place target hlink hs =>
    rw [walk_into hd hp 0 name rest hl, hlink] at hw
    simp only [if_neg hs] at hw
    cases hw
  | case17 dir name rest hd _ hl place target hlink hs left ih =>
    rw [walk_into hd hp (left + 1) name rest hl, hlink] at hw
    simp only [if_neg hs] at hw
    rw [walk_into hd htarget (left + 1) name rest hl, hlink]
    simp only [reduceCtorEq, and_false, if_false]
    have hg := Goes.link rest ⟨hd, hl, hlink⟩
    rcases ih hw with ⟨hwalk, hleads⟩ | ⟨hself, hend⟩
    · exact Or.inl ⟨hwalk, .step hg hleads⟩
    · exact Or.inr ⟨hself, hend.step hg fun hr => absurd ⟨hr, hself⟩ hs⟩

/-! ### What a walk without a bound finds -/

/-- A location with nothing but directories on the way to it, itself among them. -/
def Stands (fs : FileSystem) (dir : Location) : Prop :=
  ∀ place, place <+: dir → fs.entryAt? place = some .directory

theorem stands_nil (fs : FileSystem) : fs.Stands [] := by
  intro place h
  rw [List.prefix_nil.mp h, entryAt?, if_pos rfl]

theorem Goes.stands {steps left : List WalkStep} (h : Goes fs dir steps next left) (hs : fs.Stands dir) :
    fs.Stands next ∨ left = [] ∧ ∃ number, fs.entryAt? next = some (.file number) := by
  cases h with
  | stay | slash => exact Or.inl hs
  | up => exact Or.inl fun place hp => hs place (hp.trans (List.dropLast_prefix dir))
  | directory _ he =>
    refine Or.inl fun place hp => ?_
    rcases List.prefix_concat_iff.mp hp with rfl | hp
    · exact he.found
    · exact hs place hp
  | file he => exact Or.inr ⟨rfl, _, he.found⟩
  | link =>
    split
    · exact Or.inl (stands_nil fs)
    · exact Or.inl hs

/-- A walk without a bound ends at a directory or a file. -/
theorem Leads.exists_entry {steps : List WalkStep} (h : Leads fs dir steps here) (hs : fs.Stands dir) :
    ∃ e, fs.entryAt? here = some e ∧ ∀ target, e ≠ .link target := by
  induction h with
  | done dir => exact ⟨.directory, hs dir List.prefix_rfl, by simp⟩
  | step hg hl ih =>
    rcases hg.stands hs with hn | ⟨rfl, number, he⟩
    · exact ih hn
    · cases hl with
      | done => exact ⟨_, he, by simp⟩
      | step hg _ => cases hg

/-- A slash at the end of the steps asks for a directory. -/
theorem Leads.stands_of_slash {front : List WalkStep} (h : Leads fs dir (front ++ [.slash]) here) (hs : fs.Stands dir) :
    fs.Stands here := by
  generalize hsteps : front ++ [.slash] = steps at h
  induction h generalizing front with
  | done dir => exact hs
  | step hg hl ih =>
    by_cases hf : front = []
    · subst hf
      subst hsteps
      cases hg
      cases hl with
      | done => exact hs
      | step hg _ => cases hg
    · subst hsteps
      obtain ⟨more, rfl, -⟩ := hg.of_append hf (by simp)
      rcases hg.stands hs with hn | ⟨hnil, -⟩
      · exact ih hn rfl
      · simp at hnil

/-- A path with a slash at its end leads to no file. -/
theorem not_file_of_endsWithSlash {p : NativePath} (h : p.endsWithSlash = true) {n : Nat} :
    fs.find .target p ≠ .ok (here, .file n) := by
  intro hf
  obtain ⟨-, hwalk, hentry⟩ := find_eq_ok hf
  rcases walk_ends (by decide) hwalk hentry with ⟨-, hleads⟩ | ⟨hself, -⟩
  · obtain ⟨front, rfl⟩ := bytes_of_endsWithSlash h
    rw [NativePath.steps_snoc_slash] at hleads
    have hdir := hleads.stands_of_slash (stands_nil fs) here List.prefix_rfl
    rw [hdir] at hentry
    cases hentry
  · cases hself

theorem exists_walk_of_leads {steps : List WalkStep} (h : Leads fs dir steps here) :
    ∃ links, fs.walk .target links dir steps = .ok here := by
  have htarget : Purpose.target ≠ .file := by decide
  induction h with
  | done dir => exact ⟨0, by rw [walk]⟩
  | step hg hrest ih =>
    obtain ⟨links, hw⟩ := ih
    cases hg with
    | slash => exact ⟨links, by rw [walk, hw]⟩
    | stay _ hd => exact ⟨links, by rw [walk_stay hd, hw]⟩
    | up _ hd => exact ⟨links, by rw [walk_up hd, hw]⟩
    | directory _ he =>
      refine ⟨links, ?_⟩
      rw [walk_into he.searched htarget links _ _ he.short, he.found]
      exact hw
    | file he =>
      refine ⟨links, ?_⟩
      rw [walk] at hw
      rw [walk_into he.searched htarget links _ _ he.short, he.found]
      exact hw
    | link _ he =>
      -- one link more than the rest of the walk needs
      refine ⟨links + 1, ?_⟩
      rw [walk_into he.searched htarget (links + 1) _ _ he.short, he.found]
      simp only [reduceCtorEq, and_false, if_false]
      exact hw

/-- The walk without a bound is what bounded walks find with links enough. -/
theorem leads_iff_walk {steps : List WalkStep} (hs : fs.Stands dir) :
    Leads fs dir steps here ↔
      (∃ links, fs.walk .target links dir steps = .ok here) ∧ ∃ e, fs.entryAt? here = some e := by
  constructor
  · intro h
    obtain ⟨e, he, -⟩ := h.exists_entry hs
    exact ⟨exists_walk_of_leads h, e, he⟩
  · rintro ⟨⟨links, hw⟩, e, he⟩
    rcases walk_ends (by decide) hw he with ⟨-, h⟩ | ⟨hself, -⟩
    · exact h
    · cases hself

end FileSystem

end Relocation
