import Mathlib.Data.List.Basic
import Relocation.LinkChain
import Relocation.Proofs.BoundlessWalks

/-!
# Where a chain of links leads

A chain is followed by putting the text of each target behind the text of the directory of its link, and nothing of
that text is ever shortened. The operating system reads the target from the directory that really holds the link. Both
come to the same, because the text in front of the name of a link, however it is spelled, leads to that directory.

* `steps_seenFrom`: the steps of a target seen from its link;
* `pathLeads_follow`: what the target leads to, the link leads to;
* `resolve_pathLeads`: the end of a chain exists, is no link, and is where the operating system ends, too.
-/

namespace Relocation

open FileSystem

namespace NativePath

theorem isIdleStep_stepOf {name : Bytes} (h : isIdle name = true) : IsIdleStep (stepOf name) := by
  rw [isIdle, Bool.or_eq_true, beq_iff_eq, beq_iff_eq] at h
  rcases h with rfl | rfl
  · exact Or.inr rfl
  · exact Or.inl rfl

theorem isIdle_of_stepOf {piece name : Bytes} (h : stepOf piece = .into name) : isIdle piece = false := by
  rw [Bool.eq_false_iff]
  intro hi
  rcases isIdleStep_stepOf hi with he | he <;> rw [he] at h <;> cases h

/-- A relative path seen from names, each behind a slash, stands behind one slash more. -/
theorem join_behindSlashes {names : List Bytes} {tail : NativePath} (ht : tail.isAbsolute = false)
    (hs : ∀ name ∈ names, slashByte ∉ name) (hl : ∀ last ∈ names.getLast?, isIdle last = false) :
    (⟨slashByte :: joinWith slashByte names⟩ : NativePath).join tail
      = ⟨behindSlashes names ++ slashByte :: tail.bytes⟩ := by
  rcases List.eq_nil_or_concat names with rfl | ⟨front, last, rfl⟩
  · have hroot : (⟨slashByte :: joinWith slashByte []⟩ : NativePath).endsWithSlash = true := rfl
    rw [join, ht, if_neg (by simp), if_pos (Or.inr hroot)]
    rfl
  · rw [List.concat_eq_append] at hs hl ⊢
    have hne : front ++ [last] ≠ [] := by simp
    have hidle := hl last (by simp)
    have hlast : last ≠ [] := by
      rintro rfl
      cases hidle
    have hends : (⟨behindSlashes (front ++ [last])⟩ : NativePath).endsWithSlash = false := by
      have hsplit : behindSlashes (front ++ [last]) = (behindSlashes front ++ [slashByte]) ++ last := by
        simp [behindSlashes]
      rw [endsWithSlash, beq_eq_false_iff_ne, hsplit, List.getLast?_append, List.getLast?_eq_some_getLast hlast,
        Option.some_or, Ne, Option.some.injEq]
      intro he
      exact hs last (by simp) (he ▸ List.getLast_mem hlast)
    have hbytes : behindSlashes (front ++ [last]) ≠ [] := by simp [behindSlashes]
    rw [← behindSlashes_eq_joinWith hne, join, ht, if_neg (by simp),
      if_neg fun h => h.elim hbytes (by rw [hends]; simp)]

end NativePath

namespace LinkChain

/-- A relative target seen from its link has the steps of the link up to its name, some idle ones aside, and then its
own. -/
theorem steps_seenFrom {link target next : NativePath} {front : List WalkStep} {name : Bytes}
    (ha : link.isAbsolute = true) (hl : link.steps = front ++ [.into name]) (ht : target.isAbsolute = false)
    (h : seenFrom link target = .ok next) :
    ∃ kept idle, front = kept ++ idle ∧ (∀ step ∈ idle, IsIdleStep step) ∧ next.steps = kept ++ target.steps := by
  obtain ⟨bytes⟩ := link
  cases bytes with
  | nil => cases ha
  | cons b body =>
    have hb : b = slashByte := by simpa [NativePath.isAbsolute] using ha
    subst hb
    -- the last piece of the link is its name, and what stands before is trimmed to be its directory
    obtain ⟨pieces, piece, hp⟩ : ∃ pieces piece, splitOn slashByte body = pieces ++ [piece] := by
      rcases List.eq_nil_or_concat (splitOn slashByte body) with h | ⟨pieces, piece, h⟩
      · exact absurd h (splitOn_ne_nil slashByte body)
      · exact ⟨pieces, piece, by rw [h, List.concat_eq_append]⟩
    have hslash : ∀ q ∈ pieces, slashByte ∉ q := fun q hq =>
      sep_not_mem_splitOn slashByte body q (hp ▸ List.mem_append_left _ hq)
    rw [NativePath.steps, splitOn_cons_sep, hp, List.map_cons, List.map_append, List.map_singleton,
      ← List.cons_append] at hl
    obtain ⟨hfront, hlast⟩ := List.append_inj' hl rfl
    rw [List.cons.injEq] at hlast
    have hidle := NativePath.isIdle_of_stepOf hlast.1
    obtain ⟨tail, htail, hall⟩ := trimEndWhere_append_tail NativePath.isIdle pieces
    have hparent : NativePath.parent? ⟨slashByte :: body⟩
        = some ⟨slashByte :: joinWith slashByte (NativePath.trimIdle pieces)⟩ := by
      have htrim : NativePath.trimIdle (splitOn slashByte body) = pieces ++ [piece] := by
        rw [hp, NativePath.trimIdle, trimEndWhere_concat _ _ _ hidle]
      simp only [NativePath.parent?, if_true, htrim]
      split
      · next he => simp at he
      · rw [List.dropLast_concat]
    have hkept : ∀ q ∈ NativePath.trimIdle pieces, slashByte ∉ q := fun q hq =>
      hslash q (by rw [htail]; exact List.mem_append_left _ hq)
    rw [seenFrom, ht, if_neg (by simp), hparent, Except.ok.injEq,
      NativePath.join_behindSlashes ht hkept fun last hm => getLast?_trimEndWhere _ _ _ hm] at h
    refine ⟨.slash :: (NativePath.trimIdle pieces).map NativePath.stepOf, tail.map NativePath.stepOf, ?_, ?_, ?_⟩
    · rw [List.cons_append, ← List.map_append, NativePath.trimIdle, ← htail, ← hfront]
      rfl
    · intro step hstep
      obtain ⟨q, hq, rfl⟩ := List.mem_map.mp hstep
      exact NativePath.isIdleStep_stepOf (hall q hq)
    · rw [← h, NativePath.steps, splitOn_behindSlashes_slash _ _ hkept, List.map_cons, List.map_append]
      rfl

theorem follow_eq_ok {fs : FileSystem} {link next : NativePath} (h : follow fs link = .ok next) :
    ∃ here target, fs.find .self link = .ok (here, .link target) ∧ seenFrom link target = .ok next := by
  rw [follow, readLink] at h
  cases hf : fs.find .self link with
  | error e =>
    rw [hf] at h
    cases h
  | ok found =>
    obtain ⟨here, e⟩ := found
    rw [hf] at h
    cases e with
    | directory => cases h
    | file number => cases h
    | link target => exact ⟨here, target, rfl, h⟩

/-- What the target of a link, seen from the link, leads to, the link leads to. -/
theorem pathLeads_follow {fs : FileSystem} {link next : NativePath} {place : Location} (ha : link.isAbsolute = true)
    (h : follow fs link = .ok next) (hp : PathLeads fs next place) : PathLeads fs link place := by
  obtain ⟨here, target, hfind, hseen⟩ := follow_eq_ok h
  obtain ⟨-, hwalk, hentry⟩ := find_eq_ok hfind
  rcases walk_ends (by decide) hwalk hentry with ⟨-, hleads⟩ | ⟨-, hend⟩
  · -- a walk without a bound never ends at a link
    obtain ⟨e, he, hne⟩ := hleads.exists_entry (stands_nil fs)
    rw [he, Option.some.injEq] at hentry
    exact absurd hentry (hne target)
  · rw [PathLeads] at hp ⊢
    generalize hsteps : link.steps = steps at hend
    cases hend with
    | @intro front mid name shown hmid hlink =>
      rw [hlink.found, Option.some.injEq, Entry.link.injEq] at hentry
      subst hentry
      -- from the directory that holds the link, its name leads where the target leads
      have hlast : ∀ {first : Location}, first = (if shown.isAbsolute then [] else mid) →
          Leads fs first shown.steps place → Leads fs mid [.into name] place := by
        rintro first rfl hl
        have hgoes := Goes.link [] hlink
        rw [List.append_nil] at hgoes
        exact .step hgoes hl
      rw [leads_append front (by simp)]
      refine ⟨mid, hmid, ?_⟩
      by_cases ht : shown.isAbsolute = true
      · rw [seenFrom, if_pos ht, Except.ok.injEq] at hseen
        rw [← hseen] at hp
        exact hlast (by rw [if_pos ht]) hp
      · rw [Bool.not_eq_true] at ht
        obtain ⟨kept, idle, rfl, hidle, hnext⟩ := steps_seenFrom ha hsteps ht hseen
        rw [hnext, leads_append kept (by simp [NativePath.steps, splitOn_ne_nil])] at hp
        obtain ⟨start, hstart, htarget⟩ := hp
        -- the steps that were trimmed lead nowhere, so both are the same directory
        rw [List.append_assoc, leads_append kept (by simp)] at hmid
        obtain ⟨other, hother, hmid⟩ := hmid
        cases hstart.unique hother
        cases hmid.of_idle hidle with
        | step hg hdone =>
          cases hg
          cases hdone with
          | step hg _ => cases hg
          | done => exact hlast (by rw [ht]; rfl) htarget

theorem pathLeads_chase {fs : FileSystem} {hops : Nat} {start last : NativePath} {place : Location}
    (ha : start.isAbsolute = true) (h : chase fs hops start = .ok last) (hp : PathLeads fs last place) :
    PathLeads fs start place := by
  induction hops generalizing start with
  | zero => cases h
  | succ hops ih =>
    rw [chase] at h
    split at h
    · cases h
    · cases h
      exact hp
    · split at h
      · cases h
      · next next hn => exact pathLeads_follow ha hn (ih (isAbsolute_follow fs start next ha hn) h)

/-- A path that names something, and no link, leads to it. -/
theorem pathLeads_of_isLink {fs : FileSystem} {p : NativePath} (h : fs.isLink p = .ok false) :
    fs.pathExists p = true
      ∧ ∃ here e, fs.entryAt? here = some e ∧ (∀ target, e ≠ .link target) ∧ PathLeads fs p here := by
  cases hf : fs.find .self p with
  | error e =>
    rw [isLink, hf] at h
    cases h
  | ok found =>
    obtain ⟨here, e⟩ := found
    obtain ⟨hr, hwalk, hentry⟩ := find_eq_ok hf
    have hne : ∀ target, e ≠ .link target := by
      rintro target rfl
      rw [isLink, hf] at h
      cases h
    rcases walk_ends (by decide) hwalk hentry with ⟨htarget, hleads⟩ | ⟨-, hend⟩
    · refine ⟨?_, here, e, hentry, hne, hleads⟩
      rw [pathExists, find, FileSystem.resolve, hr, htarget]
      simp only [hentry]
    · generalize p.steps = steps at hend
      cases hend with
      | intro _ hlink =>
        rw [hlink.found, Option.some.injEq] at hentry
        exact absurd hentry.symm (hne _)

/-- Following a chain never changes what is meant: its end exists, is spelled by an absolute path and is no link, and
without a bound on links the path of the end leads to the same file or directory as the path of the start, and to
nothing else. -/
theorem resolve_pathLeads (fs : FileSystem) (start last : NativePath) (ha : start.isAbsolute = true)
    (h : resolve fs start = .ok last) :
    fs.pathExists last = true ∧ last.isAbsolute = true ∧ fs.isLink last = .ok false
      ∧ ∃ here e, fs.entryAt? here = some e ∧ (∀ target, e ≠ .link target)
        ∧ (∀ place, PathLeads fs start place ↔ place = here) ∧ (∀ place, PathLeads fs last place ↔ place = here) := by
  rw [resolve] at h
  split at h
  · cases h
  · next current hc =>
    have hcurrent := isAbsolute_follow fs start current ha hc
    have hlink := isLink_chase fs maxHops current last h
    obtain ⟨hexists, here, e, he, hne, hleads⟩ := pathLeads_of_isLink hlink
    have hstart := pathLeads_follow ha hc (pathLeads_chase hcurrent h hleads)
    refine ⟨hexists, isAbsolute_chase fs maxHops current last hcurrent h, hlink, here, e, he, hne, ?_, ?_⟩
    · exact fun place => ⟨fun hp => Leads.unique hp hstart, fun hp => hp ▸ hstart⟩
    · exact fun place => ⟨fun hp => Leads.unique hp hleads, fun hp => hp ▸ hleads⟩

/-- A program beside a directory, a link to it in that directory, and two links from the root. -/
def linkedTree : FileSystem where
  entries :=
    [([Utf8.encode "d".toList], .directory), ([Utf8.encode "d".toList, Utf8.encode "e".toList], .directory),
      ([Utf8.encode "d".toList, Utf8.encode "real".toList], .file 0),
      ([Utf8.encode "d".toList, Utf8.encode "e".toList, Utf8.encode "tool".toList], .link (.ofText "../real".toList)),
      ([Utf8.encode "in".toList], .link (.ofText "d/e/".toList)),
      ([Utf8.encode "tool".toList], .link (.ofText "in//tool".toList))]
  contents := []

theorem resolve_pathLeads_linkedTree :
    resolve linkedTree (.ofText "/tool".toList) = .ok (.ofText "/in/../real".toList)
      ∧ linkedTree.pathExists (.ofText "/in/../real".toList) = true
      ∧ ∃ here e, linkedTree.entryAt? here = some e ∧ (∀ target, e ≠ .link target)
        ∧ (∀ place, PathLeads linkedTree (.ofText "/tool".toList) place ↔ place = here)
        ∧ (∀ place, PathLeads linkedTree (.ofText "/in/../real".toList) place ↔ place = here) := by
  have h : resolve linkedTree (.ofText "/tool".toList) = .ok (.ofText "/in/../real".toList) := by cbv
  obtain ⟨hexists, -, -, hleads⟩ := resolve_pathLeads linkedTree _ _ (by decide) h
  exact ⟨h, hexists, hleads⟩

end LinkChain

end Relocation
