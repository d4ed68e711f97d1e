import Relocation.Proofs.FollowingLinks

/-!
# How far a chain of links reaches

The targets of links, one behind the other, form a chain, which may end anywhere or nowhere. Following it finds its
end if one link and at most forty are on the way. All else is told as a link that cannot be read, also a chain that
leads back into itself.

* `Hop`, `Chain`: one link, and so many of them;
* `chase_eq_ok_iff`: what is found with links left to follow;
* `Chain.loop`: a chain that leads back has every length;
* `resolve_reach`: which end is found, and why none is.
-/

namespace Relocation

/-! ### Links and what they are seen from -/

namespace NativePath

/-- An absolute path without a parent has no steps but those that lead nowhere. -/
theorem isIdleStep_of_parent?_eq_none {p : NativePath} (ha : p.isAbsolute = true) (h : p.parent? = none) :
    ∀ step ∈ p.steps, FileSystem.IsIdleStep step := by
  obtain ⟨bytes⟩ := p
  cases bytes with
  | nil => cases ha
  | cons b body =>
    have hb : b = slashByte := by simpa [isAbsolute] using ha
    subst hb
    simp only [parent?, if_true] at h
    split at h
    · next hkept =>
      obtain ⟨tail, htail, hall⟩ := trimEndWhere_append_tail isIdle (splitOn slashByte body)
      rw [← trimIdle, hkept, List.nil_append] at htail
      rw [steps, splitOn_cons_sep, List.map_cons]
      intro step hstep
      rcases List.mem_cons.mp hstep with rfl | hstep
      · exact Or.inr rfl
      · obtain ⟨piece, hp, rfl⟩ := List.mem_map.mp hstep
        exact isIdleStep_stepOf (hall piece (htail ▸ hp))
    · cases h

end NativePath

namespace LinkChain

/-- A link is never the root, so it has a directory. -/
theorem parent?_of_find {fs : FileSystem} {link target : NativePath} {here : Location} (ha : link.isAbsolute = true)
    (hf : fs.find .self link = .ok (here, .link target)) : ∃ dir, link.parent? = some dir := by
  cases hp : link.parent? with
  | some dir => exact ⟨dir, rfl⟩
  | none =>
    obtain ⟨-, hwalk, hentry⟩ := FileSystem.find_eq_ok hf
    obtain rfl := FileSystem.eq_of_walk_idle (NativePath.isIdleStep_of_parent?_eq_none ha hp) hwalk
    -- where no name is given, the walk stays at the root, which is a directory
    rw [FileSystem.entryAt?, if_pos rfl] at hentry
    cases hentry

/-! ### Links behind each other -/

/-- A path that names a link, and the path of its target. A relative target is put behind the directory of the link. -/
inductive Hop (fs : FileSystem) : NativePath → NativePath → Prop
  | absolute {link target : NativePath} {here : Location} : fs.find .self link = .ok (here, .link target) →
      target.isAbsolute = true → Hop fs link target
  | relative {link target dir : NativePath} {here : Location} : fs.find .self link = .ok (here, .link target) →
      target.isAbsolute = false → link.parent? = some dir → Hop fs link (dir.join target)

/-- The path a chain of so many links arrives at. -/
inductive Chain (fs : FileSystem) (start : NativePath) : Nat → NativePath → Prop
  | start : Chain fs start 0 start
  | hop {count : Nat} {link next : NativePath} : Chain fs start count link → Hop fs link next →
      Chain fs start (count + 1) next

/-- Something is there, and it is no link. -/
def IsEnd (fs : FileSystem) (p : NativePath) : Prop :=
  ∃ here e, fs.find .self p = .ok (here, e) ∧ ∀ target, e ≠ .link target

section Chains

variable {fs : FileSystem} {start p q : NativePath} {count more : Nat}

theorem Hop.find_eq_ok (h : Hop fs p q) : ∃ here target, fs.find .self p = .ok (here, .link target) := by
  cases h with
  | absolute hf _ => exact ⟨_, _, hf⟩
  | relative hf _ _ => exact ⟨_, _, hf⟩

theorem follow_eq_ok_iff : follow fs p = .ok q ↔ Hop fs p q := by
  constructor
  · intro h
    obtain ⟨here, target, hf, hseen⟩ := follow_eq_ok h
    rw [seenFrom] at hseen
    split at hseen
    · next ht =>
      cases hseen
      exact .absolute hf ht
    · next ht =>
      split at hseen
      · next dir hdir =>
        cases hseen
        exact .relative hf (Bool.not_eq_true _ ▸ ht) hdir
      · cases hseen
  · intro h
    cases h with
    | absolute hf ht => simp only [follow, FileSystem.readLink, hf, seenFrom, ht, if_true]
    | relative hf ht hdir =>
      simp only [follow, FileSystem.readLink, hf, seenFrom, ht, hdir, Bool.false_eq_true, if_false]

theorem Hop.unique {r : NativePath} (h : Hop fs p q) (h' : Hop fs p r) : q = r := by
  rw [← follow_eq_ok_iff] at h h'
  rw [h, Except.ok.injEq] at h'
  exact h'

theorem Hop.isAbsolute (h : Hop fs p q) (ha : p.isAbsolute = true) : q.isAbsolute = true :=
  isAbsolute_follow fs p q ha (follow_eq_ok_iff.mpr h)

/-- An absolute path that names a link has a target. -/
theorem exists_hop {here : Location} {target : NativePath} (ha : p.isAbsolute = true)
    (hf : fs.find .self p = .ok (here, .link target)) : ∃ q, Hop fs p q := by
  by_cases ht : target.isAbsolute = true
  · exact ⟨target, .absolute hf ht⟩
  · obtain ⟨dir, hdir⟩ := parent?_of_find ha hf
    exact ⟨dir.join target, .relative hf (Bool.not_eq_true _ ▸ ht) hdir⟩

theorem Chain.trans (h : Chain fs start count p) (h' : Chain fs p more q) : Chain fs start (count + more) q := by
  induction h' with
  | start => exact h
  | hop _ hq ih => exact .hop ih hq

/-- The first link of a chain, and the rest of it. -/
theorem chain_succ_iff : Chain fs start (count + 1) q ↔ ∃ p, Hop fs start p ∧ Chain fs p count q := by
  constructor
  · intro h
    induction count generalizing q with
    | zero =>
      cases h with
      | hop hc hq =>
        cases hc
        exact ⟨q, hq, .start⟩
    | succ count ih =>
      cases h with
      | hop hc hq =>
        obtain ⟨p, hp, hrest⟩ := ih hc
        exact ⟨p, hp, .hop hrest hq⟩
  · rintro ⟨p, hp, hrest⟩
    rw [Nat.add_comm]
    exact (Chain.hop .start hp).trans hrest

theorem Chain.isAbsolute (h : Chain fs start count p) (ha : start.isAbsolute = true) : p.isAbsolute = true := by
  induction h with
  | start => exact ha
  | hop _ hq ih => exact hq.isAbsolute ih

/-- A chain goes through every shorter one. -/
theorem Chain.shorter (h : Chain fs start (count + more) q) : ∃ p, Chain fs start count p := by
  induction more generalizing q with
  | zero => exact ⟨q, h⟩
  | succ more ih =>
    cases h with
    | hop hc _ => exact ih hc

/-- A chain that leads back to where it began can be followed any number of times. -/
theorem Chain.again (h : Chain fs p count p) (times : Nat) : Chain fs p (count * times) p := by
  induction times with
  | zero => exact .start
  | succ times ih => exact ih.trans h

/-- A chain that leads into a cycle has every length. -/
theorem Chain.loop (h : Chain fs start count p) (hl : Chain fs p (more + 1) p) (length : Nat) :
    ∃ q, Chain fs start length q := by
  have hlong := h.trans (hl.again length)
  have hsplit : count + (more + 1) * length = length + (count + more * length) := by
    rw [Nat.succ_mul]
    omega
  rw [hsplit] at hlong
  exact hlong.shorter

end Chains

/-! ### Following with a bound -/

section Bound

variable {fs : FileSystem} {start p last : NativePath} {hops count : Nat}

theorem isLink_eq_false_iff : fs.isLink p = .ok false ↔ IsEnd fs p := by
  rw [FileSystem.isLink]
  cases hf : fs.find .self p with
  | error e => simp [IsEnd, hf]
  | ok found =>
    obtain ⟨here, e⟩ := found
    cases e <;> simp [IsEnd, hf]

theorem chase_of_isEnd (h : IsEnd fs p) : chase fs (hops + 1) p = .ok p := by
  rw [chase, isLink_eq_false_iff.mpr h]

theorem chase_of_hop (h : Hop fs start p) : chase fs (hops + 1) start = chase fs hops p := by
  obtain ⟨here, target, hf⟩ := h.find_eq_ok
  have hlink : fs.isLink start = .ok true := by rw [FileSystem.isLink, hf]
  simp only [chase, hlink, follow_eq_ok_iff.mpr h]

theorem chase_of_find {cause : FileError} (h : fs.find .self p = .error cause) :
    chase fs (hops + 1) p = .error (.readLink cause) := by
  have hlink : fs.isLink p = .error cause := by rw [FileSystem.isLink, h]
  rw [chase, hlink]

/-- Links that are followed are taken off what may be followed. -/
theorem chase_of_chain (h : Chain fs start count p) : chase fs (hops + count) start = chase fs hops p := by
  induction count generalizing start with
  | zero =>
    cases h
    rfl
  | succ count ih =>
    obtain ⟨mid, hmid, hrest⟩ := chain_succ_iff.mp h
    rw [← Nat.add_assoc, chase_of_hop hmid, ih hrest]

/-- What is found is the end of a chain that is shorter than the bound. -/
theorem chase_eq_ok_iff : chase fs hops start = .ok last ↔ ∃ count < hops, Chain fs start count last ∧ IsEnd fs last := by
  constructor
  · intro h
    induction hops generalizing start with
    | zero => cases h
    | succ hops ih =>
      rw [chase] at h
      split at h
      · cases h
      · next hlink =>
        cases h
        exact ⟨0, Nat.succ_pos hops, .start, isLink_eq_false_iff.mp hlink⟩
      · split at h
        · cases h
        · next next hnext =>
          obtain ⟨count, hc, hchain, hend⟩ := ih h
          exact ⟨count + 1, Nat.succ_lt_succ hc, chain_succ_iff.mpr ⟨next, follow_eq_ok_iff.mp hnext, hchain⟩, hend⟩
  · rintro ⟨count, hc, hchain, hend⟩
    obtain ⟨left, rfl⟩ : ∃ left, hops = (left + 1) + count := ⟨hops - count - 1, by omega⟩
    rw [chase_of_chain hchain, chase_of_isEnd hend]

/-- Why the end of a chain is not found with links left to follow. -/
theorem chase_eq_error_cases {e : LocateError} (ha : start.isAbsolute = true) (h : chase fs hops start = .error e) :
    (∃ count < hops, ∃ p cause, Chain fs start count p ∧ fs.find .self p = .error cause ∧ e = .readLink cause)
      ∨ (∃ p, Chain fs start hops p) ∧ e = .readLink .chainTooLong := by
  induction hops generalizing start with
  | zero =>
    cases h
    exact .inr ⟨⟨start, .start⟩, rfl⟩
  | succ hops ih =>
    cases hf : fs.find .self start with
    | error cause =>
      rw [chase_of_find hf] at h
      cases h
      exact .inl ⟨0, Nat.succ_pos hops, start, cause, .start, hf, rfl⟩
    | ok found =>
      obtain ⟨here, entry⟩ := found
      by_cases hlink : ∃ target, entry = .link target
      · obtain ⟨target, rfl⟩ := hlink
        obtain ⟨next, hnext⟩ := exists_hop ha hf
        rw [chase_of_hop hnext] at h
        rcases ih (hnext.isAbsolute ha) h with ⟨count, hc, p, cause, hchain, hp, he⟩ | ⟨⟨p, hchain⟩, he⟩
        · exact .inl ⟨count + 1, Nat.succ_lt_succ hc, p, cause, chain_succ_iff.mpr ⟨next, hnext, hchain⟩, hp, he⟩
        · exact .inr ⟨⟨p, chain_succ_iff.mpr ⟨next, hnext, hchain⟩⟩, he⟩
      · rw [chase_of_isEnd ⟨here, entry, hf, fun target ht => hlink ⟨target, ht⟩⟩] at h
        cases h

end Bound

/-! ### The whole chain -/

/-- Why the end of a chain is not found. Whatever it is, it is told as a link that cannot be read. -/
inductive ChainFailure (fs : FileSystem) (start : NativePath) : LocateError → Prop
  /-- The path is there, and it is no link. -/
  | noLink : IsEnd fs start → ChainFailure fs start (.readLink .invalidArgument)
  /-- The path or a target names nothing that can be reached. -/
  | missing {count : Nat} {p : NativePath} {cause : FileError} : count ≤ 40 → Chain fs start count p →
      fs.find .self p = .error cause → ChainFailure fs start (.readLink cause)
  /-- There are more links than are followed. -/
  | tooLong {p : NativePath} : Chain fs start 41 p → ChainFailure fs start (.readLink .chainTooLong)

theorem ChainFailure.exists_cause {fs : FileSystem} {start : NativePath} {e : LocateError}
    (h : ChainFailure fs start e) : ∃ cause, e = .readLink cause := by
  cases h <;> exact ⟨_, rfl⟩

section Resolve

variable {fs : FileSystem} {start p : NativePath}

theorem resolve_of_hop (h : Hop fs start p) : resolve fs start = chase fs 40 p := by
  rw [resolve, follow_eq_ok_iff.mpr h]
  rfl

theorem resolve_of_find {cause : FileError} (h : fs.find .self start = .error cause) :
    resolve fs start = .error (.readLink cause) := by
  rw [resolve, follow, FileSystem.readLink, h]

theorem resolve_of_isEnd (h : IsEnd fs start) : resolve fs start = .error (.readLink .invalidArgument) := by
  obtain ⟨here, e, hf, hne⟩ := h
  rw [resolve, follow, FileSystem.readLink, hf]
  cases e with
  | directory => rfl
  | file number => rfl
  | link target => exact absurd rfl (hne target)

theorem resolve_eq_ok_iff {last : NativePath} :
    resolve fs start = .ok last ↔ ∃ count, 1 ≤ count ∧ count ≤ 40 ∧ Chain fs start count last ∧ IsEnd fs last := by
  constructor
  · intro h
    cases hfollow : follow fs start with
    | error e =>
      rw [resolve, hfollow] at h
      cases h
    | ok next =>
      have hnext := follow_eq_ok_iff.mp hfollow
      rw [resolve_of_hop hnext, chase_eq_ok_iff] at h
      obtain ⟨count, hc, hchain, hend⟩ := h
      exact ⟨count + 1, by omega, by omega, chain_succ_iff.mpr ⟨next, hnext, hchain⟩, hend⟩
  · rintro ⟨count, hpos, hle, hchain, hend⟩
    obtain ⟨more, rfl⟩ := Nat.exists_eq_add_one.mpr hpos
    obtain ⟨next, hnext, hrest⟩ := chain_succ_iff.mp hchain
    rw [resolve_of_hop hnext, chase_eq_ok_iff]
    exact ⟨more, by omega, hrest, hend⟩

theorem resolve_eq_error_iff {e : LocateError} (ha : start.isAbsolute = true) :
    resolve fs start = .error e ↔ ChainFailure fs start e := by
  constructor
  · intro h
    cases hf : fs.find .self start with
    | error cause =>
      rw [resolve_of_find hf] at h
      cases h
      exact .missing (Nat.zero_le 40) .start hf
    | ok found =>
      obtain ⟨here, entry⟩ := found
      by_cases hlink : ∃ target, entry = .link target
      · obtain ⟨target, rfl⟩ := hlink
        obtain ⟨next, hnext⟩ := exists_hop ha hf
        rw [resolve_of_hop hnext] at h
        rcases chase_eq_error_cases (hnext.isAbsolute ha) h with ⟨count, hc, p, cause, hchain, hp, rfl⟩ | ⟨⟨p, hchain⟩, rfl⟩
        · exact .missing (by omega) (chain_succ_iff.mpr ⟨next, hnext, hchain⟩) hp
        · exact .tooLong (chain_succ_iff.mpr ⟨next, hnext, hchain⟩)
      · have hend : IsEnd fs start := ⟨here, entry, hf, fun target ht => hlink ⟨target, ht⟩⟩
        rw [resolve_of_isEnd hend] at h
        cases h
        exact .noLink hend
  · intro h
    cases h with
    | noLink hend => exact resolve_of_isEnd hend
    | @missing count p cause hle hchain hp =>
      cases count with
      | zero =>
        cases hchain
        exact resolve_of_find hp
      | succ count =>
        obtain ⟨next, hnext, hrest⟩ := chain_succ_iff.mp hchain
        obtain ⟨left, hleft⟩ : ∃ left, 40 = (left + 1) + count := ⟨39 - count, by omega⟩
        rw [resolve_of_hop hnext, hleft, chase_of_chain hrest, chase_of_find hp]
    | tooLong hchain =>
      obtain ⟨next, hnext, hrest⟩ := chain_succ_iff.mp hchain
      rw [resolve_of_hop hnext, ← Nat.zero_add 40, chase_of_chain hrest]
      rfl

/-- A slash behind a path asks for what its link leads to, so that the path itself names no link. -/
theorem not_hop_of_endsWithSlash (h : p.endsWithSlash = true) (q : NativePath) : ¬Hop fs p q := by
  intro hq
  obtain ⟨here, target, hf⟩ := hq.find_eq_ok
  obtain ⟨-, hwalk, hentry⟩ := FileSystem.find_eq_ok hf
  rcases FileSystem.walk_ends (by decide) hwalk hentry with ⟨-, hleads⟩ | ⟨-, hend⟩
  · obtain ⟨e, he, hne⟩ := hleads.exists_entry (FileSystem.stands_nil fs)
    rw [hentry, Option.some.injEq] at he
    exact hne target he.symm
  · -- a walk that ends at a link ends with its name, and not with a slash
    obtain ⟨front, rfl⟩ := bytes_of_endsWithSlash h
    rw [NativePath.steps_snoc_slash] at hend
    generalize hs : NativePath.steps ⟨front⟩ ++ [.slash] = steps at hend
    cases hend with
    | intro _ _ =>
      obtain ⟨-, hlast⟩ := List.append_inj' hs rfl
      cases hlast

/-- A chain that begins at an absolute path fails only because a link in it cannot be read. -/
theorem resolve_eq_error {e : LocateError} (ha : start.isAbsolute = true) (h : resolve fs start = .error e) :
    ∃ cause, e = .readLink cause :=
  ((resolve_eq_error_iff ha).mp h).exists_cause

end Resolve

/-- The end of a chain is found exactly if one link and at most forty lead from an absolute path to something that is no
link. Otherwise a link cannot be read: the path is no link, something on the way is missing, or more than forty links
are on the way, as always when they lead into a cycle. A path with a slash behind it is no link. -/
theorem resolve_reach (fs : FileSystem) (start : NativePath) (ha : start.isAbsolute = true) :
    (∀ last, resolve fs start = .ok last ↔
        ∃ count, 1 ≤ count ∧ count ≤ 40 ∧ Chain fs start count last ∧ IsEnd fs last)
      ∧ (∀ e, resolve fs start = .error e ↔ ChainFailure fs start e)
      ∧ ((¬∃ count last, 1 ≤ count ∧ count ≤ 40 ∧ Chain fs start count last ∧ IsEnd fs last) →
        ∃ cause, resolve fs start = .error (.readLink cause))
      ∧ (∀ count more p, Chain fs start count p → Chain fs p (more + 1) p →
        resolve fs start = .error (.readLink .chainTooLong))
      ∧ ∀ p q, p.endsWithSlash = true → ¬Hop fs p q := by
  refine ⟨fun last => resolve_eq_ok_iff, fun e => resolve_eq_error_iff ha, fun hnone => ?_,
    fun count more p hchain hloop => ?_, fun p q hs => ?_⟩
  · cases hr : resolve fs start with
    | ok last =>
      obtain ⟨count, hfound⟩ := resolve_eq_ok_iff.mp hr
      exact absurd ⟨count, last, hfound⟩ hnone
    | error e =>
      obtain ⟨cause, rfl⟩ := resolve_eq_error ha hr
      exact ⟨cause, rfl⟩
  · obtain ⟨q, hlong⟩ := hchain.loop hloop 41
    exact (resolve_eq_error_iff ha).mpr (.tooLong hlong)
  · exact not_hop_of_endsWithSlash hs q

/-- A link to a path with a slash behind it, which is a link to a directory, and a link into a cycle of two. -/
def windingTree : FileSystem where
  entries :=
    [([Utf8.encode "d".toList], .directory), ([Utf8.encode "a".toList], .link (.ofText "b/".toList)),
      ([Utf8.encode "b".toList], .link (.ofText "/d".toList)), ([Utf8.encode "x".toList], .link (.ofText "y".toList)),
      ([Utf8.encode "y".toList], .link (.ofText "/x".toList)), ([Utf8.encode "z".toList], .link (.ofText "x".toList))]
  contents := []

theorem resolve_reach_windingTree :
    ((NativePath.ofText "/a".toList).isAbsolute = true
        ∧ resolve windingTree (.ofText "/a".toList) = .ok (.ofText "/b/".toList)
        ∧ (NativePath.ofText "/b/".toList).endsWithSlash = true
        ∧ ¬Hop windingTree (.ofText "/b/".toList) (.ofText "/d".toList))
      ∧ (NativePath.ofText "/z".toList).isAbsolute = true
      ∧ Chain windingTree (.ofText "/z".toList) 1 (.ofText "/x".toList)
      ∧ Chain windingTree (.ofText "/x".toList) 2 (.ofText "/x".toList)
      ∧ resolve windingTree (.ofText "/z".toList) = .error (.readLink .chainTooLong) := by
  obtain ⟨hfound, -, -, -, hslash⟩ := resolve_reach windingTree (.ofText "/a".toList) (by decide)
  obtain ⟨-, -, -, hloop, -⟩ := resolve_reach windingTree (.ofText "/z".toList) (by decide)
  have ha : Hop windingTree (.ofText "/a".toList) (.ofText "/b/".toList) := follow_eq_ok_iff.mp (by cbv)
  have hz : Hop windingTree (.ofText "/z".toList) (.ofText "/x".toList) := follow_eq_ok_iff.mp (by cbv)
  have hx : Hop windingTree (.ofText "/x".toList) (.ofText "/y".toList) := follow_eq_ok_iff.mp (by cbv)
  have hy : Hop windingTree (.ofText "/y".toList) (.ofText "/x".toList) := follow_eq_ok_iff.mp (by cbv)
  have hb : IsEnd windingTree (.ofText "/b/".toList) := ⟨[Utf8.encode "d".toList], .directory, by cbv, by simp⟩
  have hinto : Chain windingTree (.ofText "/z".toList) 1 (.ofText "/x".toList) := .hop .start hz
  have hback : Chain windingTree (.ofText "/x".toList) 2 (.ofText "/x".toList) := .hop (.hop .start hx) hy
  exact ⟨⟨by decide, (hfound _).mpr ⟨1, by decide, by decide, .hop .start ha, hb⟩, by decide, hslash _ _ (by decide)⟩,
    by decide, hinto, hback, hloop 1 1 _ hinto hback⟩

/-- So many links in a row, each to the next name, and a file at the end. -/
def ladder (rungs : Nat) : FileSystem where
  entries := (List.range rungs).map (fun k => ([[UInt8.ofNat (48 + k)]], .link ⟨[UInt8.ofNat (49 + k)]⟩))
    ++ [([[UInt8.ofNat (48 + rungs)]], .file 0)]
  contents := []

example : resolve (ladder 40) (.ofText "/0".toList) = .ok (.ofText "/X".toList) := by cbv

example : resolve (ladder 41) (.ofText "/0".toList) = .error (.readLink .chainTooLong) := by cbv

end LinkChain

end Relocation
