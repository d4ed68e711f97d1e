import Relocation.Proofs.ExactPlaces
import Relocation.Proofs.PrintedUrls

/-!
# A printed place means the same when it is read back

A place is the URL of the origin with another path in it, so that what stands around the path was chosen for the old
one: the authority or its absence, and the guard of a path that begins with two slashes. What is read back from the
text of a place has the new path between the parts that are read back for the origin. The new path never needs a guard
that is not there, and meets no drive the old one did not meet; but it can have a guard it does not need, and then
that guard is gone.

* `readsBack`: a URL that is read back, with a path that can replace its own;
* `canReplace_reread`: the paths of places can;
* `isReadBack_place`: the places of an origin that is read back.
-/

namespace Relocation

open Url

namespace Url

/-! ### The text around a path -/

theorem afterPath_head (u : Url) : ∀ c ∈ u.afterPath.head?, endsPath c = true := by
  rw [afterPath]
  intro c hc
  cases hq : u.query with
  | some query =>
    rw [hq] at hc
    cases hc
    rfl
  | none =>
    rw [hq] at hc
    cases hf : u.fragment with
    | some fragment =>
      rw [hf] at hc
      cases hc
      rfl
    | none =>
      rw [hf] at hc
      cases hc

theorem IsRead.lacks_afterPath {u : Url} (h : IsRead u) : Lacks isTrimmed u.afterPath := by
  have hquery : Lacks isTrimmed (u.query.elim [] fun q => '?' :: q) := by
    cases hq : u.query with
    | none => exact .nil
    | some query => exact Lacks.cons (by decide) (h.query query hq)
  have hfragment : Lacks isTrimmed (u.fragment.elim [] fun f => '#' :: f) := by
    cases hf : u.fragment with
    | none => exact .nil
    | some fragment => exact Lacks.cons (by decide) (h.fragment fragment hf)
  exact hquery.append hfragment

theorem text_of_authority {u : Url} {a : Authority} {list : List Text} (ha : u.authority = some a)
    (hp : u.path = .segments false list) :
    u.text = u.scheme ++ ':' :: (("//".toList ++ a.inner) ++ (segmentsText list ++ u.afterPath)) := by
  rw [text, beforePath, guardedPathText, hp, ha, Option.elim_some, Authority.text_eq]
  simp only [List.append_assoc, List.cons_append, Bool.false_eq_true, if_false, List.nil_append]

theorem text_of_no_authority {u : Url} {guarded : Bool} {list : List Text} (ha : u.authority = none)
    (hp : u.path = .segments guarded list) :
    u.text = u.scheme ++ ':' :: ((if guarded then "/.".toList else []) ++ (segmentsText list ++ u.afterPath)) := by
  rw [text, beforePath, guardedPathText, hp, ha, Option.elim_none]
  simp only [List.append_assoc, List.cons_append, List.nil_append]

theorem text_withSegments (u : Url) (guarded : Bool) (list : List Text) :
    (withSegments u guarded list).text
      = u.beforePath ++ ((if guarded then "/.".toList else []) ++ segmentsText list) ++ u.afterPath := rfl

theorem guardText_inj {g k : Bool} :
    (if g then "/.".toList else []) = (if k then "/.".toList else []) ↔ g = k := by
  cases g <;> cases k <;> decide

/-- With an authority in front no path is guarded. -/
theorem IsRead.path_of_authority {u : Url} (h : IsRead u) {a : Authority} (ha : u.authority = some a) {guarded : Bool}
    {list : List Text} (hp : u.path = .segments guarded list) : u.path = .segments false list := by
  have hg := h.guard guarded list hp
  rw [ha] at hg
  rw [hp, hg]
  rfl

/-! ### Another path between the same parts -/

section WithSegments

variable {u : Url} (hu : IsRead u) {list : List Text} {tail : Text} (hb : IsBelowSlash u.kind list tail)
include hu hb

theorem IsRead.lacks_tail : Lacks isTrimmed (tail ++ u.afterPath) :=
  hb.visible.append hu.lacks_afterPath

theorem parse_withSegments_bare (ha : u.authority = none) {g : Bool} (hg : g = false → needsGuard list = false) :
    parse (withSegments u g list).text
      = .ok ⟨u.scheme, none, .segments (needsGuard (readTrail .plain tail).closed) (readTrail .plain tail).closed,
          (readAfterPath .plain u.afterPath).1, (readAfterPath .plain u.afterPath).2⟩ := by
  rw [text_of_no_authority (u := withSegments u g list) ha rfl, hb.text]
  exact parse_rooted hu.scheme (hu.bare ha) hb.noEnd (hu.lacks_tail hb) (afterPath_head u) fun h => hb.guard (hg h)

theorem parse_withSegments_hosted {a : Authority} (ha : u.authority = some a) (hk : u.kind ≠ .file) :
    parse (withSegments u false list).text
      = match readAuthority u.scheme a.inner true with
        | .error e => .error e
        | .ok (b, _) => .ok ⟨u.scheme, some b, .segments false (readSegments u.kind ('/' :: tail)),
            (readAfterPath u.kind u.afterPath).1, (readAfterPath u.kind u.afterPath).2⟩ := by
  have hauthority := hu.authority a ha
  rw [text_of_authority (u := withSegments u false list) ha rfl, hb.text]
  exact parse_hosted hu.scheme hb.noEnd (hu.lacks_tail hb) (afterPath_head u) hk hauthority.lacks_inner
    hauthority.inner_ne_nil

theorem parse_withSegments_ofFile {a : Authority} (ha : u.authority = some a) (hk : u.kind = .file) :
    parse (withSegments u false list).text
      = match readLocalHost a.inner with
        | .error e => .error e
        | .ok host => .ok (readAfterHost u.scheme host tail u.afterPath) := by
  obtain ⟨host, he, hletter⟩ := hu.ofFile hk
  rw [ha, Option.some.injEq] at he
  have hd : isDriveLetter a.inner = false := by
    rw [he]
    cases host with
    | none => rfl
    | some found =>
      have hinner : Authority.inner { Authority.empty with host := some found } = found.text := List.append_nil _
      rw [hinner]
      exact hletter found rfl
  rw [text_of_authority (u := withSegments u false list) ha rfl, hb.text]
  exact parse_ofFile hu.scheme hb.noEnd (hu.lacks_tail hb) (afterPath_head u) hk (hu.authority a ha).lacks_inner hd

end WithSegments

/-! ### What one text says -/

/-- Two read URLs with one text have the same authority in it. -/
theorem inner_eq_of_text_eq {u w : Url} (hu : IsRead u) (hw : IsRead w) (hs : w.scheme = u.scheme) {a b : Authority}
    (ha : u.authority = some a) (hb : w.authority = some b) {g k : Bool} {list more : List Text}
    (hp : u.path = .segments g list) (hq : w.path = .segments k more) (h : w.text = u.text) : b.inner = a.inner := by
  have hbreak : ∀ (v : Url) (l : List Text), ∀ c ∈ (segmentsText l ++ v.afterPath).head?, isBreak c = true := by
    intro v l c hc
    cases l with
    | nil =>
      have hend := afterPath_head v c hc
      rcases endsPath_eq_true hend with rfl | rfl <;> rfl
    | cons first rest =>
      cases hc
      rfl
  rw [text_of_authority ha (hu.path_of_authority ha hp), text_of_authority hb (hw.path_of_authority hb hq), hs,
    List.append_cancel_left_eq, List.cons.injEq, List.append_assoc, List.append_assoc] at h
  have hrest := List.append_cancel_left h.2
  exact (append_inj_of_lacks (hw.authority b hb).lacks_inner (hu.authority a ha).lacks_inner (hbreak u list) (hbreak w more)
    hrest).1

/-- What is read back from the text of a URL has the same text before and behind the path. -/
theorem parts_of_text_eq {u w : Url} (hu : IsRead u) (hw : IsRead w) (hs : w.scheme = u.scheme)
    (hn : w.authority.isNone = u.authority.isNone) {g k : Bool} {list more : List Text}
    (hp : u.path = .segments g list) (hq : w.path = .segments k more) (h : w.text = u.text) :
    w.beforePath = u.beforePath ∧ w.afterPath = u.afterPath := by
  constructor
  · rw [beforePath, beforePath, hs]
    cases ha : u.authority with
    | none =>
      rw [ha] at hn
      rw [Option.isNone_iff_eq_none.mp hn]
    | some a =>
      cases hb : w.authority with
      | none =>
        rw [ha, hb] at hn
        cases hn
      | some b =>
        have hinner := inner_eq_of_text_eq hu hw hs ha hb hp hq h
        rw [Option.elim_some, Option.elim_some, Authority.text_eq, Authority.text_eq, hinner]
  · rw [← hu.isSealed.fromTail_text, ← hw.isSealed.fromTail_text, h]

/-! ### Replacing the path of a URL that is read back -/

/-- Segments that can take the place of others: they are read back, and they begin with no second slash and with no
drive letter unless the others do. -/
structure CanReplace (kind : SchemeKind) (list new : List Text) : Prop extends Stays kind new where
  guard : needsGuard new = true → needsGuard list = true
  drive : ∀ first ∈ new.head?, isDriveLetter first = true → ∃ old ∈ list.head?, isDriveLetter old = true

/-- A new path meets a drive only where the old one did. -/
theorem CanReplace.onDrive {list new : List Text} {tail newTail : Text} (h : CanReplace .file list new) (hne : list ≠ [])
    (hw : WellRead .file list) (hb : IsBelowSlash .file list tail) (hn : IsBelowSlash .file new newTail)
    (hd : (readTrail .file newTail).onDrive = true) : (readTrail .file tail).onDrive = true := by
  obtain ⟨first, rest, rfl⟩ := List.exists_cons_of_ne_nil h.ne_nil
  obtain ⟨before, more, rfl⟩ := List.exists_cons_of_ne_nil hne
  rw [h.toStays.onDrive hn] at hd
  obtain ⟨old, ho, hold⟩ := h.drive first rfl hd
  cases ho
  exact onDrive_of_isDriveLetter hw hb hold

/-- What is read back from a URL with a new path: the parts around the path are those read back before. -/
structure ReadsBack (u w : Url) (guarded : Bool) (new : List Text) : Prop where
  scheme : w.scheme = u.scheme
  isNone : w.authority.isNone = u.authority.isNone
  path : ∃ guarded list, w.path = .segments guarded list
  again : parse (withSegments u guarded new).text = .ok (withSegments w (u.authority.isNone && needsGuard new) new)

section ReadsBack

variable {u w : Url} (hu : IsRead u) {g : Bool} {list new : List Text} (hp : u.path = .segments g list)
  (hne : list ≠ []) (hw : parse u.text = .ok w) (hr : CanReplace u.kind list new)
include hu hp hne hw hr

theorem readsBack_bare (ha : u.authority = none) : ReadsBack u w g new := by
  have hk : u.kind = .plain := hu.bare ha
  have hg : g = needsGuard list := by
    rw [hu.guard g list hp, ha]
    rfl
  obtain ⟨tail, hb⟩ := (hu.path g list hp).toWellRead.exists_tail hne
  obtain ⟨newTail, hn⟩ := hr.toWellRead.exists_tail hr.ne_nil
  have hold := parse_withSegments_bare hu hb ha (g := g) fun h => hg ▸ h
  have hnew := parse_withSegments_bare hu hn ha (g := g) fun h => by
    rw [Bool.eq_false_iff]
    intro hneeds
    rw [hg, hr.guard hneeds] at h
    cases h
  have hclosed : (readTrail .plain newTail).closed = new := by
    have hstays := hr.toStays.closed_readTrail hn
    rw [hk] at hstays
    exact hstays
  rw [withSegments_eq_self hp, hw, Except.ok.injEq] at hold
  rw [hclosed] at hnew
  subst hold
  exact ⟨rfl, by rw [ha], ⟨_, _, rfl⟩, by rw [hnew, ha]; rfl⟩

theorem readsBack_hosted {a : Authority} (ha : u.authority = some a) (hk : u.kind ≠ .file) :
    ReadsBack u w false new := by
  obtain ⟨tail, hb⟩ := (hu.path g list hp).toWellRead.exists_tail hne
  obtain ⟨newTail, hn⟩ := hr.toWellRead.exists_tail hr.ne_nil
  have hold := parse_withSegments_hosted hu hb ha hk
  have hnew := parse_withSegments_hosted hu hn ha hk
  rw [withSegments_eq_self (hu.path_of_authority ha hp), hw] at hold
  rw [hr.toStays.readSegments hn] at hnew
  -- the authority is read without a look at the path, so the old text shows what it gives in front of the new path
  cases hread : readAuthority u.scheme a.inner true with
  | error e =>
    rw [hread] at hold
    cases hold
  | ok pair =>
    rw [hread] at hold hnew
    have hw := Except.ok.inj hold
    subst hw
    exact ⟨rfl, by rw [ha]; rfl, ⟨_, _, rfl⟩, by rw [hnew, ha]; rfl⟩

omit hne hr in
/-- A host that is read back of a local file has no drive behind it: a drive would have dropped it. -/
theorem onDrive_eq_false_of_host {a : Authority} (ha : u.authority = some a) {tail : Text} {found : Host}
    (hlocal : readLocalHost a.inner = .ok (some found)) (he : w = readAfterHost u.scheme (some found) tail u.afterPath)
    (htext : w.text = u.text) : (readTrail .file tail).onDrive = false := by
  rw [Bool.eq_false_iff]
  intro hd
  have hbare : w.authority = some Authority.empty := by
    rw [he, readAfterHost]
    simp only [hd, if_true]
    rfl
  have hinner := inner_eq_of_text_eq hu (isRead_parse _ _ hw) (by rw [he]; rfl) ha hbare hp
    (show w.path = .segments false _ by rw [he]; rfl) htext
  rw [← hinner] at hlocal
  cases hlocal

theorem readsBack_ofFile {a : Authority} (ha : u.authority = some a) (hk : u.kind = .file) (htext : w.text = u.text) :
    ReadsBack u w false new := by
  have hread := (hu.path g list hp).toWellRead
  obtain ⟨tail, hb⟩ := hread.exists_tail hne
  obtain ⟨newTail, hn⟩ := hr.toWellRead.exists_tail hr.ne_nil
  have hold := parse_withSegments_ofFile hu hb ha hk
  have hnew := parse_withSegments_ofFile hu hn ha hk
  rw [withSegments_eq_self (hu.path_of_authority ha hp), hw] at hold
  rw [hk] at hb hn hread hr
  cases hlocal : readLocalHost a.inner with
  | error e =>
    rw [hlocal] at hold
    cases hold
  | ok host =>
    rw [hlocal] at hold hnew
    have hwhost : w = readAfterHost u.scheme host tail u.afterPath := Except.ok.inj hold
    have hhost : (if (readTrail .file newTail).onDrive then none else host)
        = if (readTrail .file tail).onDrive then none else host := by
      cases host with
      | none => rw [ite_self, ite_self]
      | some found =>
        have hbefore := onDrive_eq_false_of_host hu hp hw ha hlocal hwhost htext
        have hafter : (readTrail .file newTail).onDrive = false := by
          rw [Bool.eq_false_iff]
          intro hd
          rw [hr.onDrive hne hread hb hn hd] at hbefore
          cases hbefore
        rw [hbefore, hafter]
    refine ⟨by rw [hwhost]; rfl, by rw [hwhost, ha]; rfl, ⟨_, _, by rw [hwhost]; rfl⟩, ?_⟩
    rw [hnew, hwhost, ha]
    simp only [readAfterHost, hhost, hr.toStays.closed_readTrail hn]
    rfl

/-- Whatever the authority is, a new path is read back with the parts that were read back before. -/
theorem readsBack (htext : w.text = u.text) : ReadsBack u w g new := by
  cases ha : u.authority with
  | none => exact readsBack_bare hu hp hne hw hr ha
  | some a =>
    have hg : g = false := by
      rw [hu.guard g list hp, ha]
      rfl
    subst hg
    by_cases hk : u.kind = .file
    · exact readsBack_ofFile hu hp hne hw hr ha hk htext
    · exact readsBack_hosted hu hp hne hw hr ha hk

end ReadsBack

/-! ### Segments that can take the place of others -/

theorem eq_nil_of_withColon {s : Text} (h : withColon s = []) : s = [] := by
  rw [withColon] at h
  split at h
  · simp at h
  · exact h

theorem isDriveLetter_of_withColon {s : Text} (h : isDriveLetter (withColon s) = true) : isDriveLetter s = true := by
  rw [withColon] at h
  split at h
  · assumption
  · exact h

/-- The first segment is reread as itself, but for the colon of a drive letter. -/
theorem exists_reread_cons (kind : SchemeKind) (first : Text) (rest : List Text) :
    ∃ again more, reread kind (first :: rest) = again :: more ∧ (again = first ∨ again = withColon first) := by
  rw [reread]
  split
  · exact ⟨_, _, rfl, Or.inr rfl⟩
  · exact ⟨_, _, rfl, Or.inl rfl⟩

theorem needsGuard_cons (first : Text) (rest : List Text) :
    needsGuard (first :: rest) = true ↔ first = [] ∧ rest ≠ [] := by
  cases first with
  | nil => cases rest <;> simp [needsGuard]
  | cons c more => simp [needsGuard]

/-- Segments with a beginning of a read path in front, reread, can take the place of the path. -/
theorem canReplace_reread {kind : SchemeKind} {list front rest back : List Text} (he : list = front ++ rest)
    (hrest : rest ≠ []) (hlist : WellRead kind list) (hnew : IsReadPath kind (reread kind front ++ back)) (hne : back ≠ [])
    (hdots : ∀ s ∈ back, isDots s = false) (hguard : needsGuard back = false)
    (hdrive : ∀ s ∈ back.head?, isDriveLetter s = false) : CanReplace kind list (reread kind front ++ back) := by
  have hstable : IsStable kind (reread kind front ++ back) := by
    rw [he] at hlist
    refine (isStable_reread hlist.of_append).append hdots fun s hs => ?_
    rw [withColon, hdrive s hs]
    rfl
  refine ⟨⟨hnew, hstable, by simp [hne]⟩, ?_, ?_⟩
  · intro hneeds
    cases front with
    | nil =>
      -- nothing is left of the old path
      rw [reread, List.nil_append, hguard] at hneeds
      cases hneeds
    | cons first more =>
      obtain ⟨again, tail, hr, hagain⟩ := exists_reread_cons kind first more
      rw [hr, List.cons_append, needsGuard_cons] at hneeds
      have hfirst : first = [] := by
        rcases hagain with rfl | rfl
        · exact hneeds.1
        · exact eq_nil_of_withColon hneeds.1
      rw [he, List.cons_append, needsGuard_cons]
      exact ⟨hfirst, by simp [hrest]⟩
  · intro s hs hd
    cases front with
    | nil =>
      rw [reread, List.nil_append] at hs
      rw [hdrive s hs] at hd
      cases hd
    | cons first more =>
      obtain ⟨again, tail, hr, hagain⟩ := exists_reread_cons kind first more
      rw [hr] at hs
      cases hs
      refine ⟨first, by rw [he]; rfl, ?_⟩
      rcases hagain with rfl | rfl
      · exact hd
      · exact isDriveLetter_of_withColon hd

/-! ### Where a URL will do for a path -/

theorem IsScheme.exists_letter {s : Text} (h : IsScheme s) : ∃ c rest, s = c :: rest ∧ c.isAlpha = true := by
  have hagain := h.again []
  cases s with
  | nil => cases hagain
  | cons c rest =>
    refine ⟨c, rest, rfl, ?_⟩
    have hc := isSkipped_of_isTrimmed (h.visible c List.mem_cons_self)
    rw [List.cons_append, readScheme?, List.dropWhile_cons_of_neg (by rw [hc]; simp)] at hagain
    by_contra halpha
    simp only [halpha, if_false] at hagain
    cases hagain

/-- A text that begins with a letter is no absolute path. -/
theorem isAbsolute_ofText {c : Char} (hc : c.isAlpha = true) (t : Text) :
    (NativePath.ofText (c :: t)).isAbsolute = false := by
  have hletter := toNat_of_isAlpha c hc
  have hbyte : Utf8.encodeChar c = [UInt8.ofNat c.toNat] := by
    rw [Utf8.encodeChar, if_pos (by omega)]
  have hslash : UInt8.ofNat c.toNat ≠ slashByte := by
    intro he
    have hn := congrArg UInt8.toNat he
    rw [UInt8.toNat_ofNat_of_lt' (by show c.toNat < 256; omega)] at hn
    rw [show slashByte.toNat = 47 from rfl] at hn
    omega
  rw [NativePath.isAbsolute, NativePath.ofText, Utf8.encode_cons, hbyte]
  simpa using hslash

/-- The text of a URL is read as a URL, also where it could be a path. -/
theorem read_text_eq_parse {u : Url} (h : IsScheme u.scheme) (fs : FileSystem) :
    Origin.read fs u.text = Origin.parse u.text := by
  obtain ⟨c, rest, hs, hc⟩ := h.exists_letter
  have htext : u.text = c :: (rest ++ ':' :: (u.authority.elim [] Authority.text) ++ u.guardedPathText ++ u.afterPath) := by
    rw [text, beforePath, hs]
    rfl
  have habs : (NativePath.ofText u.text).isAbsolute = false := by
    rw [htext]
    exact isAbsolute_ofText hc _
  rw [Origin.read]
  simp only [habs, Bool.false_eq_true, if_false]

end Url

theorem InstallDir.needsGuard_suffix (d : InstallDir) : needsGuard (splitOn '/' d.suffix) = false := by
  cases d <;> decide

/-! ### The places of an origin -/

/-- Whether nothing but the last segment of the origin's path stands behind the empty one that is guarded. -/
def LosesGuard (o : Origin) : Prop :=
  ∃ last, o.url.path = .segments true [[], last]

/-- What is read back from the text of a place `u` of the origin `o`, which itself is read back as `again`: the path
between the same text, and the host that is read back for the origin. Whether nothing is different is `kept`. -/
structure IsReadBack (o again : Origin) (u v : Url) (kept : Prop) : Prop where
  parse : Origin.parse u.text = .ok ⟨v⟩
  read : ∀ fs, Origin.read fs u.text = .ok ⟨v⟩
  path : v.pathText = u.pathText
  before : v.beforePath = u.beforePath
  after : v.afterPath = u.afterPath
  host : v.host? = again.url.host?
  same : v.text = u.text ↔ kept
  equal : again = o → (v = u ↔ kept)

section Places

variable {o again : Origin} (hu : IsRead o.url) {g : Bool} {list : List Text} (hp : o.url.path = .segments g list)
include hu hp

theorem canReplace_dirSegments (hl : 2 ≤ list.length) (d : InstallDir) :
    CanReplace o.url.kind list (dirSegments o.url.kind list d) := by
  have hr := hu.path g list hp
  have hnew : IsReadPath o.url.kind (dirSegments o.url.kind list d) :=
    hasReadPath_subpath? hu.path (subpath?_suffix hp hr hl d) g _ rfl
  have hne : list ≠ [] := List.ne_nil_of_length_pos (by omega)
  have hfront : list.dropLast ≠ [] := List.ne_nil_of_length_pos (by rw [List.length_dropLast]; omega)
  have hsplit : list = list.dropLast.dropLast ++ ([list.dropLast.getLast hfront] ++ [list.getLast hne]) := by
    rw [← List.append_assoc, List.dropLast_concat_getLast hfront, List.dropLast_concat_getLast hne]
  exact canReplace_reread hsplit (by simp) hr.toWellRead hnew (splitOn_ne_nil '/' _)
    (fun s hs => (d.isPlainName_of_mem s hs).dots) d.needsGuard_suffix d.isDriveLetter_head

theorem canReplace_startupSegments (hl : 1 ≤ list.length) :
    CanReplace o.url.kind list (startupSegments o.url.kind list) := by
  have hr := hu.path g list hp
  have hnew : IsReadPath o.url.kind (startupSegments o.url.kind list) :=
    hasReadPath_startup? hu.path (startup?_eq_some hp hr hl) g _ rfl
  have hne : list ≠ [] := List.ne_nil_of_length_pos hl
  exact canReplace_reread (List.dropLast_concat_getLast hne).symm (List.cons_ne_nil _ _) hr.toWellRead hnew (List.cons_ne_nil _ _)
    (fun s hs => by rw [List.mem_singleton.mp hs]; rfl) rfl (fun s hs => by cases hs; rfl)

omit hu in
/-- An origin without a guard has none to lose. -/
theorem not_losesGuard (hg : g = false) : ¬LosesGuard o := by
  rintro ⟨last, hlast⟩
  rw [hp, Path.segments.injEq, hg] at hlast
  cases hlast.1

theorem eq_true_of_guard (hg : g = true) : o.url.authority = none ∧ needsGuard list = true := by
  have hguard := hu.guard g list hp
  rw [hg, eq_comm, Bool.and_eq_true] at hguard
  exact ⟨Option.isNone_iff_eq_none.mp hguard.1, hguard.2⟩

/-- Without a guard in the old path, there is no need for one in a path that can take its place. -/
theorem needsGuard_eq_false (hg : g = false) {new : List Text} (hr : CanReplace o.url.kind list new) :
    (o.url.authority.isNone && needsGuard new) = false := by
  have hguard := hu.guard g list hp
  rw [hg, eq_comm, Bool.and_eq_false_iff] at hguard
  rw [Bool.and_eq_false_iff]
  refine hguard.imp_right fun hlist => ?_
  rw [Bool.eq_false_iff]
  intro hneeds
  rw [hr.guard hneeds] at hlist
  cases hlist

/-- A directory needs the guard of the origin exactly if the guarded segment is above the base. -/
theorem needsGuard_dirSegments (hl : 2 ≤ list.length) (d : InstallDir) :
    (o.url.authority.isNone && needsGuard (dirSegments o.url.kind list d)) = g ↔ ¬LosesGuard o := by
  cases hg : g with
  | false => exact iff_of_true (needsGuard_eq_false hu hp hg (canReplace_dirSegments hu hp hl d)) (not_losesGuard hp hg)
  | true =>
    obtain ⟨ha, hneeds⟩ := eq_true_of_guard hu hp hg
    rw [ha, hu.bare ha]
    match list, hl, hneeds with
    | [[], last], _, _ =>
      -- both segments go, and the suffix needs no guard
      have hlost : LosesGuard o := ⟨last, by rw [hp, hg]⟩
      have hnone : needsGuard (dirSegments .plain [[], last] d) = false := d.needsGuard_suffix
      rw [hnone]
      exact iff_of_false Bool.noConfusion fun h => h hlost
    | [] :: second :: third :: more, _, _ =>
      have hkept : ¬LosesGuard o := by
        rintro ⟨last, hlast⟩
        rw [hp] at hlast
        cases hlast
      have hdir : dirSegments .plain ([] :: second :: third :: more) d
          = [] :: ((second :: third :: more).dropLast.dropLast ++ splitOn '/' d.suffix) := rfl
      rw [hdir, (needsGuard_cons _ _).mpr ⟨rfl, List.append_ne_nil_of_right_ne_nil _ (splitOn_ne_nil '/' _)⟩]
      exact iff_of_true rfl hkept

theorem needsGuard_startupSegments (hl : 1 ≤ list.length) :
    (o.url.authority.isNone && needsGuard (startupSegments o.url.kind list)) = g := by
  cases hg : g with
  | false => exact needsGuard_eq_false hu hp hg (canReplace_startupSegments hu hp hl)
  | true =>
    obtain ⟨ha, hneeds⟩ := eq_true_of_guard hu hp hg
    rw [ha, hu.bare ha]
    match list, hneeds with
    | [] :: second :: more, _ =>
      have hstart : startupSegments .plain ([] :: second :: more) = [] :: ((second :: more).dropLast ++ [[]]) := rfl
      rw [hstart, (needsGuard_cons _ _).mpr ⟨rfl, List.append_ne_nil_of_right_ne_nil _ (List.cons_ne_nil _ _)⟩]
      rfl

/-- A place is read back with its path between the same parts, and with the guard where it is needed. -/
theorem isReadBack_withSegments (hne : list ≠ []) {new : List Text} (hr : CanReplace o.url.kind list new)
    (hback : Url.parse o.url.text = .ok again.url) (hsame : again.url.text = o.url.text) :
    ∃ v, IsReadBack o again (withSegments o.url g new) v ((o.url.authority.isNone && needsGuard new) = g) := by
  have hreads := readsBack hu hp hne hback hr hsame
  obtain ⟨k, more, hq⟩ := hreads.path
  obtain ⟨hbefore, hafter⟩ := parts_of_text_eq hu (isRead_parse _ _ hback) hreads.scheme hreads.isNone hp hq hsame
  have hparse : Origin.parse (withSegments o.url g new).text
      = .ok ⟨withSegments again.url (o.url.authority.isNone && needsGuard new) new⟩ := by
    rw [Origin.parse, hreads.again]
  refine ⟨_, hparse, fun fs => ?_, rfl, hbefore, hafter, rfl, ?_, fun he => ?_⟩
  · rw [read_text_eq_parse (u := withSegments o.url g new) hu.scheme, hparse]
  · rw [text_withSegments, text_withSegments, hbefore, hafter, List.append_cancel_right_eq, List.append_cancel_left_eq,
      List.append_cancel_right_eq]
    exact guardText_inj
  · rw [he]
    constructor
    · intro h
      exact (Path.segments.inj (congrArg Url.path h)).1
    · intro h
      rw [h]

end Places

/-! ### What a printed place says -/

/-- A printed place means the same when it is read back. If an origin is read back as itself, then from the text of any
of its directories, and of the directory it is in, a URL with the same path between the same parts is read, also where a
path would do. It is the URL that was printed, except for the directories of an origin that loses its guard. -/
theorem isReadBack_place (m : Machine) (t : Text) (o again : Origin) (h : Origin.parse t = .ok o)
    (hback : Origin.parse o.text = .ok again) (hsame : again.text = o.text) :
    (∀ d u, (⟨m, .fixed o⟩ : Locator).dirUrl? d = some u → ∃ v, IsReadBack o again u v (¬LosesGuard o))
      ∧ ∀ u, (⟨m, .fixed o⟩ : Locator).startupUrl? = some u → ∃ v, IsReadBack o again u v True := by
  have hu : IsRead o.url := isRead_parse t o.url (parse_of_origin_parse h)
  have hagain : Url.parse o.url.text = .ok again.url := parse_of_origin_parse hback
  constructor
  · intro d u hd
    have hplace : subpath? o d.suffix = some u := hd
    obtain ⟨g, list, hp, hr, hl⟩ := segments_of_subpath? hu.path hplace
    have hne : list ≠ [] := List.ne_nil_of_length_pos (by omega)
    rw [subpath?_suffix hp hr hl, Option.some.injEq] at hplace
    subst hplace
    have hread := isReadBack_withSegments hu hp hne (canReplace_dirSegments hu hp hl d) hagain hsame
    rwa [needsGuard_dirSegments hu hp hl d] at hread
  · intro u hs
    have hplace : startup? o = some u := hs
    obtain ⟨g, list, hp, hr, hl⟩ := segments_of_startup? hu.path hplace
    have hne : list ≠ [] := List.ne_nil_of_length_pos (by omega)
    rw [startup?_eq_some hp hr hl, Option.some.injEq] at hplace
    subst hplace
    have hread := isReadBack_withSegments hu hp hne (canReplace_startupSegments hu hp hl) hagain hsame
    rwa [needsGuard_startupSegments hu hp hl, eq_self] at hread

/-- The guard is kept where a segment stays behind the empty one. -/
theorem isReadBack_place_guarded :
    ∃ o u, Origin.parse "a:/.//bin/tool?q".toList = .ok o ∧ Origin.parse o.text = .ok o
      ∧ (⟨⟨.empty, ⟨.error .noEntry, .unopened .noEntry, 0, 0⟩⟩, .fixed o⟩ : Locator).dirUrl? .locale = some u
      ∧ u.text = "a:/.//share/locale?q".toList ∧ Origin.parse u.text = .ok ⟨u⟩ := by
  have hread : Origin.parse "a:/.//bin/tool?q".toList
      = .ok ⟨⟨"a".toList, none, .segments true [[], "bin".toList, "tool".toList], some "q".toList, none⟩⟩ := by rfl
  obtain ⟨hdirs, -⟩ := isReadBack_place ⟨.empty, ⟨.error .noEntry, .unopened .noEntry, 0, 0⟩⟩ _ _ _ hread hread rfl
  obtain ⟨v, hv⟩ := hdirs .locale _ rfl
  have hkept : v = _ := (hv.equal rfl).mpr (by rintro ⟨last, hlast⟩; cases hlast)
  exact ⟨_, _, hread, hread, rfl, rfl, by rw [hv.parse, hkept]⟩

/-- A guard that is kept for nothing is gone when the place is read back. -/
theorem dirUrl?_lib_lostGuard :
    ∃ o u v, Origin.parse "a:/.//y".toList = .ok o ∧ Origin.parse o.text = .ok o
      ∧ (⟨⟨.empty, ⟨.error .noEntry, .unopened .noEntry, 0, 0⟩⟩, .fixed o⟩ : Locator).dirUrl? .lib = some u
      ∧ u.text = "a:/./lib".toList ∧ Origin.parse u.text = .ok v ∧ v.text = "a:/lib".toList ∧ v ≠ ⟨u⟩ := by
  have hread : Origin.parse "a:/.//y".toList
      = .ok ⟨⟨"a".toList, none, .segments true [[], "y".toList], none, none⟩⟩ := by rfl
  have hagain : Origin.parse "a:/./lib".toList = .ok ⟨⟨"a".toList, none, .segments false ["lib".toList], none, none⟩⟩ := by rfl
  exact ⟨_, _, _, hread, hread, rfl, rfl, hagain, rfl, by decide⟩

end Relocation
