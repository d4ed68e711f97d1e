import Relocation.Layout
import Relocation.Proofs.UrlReading

/-!
# A program finds the tree it was found in

A program put below the base of an installation, at `bin/name`, is an origin itself, and its places are those of the
first origin. Its path was read once more than that of the first origin, so this asks reading to change nothing that it
left before (`reread_eq_self`, `isStable_reread`), and what it does with a suffix to depend on that alone.

The directory of an origin is an origin, too. It is its own directory, and its places are those of the first origin,
but for one kind of path: `/C:/../x`, where dots are held behind a drive letter and nothing but the last segment follows.
There the dots are dropped with the directory and a segment more is lost (`HoldsDots`).

* `subpath?_bin`, `subpath?_subpath?_bin`, `startup?_subpath?_bin`: the program at `bin/name`;
* `startup?_startup?`, `subpath?_startup?_eq`, `subpath?_startup?_ne`: the directory of an origin;
* `sameTree`: all of it, for every origin that was read.
-/

namespace Relocation

namespace Url

/-! ### Segments that reading leaves as they are -/

/-- Segments that stay as they are when they are read again. -/
def IsStable (kind : SchemeKind) (list : List Text) : Prop :=
  kind = .file → (∀ first ∈ list.head?, withColon first = first) ∧ ∀ s ∈ list.tail, isDots s = false

theorem isStable_nil (kind : SchemeKind) : IsStable kind [] := by
  intro _
  constructor
  · intro _ hf
    cases hf
  · intro _ hs
    cases hs

theorem reread_eq_self {kind : SchemeKind} {list : List Text} (h : IsStable kind list) : reread kind list = list := by
  match list with
  | [] => rfl
  | [first] =>
    rw [reread]
    split
    · next hk => rw [(h hk).1 first rfl, withoutDots]
    · rfl
  | first :: second :: more =>
    rw [reread]
    split
    · next hk =>
      have hsecond : isDots second = false := (h hk).2 second List.mem_cons_self
      rw [(h hk).1 first rfl, withoutDots, if_neg (by rw [hsecond]; simp)]
    · rfl

theorem withColon_withColon (s : Text) : withColon (withColon s) = withColon s := by
  by_cases hd : isDriveLetter s = true
  · obtain ⟨letter, sign, -, -, rfl⟩ := isDriveLetter_eq_true s hd
    have hcolon : withColon [letter, sign] = [letter, ':'] := by
      rw [withColon, if_pos hd]
      rfl
    rw [hcolon, withColon_drive]
  · have hsame : withColon s = s := by
      rw [withColon, if_neg hd]
    rw [hsame, hsame]

/-- What reading leaves is stable. -/
theorem isStable_reread {kind : SchemeKind} {list : List Text} (h : WellRead kind list) :
    IsStable kind (reread kind list) := by
  cases list with
  | nil => exact isStable_nil kind
  | cons first rest =>
    intro hk
    rw [reread, if_pos hk]
    refine ⟨fun s hs => ?_, h.isDots_withoutDots⟩
    cases hs
    exact withColon_withColon first

theorem IsStable.append {kind : SchemeKind} {front back : List Text} (h : IsStable kind front)
    (hd : ∀ s ∈ back, isDots s = false) (hc : ∀ s ∈ back.head?, withColon s = s) : IsStable kind (front ++ back) := by
  intro hk
  cases front with
  | nil => exact ⟨hc, fun s hs => hd s (List.mem_of_mem_tail hs)⟩
  | cons first rest =>
    refine ⟨(h hk).1, fun s hs => ?_⟩
    rcases List.mem_append.mp hs with hs | hs
    · exact (h hk).2 s hs
    · exact hd s hs

theorem IsStable.dropLast {kind : SchemeKind} {list : List Text} (h : IsStable kind list) :
    IsStable kind list.dropLast := by
  match list with
  | [] => exact h
  | [first] => exact isStable_nil kind
  | first :: second :: more =>
    intro hk
    refine ⟨(h hk).1, fun s hs => (h hk).2 s ?_⟩
    rw [List.dropLast_cons_cons] at hs
    exact List.dropLast_subset _ hs

/-! ### Paths that do not begin with an empty segment -/

/-- A `file` path that does not begin with an empty segment. -/
def IsFull (kind : SchemeKind) (list : List Text) : Prop :=
  kind = .file → ∀ rest, list ≠ [] :: rest

theorem IsFull.settle_eq_self {kind : SchemeKind} {list : List Text} (h : IsFull kind list) :
    settle kind list = list :=
  Url.settle_eq_self fun hk rest he => absurd he (h hk rest)

theorem IsReadPath.isFull {kind : SchemeKind} {list : List Text} (h : IsReadPath kind list)
    (hl : 2 ≤ list.length) : IsFull kind list := by
  intro hk rest he
  rw [he, h.head hk rest he] at hl
  exact absurd hl (by simp)

theorem IsFull.of_append {kind : SchemeKind} {front back : List Text} (h : IsFull kind (front ++ back)) :
    IsFull kind front := by
  intro hk rest he
  exact h hk (rest ++ back) (by rw [he, List.cons_append])

theorem IsFull.dropLast {kind : SchemeKind} {list : List Text} (h : IsFull kind list) : IsFull kind list.dropLast := by
  rcases List.eq_nil_or_concat list with rfl | ⟨front, last, rfl⟩
  · exact h
  · rw [List.concat_eq_append] at h ⊢
    rw [List.dropLast_concat]
    exact h.of_append

theorem IsFull.append {kind : SchemeKind} {front back : List Text} (h : IsFull kind front)
    (hb : front = [] → IsFull kind back) : IsFull kind (front ++ back) := by
  cases front with
  | nil => exact hb rfl
  | cons first rest =>
    intro hk more he
    rw [List.cons_append, List.cons.injEq] at he
    exact h hk rest (by rw [he.1])

/-- Behind a path that does not begin with an empty segment, segments settle as they are. -/
theorem IsFull.settle_append {kind : SchemeKind} {front back : List Text} (h : IsFull kind front)
    (hb : ∀ rest, back = [] :: rest → rest = []) : settle kind (front ++ back) = front ++ back := by
  apply Url.settle_eq_self
  intro hk rest he
  cases front with
  | nil => exact hb rest he
  | cons first more =>
    rw [List.cons_append, List.cons.injEq] at he
    exact absurd (by rw [he.1]) (h hk more)

theorem IsFull.reread {kind : SchemeKind} {list : List Text} (h : IsFull kind list) : IsFull kind (reread kind list) := by
  cases list with
  | nil => exact h
  | cons first rest =>
    intro hk more he
    rw [Url.reread, if_pos hk, List.cons.injEq] at he
    have hfirst : first = [] := by
      have hcolon := he.1
      rw [withColon] at hcolon
      split at hcolon
      · simp at hcolon
      · exact hcolon
    exact h hk rest (by rw [hfirst])

theorem reread_ne_nil {kind : SchemeKind} {list : List Text} (h : list ≠ []) : reread kind list ≠ [] := by
  obtain ⟨first, rest, rfl⟩ := List.exists_cons_of_ne_nil h
  rw [reread]
  split
  · simp
  · simp

/-- Dots held behind a drive letter as the last segment of a directory. -/
def HoldsDotsLast (list : List Text) : Prop :=
  ∃ drive held, list = [drive, held] ∧ isDots held = true

/-- Rereading goes on with the segments above, unless held dots are the last of them. -/
theorem dropLast_reread (kind : SchemeKind) {list : List Text} (h : ¬HoldsDotsLast list) :
    (reread kind list).dropLast = reread kind list.dropLast := by
  match list with
  | [] => rfl
  | [first] =>
    rw [reread]
    split <;> rfl
  | [first, second] =>
    -- the only place where what is dropped could be what rereading drops
    have hsecond : ¬isDots second = true := fun hd => h ⟨first, second, rfl, hd⟩
    rw [List.dropLast_cons_cons, List.dropLast_singleton, reread, reread]
    split
    · rw [withoutDots, withoutDots, if_neg hsecond]
      rfl
    · rfl
  | first :: second :: third :: more =>
    rw [List.dropLast_cons_cons, List.dropLast_cons_cons, reread, reread]
    split
    · rw [withoutDots, withoutDots]
      split
      · rfl
      · rfl
    · rfl

end Url

open Url

/-! ### The program at `bin/name` -/

/-- A name that stays one segment behind the base. -/
structure IsPlainName (name : Text) : Prop where
  slash : '/' ∉ name
  backslash : '\\' ∉ name
  tab : '\t' ∉ name
  returns : '\r' ∉ name
  newline : '\n' ∉ name
  dots : isDots name = false

namespace IsPlainName

theorem nil : IsPlainName [] :=
  ⟨by simp, by simp, by simp, by simp, by simp, rfl⟩

variable {name : Text}

theorem isSkipped_of_mem (h : IsPlainName name) : ∀ c ∈ name, isSkipped c = false := by
  intro c hc
  exact isSkipped_eq_false (fun e => h.tab (e ▸ hc)) (fun e => h.returns (e ▸ hc)) (fun e => h.newline (e ▸ hc))

theorem isSeparator_of_mem (h : IsPlainName name) (kind : SchemeKind) : ∀ c ∈ name, isSeparator kind c = false := by
  intro c hc
  exact isSeparator_eq_false (fun e => h.slash (e ▸ hc)) (fun e => h.backslash (e ▸ hc))

theorem rawSegments_eq (h : IsPlainName name) (kind : SchemeKind) : rawSegments kind name = [name] := by
  have hsplit : rawSegments kind name = splitOn '/' name := by
    refine rawSegments_eq_splitOn fun c hc hsep => ?_
    rw [h.isSeparator_of_mem kind c hc] at hsep
    cases hsep
  rw [hsplit, splitOn_of_not_mem '/' name h.slash]

theorem bin : IsPlainName "bin".toList :=
  ⟨by decide, by decide, by decide, by decide, by decide, by decide⟩

end IsPlainName

/-- The segments of a program at `bin/name`. -/
def binSegments (kind : SchemeKind) (list : List Text) (name : Text) : List Text :=
  reread kind list.dropLast.dropLast ++ ["bin".toList, tidySegment name]

theorem length_binSegments (kind : SchemeKind) (list : List Text) (name : Text) :
    2 ≤ (binSegments kind list name).length := by
  rw [binSegments, List.length_append]
  exact Nat.le_add_left 2 _

theorem dropLast_binSegments (kind : SchemeKind) (list : List Text) (name : Text) :
    (binSegments kind list name).dropLast = reread kind list.dropLast.dropLast ++ ["bin".toList] := by
  have hlast : binSegments kind list name
      = (reread kind list.dropLast.dropLast ++ ["bin".toList]) ++ [tidySegment name] := by
    rw [binSegments, List.append_assoc]
    rfl
  rw [hlast, List.dropLast_concat]

/-- The segments of the directory of an origin. -/
def startupSegments (kind : SchemeKind) (list : List Text) : List Text :=
  reread kind list.dropLast ++ [[]]

theorem reread_dropLast_ne_nil (kind : SchemeKind) {list : List Text} (hl : 2 ≤ list.length) :
    reread kind list.dropLast ≠ [] := by
  refine reread_ne_nil fun hnil => ?_
  have hlen := congrArg List.length hnil
  rw [List.length_dropLast, List.length_nil] at hlen
  omega

theorem length_startupSegments (kind : SchemeKind) {list : List Text} (hl : 2 ≤ list.length) :
    2 ≤ (startupSegments kind list).length := by
  have hpos := List.length_pos_iff.mpr (reread_dropLast_ne_nil kind hl)
  rw [startupSegments, List.length_append, List.length_singleton]
  omega

/-- The path of the directory of an origin is all its segments but the last, reread, and an empty one. -/
theorem startup?_eq_some {o : Origin} {guarded : Bool} {list : List Text} (hp : o.url.path = .segments guarded list)
    (hr : IsReadPath o.url.kind list) (hl : 1 ≤ list.length) :
    startup? o = some (withSegments o.url guarded (startupSegments o.url.kind list)) := by
  have hfull : IsFull o.url.kind (reread o.url.kind list.dropLast) := by
    apply IsFull.reread
    by_cases htwo : 2 ≤ list.length
    · exact (hr.isFull htwo).dropLast
    · have hnil : list.dropLast = [] := by
        rw [List.eq_nil_iff_length_eq_zero, List.length_dropLast]
        omega
      rw [hnil]
      intro _ rest he
      cases he
  rw [startup?_of_segments hp hr.toWellRead, if_neg (by omega), hfull.settle_append fun rest he => by cases he; rfl]
  rfl

section Derived

variable {o : Origin} {guarded : Bool} {list : List Text} (hp : o.url.path = .segments guarded list)
  (hr : IsReadPath o.url.kind list) (hl : 2 ≤ list.length)
include hp hr hl

/-- The base is all segments but the last two, reread, and an empty one. -/
theorem subpath?_base :
    subpath? o [] = some (withSegments o.url guarded (reread o.url.kind list.dropLast.dropLast ++ [[]])) := by
  have hfull := (hr.isFull hl).dropLast.dropLast.reread
  rw [subpath?_of_segments [] hp hr.toWellRead, if_neg (by omega), finishOn_rawSegments_nil,
    hfull.settle_append fun rest he => by cases he; rfl]

/-- Plain names below the base stand behind the reread segments of the base. -/
theorem subpath?_names (s : Text) (first : Text) (more : List Text) (hraw : rawSegments o.url.kind s = first :: more)
    (hplain : ∀ raw ∈ first :: more, IsPlainName raw) (hdrive : isDriveLetter first = false)
    (hfirst : tidySegment first ≠ []) :
    subpath? o s = some (withSegments o.url guarded
      (reread o.url.kind list.dropLast.dropLast ++ (first :: more).map tidySegment)) := by
  have hread : finishOn o.url.kind (reread o.url.kind list.dropLast.dropLast) (first :: more)
      = reread o.url.kind list.dropLast.dropLast ++ (first :: more).map tidySegment := by
    refine finishOn_plain _ _ _ (fun raw hm => (hplain raw hm).isSkipped_of_mem) (fun raw hm => (hplain raw hm).dots) ?_
    intro _ _ raw hm
    cases hm
    exact hdrive
  have hfull : IsFull o.url.kind (reread o.url.kind list.dropLast.dropLast ++ (first :: more).map tidySegment) := by
    refine (hr.isFull hl).dropLast.dropLast.reread.append fun _ _ rest he => ?_
    rw [List.map_cons, List.cons.injEq] at he
    exact hfirst he.1
  rw [subpath?_of_segments s hp hr.toWellRead, if_neg (by omega), hraw, hread, hfull.settle_eq_self]

/-- The path of the program at `bin/name` is the reread base and its own two segments. -/
theorem subpath?_bin {name : Text} (hn : IsPlainName name) :
    subpath? o ("bin/".toList ++ name) = some (withSegments o.url guarded (binSegments o.url.kind list name)) := by
  have hraw : rawSegments o.url.kind ("bin/".toList ++ name) = ["bin".toList, name] := by
    have hbelow := rawSegments_below o.url.kind ["bin".toList] name fun s hs => by
      rw [List.mem_singleton.mp hs]
      exact IsPlainName.bin.isSeparator_of_mem _
    rw [hn.rawSegments_eq] at hbelow
    exact hbelow
  refine subpath?_names hp hr hl _ "bin".toList [name] hraw (fun raw hm => ?_) (by decide) (by decide)
  rcases List.mem_cons.mp hm with rfl | hm
  · exact IsPlainName.bin
  · rw [List.mem_singleton.mp hm]
    exact hn

theorem isReadPath_binSegments {name : Text} (hn : IsPlainName name) :
    IsReadPath o.url.kind (binSegments o.url.kind list name) :=
  hasReadPath_subpath? (hasReadPath_of_segments hp hr) (subpath?_bin hp hr hl hn) guarded _ rfl

theorem isReadPath_startupSegments : IsReadPath o.url.kind (startupSegments o.url.kind list) :=
  hasReadPath_startup? (hasReadPath_of_segments hp hr) (startup?_eq_some hp hr (by omega)) guarded _ rfl

/-! ### The same places -/

/-- The program at `bin/name` has the places of the origin. -/
theorem subpath?_subpath?_bin {name : Text} (hn : IsPlainName name) (s : Text) :
    subpath? ⟨withSegments o.url guarded (binSegments o.url.kind list name)⟩ s = subpath? o s := by
  have hlen := length_binSegments o.url.kind list name
  -- the base of the program is the reread base of the origin, and rereading it once more changes nothing
  have hagain := subpath?_of_segments (o := ⟨withSegments o.url guarded (binSegments o.url.kind list name)⟩) s rfl
    (isReadPath_binSegments hp hr hl hn).toWellRead
  rw [hagain, if_neg (by omega), dropLast_binSegments, List.dropLast_concat, subpath?_of_segments s hp hr.toWellRead,
    if_neg (by omega)]
  show some (withSegments o.url guarded (settle o.url.kind
    (finishOn o.url.kind (reread o.url.kind (reread o.url.kind list.dropLast.dropLast)) (rawSegments o.url.kind s)))) = _
  rw [reread_eq_self (isStable_reread hr.toWellRead.dropLast.dropLast)]

/-- The directory of the program at `bin/name` is the place `bin/`. -/
theorem startup?_subpath?_bin {name : Text} (hn : IsPlainName name) :
    startup? ⟨withSegments o.url guarded (binSegments o.url.kind list name)⟩ = subpath? o "bin/".toList := by
  have hstable : IsStable o.url.kind (reread o.url.kind list.dropLast.dropLast ++ ["bin".toList]) :=
    (isStable_reread hr.toWellRead.dropLast.dropLast).append (by decide) (by decide)
  have hbin := subpath?_bin hp hr hl IsPlainName.nil
  rw [List.append_nil] at hbin
  have hagain := startup?_eq_some (o := ⟨withSegments o.url guarded (binSegments o.url.kind list name)⟩) rfl
    (isReadPath_binSegments hp hr hl hn) (Nat.le_of_succ_le (length_binSegments o.url.kind list name))
  rw [hagain, hbin, startupSegments, dropLast_binSegments]
  show some (withSegments o.url guarded
    (reread o.url.kind (reread o.url.kind list.dropLast.dropLast ++ ["bin".toList]) ++ [[]])) = _
  rw [reread_eq_self hstable, binSegments, List.append_assoc]
  rfl

/-- The directory of an origin is its own directory. -/
theorem startup?_startup? :
    startup? ⟨withSegments o.url guarded (startupSegments o.url.kind list)⟩
      = some (withSegments o.url guarded (startupSegments o.url.kind list)) := by
  have hagain := startup?_eq_some (o := ⟨withSegments o.url guarded (startupSegments o.url.kind list)⟩) rfl
    (isReadPath_startupSegments (o := o) hp hr hl) (Nat.le_of_succ_le (length_startupSegments o.url.kind hl))
  rw [hagain, startupSegments, startupSegments, List.dropLast_concat]
  show some (withSegments o.url guarded (reread o.url.kind (reread o.url.kind list.dropLast) ++ [[]])) = _
  rw [reread_eq_self (isStable_reread hr.toWellRead.dropLast)]

/-- The places of the directory of an origin are read behind the reread directory without its last segment. -/
theorem subpath?_startup? (s : Text) :
    subpath? ⟨withSegments o.url guarded (startupSegments o.url.kind list)⟩ s
      = some (withSegments o.url guarded (settle o.url.kind
        (finishOn o.url.kind (reread o.url.kind list.dropLast).dropLast (rawSegments o.url.kind s)))) := by
  have hlen := length_startupSegments o.url.kind hl
  have hagain := subpath?_of_segments (o := ⟨withSegments o.url guarded (startupSegments o.url.kind list)⟩) s rfl
    (isReadPath_startupSegments hp hr hl).toWellRead
  rw [hagain, if_neg (by omega), startupSegments, List.dropLast_concat]
  show some (withSegments o.url guarded (settle o.url.kind
    (finishOn o.url.kind (reread o.url.kind (reread o.url.kind list.dropLast).dropLast) (rawSegments o.url.kind s)))) = _
  rw [reread_eq_self (isStable_reread hr.toWellRead.dropLast).dropLast]

/-- Without held dots, the directory of an origin has the places of the origin. -/
theorem subpath?_startup?_eq (hheld : ¬HoldsDotsLast list.dropLast) (s : Text) :
    subpath? ⟨withSegments o.url guarded (startupSegments o.url.kind list)⟩ s = subpath? o s := by
  rw [subpath?_startup? hp hr hl, subpath?_of_segments s hp hr.toWellRead, if_neg (by omega),
    dropLast_reread o.url.kind hheld]

/-- With held dots, it has lost the drive. -/
theorem subpath?_startup?_ne (hheld : HoldsDotsLast list.dropLast) :
    subpath? ⟨withSegments o.url guarded (startupSegments o.url.kind list)⟩ "bin".toList ≠ subpath? o "bin".toList := by
  obtain ⟨drive, held, hfront, hd⟩ := hheld
  have hwell := hr.toWellRead.dropLast
  rw [hfront] at hwell
  obtain ⟨hk, letter, -, rfl⟩ := hwell.first_of_isDots hd
  have hraw : rawSegments o.url.kind "bin".toList = ["bin".toList] := IsPlainName.bin.rawSegments_eq _
  have hfar : reread o.url.kind list.dropLast.dropLast = [[letter, ':']] := by
    rw [hfront, List.dropLast_cons_cons, List.dropLast_singleton, reread, if_pos hk, withColon_drive, withoutDots]
  -- the dots are dropped first, and then the drive is the last segment
  have hnear : (reread o.url.kind list.dropLast).dropLast = [] := by
    rw [hfront, reread, if_pos hk, withoutDots, if_pos hd, List.dropLast_singleton]
  have hread : finishOn o.url.kind [] ["bin".toList] = ["bin".toList] := by
    rw [hk]
    decide
  have hmore := subpath?_names hp hr hl "bin".toList "bin".toList [] hraw
    (fun raw hm => by rw [List.mem_singleton.mp hm]; exact IsPlainName.bin) (by decide) (by decide)
  rw [subpath?_startup? hp hr hl, hmore, hnear, hfar, hraw, hread, hk]
  intro he
  have hpaths := congrArg (fun url => url.map Url.path) he
  simp only [Option.map_some, Option.some.injEq] at hpaths
  have hsegments : settle .file ["bin".toList] = [[letter, ':'], tidySegment "bin".toList] :=
    (Path.segments.inj hpaths).2
  have hlength := congrArg List.length hsegments
  rw [show settle .file ["bin".toList] = ["bin".toList] by decide] at hlength
  exact absurd hlength (by simp)

end Derived

/-! ### Every origin that was read -/

/-- Whether the path of the origin is a drive letter, dots held behind it, and one segment more. -/
def HoldsDots (o : Origin) : Prop :=
  ∃ guarded drive held last, o.url.path = .segments guarded [drive, held, last] ∧ isDots held = true

theorem holdsDotsLast_iff {o : Origin} {guarded : Bool} {list : List Text}
    (hp : o.url.path = .segments guarded list) : HoldsDotsLast list.dropLast ↔ HoldsDots o := by
  constructor
  · rintro ⟨drive, held, he, hd⟩
    have hne : list ≠ [] := by
      rintro rfl
      cases he
    refine ⟨guarded, drive, held, list.getLast hne, ?_, hd⟩
    have hlist := List.dropLast_concat_getLast hne
    rw [he] at hlist
    rw [hp]
    exact congrArg (Path.segments guarded) hlist.symm
  · rintro ⟨g, drive, held, last, hpath, hd⟩
    rw [hp, Path.segments.injEq] at hpath
    exact ⟨drive, held, by rw [hpath.2]; rfl, hd⟩

/-- A program put at `bin/name` below the base of an origin that was read finds the same tree, and its directory is
the place `bin/`. The directory of the origin, taken for an origin, is its own directory, and it finds the same
tree exactly if the path of the origin does not hold dots right in front of its last segment. -/
theorem sameTree (m : Machine) (t : Text) (o : Origin) (h : Origin.parse t = .ok o)
    (hbase : (subpath? o []).isSome = true) :
    (∀ name, IsPlainName name → ∃ u, subpath? o ("bin/".toList ++ name) = some u
        ∧ (∀ s, subpath? ⟨u⟩ s = subpath? o s)
        ∧ (∀ s, subpathFile? ⟨u⟩ s = subpathFile? o s)
        ∧ startup? ⟨u⟩ = subpath? o "bin/".toList)
      ∧ ∃ u, startup? o = some u ∧ startup? ⟨u⟩ = some u
        ∧ ((∀ d, (⟨m, .fixed ⟨u⟩⟩ : Locator).dirUrl? d = (⟨m, .fixed o⟩ : Locator).dirUrl? d) ↔ ¬HoldsDots o) := by
  have hread : HasReadPath o.url := hasReadPath_parse t o.url (parse_of_origin_parse h)
  obtain ⟨v, hv⟩ := Option.isSome_iff_exists.mp hbase
  obtain ⟨guarded, list, hp, hr, hl⟩ := segments_of_subpath? hread hv
  constructor
  · intro name hn
    have hsub := subpath?_subpath?_bin hp hr hl hn
    refine ⟨_, subpath?_bin hp hr hl hn, hsub, fun s => ?_, startup?_subpath?_bin hp hr hl hn⟩
    rw [subpathFile?, subpathFile?, hsub s]
  · refine ⟨_, startup?_eq_some hp hr (by omega), startup?_startup? hp hr hl, ?_⟩
    rw [← holdsDotsLast_iff hp]
    constructor
    · intro hall hheld
      exact subpath?_startup?_ne hp hr hl hheld (hall .bin)
    · intro hheld d
      exact subpath?_startup?_eq hp hr hl hheld d.suffix

theorem sameTree_tool :
    ∃ o u, Origin.parse "http://h/usr/bin/tool?q".toList = .ok o
      ∧ subpath? o "bin/x y".toList = some u
      ∧ subpath? ⟨u⟩ "../share".toList = subpath? o "../share".toList := by
  have hread : Origin.parse "http://h/usr/bin/tool?q".toList
      = .ok ⟨⟨"http".toList, some ⟨[], none, some (.domain "h".toList), none⟩,
        .segments false ["usr".toList, "bin".toList, "tool".toList], some "q".toList, none⟩⟩ := by rfl
  have hname : IsPlainName "x y".toList := ⟨by decide, by decide, by decide, by decide, by decide, by decide⟩
  obtain ⟨u, hu, hsame, -⟩ :=
    (sameTree ⟨.empty, ⟨.error .noEntry, .unopened .noEntry, 0, 0⟩⟩ _ _ hread (by decide)).1 _ hname
  exact ⟨_, u, hread, hu, hsame _⟩

/-- A tab behind the colon of a drive letter keeps the dots that follow, and the directory of the origin drops them. -/
theorem not_sameTree_heldDots :
    ∃ o u, Origin.parse "file:/C:\t../y".toList = .ok o ∧ (subpath? o []).isSome = true ∧ startup? o = some u
      ∧ (⟨⟨.empty, ⟨.error .noEntry, .unopened .noEntry, 0, 0⟩⟩, .fixed ⟨u⟩⟩ : Locator).dirUrl? .bin
        ≠ (⟨⟨.empty, ⟨.error .noEntry, .unopened .noEntry, 0, 0⟩⟩, .fixed o⟩ : Locator).dirUrl? .bin := by
  have hread : Origin.parse "file:/C:\t../y".toList
      = .ok ⟨⟨"file".toList, some Authority.empty, .segments false ["C:".toList, "..".toList, "y".toList], none, none⟩⟩ := by
    rfl
  exact ⟨_, ⟨"file".toList, some Authority.empty, .segments false ["C:".toList, []], none, none⟩, hread, by decide,
    by decide, by decide⟩

end Relocation
