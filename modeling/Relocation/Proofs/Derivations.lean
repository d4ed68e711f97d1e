import Relocation.Layout
import Relocation.Proofs.UrlReading

/-!
# Chains of derivations change the path only

Place after place can be derived from an origin, each from the one before. The text of a suffix is read again and may
hold anything, so that it must not be taken on trust that a question mark in it stays in the path. No part of a URL
that was read, up to the end of its path, holds a character that would end the path (`IsSealed`), and replacing the
path keeps it so. What stands behind the path is then found again in the text alone.

* `isSealed_parse`: every URL that was read;
* `keeps_derive`: one derivation;
* `keeps_deriveAll`, `parts_deriveAll`: any number of them.
-/

namespace Relocation

namespace Url

open Percent

/-! ### Where a path ends -/

/-- A URL in whose text nothing ends the path but what stands behind the path. -/
structure IsSealed (u : Url) : Prop where
  before : HoldsNoEnd u.beforePath
  path : HoldsNoEnd u.guardedPathText

theorem lacks_segmentsText {p : Char → Bool} (hslash : p '/' = false) {list : List Text} (h : ∀ s ∈ list, Lacks p s) :
    Lacks p (segmentsText list) := by
  intro c hc
  obtain ⟨s, hs, hm⟩ := List.mem_flatMap.mp hc
  rcases List.mem_cons.mp hm with rfl | hm
  · exact hslash
  · exact h s hs c hm

theorem WellRead.holdsNoEnd_segmentsText {kind : SchemeKind} {list : List Text} (h : WellRead kind list) :
    HoldsNoEnd (segmentsText list) :=
  lacks_segmentsText (by decide) fun s hs => holdsNoEnd_of_pathSet (h.tidy s hs).spelled

theorem holdsNoEnd_guardedPathText {u : Url} (hr : HasReadPath u) (hv : ∀ t, u.path = .verbatim t → HoldsNoEnd t) :
    HoldsNoEnd u.guardedPathText := by
  rw [guardedPathText]
  split
  · next t hp => exact hv t hp
  · next guarded list hp =>
    have hguard : Lacks endsPath (if guarded = true then "/.".toList else []) := by
      cases guarded <;> decide
    exact hguard.append (hr guarded list hp).holdsNoEnd_segmentsText

theorem IsRead.isSealed {u : Url} (h : IsRead u) : IsSealed u := by
  refine ⟨?_, holdsNoEnd_guardedPathText h.path h.verbatim⟩
  have hcolon : endsPath ':' = false := by decide
  have hscheme : Lacks endsPath u.scheme := h.scheme.noEnd
  rw [beforePath]
  cases hu : u.authority with
  | none => exact hscheme.append (Lacks.nil.cons hcolon)
  | some a => exact hscheme.append (Lacks.cons hcolon (h.authority a hu).holdsNoEnd_text)

/-- No URL that was read holds an end of a path before the end of its path. -/
theorem isSealed_parse (t : Text) (u : Url) (h : parse t = .ok u) : IsSealed u :=
  (isRead_parse t u h).isSealed

theorem IsSealed.withPath {u : Url} (h : IsSealed u) (t : Text) : IsSealed (u.withPath t) := by
  refine ⟨by rw [beforePath_withPath]; exact h.before, ?_⟩
  cases hp : u.path with
  | verbatim text =>
    rw [Url.withPath, hp]
    exact h.path
  | segments guarded list =>
    have hnew : (u.withPath t).path = .segments guarded (readSegments u.kind t) := by
      rw [Url.withPath, hp]
    refine holdsNoEnd_guardedPathText (fun g l hl => ?_) fun text hv => ?_
    · rw [hnew, Path.segments.injEq] at hl
      rw [← hl.2, Url.withPath, hp]
      exact isReadPath_readSegments u.kind t
    · rw [hnew] at hv
      cases hv

/-- The text from its first question mark or number sign on. -/
def fromTail (t : Text) : Text :=
  t.dropWhile fun c => !endsPath c

theorem fromTail_append {t : Text} (h : HoldsNoEnd t) (rest : Text) : fromTail (t ++ rest) = fromTail rest := by
  induction t with
  | nil => rfl
  | cons c more ih =>
    have hc := h c List.mem_cons_self
    rw [List.cons_append, fromTail, List.dropWhile_cons_of_pos (by rw [hc]; rfl)]
    exact ih fun d hd => h d (List.mem_cons_of_mem _ hd)

theorem fromTail_afterPath (u : Url) : fromTail u.afterPath = u.afterPath := by
  rw [afterPath]
  cases u.query with
  | some query => rfl
  | none =>
    cases u.fragment with
    | some fragment => rfl
    | none => rfl

/-- In a sealed URL, query and fragment are what the text has from its first question mark or number sign on. -/
theorem IsSealed.fromTail_text {u : Url} (h : IsSealed u) : fromTail u.text = u.afterPath := by
  rw [text, fromTail_append (h.before.append h.path), fromTail_afterPath]

end Url

open Url

/-! ### Derivations -/

/-- A place derived from an origin. -/
inductive Derivation where
  /-- The place at a suffix below the base. -/
  | subpath (suffix : Text)
  /-- A directory of the installation. -/
  | dir (d : InstallDir)
  /-- The directory the origin is in. -/
  | startup

namespace Derivation

/-- The place, if there is one. -/
def place? (m : Machine) (o : Origin) : Derivation → Option Url
  | subpath suffix => subpath? o suffix
  | dir d => (⟨m, .fixed o⟩ : Locator).dirUrl? d
  | startup => (⟨m, .fixed o⟩ : Locator).startupUrl?

/-- The place as the next origin; without one the origin stays. -/
def derive (m : Machine) (o : Origin) (d : Derivation) : Origin :=
  (d.place? m o).elim o Origin.mk

/-- Derivations one after the other. -/
def deriveAll (m : Machine) (o : Origin) (ds : List Derivation) : Origin :=
  ds.foldl (derive m) o

/-- Every place is the URL of the origin with another path. -/
theorem place?_eq_some {m : Machine} {o : Origin} {d : Derivation} {u : Url} (h : d.place? m o = some u) :
    ∃ t, u = o.url.withPath t := by
  have hrebuild : ∀ t, rebuild? o.url t = some u → ∃ t, u = o.url.withPath t := by
    intro t ht
    rw [rebuild?] at ht
    split at ht
    · cases ht
    · cases ht
      exact ⟨t, rfl⟩
  have hsub : ∀ suffix, subpath? o suffix = some u → ∃ t, u = o.url.withPath t := by
    intro suffix hs
    rw [subpath?] at hs
    split at hs
    · exact hrebuild _ hs
    · cases hs
  cases d with
  | subpath suffix => exact hsub suffix h
  | dir d => exact hsub d.suffix h
  | startup =>
    have hstart : startup? o = some u := h
    rw [startup?] at hstart
    split at hstart
    · exact hrebuild _ hstart
    · cases hstart

/-- An origin that differs from the first one in its path only, and whose text shows where the path ends. -/
structure Keeps (first o : Origin) : Prop where
  scheme : o.url.scheme = first.url.scheme
  authority : o.url.authority = first.url.authority
  query : o.url.query = first.url.query
  fragment : o.url.fragment = first.url.fragment
  isSealed : IsSealed o.url

/-- One derivation changes the path only. -/
theorem keeps_derive (m : Machine) {first o : Origin} (d : Derivation) (h : Keeps first o) :
    Keeps first (derive m o d) := by
  rw [derive]
  cases hp : d.place? m o with
  | none => exact h
  | some u =>
    obtain ⟨t, rfl⟩ := place?_eq_some hp
    obtain ⟨hs, ha, hq, hf⟩ := parts_withPath o.url t
    exact ⟨hs.trans h.scheme, ha.trans h.authority, hq.trans h.query, hf.trans h.fragment, h.isSealed.withPath t⟩

/-- Any number of derivations change the path only. -/
theorem keeps_deriveAll (m : Machine) {first o : Origin} (ds : List Derivation) (h : Keeps first o) :
    Keeps first (deriveAll m o ds) := by
  induction ds generalizing o with
  | nil => exact h
  | cons d rest ih => exact ih (keeps_derive m d h)

theorem keeps_parse {t : Text} {o : Origin} (h : Origin.parse t = .ok o) : Keeps o o :=
  ⟨rfl, rfl, rfl, rfl, isSealed_parse t o.url (parse_of_origin_parse h)⟩

/-- Whatever is derived from an origin that was read, in any number of steps and with any suffixes, has its scheme,
user, host, port, query and fragment, and the text of it from the query or else the fragment on is that of the
origin. -/
theorem parts_deriveAll (m : Machine) (t : Text) (o : Origin) (ds : List Derivation)
    (h : Origin.parse t = .ok o) :
    (deriveAll m o ds).url.scheme = o.url.scheme
      ∧ (deriveAll m o ds).url.username = o.url.username
      ∧ (deriveAll m o ds).url.password? = o.url.password?
      ∧ (deriveAll m o ds).url.host? = o.url.host?
      ∧ (deriveAll m o ds).url.port? = o.url.port?
      ∧ (deriveAll m o ds).url.query = o.url.query
      ∧ (deriveAll m o ds).url.fragment = o.url.fragment
      ∧ fromTail (deriveAll m o ds).text = fromTail o.text := by
  have hfirst := keeps_parse h
  have hlast := keeps_deriveAll m ds hfirst
  -- both texts have the same end, and both are sealed up to it
  have hafter : (deriveAll m o ds).url.afterPath = o.url.afterPath := by
    rw [afterPath, afterPath, hlast.query, hlast.fragment]
  refine ⟨hlast.scheme, ?_, ?_, ?_, ?_, hlast.query, hlast.fragment, ?_⟩
  · rw [username, username, hlast.authority]
  · rw [password?, password?, hlast.authority]
  · rw [host?, host?, hlast.authority]
  · rw [port?, port?, hlast.authority]
  · show fromTail (deriveAll m o ds).url.text = fromTail o.url.text
    rw [hlast.isSealed.fromTail_text, hfirst.isSealed.fromTail_text, hafter]

theorem parts_deriveAll_ftp :
    ∃ o, Origin.parse "ftp://u:p@h:2121/usr/bin/tool?q#f".toList = .ok o
      ∧ (deriveAll ⟨.empty, ⟨.error .noEntry, .unopened .noEntry, 0, 0⟩⟩ o
          [.subpath "/a\\..\\..?x#y@z:1".toList, .dir .etc, .startup]).url.password? = some "p".toList
      ∧ fromTail (deriveAll ⟨.empty, ⟨.error .noEntry, .unopened .noEntry, 0, 0⟩⟩ o
          [.subpath "/a\\..\\..?x#y@z:1".toList, .dir .etc, .startup]).text = "?q#f".toList := by
  have hread : Origin.parse "ftp://u:p@h:2121/usr/bin/tool?q#f".toList
      = .ok ⟨⟨"ftp".toList, some ⟨"u".toList, some "p".toList, some (.domain "h".toList), some 2121⟩,
        .segments false ["usr".toList, "bin".toList, "tool".toList], some "q".toList, some "f".toList⟩⟩ := by rfl
  obtain ⟨-, -, hpassword, -, -, -, -, htail⟩ :=
    parts_deriveAll ⟨.empty, ⟨.error .noEntry, .unopened .noEntry, 0, 0⟩⟩ _ _
      [.subpath "/a\\..\\..?x#y@z:1".toList, .dir .etc, .startup] hread
  refine ⟨_, hread, hpassword, ?_⟩
  rw [htail]
  decide

end Derivation

end Relocation
