import Relocation.Proofs.Derivations
import Relocation.Proofs.SameTree

/-!
# Reading what was printed

A URL is printed part by part, and what was printed is read part by part again: nothing in a scheme, an authority or a
path ends it before its end. So the parts around a path are read the same whatever the path is, as long as the path
does not read as something else.

* `parse_hosted`, `parse_ofFile`, `parse_rooted`: the three kinds of printed URLs that have segments;
* `Stays`: segments that are read back as they are, with the drive they meet (`Stays.onDrive`).
-/

namespace Relocation.Url

open Percent

/-! ### Where a printed part ends -/

section Parts

variable {p : Char → Bool} {t rest : Text}

/-- What lacks the characters that end a part is the part, if one of them follows or nothing does. -/
theorem span_append (ht : Lacks p t) (hr : ∀ c ∈ rest.head?, p c = true) :
    (t ++ rest).span (fun c => !p c) = (t, rest) := by
  have hall : ∀ c ∈ t, (!p c) = true := fun c hc => by rw [ht c hc]; rfl
  have htake : rest.takeWhile (fun c => !p c) = [] ∧ rest.dropWhile (fun c => !p c) = rest := by
    cases rest with
    | nil => exact ⟨rfl, rfl⟩
    | cons c more =>
      have hc := hr c rfl
      exact ⟨List.takeWhile_cons_of_neg (by rw [hc]; simp), List.dropWhile_cons_of_neg (by rw [hc]; simp)⟩
  rw [List.span_eq_takeWhile_dropWhile, List.takeWhile_append_of_pos hall, List.dropWhile_append_of_pos hall, htake.1,
    htake.2, List.append_nil]

theorem append_inj_of_lacks {s tail : Text} (hs : Lacks p s) (ht : Lacks p t) (hr : ∀ c ∈ rest.head?, p c = true)
    (hl : ∀ c ∈ tail.head?, p c = true) (h : s ++ tail = t ++ rest) : s = t ∧ tail = rest := by
  have hspan := span_append hs hl
  rw [h, span_append ht hr, Prod.mk.injEq] at hspan
  exact ⟨hspan.1.symm, hspan.2.symm⟩

theorem trimEndWhere_of_lacks (ht : Lacks p t) : trimEndWhere p t = t :=
  trimEndWhere_eq_self p t fun c hc => ht c (List.mem_of_getLast? hc)

end Parts

/-! ### The stages of the reader -/

/-- A printed text is read behind its scheme. -/
theorem parse_printed {scheme tail : Text} (hs : IsScheme scheme) (front : Text) (ht : Lacks isTrimmed tail) :
    parse (scheme ++ ':' :: (front ++ '/' :: tail))
      = match SchemeKind.ofScheme scheme with
        | .file => readLocal scheme (front ++ '/' :: tail)
        | .network => readNetwork scheme (front ++ '/' :: tail)
        | .plain => readPlain scheme (front ++ '/' :: tail) := by
  have hend : trimEndWhere isTrimmed (scheme ++ ':' :: (front ++ '/' :: tail)) = scheme ++ ':' :: (front ++ '/' :: tail) := by
    have hassoc : scheme ++ ':' :: (front ++ '/' :: tail) = (scheme ++ ':' :: front) ++ '/' :: tail := by simp
    rw [hassoc, trimEndWhere_append_cons _ _ '/' _ (by decide), trimEndWhere_of_lacks ht]
  have hstart : (scheme ++ ':' :: (front ++ '/' :: tail)).dropWhile isTrimmed = scheme ++ ':' :: (front ++ '/' :: tail) := by
    cases scheme with
    | nil => rfl
    | cons c more =>
      have hc := hs.visible c List.mem_cons_self
      exact List.dropWhile_cons_of_neg (by rw [hc]; simp)
  rewrite [parse, trimWhere, hstart, hend, hs.again]
  rfl

theorem cutHost_append (inside : Bool) (t : Text) : (cutHost inside t).1 ++ (cutHost inside t).2 = t := by
  induction t generalizing inside with
  | nil => rfl
  | cons c rest ih =>
    rw [cutHost]
    split
    · rfl
    · exact congrArg (c :: ·) (ih _)

theorem early_readPort {scheme t early : Text} {port : Option Nat} (ht : '\\' ∉ t)
    (h : readPort scheme t = .ok (port, early)) : early = [] := by
  simp only [readPort, List.span_eq_takeWhile_dropWhile] at h
  have hmem : ∀ c ∈ t.dropWhile Char.isDigit, c ∈ t := fun c hc => (List.dropWhile_sublist _).mem hc
  split at h
  · next hrest =>
    rw [hrest] at h
    split at h
    · cases h
      rfl
    · split at h
      · cases h
      · cases h
        rfl
  · next hrest => exact absurd (hmem '\\' (by rw [hrest]; exact List.mem_cons_self)) ht
  · cases h

theorem early_readHostAndPort {scheme t early : Text} {host : Option Host} {port : Option Nat} (ht : '\\' ∉ t)
    (h : readHostAndPort scheme t = .ok (host, port, early)) : early = [] := by
  have hmem : ∀ c ∈ (cutHost false t).2, c ∈ t := by
    intro c hc
    rw [← cutHost_append false t]
    exact List.mem_append_right _ hc
  simp only [readHostAndPort] at h
  split at h
  · split at h
    · cases h
    · cases h
      rfl
  · split at h
    · cases h
    · split at h
      · next portText hrest =>
        cases hp : readPort scheme portText with
        | error e =>
          rw [hp] at h
          cases h
        | ok pair =>
          rw [hp] at h
          cases h
          refine early_readPort (fun hm => ht (hmem '\\' ?_)) hp
          rw [hrest]
          exact List.mem_cons_of_mem _ hm
      · cases h
        rfl

/-- Without a backslash nothing of an authority belongs to the path. -/
theorem early_readAuthority {scheme t early : Text} {followed : Bool} {a : Authority} (ht : '\\' ∉ t)
    (h : readAuthority scheme t followed = .ok (a, early)) : early = [] := by
  have hmem : ∀ c ∈ (cutUser t).2, c ∈ t := by
    intro c hc
    rw [cutUser] at hc
    split at hc
    · next before after hcut =>
      rw [(cutAtLast?_eq_some '@' t before after hcut).1]
      exact List.mem_append_right _ (List.mem_cons_of_mem _ hc)
    · exact hc
  simp only [readAuthority] at h
  split at h
  · cases h
  · split at h
    · cases h
    · next host port rest hr =>
      split at h
      · cases h
      · cases h
        exact early_readHostAndPort (fun hm => ht (hmem '\\' hm)) hr

theorem unskipped_of_lacks {t : Text} (h : Lacks isBreak t) : unskipped t = t := by
  refine unskipped_eq_self t fun c hc => ?_
  have hb := h c hc
  rw [isBreak, Bool.or_eq_false_iff] at hb
  exact hb.1

/-- The authority and what follows it. -/
theorem readAfterSlashes_printed (scheme : Text) {inner tail after : Text} (hi : Lacks isBreak inner)
    (ht : Lacks endsPath tail) (ha : ∀ c ∈ after.head?, endsPath c = true) :
    readAfterSlashes scheme (inner ++ '/' :: (tail ++ after))
      = match readAuthority scheme inner true with
        | .error e => .error e
        | .ok (a, _) => .ok ⟨scheme, some a, .segments false (readSegments (SchemeKind.ofScheme scheme) ('/' :: tail)),
            (readAfterPath (SchemeKind.ofScheme scheme) after).1, (readAfterPath (SchemeKind.ofScheme scheme) after).2⟩ := by
  have hinner : Lacks (endsAuthority (SchemeKind.ofScheme scheme)) inner := hi.mono fun c hc => isBreak_of_endsAuthority hc
  have hspan : (inner ++ '/' :: (tail ++ after)).span (fun c => !endsAuthority (SchemeKind.ofScheme scheme) c)
      = (inner, '/' :: (tail ++ after)) := span_append hinner fun c hc => by
    cases hc
    rfl
  have hcut : cutPath ('/' :: (tail ++ after)) = ('/' :: tail, after) :=
    span_append (t := '/' :: tail) (ht.cons (by decide)) ha
  rw [readAfterSlashes]
  simp only [hspan, unskipped_of_lacks hi]
  have hfollowed : ('/' :: (tail ++ after) != []) = true := rfl
  rw [hfollowed]
  cases hr : readAuthority scheme inner true with
  | error e => rfl
  | ok pair =>
    obtain ⟨a, early⟩ := pair
    have hearly : early = [] := early_readAuthority (fun hm => by
      have hb := hi '\\' hm
      cases hb) hr
    simp only [hearly, List.nil_append, hcut]

theorem isSkipped_of_isTrimmed {c : Char} (h : isTrimmed c = false) : isSkipped c = false := by
  refine isSkipped_eq_false ?_ ?_ ?_ <;> rintro rfl <;> exact absurd h (by decide)

section Whole

variable {scheme inner tail after : Text} (hs : IsScheme scheme) (ht : Lacks endsPath tail)
  (hv : Lacks isTrimmed (tail ++ after)) (ha : ∀ c ∈ after.head?, endsPath c = true)
include hs ht hv ha

/-- A printed URL with an authority, of any scheme but that of local files. -/
theorem parse_hosted (hk : SchemeKind.ofScheme scheme ≠ .file) (hi : Lacks isBreak inner)
    (hn : SchemeKind.ofScheme scheme = .network → inner ≠ []) :
    parse (scheme ++ ':' :: (("//".toList ++ inner) ++ '/' :: (tail ++ after)))
      = match readAuthority scheme inner true with
        | .error e => .error e
        | .ok (a, _) => .ok ⟨scheme, some a, .segments false (readSegments (SchemeKind.ofScheme scheme) ('/' :: tail)),
            (readAfterPath (SchemeKind.ofScheme scheme) after).1, (readAfterPath (SchemeKind.ofScheme scheme) after).2⟩ := by
  rw [parse_printed hs _ hv, ← readAfterSlashes_printed scheme hi ht ha]
  cases hkind : SchemeKind.ofScheme scheme with
  | file => exact absurd hkind hk
  | network =>
    -- the slashes before the authority are dropped, however many there are
    obtain ⟨c, more, rfl⟩ := List.exists_cons_of_ne_nil (hn hkind)
    have hc := hi c List.mem_cons_self
    have hstop : (isSkipped c || isSeparator .network c) = false := by
      rw [isBreak, endsAuthority, Bool.or_eq_false_iff, Bool.or_eq_false_iff] at hc
      rw [hc.1, hc.2.1]
      rfl
    show readAfterSlashes scheme ((c :: (more ++ '/' :: (tail ++ after))).dropWhile fun c => isSkipped c || isSeparator .network c)
      = readAfterSlashes scheme (c :: (more ++ '/' :: (tail ++ after)))
    rw [List.dropWhile_cons_of_neg (by rw [hstop]; simp)]
  | plain => rfl

/-- A printed URL of the scheme of local files. -/
theorem parse_ofFile (hk : SchemeKind.ofScheme scheme = .file) (hi : Lacks isBreak inner)
    (hd : isDriveLetter inner = false) :
    parse (scheme ++ ':' :: (("//".toList ++ inner) ++ '/' :: (tail ++ after)))
      = match readLocalHost inner with
        | .error e => .error e
        | .ok host => .ok (readAfterHost scheme host tail after) := by
  have hinner : Lacks (endsAuthority .file) inner := hi.mono fun c hc => isBreak_of_endsAuthority hc
  have hspan : (inner ++ '/' :: (tail ++ after)).span (fun c => !endsAuthority .file c)
      = (inner, '/' :: (tail ++ after)) := span_append hinner fun c hc => by
    cases hc
    rfl
  have hcut : cutPath ('/' :: (tail ++ after)) = ('/' :: tail, after) :=
    span_append (t := '/' :: tail) (ht.cons (by decide)) ha
  have hslashes : dropTwoSeparators? .file (("//".toList ++ inner) ++ '/' :: (tail ++ after))
      = some (inner ++ '/' :: (tail ++ after)) := rfl
  have hdrop : dropSeparator .file ('/' :: tail) = tail := rfl
  rw [parse_printed hs _ hv, hk]
  cases hl : readLocalHost inner <;>
    simp only [readLocal, hslashes, hspan, unskipped_of_lacks hi, hd, hcut, hdrop, hl, Bool.false_eq_true, if_false]

omit hs hv in
/-- The guard of a path is read as a segment that stays where it is. -/
theorem cutPath_guarded (guarded : Bool) :
    cutPath ((if guarded then "/.".toList else []) ++ '/' :: (tail ++ after))
        = ((if guarded then "/.".toList else []) ++ '/' :: tail, after) := by
  have hguard : Lacks endsPath (if guarded then "/.".toList else []) := by
    cases guarded <;> decide
  have hall : Lacks endsPath ((if guarded then "/.".toList else []) ++ '/' :: tail) :=
    hguard.append (ht.cons (by decide))
  have hassoc : (if guarded then "/.".toList else []) ++ '/' :: (tail ++ after)
      = ((if guarded then "/.".toList else []) ++ '/' :: tail) ++ after := by
    rw [List.append_assoc]
    rfl
  rw [hassoc]
  exact span_append hall ha

omit hs ht in
/-- A guarded path never reads as an authority, and no path does that goes on with anything but a slash. -/
theorem dropTwoSeparators?_guarded {guarded : Bool} (hg : guarded = false → tail.head? ≠ some '/') :
    dropTwoSeparators? .plain ((if guarded then "/.".toList else []) ++ '/' :: (tail ++ after)) = none := by
  cases guarded with
  | true => rfl
  | false =>
    show dropTwoSeparators? .plain ('/' :: (tail ++ after)) = none
    cases hrest : tail ++ after with
    | nil => rfl
    | cons d more =>
      have hd : d ≠ '/' := by
        rintro rfl
        cases tail with
        | nil =>
          have hend := ha '/' (by rw [List.nil_append] at hrest; rw [hrest]; rfl)
          cases hend
        | cons c rest =>
          rw [List.cons_append, List.cons.injEq] at hrest
          exact hg rfl (by rw [hrest.1]; rfl)
      have hvisible := hv d (by rw [hrest]; exact List.mem_cons_self)
      have hslash : ('/' :: d :: more).dropWhile isSkipped = '/' :: d :: more := rfl
      have hnext : (d :: more).dropWhile isSkipped = d :: more :=
        List.dropWhile_cons_of_neg (by rw [isSkipped_of_isTrimmed hvisible]; simp)
      have hplain : isSeparator .plain d = false := by simp [isSeparator, hd, SchemeKind.isSpecial]
      simp only [dropTwoSeparators?, hslash, hnext, hplain, Bool.false_eq_true, if_false, ite_self]

end Whole

/-- A dot in front of a path changes nothing. -/
theorem closed_readTrail_dot (tail : Text) : (readTrail .plain ('.' :: '/' :: tail)).closed = (readTrail .plain tail).closed := by
  have hdot : ∀ s ∈ [['.']], ∀ c ∈ s, isSeparator .plain c = false := by
    intro s hs c hc
    rw [List.mem_singleton.mp hs] at hc
    rw [List.mem_singleton.mp hc]
    rfl
  have hraw : rawSegments .plain ('.' :: '/' :: tail) = ['.'] :: rawSegments .plain tail :=
    rawSegments_below .plain [['.']] tail hdot
  obtain ⟨raw, more, hr⟩ := List.exists_cons_of_ne_nil (splitOn_ne_nil '/' (tail.map fun c => if isSeparator .plain c then '/' else c))
  rw [closed_readTrail, closed_readTrail, hraw]
  rw [show rawSegments .plain tail = raw :: more from hr, finishOn_cons]
  rfl

/-- A printed URL without an authority. -/
theorem parse_rooted {scheme tail after : Text} (hs : IsScheme scheme) (hk : SchemeKind.ofScheme scheme = .plain)
    (ht : Lacks endsPath tail) (hv : Lacks isTrimmed (tail ++ after)) (ha : ∀ c ∈ after.head?, endsPath c = true)
    {guarded : Bool} (hg : guarded = false → tail.head? ≠ some '/') :
    parse (scheme ++ ':' :: ((if guarded then "/.".toList else []) ++ '/' :: (tail ++ after)))
      = .ok ⟨scheme, none, .segments (needsGuard (readTrail .plain tail).closed) (readTrail .plain tail).closed,
          (readAfterPath .plain after).1, (readAfterPath .plain after).2⟩ := by
  rw [parse_printed hs _ hv, hk]
  simp only [readPlain, dropTwoSeparators?_guarded hv ha hg, cutPath_guarded ht ha]
  cases guarded with
  | true =>
    show Except.ok (Url.mk scheme none (.segments (needsGuard (readTrail .plain ('.' :: '/' :: tail)).closed)
      (readTrail .plain ('.' :: '/' :: tail)).closed) _ _) = _
    rw [closed_readTrail_dot]
  | false => rfl

/-! ### Segments that are read back -/

/-- Segments that are read back as they are. -/
structure Stays (kind : SchemeKind) (list : List Text) : Prop extends IsReadPath kind list where
  stable : IsStable kind list
  ne_nil : list ≠ []

theorem lacks_isTrimmed_segmentsText {kind : SchemeKind} {list : List Text} (ht : ∀ s ∈ list, IsTidy kind s) :
    Lacks isTrimmed (segmentsText list) := by
  have hall : ∀ n < 33, pathSet (UInt8.ofNat n) = true := by decide
  refine lacks_segmentsText (by decide) fun s hs => Lacks.of_spelled (ht s hs).spelled fun c hc => ?_
  rw [isTrimmed, decide_eq_true_eq] at hc
  exact hall c.toNat (by omega)

/-- What stands behind the first slash of a printed path. -/
structure IsBelowSlash (kind : SchemeKind) (list : List Text) (tail : Text) : Prop where
  text : segmentsText list = '/' :: tail
  raw : rawSegments kind tail = list
  noEnd : Lacks endsPath tail
  visible : Lacks isTrimmed tail
  /-- There is no second slash unless the path needs a guard. -/
  guard : needsGuard list = false → tail.head? ≠ some '/'

/-- Segments in their final spelling are found again behind the first slash, also where they move. -/
theorem exists_isBelowSlash {kind : SchemeKind} {list : List Text} (ht : ∀ s ∈ list, IsTidy kind s) (hne : list ≠ []) :
    ∃ tail, IsBelowSlash kind list tail := by
  obtain ⟨first, rest, rfl⟩ := List.exists_cons_of_ne_nil hne
  have htext := segmentsText_cons first rest
  have hends : Lacks endsPath (segmentsText (first :: rest)) :=
    lacks_segmentsText (by decide) fun s hs => holdsNoEnd_of_pathSet (ht s hs).spelled
  have hvisible := lacks_isTrimmed_segmentsText ht
  have hslash : ∀ s ∈ first :: rest, '/' ∉ s := fun s hs => slash_not_mem_of_whole (ht s hs).whole
  rw [htext] at hends hvisible
  refine ⟨first ++ segmentsText rest, htext, ?_, fun c hc => hends c (List.mem_cons_of_mem _ hc),
    fun c hc => hvisible c (List.mem_cons_of_mem _ hc), fun hg => ?_⟩
  · have hsep : ∀ c ∈ first ++ segmentsText rest, isSeparator kind c = true → c = '/' := by
      intro c hc hs
      by_contra hne
      have hwhole : ∀ s ∈ first :: rest, c ∉ s := fun s hm hcs => by
        rw [(ht s hm).whole c hcs] at hs
        cases hs
      rcases List.mem_append.mp hc with hc | hc
      · exact hwhole first List.mem_cons_self hc
      · obtain ⟨s, hm, hcs⟩ := List.mem_flatMap.mp hc
        exact hwhole s (List.mem_cons_of_mem _ hm) ((List.mem_cons.mp hcs).resolve_left hne)
    rw [rawSegments_eq_splitOn hsep]
    exact splitOn_flatMap '/' first rest (hslash first List.mem_cons_self) fun s hs => hslash s (List.mem_cons_of_mem _ hs)
  · cases first with
    | nil =>
      cases rest with
      | nil => exact fun hnone => by cases hnone
      | cons second more => cases hg
    | cons c more =>
      intro hc
      have hslashc : c = '/' := Option.some.inj hc
      exact hslash (c :: more) List.mem_cons_self (by rw [hslashc]; exact List.mem_cons_self)

theorem WellRead.exists_tail {kind : SchemeKind} {list : List Text} (h : WellRead kind list) (hne : list ≠ []) :
    ∃ tail, IsBelowSlash kind list tail :=
  exists_isBelowSlash h.tidy hne

namespace Stays

variable {kind : SchemeKind} {list : List Text}

theorem isDots_of_mem (h : Stays kind list) : ∀ s ∈ list, isDots s = false := by
  by_cases hk : kind = .file
  · obtain ⟨first, rest, rfl⟩ := List.exists_cons_of_ne_nil h.ne_nil
    intro s hs
    rcases List.mem_cons.mp hs with rfl | hs
    · exact h.toWellRead.isDots_first
    · exact (h.stable hk).2 s hs
  · exact h.toWellRead.isDots_of_ne_file hk

theorem finishOn_eq (h : Stays kind list) : finishOn kind [] list = list := by
  rcases List.eq_nil_or_concat list with rfl | ⟨front, last, rfl⟩
  · exact absurd rfl h.ne_nil
  · rw [List.concat_eq_append] at h ⊢
    have hlast : last ∈ front ++ [last] := List.mem_append_right _ List.mem_cons_self
    have htidy := h.tidy last hlast
    have hfront := h.toWellRead.of_append
    have hstable := h.stable.dropLast
    rw [List.dropLast_concat] at hstable
    have hone : (if kind = .file ∧ front = [] then withColon last else last) = last := by
      split
      · next hc =>
        obtain ⟨hk, rfl⟩ := hc
        exact (h.stable hk).1 last rfl
      · rfl
    rw [finishOn_append kind [] front [last] (List.cons_ne_nil _ _), closeAll_eq_reread hfront, reread_eq_self hstable,
      finishOn_singleton_plain kind front last (isSkipped_of_spelled last htidy.spelled) (h.isDots_of_mem last hlast),
      htidy.tidySegment, hone]

variable {tail : Text}

theorem closed_readTrail (h : Stays kind list) (hb : IsBelowSlash kind list tail) :
    (readTrail kind tail).closed = list := by
  rw [Url.closed_readTrail, hb.raw, h.finishOn_eq]
  exact settle_eq_self h.head

theorem readSegments (h : Stays kind list) (hb : IsBelowSlash kind list tail) :
    readSegments kind ('/' :: tail) = list := by
  have hne : unskipped ('/' :: tail) ≠ [] := List.cons_ne_nil '/' _
  rw [Url.readSegments, if_neg (by simp [hne])]
  exact h.closed_readTrail hb

end Stays

/-! ### Drives that are met on the way -/

theorem onDrive_readAll_of_true (kind : SchemeKind) (closed raws : List Text) :
    (Trail.readAll kind ⟨closed, true⟩ raws).onDrive = true := by
  induction raws generalizing closed with
  | nil => rfl
  | cons raw rest ih =>
    cases rest with
    | nil =>
      rw [Trail.readAll, Trail.finish]
      cases moveOf kind closed raw <;> rfl
    | cons next more =>
      have hclose : ∃ left, Trail.close kind ⟨closed, true⟩ raw = ⟨left, true⟩ := by
        rw [Trail.close]
        cases moveOf kind closed raw with
        | up => exact ⟨_, rfl⟩
        | stay => exact ⟨_, rfl⟩
        | into segments drive => exact ⟨_, rfl⟩
      obtain ⟨left, hleft⟩ := hclose
      show ((Trail.close kind ⟨closed, true⟩ raw).readAll kind (next :: more)).onDrive = true
      rw [hleft]
      exact ih left

/-- Behind the first segment no drive is met. -/
theorem onDrive_readAll_plain {closed raws : List Text} (hc : closed ≠ []) (ht : ∀ s ∈ raws, IsTidy .file s)
    (hd : ∀ s ∈ raws, isDots s = false) (d : Bool) : (Trail.readAll .file ⟨closed, d⟩ raws).onDrive = d := by
  induction raws generalizing closed with
  | nil => rfl
  | cons raw rest ih =>
    have hmove := moveOf_plain .file closed raw (isSkipped_of_spelled raw (ht raw List.mem_cons_self).spelled)
      (hd raw List.mem_cons_self)
    have hno : (SchemeKind.file == SchemeKind.file && closed == [] && isDriveLetter (tidySegment raw)) = false := by
      simp [hc]
    rw [hno] at hmove
    cases rest with
    | nil =>
      rw [Trail.readAll, Trail.finish]
      simp only [hmove, Bool.or_false]
    | cons next more =>
      show ((Trail.close .file ⟨closed, d⟩ raw).readAll .file (next :: more)).onDrive = d
      rw [Trail.close]
      simp only [hmove, Bool.or_false]
      exact ih (by simp) (fun s hs => ht s (List.mem_cons_of_mem _ hs)) fun s hs => hd s (List.mem_cons_of_mem _ hs)

section Drive

variable {first tail : Text} {rest : List Text} (hw : WellRead .file (first :: rest))
  (hb : IsBelowSlash .file (first :: rest) tail)
include hw hb

/-- The first segment tells whether a drive is met. -/
theorem onDrive_readTrail :
    (readTrail .file tail).onDrive = (Trail.readAll .file ⟨[withColon first], isDriveLetter first⟩ rest).onDrive := by
  have htidy := hw.tidy first List.mem_cons_self
  have hmove := moveOf_plain .file [] first (isSkipped_of_spelled first htidy.spelled) hw.isDots_first
  rw [htidy.tidySegment, if_pos ⟨rfl, rfl⟩] at hmove
  show (Trail.readAll .file ⟨[], false⟩ (rawSegments .file tail)).onDrive = _
  rw [hb.raw]
  cases rest with
  | nil =>
    show (Trail.finish .file ⟨[], false⟩ first).onDrive = _
    rw [Trail.finish]
    simp only [hmove]
    rfl
  | cons next more =>
    show ((Trail.close .file ⟨[], false⟩ first).readAll .file (next :: more)).onDrive = _
    rw [Trail.close]
    simp only [hmove]
    rfl

theorem onDrive_of_isDriveLetter (hd : isDriveLetter first = true) : (readTrail .file tail).onDrive = true := by
  rw [onDrive_readTrail hw hb, hd]
  exact onDrive_readAll_of_true .file _ rest

end Drive

/-- A path that is read back meets a drive exactly if its first segment is one. -/
theorem Stays.onDrive {first tail : Text} {rest : List Text} (h : Stays .file (first :: rest))
    (hb : IsBelowSlash .file (first :: rest) tail) : (readTrail .file tail).onDrive = isDriveLetter first := by
  rw [onDrive_readTrail h.toWellRead hb]
  exact onDrive_readAll_plain (List.cons_ne_nil _ _) (fun s hs => h.tidy s (List.mem_cons_of_mem _ hs))
    (fun s hs => h.isDots_of_mem s (List.mem_cons_of_mem _ hs)) _

end Relocation.Url
