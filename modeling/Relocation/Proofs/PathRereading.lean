import Relocation.Proofs.PathReading

/-!
# Reading a path that has been read before

Replacing a path reads its text again, and most of that text has been read before: it is a beginning of the old
path. What reading makes of such segments is almost nothing (`reread`).

* `finishOn_plain`: segments without dots and vanishing characters are put behind the closed ones;
* `closeAll_eq_reread`: segments that were read before are closed as they are, except that a first drive letter gets
  its colon and a dot segment behind a drive letter is dropped.
-/

namespace Relocation.Url

open Percent

/-! ### Segments that are put behind the closed ones -/

/-- A drive letter gets its colon. -/
def withColon (s : Text) : Text :=
  if isDriveLetter s then s.take 1 ++ [':'] else s

theorem withColon_drive (letter : Char) : withColon [letter, ':'] = [letter, ':'] := by
  rw [withColon]
  split <;> rfl

theorem isDriveLetter_encodeText (t : Text) (h : isDriveLetter t = false) :
    isDriveLetter (encodeText pathSet t) = false := by
  rw [Bool.eq_false_iff]
  intro hd
  rw [encodeText_eq_self holdsHigh_pathSet t (percent_not_mem_of_isDriveLetter hd), h] at hd
  cases hd

/-- A raw segment without dots and vanishing characters is added, and as the first one of a `file` path a drive
letter gets its colon and is remembered. -/
theorem moveOf_plain (kind : SchemeKind) (closed : List Text) (raw : Text) (hskip : ∀ c ∈ raw, isSkipped c = false)
    (hdots : isDots raw = false) :
    moveOf kind closed raw
      = .into [if kind = .file ∧ closed = [] then withColon (tidySegment raw) else tidySegment raw]
          (kind == .file && closed == [] && isDriveLetter (tidySegment raw)) := by
  have hd : isDoubleDot (tidySegment raw) = false ∧ isSingleDot (tidySegment raw) = false := by
    rw [tidySegment_eq_encodeText hskip, isDoubleDot_encodeText, isSingleDot_encodeText]
    rw [isDots, Bool.or_eq_false_iff] at hdots
    exact ⟨hdots.2, hdots.1⟩
  have hsplit : (if (kind == .file && closed == []) = true then splitDrive? raw else none) = none := by
    rw [splitDrive?_eq_none raw hskip]
    split <;> rfl
  simp only [moveOf, hsplit, hd.1, hd.2, Bool.false_eq_true, if_false]
  by_cases hfirst : kind = .file ∧ closed = []
  · obtain ⟨rfl, rfl⟩ := hfirst
    rw [withColon]
    cases hl : isDriveLetter (tidySegment raw) with
    | true => simp
    | false => simp
  · have hb : (kind == .file && closed == []) = false := by
      rw [Bool.eq_false_iff]
      intro ht
      simp only [Bool.and_eq_true, beq_iff_eq] at ht
      exact hfirst ht
    rw [hb, if_neg hfirst, Bool.false_and, if_neg (by simp)]

theorem closeOn_plain (kind : SchemeKind) (closed : List Text) (raw : Text) (hskip : ∀ c ∈ raw, isSkipped c = false)
    (hdots : isDots raw = false) :
    closeOn kind closed raw
      = closed ++ [if kind = .file ∧ closed = [] then withColon (tidySegment raw) else tidySegment raw] := by
  rw [closeOn, Trail.close]
  simp only [moveOf_plain kind closed raw hskip hdots]

theorem finishOn_singleton_plain (kind : SchemeKind) (closed : List Text) (raw : Text)
    (hskip : ∀ c ∈ raw, isSkipped c = false) (hdots : isDots raw = false) :
    finishOn kind closed [raw]
      = closed ++ [if kind = .file ∧ closed = [] then withColon (tidySegment raw) else tidySegment raw] := by
  rw [finishOn, Trail.readAll, Trail.finish]
  simp only [moveOf_plain kind closed raw hskip hdots]

/-- The first segment of a path is added as it is unless it is a drive letter. -/
theorem withColon_tidySegment (raw : Text) (hskip : ∀ c ∈ raw, isSkipped c = false)
    (hdrive : isDriveLetter raw = false) : withColon (tidySegment raw) = tidySegment raw := by
  rw [withColon, tidySegment_eq_encodeText hskip, isDriveLetter_encodeText raw hdrive]
  rfl

/-- Raw segments without dots and vanishing characters, the first of which is no drive letter if that matters, are
put behind the closed ones. -/
theorem finishOn_plain (kind : SchemeKind) (closed raws : List Text)
    (hskip : ∀ raw ∈ raws, ∀ c ∈ raw, isSkipped c = false) (hdots : ∀ raw ∈ raws, isDots raw = false)
    (hfirst : kind = .file → closed = [] → ∀ raw ∈ raws.head?, isDriveLetter raw = false) :
    finishOn kind closed raws = closed ++ raws.map tidySegment := by
  induction raws generalizing closed with
  | nil => rw [finishOn, Trail.readAll, List.map_nil, List.append_nil]
  | cons raw rest ih =>
    have hs := hskip raw List.mem_cons_self
    have hd := hdots raw List.mem_cons_self
    have hone : (if kind = .file ∧ closed = [] then withColon (tidySegment raw) else tidySegment raw)
        = tidySegment raw := by
      split
      · next hc => exact withColon_tidySegment raw hs (hfirst hc.1 hc.2 raw rfl)
      · rfl
    -- only the first segment of a path is asked whether it is a drive letter
    cases rest with
    | nil => rw [finishOn_singleton_plain kind closed raw hs hd, hone, List.map_cons, List.map_nil]
    | cons next more =>
      rw [finishOn_cons, closeOn_plain kind closed raw hs hd, hone, List.map_cons,
        ih (closed ++ [tidySegment raw]) (fun r hr => hskip r (List.mem_cons_of_mem _ hr))
          (fun r hr => hdots r (List.mem_cons_of_mem _ hr)) (fun _ hc => by simp at hc),
        List.append_assoc, List.singleton_append]

/-! ### Reading a read path again -/

/-- Segments without a dot segment in front. -/
def withoutDots : List Text → List Text
  | [] => []
  | s :: rest => if isDots s then rest else s :: rest

/-- What reading makes of segments that have been read before. -/
def reread (kind : SchemeKind) : List Text → List Text
  | [] => []
  | first :: rest => if kind = .file then withColon first :: withoutDots rest else first :: rest

/-- Without dot segments, and unless a drive letter is the first of them, segments are reread as they are. -/
theorem reread_of_not_dots {kind : SchemeKind} {list : List Text} (hd : ∀ s ∈ list, isDots s = false)
    (hf : kind = .file → ∀ first ∈ list.head?, isDriveLetter first = false) : reread kind list = list := by
  match list with
  | [] => rfl
  | [first] =>
    rw [reread]
    split
    · next hk =>
      rw [withColon, hf hk first rfl]
      rfl
    · rfl
  | first :: second :: more =>
    rw [reread]
    split
    · next hk =>
      rw [withColon, hf hk first rfl, withoutDots, hd second (by simp)]
      rfl
    · rfl

/-- Behind closed segments, those that move nobody are closed as they are. -/
theorem closeAll_of_not_dots (kind : SchemeKind) (closed list : List Text) (ht : ∀ s ∈ list, IsTidy kind s)
    (hd : ∀ s ∈ list, isDots s = false) (hc : kind = .file → closed ≠ []) :
    closeAll kind closed list = closed ++ list := by
  induction list generalizing closed with
  | nil => rw [closeAll, List.foldl_nil, List.append_nil]
  | cons s rest ih =>
    have hs := ht s List.mem_cons_self
    have hone : closeOn kind closed s = closed ++ [s] := by
      rw [closeOn_plain kind closed s (isSkipped_of_spelled s hs.spelled) (hd s List.mem_cons_self),
        if_neg fun h => hc h.1 h.2, hs.tidySegment]
    rw [closeAll, List.foldl_cons, hone, ← closeAll,
      ih _ (fun r hr => ht r (List.mem_cons_of_mem _ hr)) (fun r hr => hd r (List.mem_cons_of_mem _ hr)) (by simp),
      List.append_assoc, List.singleton_append]

/-- No path begins with a dot segment. -/
theorem WellRead.isDots_first {kind : SchemeKind} {first : Text} {rest : List Text}
    (h : WellRead kind (first :: rest)) : isDots first = false := by
  rw [Bool.eq_false_iff]
  intro hd
  obtain ⟨-, letter, -, hb⟩ := h.dots [] first rest rfl hd
  cases hb

/-- Only a `file` path has a dot segment at all. -/
theorem WellRead.isDots_of_ne_file {kind : SchemeKind} {list : List Text} (h : WellRead kind list)
    (hk : kind ≠ .file) : ∀ s ∈ list, isDots s = false := by
  intro s hs
  obtain ⟨before, after, he⟩ := List.append_of_mem hs
  rw [Bool.eq_false_iff]
  intro hd
  exact hk (h.dots before s after he hd).1

/-- A dot segment stands right behind a drive letter with its colon. -/
theorem WellRead.first_of_isDots {kind : SchemeKind} {first second : Text} {more : List Text}
    (h : WellRead kind (first :: second :: more)) (hd : isDots second = true) :
    kind = .file ∧ ∃ letter : Char, letter.isAlpha = true ∧ first = [letter, ':'] := by
  obtain ⟨hk, letter, hl, hb⟩ := h.dots [first] second more rfl hd
  rw [List.cons.injEq] at hb
  exact ⟨hk, letter, hl, hb.1⟩

/-- There is no dot segment from the third place on. -/
theorem WellRead.isDots_from_third {kind : SchemeKind} {first second : Text} {more : List Text}
    (h : WellRead kind (first :: second :: more)) : ∀ s ∈ more, isDots s = false := by
  intro s hs
  obtain ⟨before, after, rfl⟩ := List.append_of_mem hs
  rw [Bool.eq_false_iff]
  intro hd
  obtain ⟨-, letter, -, hb⟩ := h.dots (first :: second :: before) s after rfl hd
  rw [List.cons.injEq] at hb
  cases hb.2

/-- Behind the first segment, at most the second one is a dot segment. -/
theorem WellRead.isDots_withoutDots {kind : SchemeKind} {first : Text} {rest : List Text}
    (h : WellRead kind (first :: rest)) : ∀ s ∈ withoutDots rest, isDots s = false := by
  intro s hs
  cases rest with
  | nil => cases hs
  | cons second more =>
    rw [withoutDots] at hs
    split at hs
    · exact h.isDots_from_third s hs
    · next hd =>
      rcases List.mem_cons.mp hs with rfl | hs
      · simpa using hd
      · exact h.isDots_from_third s hs

theorem mem_of_mem_withoutDots (list : List Text) (s : Text) (h : s ∈ withoutDots list) : s ∈ list := by
  cases list with
  | nil => exact h
  | cons first rest =>
    rw [withoutDots] at h
    split at h
    · exact List.mem_cons_of_mem _ h
    · exact h

/-- Dots behind a drive letter leave it. -/
theorem closeOn_dots (letter : Char) (s : Text) (hl : letter.isAlpha = true) (hs : IsTidy .file s)
    (hd : isDots s = true) : closeOn .file [[letter, ':']] s = [[letter, ':']] := by
  have hback : takeBack [[letter, ':']] = [[letter, ':']] := by
    have hdrive : startsWithDriveLetter [letter, ':'] = true := by
      rw [startsWithDriveLetter, isDrivePair, hl]
      rfl
    rw [takeBack, List.getLast?_singleton]
    exact if_pos hdrive
  rw [isDots, Bool.or_eq_true] at hd
  rw [closeOn, Trail.close]
  simp only [moveOf, hs.tidySegment]
  by_cases hdouble : isDoubleDot s = true
  · simp only [hdouble, if_true]
    exact hback
  · have hsingle : isSingleDot s = true := by simpa [hdouble] using hd
    simp [hdouble, hsingle]

/-- Reading a read path again gives the first drive letter its colon, drops a dot segment behind a drive letter, and
changes nothing else. -/
theorem closeAll_eq_reread {kind : SchemeKind} {list : List Text} (h : WellRead kind list) :
    closeAll kind [] list = reread kind list := by
  by_cases hk : kind = .file
  · cases list with
    | nil => rfl
    | cons first rest =>
      have hf := h.tidy first List.mem_cons_self
      have hone : closeOn kind [] first = [withColon first] := by
        rw [closeOn_plain kind [] first (isSkipped_of_spelled first hf.spelled) h.isDots_first, if_pos ⟨hk, rfl⟩,
          hf.tidySegment, List.nil_append]
      have hrest : ∀ s ∈ rest, IsTidy kind s := fun s hs => h.tidy s (List.mem_cons_of_mem _ hs)
      have htail : closeAll kind [withColon first] (withoutDots rest) = withColon first :: withoutDots rest :=
        closeAll_of_not_dots kind [withColon first] (withoutDots rest)
          (fun s hs => hrest s (mem_of_mem_withoutDots rest s hs)) h.isDots_withoutDots (by simp)
      rw [reread, if_pos hk, closeAll, List.foldl_cons, hone, ← closeAll, ← htail]
      cases rest with
      | nil => rfl
      | cons second more =>
        rw [withoutDots]
        split
        · next hd =>
          -- the dot segment is read behind a drive letter, which is never taken back
          obtain ⟨-, letter, hl, rfl⟩ := h.first_of_isDots hd
          subst hk
          rw [closeAll, List.foldl_cons, withColon_drive,
            closeOn_dots letter second hl (hrest second List.mem_cons_self) hd, ← closeAll]
        · rfl
  · rw [closeAll_of_not_dots kind [] list h.tidy (h.isDots_of_ne_file hk) fun he => absurd he hk, List.nil_append]
    cases list with
    | nil => rfl
    | cons first rest => rw [reread, if_neg hk]

end Relocation.Url
