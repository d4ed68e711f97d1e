import Mathlib.Data.List.TakeDrop
import Relocation.Proofs.HostSpelling
import Relocation.Proofs.ReadPaths

/-!
# What every URL that was read is like

There are four ways through the reader, and each leaves a URL of the same make (`IsRead`): a scheme that is read back,
an authority in which nothing ends it and nothing vanishes, a path as reading leaves it, guarded exactly if it would
read as an authority otherwise, and a query and a fragment without blanks.

* `isScheme_readScheme?`, `isReadAuthority_readAuthority`: scheme and authority;
* `isRead_parse`: the whole URL.
-/

namespace Relocation.Url

open Percent

/-! ### Schemes -/

/-- A scheme as it is kept: it is read back in front of its colon. -/
structure IsScheme (s : Text) : Prop where
  again : ∀ rest, readScheme? (s ++ ':' :: rest) = some (s, rest)
  visible : Lacks isTrimmed s
  noEnd : HoldsNoEnd s

theorem isSchemeChar_lt (c : Char) (h : isSchemeChar c = true) : c.toNat < 128 := by
  have halpha := toNat_of_isAlpha c
  simp only [isSchemeChar, Char.isAlphanum, Char.isDigit, Bool.or_eq_true, Bool.and_eq_true, decide_eq_true_eq,
    beq_iff_eq, ge_iff_le, UInt32.le_iff_toNat_le] at h
  rcases h with (((ha | hd) | rfl) | rfl) | rfl
  · have := halpha ha
    omega
  · -- a decimal digit
    have h9 : c.val.toNat ≤ 57 := hd.2
    show c.val.toNat < 128
    omega
  · decide
  · decide
  · decide

/-- A character of a scheme in lower case. -/
structure IsSchemeLetter (c : Char) : Prop where
  skipped : isSkipped c = false
  colon : c ≠ ':'
  schemeChar : isSchemeChar c = true
  lower : c.toLower = c
  visible : isTrimmed c = false
  noEnd : endsPath c = false

theorem isSchemeLetter_toLower {c : Char} (h : isSchemeChar c = true) : IsSchemeLetter c.toLower := by
  have hall : ∀ n < 128, isSchemeChar (Char.ofNat n) = true →
      isSkipped (Char.ofNat n).toLower = false ∧ (Char.ofNat n).toLower ≠ ':'
        ∧ isSchemeChar (Char.ofNat n).toLower = true ∧ (Char.ofNat n).toLower.toLower = (Char.ofNat n).toLower
        ∧ isTrimmed (Char.ofNat n).toLower = false ∧ endsPath (Char.ofNat n).toLower = false := by decide
  have hc := hall c.toNat (isSchemeChar_lt c h)
  rw [Char.ofNat_toNat] at hc
  obtain ⟨h1, h2, h3, h4, h5, h6⟩ := hc h
  exact ⟨h1, h2, h3, h4, h5, h6⟩

theorem isAlpha_toLower {c : Char} (h : c.isAlpha = true) : c.toLower.isAlpha = true := by
  have hall : ∀ n < 128, (Char.ofNat n).isAlpha = true → (Char.ofNat n).toLower.isAlpha = true := by decide
  have hn := toNat_of_isAlpha c h
  have hc := hall c.toNat (by omega)
  rw [Char.ofNat_toNat] at hc
  exact hc h

theorem isSchemeLetter_readSchemeRest? {t scheme rest : Text} (h : readSchemeRest? t = some (scheme, rest)) :
    ∀ c ∈ scheme, IsSchemeLetter c := by
  induction t generalizing scheme with
  | nil => cases h
  | cons c more ih =>
    rw [readSchemeRest?] at h
    split at h
    · exact ih h
    · split at h
      · cases h
        intro d hd
        cases hd
      · split at h
        · next hc =>
          obtain ⟨⟨inner, after⟩, hr, he⟩ := Option.map_eq_some_iff.mp h
          cases he
          intro d hd
          rcases List.mem_cons.mp hd with rfl | hd
          · exact isSchemeLetter_toLower hc
          · exact ih hr d hd
        · cases h

theorem readSchemeRest?_again {s : Text} (h : ∀ c ∈ s, IsSchemeLetter c) (rest : Text) :
    readSchemeRest? (s ++ ':' :: rest) = some (s, rest) := by
  induction s with
  | nil => rfl
  | cons c more ih =>
    have hc := h c List.mem_cons_self
    rw [List.cons_append, readSchemeRest?, if_neg (by rw [hc.skipped]; simp), if_neg hc.colon, if_pos hc.schemeChar,
      ih fun d hd => h d (List.mem_cons_of_mem _ hd), hc.lower]
    rfl

theorem isScheme_readScheme? {t scheme rest : Text} (h : readScheme? t = some (scheme, rest)) : IsScheme scheme := by
  rw [readScheme?] at h
  split at h
  · next c more _ =>
    split at h
    · next hc =>
      obtain ⟨⟨inner, after⟩, hr, he⟩ := Option.map_eq_some_iff.mp h
      cases he
      have hfirst : IsSchemeLetter c.toLower :=
        isSchemeLetter_toLower (by simp [isSchemeChar, Char.isAlphanum, hc])
      have hrest := isSchemeLetter_readSchemeRest? hr
      have hall : ∀ d ∈ c.toLower :: inner, IsSchemeLetter d := by
        intro d hd
        rcases List.mem_cons.mp hd with rfl | hd
        · exact hfirst
        · exact hrest d hd
      refine ⟨fun tail => ?_, fun d hd => (hall d hd).visible, fun d hd => (hall d hd).noEnd⟩
      rw [List.cons_append, readScheme?, List.dropWhile_cons_of_neg (by rw [hfirst.skipped]; simp)]
      simp only [isAlpha_toLower hc, if_true, readSchemeRest?_again hrest tail, hfirst.lower]
      rfl
    · cases h
  · cases h

/-! ### Authorities -/

/-- Characters that end an authority or vanish in it. -/
def isBreak (c : Char) : Bool :=
  isSkipped c || endsAuthority .network c

theorem isBreak_eq_true {c : Char} (h : isBreak c = true) :
    c = '\t' ∨ c = '\n' ∨ c = '\r' ∨ c = '/' ∨ c = '\\' ∨ c = '?' ∨ c = '#' := by
  simpa [isBreak, isSkipped, endsAuthority, isSeparator, endsPath, SchemeKind.isSpecial, or_assoc] using h

theorem isForeign_isBreak : IsForeign isBreak := by
  intro c hc
  rcases isBreak_eq_true hc with rfl | rfl | rfl | rfl | rfl | rfl | rfl <;> decide

theorem isBreak_of_endsAuthority {kind : SchemeKind} {c : Char} (h : endsAuthority kind c = true) :
    isBreak c = true := by
  have hcases : (c = '/' ∨ c = '\\') ∨ c = '?' ∨ c = '#' := by
    rw [endsAuthority, Bool.or_eq_true] at h
    refine h.imp (fun hs => ?_) endsPath_eq_true
    rw [isSeparator, Bool.or_eq_true, Bool.and_eq_true, beq_iff_eq, beq_iff_eq] at hs
    exact hs.imp_right And.right
  rcases hcases with (rfl | rfl) | rfl | rfl <;> rfl

/-- An authority as reading leaves it. -/
structure IsReadAuthority (kind : SchemeKind) (a : Authority) : Prop where
  username : Lacks isBreak a.username
  password : ∀ password ∈ a.password, Lacks isBreak password
  host : ∀ host ∈ a.host, Lacks isBreak host.text
  /-- A network scheme has a host. -/
  network : kind = .network → ∃ host ∈ a.host, host.text ≠ []

/-- The authority as it stands in a URL, without its slashes. -/
def Authority.inner (a : Authority) : Text :=
  a.userText ++ a.host.elim [] Host.text ++ a.port.elim [] fun n => ':' :: decimal n

theorem Authority.text_eq (a : Authority) : a.text = "//".toList ++ a.inner := by
  rw [text, inner, List.append_assoc, List.append_assoc, List.append_assoc]

namespace IsReadAuthority

variable {kind : SchemeKind} {a : Authority}

theorem lacks_inner (h : IsReadAuthority kind a) : Lacks isBreak a.inner := by
  have hat : Lacks isBreak ['@'] := by decide
  have huser : Lacks isBreak a.userText := by
    rw [Authority.userText]
    split
    · next password hp => exact (h.username.append ((h.password password hp).cons (by decide))).append hat
    · split
      · exact .nil
      · exact h.username.append hat
  have hhost : Lacks isBreak (a.host.elim [] Host.text) := by
    cases hh : a.host with
    | none => exact .nil
    | some host => exact h.host host hh
  have hport : Lacks isBreak (a.port.elim [] fun n => ':' :: decimal n) := by
    cases a.port with
    | none => exact .nil
    | some n => exact (lacks_decimal isForeign_isBreak n).cons (by decide)
  exact (huser.append hhost).append hport

theorem inner_ne_nil (h : IsReadAuthority kind a) (hk : kind = .network) : a.inner ≠ [] := by
  obtain ⟨host, hh, hne⟩ := h.network hk
  rw [Option.mem_def] at hh
  intro hnil
  rw [Authority.inner, hh, List.append_eq_nil_iff, List.append_eq_nil_iff] at hnil
  exact hne hnil.1.2

theorem holdsNoEnd_text (h : IsReadAuthority kind a) : HoldsNoEnd a.text := by
  have hslashes : Lacks endsPath "//".toList := by decide
  have hinner : Lacks endsPath a.inner := h.lacks_inner.mono fun c hc => by
    rcases endsPath_eq_true hc with rfl | rfl <;> rfl
  rw [Authority.text_eq]
  exact hslashes.append hinner

end IsReadAuthority

theorem lacks_encodeText_userinfoSet (t : Text) : Lacks isBreak (encodeText userinfoSet t) := by
  have hset : ∀ c, isBreak c = true → userinfoSet (UInt8.ofNat c.toNat) = true := by
    intro c hc
    rcases isBreak_eq_true hc with rfl | rfl | rfl | rfl | rfl | rfl | rfl <;> decide
  exact Lacks.of_spelled (spelled_encode (by decide) holdsHigh_userinfoSet (fun _ h => h) _) hset

theorem lacks_cutUser (t : Text) :
    Lacks isBreak (cutUser t).1.1 ∧ ∀ password ∈ (cutUser t).1.2, Lacks isBreak password := by
  have hread : ∀ t, Lacks isBreak (readUser t).1 ∧ ∀ password ∈ (readUser t).2, Lacks isBreak password := by
    intro t
    simp only [readUser]
    split
    · exact ⟨lacks_encodeText_userinfoSet _, fun _ hp => by cases hp⟩
    · refine ⟨lacks_encodeText_userinfoSet _, fun password hp => ?_⟩
      cases hp
      exact lacks_encodeText_userinfoSet _
    · exact ⟨lacks_encodeText_userinfoSet _, fun _ hp => by cases hp⟩
  rw [cutUser]
  split
  · exact hread _
  · exact ⟨.nil, fun _ hp => by cases hp⟩

/-- The host of an authority is one that was read, and only a plain scheme goes without. -/
theorem readHostAndPort_eq_ok {scheme t early : Text} {host : Option Host} {port : Option Nat}
    (h : readHostAndPort scheme t = .ok (host, port, early)) :
    (host = none ∧ (SchemeKind.ofScheme scheme).isSpecial = false)
      ∨ ∃ found text, host = some found ∧ readHost (SchemeKind.ofScheme scheme) text = .ok found := by
  simp only [readHostAndPort] at h
  split at h
  · split at h
    · cases h
    · next hc =>
      cases h
      rw [Bool.not_eq_true, Bool.or_eq_false_iff] at hc
      exact .inl ⟨rfl, hc.1⟩
  · split at h
    · cases h
    · next found hf =>
      right
      split at h
      · cases hp : readPort scheme _ with
        | error e =>
          rw [hp] at h
          cases h
        | ok pair =>
          rw [hp] at h
          cases h
          exact ⟨found, _, rfl, hf⟩
      · cases h
        exact ⟨found, _, rfl, hf⟩

theorem isReadAuthority_readAuthority {scheme t early : Text} {followed : Bool} {a : Authority}
    (h : readAuthority scheme t followed = .ok (a, early)) :
    IsReadAuthority (SchemeKind.ofScheme scheme) a := by
  simp only [readAuthority] at h
  split at h
  · cases h
  · split at h
    · cases h
    · next host port rest hr =>
      split at h
      · cases h
      · cases h
        obtain ⟨hname, hpassword⟩ := lacks_cutUser t
        obtain ⟨rfl, hk⟩ | ⟨found, text, rfl, hf⟩ := readHostAndPort_eq_ok hr
        · refine ⟨hname, hpassword, (fun _ hm => by cases hm), fun hn => ?_⟩
          rw [hn] at hk
          cases hk
        · refine ⟨hname, hpassword, fun a ha => ?_, fun hn => ⟨found, rfl, ?_⟩⟩
          · cases ha
            exact lacks_readHost isForeign_isBreak (by decide) _ text found hf
          · rw [readHost, hn] at hf
            exact (isSpecialHost_of_readSpecialHost hf).text_ne_nil

/-! ### Whole URLs -/

/-- A URL as reading leaves it. -/
structure IsRead (u : Url) : Prop where
  scheme : IsScheme u.scheme
  authority : ∀ a ∈ u.authority, IsReadAuthority u.kind a
  path : HasReadPath u
  /-- A guard stands exactly where it is needed. -/
  guard : ∀ guarded list, u.path = .segments guarded list → guarded = (u.authority.isNone && needsGuard list)
  verbatim : ∀ t, u.path = .verbatim t → HoldsNoEnd t
  query : ∀ query ∈ u.query, Lacks isTrimmed query
  fragment : ∀ fragment ∈ u.fragment, Lacks isTrimmed fragment
  /-- Only a plain scheme goes without an authority. -/
  bare : u.authority = none → u.kind = .plain
  /-- There is nothing but a host in the authority of a local file, and it is no drive letter. -/
  ofFile : u.kind = .file → ∃ host, u.authority = some { Authority.empty with host := host }
    ∧ ∀ a ∈ host, isDriveLetter a.text = false

theorem holdsNoEnd_cutPath (t : Text) : HoldsNoEnd (cutPath t).1 := by
  intro c hc
  rw [cutPath, List.span_eq_takeWhile_dropWhile] at hc
  have hp := List.all_eq_true.mp List.all_takeWhile c hc
  simpa using hp

/-- A set that holds every control and the blank. -/
def HoldsBlanks (set : EscapeSet) : Prop :=
  ∀ b, set b = false → controls b = false ∧ b ≠ 0x20

theorem lacks_encodeText_isTrimmed {set : EscapeSet} (h : HoldsBlanks set) (t : Text) :
    Lacks isTrimmed (encodeText set t) := by
  refine Lacks.encode (by decide) fun b _ hb => ?_
  obtain ⟨hcontrols, hblank⟩ := h b hb
  have hn := Utf8.toNat_ofNat_toNat b (holdsHigh_controls b hcontrols)
  simp only [controls, Bool.or_eq_false_iff, decide_eq_false_iff_not] at hcontrols
  have hne : b.toNat ≠ 0x20 := fun he => hblank (UInt8.toNat_inj.mp he)
  rw [isTrimmed, hn, decide_eq_false_iff_not]
  omega

theorem holdsBlanks_fragmentSet : HoldsBlanks fragmentSet := by
  intro b hb
  rw [fragmentSet, Bool.or_eq_false_iff] at hb
  refine ⟨hb.1, ?_⟩
  rintro rfl
  exact absurd hb.2 (by decide)

theorem holdsBlanks_querySet : HoldsBlanks querySet := by
  intro b hb
  rw [querySet, Bool.or_eq_false_iff] at hb
  refine ⟨hb.1, ?_⟩
  rintro rfl
  exact absurd hb.2 (by decide)

theorem holdsBlanks_specialQuerySet : HoldsBlanks specialQuerySet := by
  intro b hb
  rw [specialQuerySet, Bool.or_eq_false_iff] at hb
  exact holdsBlanks_querySet b hb.1

/-- What is read behind a path has no blanks. -/
theorem lacks_readAfterPath (kind : SchemeKind) (t : Text) :
    (∀ query ∈ (readAfterPath kind t).1, Lacks isTrimmed query)
      ∧ ∀ fragment ∈ (readAfterPath kind t).2, Lacks isTrimmed fragment := by
  have hquery : ∀ t, Lacks isTrimmed (encodeText (if kind.isSpecial then specialQuerySet else querySet) t) := by
    intro t
    split
    · exact lacks_encodeText_isTrimmed holdsBlanks_specialQuerySet t
    · exact lacks_encodeText_isTrimmed holdsBlanks_querySet t
  have hfragment := lacks_encodeText_isTrimmed holdsBlanks_fragmentSet
  simp only [readAfterPath]
  split
  · refine ⟨fun _ hq => (by cases hq), fun fragment hf => ?_⟩
    cases hf
    exact hfragment _
  · split
    · refine ⟨fun query hq => ?_, fun fragment hf => ?_⟩
      · cases hq
        exact hquery _
      · cases hf
        exact hfragment _
    · refine ⟨fun query hq => ?_, fun _ hf => by cases hf⟩
      cases hq
      exact hquery _
  · exact ⟨fun _ hq => (by cases hq), fun _ hf => by cases hf⟩

theorem isRead_readAfterSlashes {scheme t : Text} {u : Url} (hs : IsScheme scheme)
    (hk : SchemeKind.ofScheme scheme ≠ .file) (h : readAfterSlashes scheme t = .ok u) : IsRead u := by
  simp only [readAfterSlashes] at h
  split at h
  · cases h
  · next authority early ha =>
    cases h
    exact {
      scheme := hs
      authority := fun a hm => by
        cases hm
        exact isReadAuthority_readAuthority ha
      path := hasReadPath_of_segments rfl (isReadPath_readSegments _ _)
      guard := fun guarded list hp => by
        cases hp
        rfl
      verbatim := fun _ hv => by cases hv
      query := (lacks_readAfterPath _ _).1
      fragment := (lacks_readAfterPath _ _).2
      bare := fun hn => by cases hn
      ofFile := fun hf => absurd hf hk }

theorem isRead_readPlain {scheme t : Text} {u : Url} (hs : IsScheme scheme)
    (hk : SchemeKind.ofScheme scheme = .plain) (h : readPlain scheme t = .ok u) : IsRead u := by
  simp only [readPlain] at h
  split at h
  · exact isRead_readAfterSlashes hs (by rw [hk]; decide) h
  · split at h
    · cases h
      exact {
        scheme := hs
        authority := fun a hm => by cases hm
        path := by
          refine hasReadPath_of_segments rfl ?_
          show IsReadPath (SchemeKind.ofScheme scheme) _
          rw [hk]
          exact isReadPath_readTrail .plain _
        guard := fun guarded list hp => by
          cases hp
          rfl
        verbatim := fun _ hv => by cases hv
        query := (lacks_readAfterPath _ _).1
        fragment := (lacks_readAfterPath _ _).2
        bare := fun _ => hk
        ofFile := fun hf => absurd (hk.symm.trans hf) (by decide) }
    · cases h
      exact {
        scheme := hs
        authority := fun a hm => by cases hm
        path := fun guarded list hp => by cases hp
        guard := fun guarded list hp => by cases hp
        verbatim := fun text hv => by
          cases hv
          have hcut : Lacks endsPath (unskipped (cutPath t).1) :=
            (holdsNoEnd_cutPath t).of_subset fun c hc => mem_of_mem_unskipped _ c hc
          exact Lacks.encodeText (by decide) holdsHigh_controls hcut
        query := (lacks_readAfterPath _ _).1
        fragment := (lacks_readAfterPath _ _).2
        bare := fun _ => hk
        ofFile := fun hf => absurd (hk.symm.trans hf) (by decide) }

theorem isRead_readAfterHost {scheme : Text} {host : Option Host} (pathText after : Text) (hs : IsScheme scheme)
    (hk : SchemeKind.ofScheme scheme = .file) (hh : ∀ a ∈ host, IsSpecialHost a) :
    IsRead (readAfterHost scheme host pathText after) := by
  have hkept : ∀ a ∈ (if (readTrail .file pathText).onDrive then none else host), IsSpecialHost a := by
    intro a ha
    split at ha
    · cases ha
    · exact hh a ha
  exact {
    scheme := hs
    authority := fun a hm => by
      cases hm
      refine ⟨.nil, fun _ hp => (by cases hp), fun a ha => ?_, fun hn => absurd (hk.symm.trans hn) (by decide)⟩
      exact (hkept a ha).lacks isForeign_isBreak (by decide)
    path := by
      refine hasReadPath_of_segments rfl ?_
      show IsReadPath (SchemeKind.ofScheme scheme) _
      rw [hk]
      exact isReadPath_readTrail .file _
    guard := fun guarded list hp => by
      cases hp
      rfl
    verbatim := fun _ hv => by cases hv
    query := (lacks_readAfterPath _ _).1
    fragment := (lacks_readAfterPath _ _).2
    bare := fun hn => by cases hn
    ofFile := fun _ => ⟨_, rfl, fun a ha => (hkept a ha).isDriveLetter_text⟩ }

theorem isSpecialHost_of_readLocalHost {t : Text} {host : Option Host} (h : readLocalHost t = .ok host) :
    ∀ a ∈ host, IsSpecialHost a := by
  intro a ha
  rw [readLocalHost] at h
  split at h
  · cases h
    cases ha
  · split at h
    · cases h
    · next found hf =>
      split at h
      · cases h
        cases ha
      · cases h
        cases ha
        exact isSpecialHost_of_readSpecialHost hf

theorem isRead_readLocal {scheme t : Text} {u : Url} (hs : IsScheme scheme)
    (hk : SchemeKind.ofScheme scheme = .file) (h : readLocal scheme t = .ok u) : IsRead u := by
  have hnone : ∀ a ∈ (none : Option Host), IsSpecialHost a := fun _ ha => by cases ha
  simp only [readLocal] at h
  split at h
  · split at h
    · cases h
      exact isRead_readAfterHost _ _ hs hk hnone
    · split at h
      · cases h
      · next host hh =>
        cases h
        exact isRead_readAfterHost _ _ hs hk (isSpecialHost_of_readLocalHost hh)
  · cases h
    exact isRead_readAfterHost _ _ hs hk hnone

/-- Every URL that was read. -/
theorem isRead_parse (t : Text) (u : Url) (h : parse t = .ok u) : IsRead u := by
  rw [parse] at h
  split at h
  · cases h
  · next scheme rest hscheme =>
    have hs := isScheme_readScheme? hscheme
    split at h
    · next hk => exact isRead_readLocal hs hk h
    · next hk => exact isRead_readAfterSlashes hs (by rw [hk]; decide) h
    · next hk => exact isRead_readPlain hs hk h

theorem hasReadPath_parse (t : Text) (u : Url) (h : parse t = .ok u) : HasReadPath u :=
  (isRead_parse t u h).path

/-- An origin that was read is a URL that was read. -/
theorem parse_of_origin_parse {t : Text} {o : Origin} (h : Origin.parse t = .ok o) : Url.parse t = .ok o.url := by
  rw [Origin.parse] at h
  split at h
  · next url hu =>
    cases h
    exact hu
  · cases h

end Relocation.Url
