import Relocation.Proofs.LinklessPaths
import Relocation.Proofs.NativeSpelling

/-!
# A directory and the files in it

The places of an origin are told from all the segments of its path but the last one, and the last one is all that the
origin of a directory and the origin of a file in it differ in. So both relocate alike (`relocatesAlike_snoc`), for any
names and wherever the directory stands.

A path is that of a directory if it ends in a slash or if a directory is there. One more slash at its end changes
nothing, but the only slash may be all that says so: `ofNativePath_inDirectory` says when it can be left out.
-/

namespace Relocation

open Url Percent

/-! ### Origins with the same places -/

/-- The two origins have the same base and the same directory, and the same places below the base. -/
structure RelocatesAlike (o r : Origin) : Prop where
  subpath : ∀ s, subpath? o s = subpath? r s
  subpathFile : ∀ s, subpathFile? o s = subpathFile? r s
  startup : startup? o = startup? r
  startupFile : startupFile? o = startupFile? r

theorem RelocatesAlike.of_urls {o r : Origin} (hsub : ∀ s, subpath? o s = subpath? r s)
    (hstart : startup? o = startup? r) : RelocatesAlike o r := by
  refine ⟨hsub, fun s => ?_, hstart, ?_⟩
  · rw [subpathFile?, subpathFile?, hsub]
  · rw [startupFile?, startupFile?, hstart]

/-- The last segment of a path says nothing about the places of the origin. -/
theorem relocatesAlike_snoc (u : Url) (guarded : Bool) (front : List Text) {a b : Text} (ha : '/' ∉ a) (hb : '/' ∉ b) :
    RelocatesAlike ⟨withSegments u guarded (front ++ [a])⟩ ⟨withSegments u guarded (front ++ [b])⟩ := by
  -- the old segments go when a path is replaced
  have hrebuild (t : Text) : rebuild? (withSegments u guarded (front ++ [a])) t
      = rebuild? (withSegments u guarded (front ++ [b])) t := rfl
  have htext (last : Text) :
      Origin.pathText ⟨withSegments u guarded (front ++ [last])⟩ = segmentsText (front ++ [last]) := rfl
  refine .of_urls (fun s => ?_) ?_
  · simp only [subpath?, htext, installBase?_snoc front _ ha, installBase?_snoc front _ hb, hrebuild]
  · simp only [startup?, htext, startupDir?_snoc front _ ha, startupDir?_snoc front _ hb, hrebuild]

/-! ### Names in a directory -/

/-- A name that is a path of its own: what stands between slashes, and leads somewhere. -/
def IsComponent (name : Bytes) : Prop :=
  NativePath.names ⟨name⟩ = [name]

instance (name : Bytes) : Decidable (IsComponent name) :=
  inferInstanceAs (Decidable (_ = _))

namespace IsComponent

variable {name : Bytes}

theorem slash_not_mem (h : IsComponent name) : slashByte ∉ name :=
  NativePath.slash_not_mem_of_mem_names (p := ⟨name⟩) (by rw [h]; exact List.mem_singleton_self name)

theorem ne_nil (h : IsComponent name) : name ≠ [] := by
  rintro rfl
  cases h

theorem isAbsolute (h : IsComponent name) : NativePath.isAbsolute ⟨name⟩ = false := by
  rw [Bool.eq_false_iff]
  intro habs
  rw [NativePath.isAbsolute, beq_iff_eq] at habs
  exact h.slash_not_mem (List.mem_of_mem_head? habs)

theorem names_join (h : IsComponent name) (d : NativePath) : (d.join ⟨name⟩).names = d.names ++ [name] := by
  rw [NativePath.names_join d h.isAbsolute, h]

/-- A path below a directory ends in its last name. -/
theorem endsWithSlash_join (h : IsComponent name) (d : NativePath) : (d.join ⟨name⟩).endsWithSlash = false := by
  rw [Bool.eq_false_iff]
  intro hends
  rw [NativePath.join_of_relative d h.isAbsolute, NativePath.endsWithSlash, beq_iff_eq, List.getLast?_append,
    List.getLast?_eq_some_getLast h.ne_nil, Option.some_or, Option.some.injEq] at hends
  exact h.slash_not_mem (hends ▸ List.getLast_mem h.ne_nil)

end IsComponent

/-! ### Origins of directories -/

variable {fs : FileSystem} {d : NativePath}

theorem ofNativePath_directory (habs : d.isAbsolute = true) (hdir : Origin.namesDirectory fs d = true) :
    Origin.ofNativePath fs d = .ok ⟨nativeUrl (spelledNames d.names ++ [[]])⟩ := by
  rw [ofNativePath_eq fs d habs, hdir, segmentsOfNames_eq, if_pos (.inr rfl)]

theorem ofNativePath_file (habs : d.isAbsolute = true) {name : Bytes} (hname : IsComponent name)
    (hfile : fs.isDirectory (d.join ⟨name⟩) = false) :
    Origin.ofNativePath fs (d.join ⟨name⟩) = .ok ⟨nativeUrl (spelledNames d.names ++ [encode nameSet name])⟩ := by
  have hnames := hname.names_join d
  have hnot : Origin.namesDirectory fs (d.join ⟨name⟩) = false := by
    rw [Origin.namesDirectory, hname.endsWithSlash_join, hfile, Bool.or_false]
  have hkeep : ¬(d.names ++ [name] = [] ∨ false = true) := by simp
  rw [ofNativePath_eq fs _ (NativePath.isAbsolute_join d ⟨name⟩ habs), hnot, hnames, segmentsOfNames_eq, if_neg hkeep,
    spelledNames, List.map_append]
  rfl

/-- The origin of a path does not change with the slash at its end if the path has no names or is that of a directory
without it; a path that is left empty has no origin. -/
theorem ofNativePath_without_slash {front : Bytes} (habs : NativePath.isAbsolute ⟨front ++ [slashByte]⟩ = true) :
    Origin.ofNativePath fs ⟨front⟩ = Origin.ofNativePath fs ⟨front ++ [slashByte]⟩
      ↔ front ≠ [] ∧ (NativePath.names ⟨front⟩ = [] ∨ Origin.namesDirectory fs ⟨front⟩ = true) := by
  have hdir : Origin.namesDirectory fs ⟨front ++ [slashByte]⟩ = true := by
    rw [Origin.namesDirectory, NativePath.endsWithSlash, List.getLast?_concat]
    rfl
  rw [ofNativePath_eq fs _ habs, hdir, names_snoc_slash]
  cases hf : front with
  | nil =>
    have hnone : Origin.ofNativePath fs ⟨[]⟩ = .error (.notAbsolute ⟨[]⟩) := rfl
    simp [hnone]
  | cons b rest =>
    have hfront : NativePath.isAbsolute ⟨b :: rest⟩ = true := by
      rw [hf] at habs
      exact habs
    have hurl (list more : List Text) :
        (Except.ok (Origin.mk (nativeUrl list)) : Except LocateError Origin) = .ok ⟨nativeUrl more⟩ ↔ list = more := by
      simp [nativeUrl]
    rw [ofNativePath_eq fs _ hfront, hurl, segmentsOfNames_inj]
    simp

/-- A directory, told by the slash at its end or by being there, relocates as everything in it does that is no
directory. One more slash at its end changes nothing. A slash at its end can be left out exactly if the path is not
empty then, and has no names or is still that of a directory; so it can always be if the directory is there. -/
theorem ofNativePath_inDirectory (fs : FileSystem) (d : NativePath) (habs : d.isAbsolute = true)
    (hdir : Origin.namesDirectory fs d = true) :
    ∃ o, Origin.ofNativePath fs d = .ok o
      ∧ (∀ name, IsComponent name → fs.isDirectory (d.join ⟨name⟩) = false →
        ∃ r, Origin.ofNativePath fs (d.join ⟨name⟩) = .ok r ∧ RelocatesAlike o r)
      ∧ Origin.ofNativePath fs ⟨d.bytes ++ [slashByte]⟩ = .ok o
      ∧ ∀ front, d = ⟨front ++ [slashByte]⟩ →
        (Origin.ofNativePath fs ⟨front⟩ = .ok o
            ↔ front ≠ [] ∧ (NativePath.names ⟨front⟩ = [] ∨ Origin.namesDirectory fs ⟨front⟩ = true))
          ∧ (fs.isDirectory d = true → front ≠ [] → Origin.ofNativePath fs ⟨front⟩ = .ok o) := by
  have ho := ofNativePath_directory habs hdir
  have hslash : '/' ∉ ([] : Text) := by simp
  refine ⟨_, ho, fun name hname hfile => ?_, ?_, ?_⟩
  · have hspelled := slash_not_mem_of_whole (isTidy_encode_nameSet .file name).whole
    exact ⟨_, ofNativePath_file habs hname hfile, relocatesAlike_snoc (nativeUrl []) false _ hslash hspelled⟩
  · have hlonger : NativePath.isAbsolute ⟨d.bytes ++ [slashByte]⟩ = true := by
      rw [NativePath.isAbsolute, beq_iff_eq] at habs ⊢
      rw [List.head?_append, habs, Option.some_or]
    have hne : d.bytes ≠ [] := by
      intro hnil
      rw [NativePath.isAbsolute, hnil] at habs
      cases habs
    rw [← ho]
    exact ((ofNativePath_without_slash hlonger).mpr ⟨hne, .inr hdir⟩).symm
  · rintro front rfl
    rw [← ho, ofNativePath_without_slash habs]
    refine ⟨.rfl, fun hthere hne => ⟨hne, .inr ?_⟩⟩
    rw [Origin.namesDirectory, FileSystem.isDirectory_of_snoc_slash hne hthere, Bool.or_true]

/-- A file system with nothing but the directory `/opt`. -/
def optTree : FileSystem :=
  FileSystem.empty.withEntry [Utf8.encode "opt".toList] .directory

/-- A path through a directory above, to a directory that is there, and in it a name that is no text. -/
theorem ofNativePath_inDirectory_optTree :
    ∃ o r, Origin.ofNativePath optTree ⟨Utf8.encode "/../opt/".toList⟩ = .ok o
      ∧ Origin.ofNativePath optTree (NativePath.join ⟨Utf8.encode "/../opt/".toList⟩ ⟨0xFF :: Utf8.encode "C:".toList⟩)
        = .ok r
      ∧ RelocatesAlike o r
      ∧ Origin.ofNativePath optTree ⟨Utf8.encode "/../opt".toList⟩ = .ok o := by
  have hthere : optTree.isDirectory ⟨Utf8.encode "/../opt/".toList⟩ = true := by cbv
  have hfile : optTree.isDirectory
      (NativePath.join ⟨Utf8.encode "/../opt/".toList⟩ ⟨0xFF :: Utf8.encode "C:".toList⟩) = false := by cbv
  obtain ⟨o, ho, hin, -, hfront⟩ := ofNativePath_inDirectory optTree ⟨Utf8.encode "/../opt/".toList⟩ (by decide)
    (by rw [Origin.namesDirectory, hthere, Bool.or_true])
  obtain ⟨r, hr, halike⟩ := hin _ (by decide) hfile
  exact ⟨o, r, ho, hr, halike, (hfront (Utf8.encode "/../opt".toList) rfl).2 hthere (by decide)⟩

/-- Where nothing is, the slash at the end of a path is all that makes it the path of a directory. -/
theorem ofNativePath_ne_without_slash :
    Origin.namesDirectory FileSystem.empty ⟨Utf8.encode "/no/x/".toList⟩ = true
      ∧ Origin.ofNativePath FileSystem.empty ⟨Utf8.encode "/no/x/".toList⟩
        ≠ Origin.ofNativePath FileSystem.empty ⟨Utf8.encode "/no/x".toList⟩ := by
  have hnothing : FileSystem.empty.isDirectory ⟨Utf8.encode "/no/x".toList⟩ = false := by cbv
  have hnot : Origin.namesDirectory FileSystem.empty ⟨Utf8.encode "/no/x".toList⟩ = false := by
    rw [Origin.namesDirectory, hnothing]
    decide
  have habs : NativePath.isAbsolute ⟨Utf8.encode "/no/x".toList ++ [slashByte]⟩ = true := by decide
  refine ⟨by decide, fun hsame => ?_⟩
  rcases ((ofNativePath_without_slash habs).mp hsame.symm).2 with hn | hd
  · exact absurd hn (by decide)
  · rw [hnot] at hd
    cases hd

end Relocation
