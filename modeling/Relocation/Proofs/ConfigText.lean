import Mathlib.Data.List.Nodup
import Relocation.ConfigFile
import Relocation.Proofs.TomlTables
import Relocation.Proofs.Utf8Reading

/-!
# A configuration survives being written

A configuration is written as a document of strings: the origin, if it names one, and a table in which each fallback
stands under the name of its directory. The document read from that text says just this, so that the configuration
comes back, whatever its strings hold. Fallbacks that are no text cannot be written; but none is ever read.

* `readDocument?_write`: the document a configuration is written as;
* `read?_write`: the configuration comes back;
* `isTextual_of_read?`: what is read can be written;
* `load_write`: a file that holds a written configuration is loaded as that configuration, and loading, writing and
  loading again gives what was loaded first.
-/

namespace Relocation

namespace InstallDir

theorem name_injective {d e : InstallDir} (h : d.name = e.name) : d = e := by
  have hd := ofName?_name d
  rw [h, ofName?_name] at hd
  exact (Option.some.inj hd).symm

theorem isBareKey_name (d : InstallDir) : Toml.IsBareKey d.name := by
  cases d <;> decide

end InstallDir

namespace Config

/-- Every fallback of the configuration is the path of a text. -/
def IsTextual (c : Config) : Prop :=
  ∀ d, ∀ p ∈ c.fallbacks.get d, ∃ t, p = NativePath.ofText t

/-- What a fallback is written as. -/
def textOf (c : Config) (d : InstallDir) : Option Text :=
  (c.fallbacks.get d).map NativePath.display

theorem IsTextual.get_eq {c : Config} (h : c.IsTextual) (d : InstallDir) :
    (c.textOf d).map NativePath.ofText = c.fallbacks.get d := by
  rw [textOf]
  cases hp : c.fallbacks.get d with
  | none => rfl
  | some p =>
    obtain ⟨t, rfl⟩ := h d p hp
    rw [Option.map_some, Option.map_some, NativePath.display_ofText]

/-! ### The document -/

/-- The fallbacks as they are written, in the order of the directories. -/
def fallbackPairs (c : Config) : List (Text × Text) :=
  InstallDir.all.filterMap fun d => (c.textOf d).map fun t => (d.name, t)

theorem write_eq (c : Config) :
    write c = (c.origin.elim [] fun t => Toml.writePair "origin".toList t ++ ['\n'])
      ++ (Toml.writeHeader "fallbacks".toList ++ Toml.writePairs c.fallbackPairs) := by
  have hpairs : (namedFallbacks c.fallbacks).map (fun pair => (pair.1.name, pair.2.display)) = c.fallbackPairs := by
    rw [namedFallbacks, List.map_filterMap, fallbackPairs]
    refine List.filterMap_congr fun d _ => ?_
    rw [textOf]
    cases c.fallbacks.get d <;> rfl
  rw [write, List.append_assoc, ← hpairs, Toml.writePairs, List.flatMap_map]

theorem mem_fallbackPairs {c : Config} {pair : Text × Text} (h : pair ∈ c.fallbackPairs) :
    ∃ d : InstallDir, pair.1 = d.name := by
  obtain ⟨d, -, hd⟩ := List.mem_filterMap.mp h
  rw [Option.map_eq_some_iff] at hd
  obtain ⟨t, -, rfl⟩ := hd
  exact ⟨d, rfl⟩

theorem nodup_fallbackPairs (c : Config) : (c.fallbackPairs.map Prod.fst).Nodup := by
  have hall : InstallDir.all.Nodup := by decide
  rw [fallbackPairs, List.map_filterMap]
  refine hall.filterMap fun d e key hd he => ?_
  rw [Option.map_map, Option.mem_def, Option.map_eq_some_iff] at hd he
  obtain ⟨s, -, hs⟩ := hd
  obtain ⟨t, -, ht⟩ := he
  exact InstallDir.name_injective (hs.trans ht.symm)

/-- The table of the fallbacks. -/
def fallbackEntries (c : Config) : Toml.Entries :=
  c.fallbackPairs.map fun pair => (pair.1, .string pair.2)

/-- In the table of the fallbacks, each stands under the name of its directory. -/
theorem valueOf?_fallbackEntries (c : Config) (d : InstallDir) :
    valueOf? d.name c.fallbackEntries = (c.textOf d).map Toml.Value.string := by
  have hentries : c.fallbackEntries = InstallDir.all.filterMap fun e =>
      ((c.textOf e).map Toml.Value.string).map fun v => (e.name, v) := by
    rw [fallbackEntries, fallbackPairs, List.map_filterMap]
    simp only [Option.map_map]
    rfl
  rw [hentries]
  exact Toml.valueOf?_filterMap (fun _ _ => InstallDir.name_injective) _ (InstallDir.mem_all d)

/-- The pair of the origin, if there is one. -/
def originPairs (c : Config) : List (Text × Text) :=
  (c.origin.map fun t => ("origin".toList, t)).toList

def originEntries (c : Config) : Toml.Entries :=
  c.originPairs.map fun pair => (pair.1, .string pair.2)

theorem isBareKey_fallbackPairs (c : Config) : ∀ pair ∈ c.fallbackPairs, Toml.IsBareKey pair.1 := by
  intro pair hp
  obtain ⟨d, hd⟩ := mem_fallbackPairs hp
  rw [hd]
  exact d.isBareKey_name

/-- A written configuration begins with no mark, whatever follows it. -/
theorem dropMark_write_append (c : Config) (rest : Text) : Toml.dropMark (write c ++ rest) = write c ++ rest := by
  have hplain : ∀ first more, write c = first :: more → first.toNat ≠ 0xFEFF →
      Toml.dropMark (write c ++ rest) = write c ++ rest := by
    intro first more hw hne
    rw [hw, List.cons_append, Toml.dropMark, if_neg hne]
  have hw := write_eq c
  cases ho : c.origin with
  | none =>
    rw [ho] at hw
    exact hplain '[' _ hw (by decide)
  | some t =>
    rw [ho] at hw
    exact hplain 'o' _ hw (by decide)

theorem dropMark_write (c : Config) : Toml.dropMark (write c) = write c := by
  have hdrop := dropMark_write_append c []
  rw [List.append_nil] at hdrop
  exact hdrop

/-- The lines of a written configuration; its length is fuel enough to read them. -/
theorem readLines?_write (c : Config) :
    Toml.readLines? ((write c).length + 1) (write c)
      = some (c.originPairs.map Toml.lineOf
        ++ .header [] "fallbacks".toList false :: c.fallbackPairs.map Toml.lineOf) := by
  have horigin : Toml.IsBareKey "origin".toList := by decide
  have hname : Toml.IsBareKey "fallbacks".toList := by decide
  have hheader : (Toml.writeHeader "fallbacks".toList).length = 12 := by decide
  have htable := @Toml.readLines?_table _ hname c.fallbackPairs c.isBareKey_fallbackPairs
  rw [write_eq, originPairs]
  cases c.origin with
  | none =>
    rw [Option.elim_none, List.nil_append, htable (by rw [List.length_append]; omega)]
    rfl
  | some t =>
    rw [Option.elim_some, List.append_assoc]
    generalize hfuel : (Toml.writePair "origin".toList t
      ++ (['\n'] ++ (Toml.writeHeader "fallbacks".toList ++ Toml.writePairs c.fallbackPairs))).length = fuel
    rw [List.length_append, List.length_append, List.length_append, List.length_singleton] at hfuel
    obtain ⟨less, rfl⟩ : ∃ less, fuel = less + 1 := ⟨fuel - 1, by omega⟩
    rw [Toml.readLines?_writePair horigin, List.singleton_append, Toml.readLines?_newline, htable (by omega)]
    rfl

/-- The document of a written configuration. -/
theorem readDocument?_write (c : Config) :
    Toml.readDocument? (write c)
      = some (withValue "fallbacks".toList (.table .opened c.fallbackEntries) c.originEntries) := by
  have horigin : Toml.addPairs (c.originPairs.map Toml.entryOf) [] = some c.originEntries := by
    refine Toml.addPairs_strings c.originPairs [] ?_ fun _ _ => rfl
    rw [originPairs]
    cases c.origin <;> simp
  have hfallbacks : Toml.addPairs (c.fallbackPairs.map Toml.entryOf) [] = some c.fallbackEntries :=
    Toml.addPairs_strings c.fallbackPairs [] c.nodup_fallbackPairs fun _ _ => rfl
  have hnone : valueOf? "fallbacks".toList c.originEntries = none := by
    rw [originEntries, originPairs]
    cases c.origin with
    | none => rfl
    | some t => exact if_neg (show ¬"origin".toList = "fallbacks".toList by decide)
  refine Toml.readDocument?_table ?_ horigin hnone hfallbacks
  rw [dropMark_write, readLines?_write]

theorem valueOf?_originEntries (c : Config) :
    valueOf? "origin".toList c.originEntries = c.origin.map Toml.Value.string := by
  rw [originEntries, originPairs]
  cases c.origin with
  | none => rfl
  | some t => exact if_pos rfl

/-- With something behind it that cannot be read line by line, a written configuration is none. -/
theorem read?_write_append {rest : Text} (h : Toml.IsBroken rest) (c : Config) : read? (write c ++ rest) = none := by
  have hname : Toml.IsBareKey "fallbacks".toList := by decide
  have htable : Toml.IsBroken (Toml.writeHeader "fallbacks".toList ++ (Toml.writePairs c.fallbackPairs ++ rest)) :=
    (h.writePairs c.isBareKey_fallbackPairs).writeHeader hname
  have hbroken : Toml.IsBroken (write c ++ rest) := by
    rw [write_eq, List.append_assoc, List.append_assoc]
    cases c.origin with
    | none => exact htable
    | some t =>
      rw [Option.elim_some, List.append_assoc]
      exact htable.newline.writePair (by decide) t
  have hnone : Toml.readDocument? (write c ++ rest) = none :=
    Toml.readDocument?_of_isBroken (by rw [dropMark_write_append]; exact hbroken)
  rw [read?, hnone]

/-! ### Reading it back -/

theorem textField?_map (t : Option Text) : textField? (t.map Toml.Value.string) = some t := by
  cases t <;> rfl

theorem mapM_textField?_map (texts : List (Option Text)) :
    (texts.map (Option.map Toml.Value.string)).mapM textField? = some texts := by
  rw [List.mapM_map]
  induction texts with
  | nil => rfl
  | cons t rest ih =>
    rw [List.mapM_cons, Function.comp_apply, textField?_map, ih]
    rfl

/-- The values of the fields in the table of the fallbacks are the texts they are written as. -/
theorem readFallbacks?_fallbackEntries {c : Config} (h : c.IsTextual) :
    readFallbacks? (Fallbacks.keys.map fun key => valueOf? key c.fallbackEntries) = some c.fallbacks := by
  have hvalues : (Fallbacks.keys.map fun key => valueOf? key c.fallbackEntries)
      = (InstallDir.all.map c.textOf).map (Option.map Toml.Value.string) := by
    rw [Fallbacks.keys_eq, List.map_map, List.map_map]
    exact List.map_congr_left fun d _ => c.valueOf?_fallbackEntries d
  have hfields : (InstallDir.all.map c.textOf).map (Option.map NativePath.ofText) = c.fallbacks.fields := by
    rw [Fallbacks.fields_eq, List.map_map]
    exact List.map_congr_left fun d _ => h.get_eq d
  rw [readFallbacks?, hvalues, mapM_textField?_map, Option.bind_some, hfields, Fallbacks.ofFields?_fields]

/-- A configuration whose fallbacks are texts comes back as it was. -/
theorem read?_write {c : Config} (h : c.IsTextual) : read? (write c) = some c := by
  have horigin : valueOf? "origin".toList (withValue "fallbacks".toList (.table .opened c.fallbackEntries)
      c.originEntries) = c.origin.map Toml.Value.string := by
    rw [valueOf?_withValue_other _ _ _ _ (by decide), valueOf?_originEntries]
  rw [read?, readDocument?_write]
  simp only [ofDocument?, horigin, textField?_map, valueOf?_withValue_same, fallbacksOf?,
    readFallbacks?_fallbackEntries h, Option.map_some]

example : read? (write default) = some default := by decide

/-! ### What is read -/

/-- Every fallback that is read comes from a text. -/
theorem readFallbacks?_textual {values : List (Option Toml.Value)} {f : Fallbacks} (h : readFallbacks? values = some f)
    (d : InstallDir) : ∀ p ∈ f.get d, ∃ t, p = NativePath.ofText t := by
  rw [readFallbacks?, Option.bind_eq_some_iff] at h
  obtain ⟨texts, -, hf⟩ := h
  intro p hp
  have hmem := f.get_mem_fields d
  rw [Fallbacks.fields_of_ofFields? hf] at hmem
  obtain ⟨text, -, htext⟩ := List.mem_map.mp hmem
  rw [Option.mem_def, ← htext] at hp
  obtain ⟨t, -, rfl⟩ := Option.map_eq_some_iff.mp hp
  exact ⟨t, rfl⟩

theorem get_empty (d : InstallDir) : ({} : Fallbacks).get d = none := by
  cases d <;> rfl

theorem fallbacksOf?_textual {v : Toml.Value} {f : Fallbacks} (h : fallbacksOf? v = some f) (d : InstallDir) :
    ∀ p ∈ f.get d, ∃ t, p = NativePath.ofText t := by
  cases v with
  | table shape entries => exact readFallbacks?_textual h d
  | array items => exact readFallbacks?_textual h d
  | tables items => exact readFallbacks?_textual h d
  | moment t =>
    rw [fallbacksOf?, Option.some.injEq] at h
    subst h
    rw [get_empty]
    intro p hp
    cases hp
  | _ => cases h

/-- Whatever is read can be written. -/
theorem isTextual_of_read? {t : Text} {c : Config} (h : read? t = some c) : c.IsTextual := by
  rw [read?] at h
  split at h
  · rw [ofDocument?] at h
    split at h
    · cases h
    · split at h
      · rw [Option.some.injEq] at h
        subst h
        intro d p hp
        rw [get_empty] at hp
        cases hp
      · rw [Option.map_eq_some_iff] at h
        obtain ⟨f, hf, rfl⟩ := h
        exact fallbacksOf?_textual hf
  · cases h

end Config

/-! ### In a file -/

namespace FileSystem

/-- A path leads to a file with some content, which may be read. -/
def Holds (fs : FileSystem) (p : NativePath) (content : Bytes) : Prop :=
  ∃ here number, fs.find .target p = .ok (here, .file number) ∧ fs.denial? (.read number) = none
    ∧ fs.content number = content

theorem readText_of_holds {fs : FileSystem} {p : NativePath} {t : Text} (h : fs.Holds p (Utf8.encode t)) :
    fs.readText p = .ok t := by
  obtain ⟨here, number, hfind, hread, hcontent⟩ := h
  have hbytes : fs.readBytes p = .ok (Utf8.encode t) := by
    rw [readBytes, hfind]
    simp only [hread, hcontent]
  rw [readText, hbytes]
  simp only [Utf8.decode?_encode]

end FileSystem

namespace Config

section Loading

variable [Toml.Complaints]

theorem load_of_holds {fs : FileSystem} {workDir path : NativePath} {t : Text} {c : Config}
    (h : fs.Holds (workDir.join path) (Utf8.encode t)) (hr : read? t = some c) : load fs workDir path = .ok c := by
  rw [load, FileSystem.readText_of_holds h]
  simp only [hr]

theorem load_of_denial {fs : FileSystem} {workDir path : NativePath} {here : Location} {number : Nat}
    {cause : FileError} (hf : fs.find .target (workDir.join path) = .ok (here, .file number))
    (hd : fs.denial? (.read number) = some cause) : load fs workDir path = .error (.read path cause) := by
  have hbytes : fs.readBytes (workDir.join path) = .error cause := by
    rw [FileSystem.readBytes, hf]
    simp only [hd]
  rw [load, FileSystem.readText, hbytes]

theorem isTextual_of_load {fs : FileSystem} {workDir path : NativePath} {c : Config}
    (h : load fs workDir path = .ok c) : c.IsTextual := by
  rw [load] at h
  split at h
  · cases h
  · split at h
    · next loaded hr =>
      cases h
      exact isTextual_of_read? hr
    · cases h

/-- A file that holds a written configuration is loaded as that configuration, whatever text its origin and its
fallbacks are, and in its document each fallback stands under the name of its directory. So what is loaded from any
file is loaded again after it has been written. -/
theorem load_write :
    (∀ (c : Config) (fs : FileSystem) (workDir path : NativePath), c.IsTextual →
      fs.Holds (workDir.join path) (Utf8.encode (write c)) →
        load fs workDir path = .ok c
        ∧ ∃ entries table, Toml.readDocument? (write c) = some entries
          ∧ valueOf? "fallbacks".toList entries = some (.table .opened table)
          ∧ ∀ d, valueOf? d.name table = (c.fallbacks.get d).map fun p => .string p.display)
      ∧ ∀ (c : Config) (fs later : FileSystem) (workDir path workDir' path' : NativePath),
        load fs workDir path = .ok c → later.Holds (workDir'.join path') (Utf8.encode (write c)) →
          load later workDir' path' = .ok c := by
  constructor
  · intro c fs workDir path ht hfile
    refine ⟨load_of_holds hfile (read?_write ht), _, c.fallbackEntries, readDocument?_write c, ?_, fun d => ?_⟩
    · rw [valueOf?_withValue_same]
    · rw [valueOf?_fallbackEntries, textOf, Option.map_map]
      rfl
  · intro c fs later workDir path workDir' path' hload hfile
    exact load_of_holds hfile (read?_write (isTextual_of_load hload))

end Loading

/-- Strings that need each kind of quotes. -/
def quoted : Config where
  origin := some "it's\n\"\"\"\ttext\u0000".toList
  fallbacks :=
    { bin := some (.ofText "/o'p\\t/\"\"bin\"\"".toList)
      etc := some (.ofText "C:\\".toList) }

/-- A file system of one file. -/
def oneFile (content : Text) : FileSystem where
  entries := [([Utf8.encode "c".toList], .file 0)]
  contents := [(0, Utf8.encode content)]

theorem holds_oneFile (content : Text) : (oneFile content).Holds (.ofText "/c".toList) (Utf8.encode content) :=
  ⟨[Utf8.encode "c".toList], 0, by cbv, rfl, rfl⟩

theorem load_write_quoted :
    quoted.IsTextual ∧ (oneFile (write quoted)).Holds (.ofText "/c".toList) (Utf8.encode (write quoted))
      ∧ load (oneFile (write quoted)) (.ofText "/".toList) (.ofText "c".toList) = .ok quoted
      ∧ load (oneFile (write quoted)) (.ofText "/".toList) (.ofText "/c".toList) = .ok quoted := by
  have htext : quoted.IsTextual := by
    intro d p hp
    cases d <;> cases hp <;> exact ⟨_, rfl⟩
  have hholds := holds_oneFile (write quoted)
  have hload := (load_write.1 quoted _ (.ofText "/".toList) (.ofText "c".toList) htext hholds).1
  exact ⟨htext, hholds, hload, load_write.2 quoted _ _ _ _ (.ofText "/".toList) (.ofText "/c".toList) hload hholds⟩

end Config

end Relocation
