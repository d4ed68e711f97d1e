import Relocation.Proofs.WhenPlacesExist

/-!
# A directory alone and in the table

A directory can be asked for alone or be looked up in the table of all locations. The first asks for one location and
may resort to a fallback, the second shows both forms of every location and knows of no fallbacks. They agree because
no location is ever shown as the dash that stands for a missing one: a native path begins with a slash and a URL holds a
colon.

* `pathText_eq_absent`, `urlText_eq_absent`: what a dash in the row of a directory says;
* `filter_rows`: the table has one row for each directory;
* `table_eq`: what the table looks like;
* `answer_directory_eq`: a directory alone is told as its row shows it, or else by its own fallback.
-/

namespace Relocation

/-! ### No location is shown as a dash -/

theorem Url.isAbsolute_toNativePath? {u : Url} {p : NativePath} (h : u.toNativePath? = some p) :
    p.isAbsolute = true := by
  rw [Url.toNativePath?] at h
  split at h
  · split at h
    · cases h
      rw [Url.closeDriveLetter]
      split <;> rfl
    · cases h
  · cases h

theorem isAbsolute_localPath? {u : Url} {p : NativePath} (h : localPath? u = some p) : p.isAbsolute = true := by
  rw [localPath?] at h
  split at h
  · exact Url.isAbsolute_toNativePath? h
  · cases h

theorem Locator.isAbsolute_dirFile? {l : Locator} {d : InstallDir} {p : NativePath} (h : l.dirFile? d = some p) :
    p.isAbsolute = true := by
  obtain ⟨o, -, ho⟩ := Option.bind_eq_some_iff.mp h
  obtain ⟨u, -, hu⟩ := Option.bind_eq_some_iff.mp ho
  exact isAbsolute_localPath? hu

theorem NativePath.display_ne_absent {p : NativePath} (h : p.isAbsolute = true) : p.display ≠ Answer.absent := by
  obtain ⟨bytes⟩ := p
  cases bytes with
  | nil => cases h
  | cons b rest =>
    have hb : b = slashByte := by simpa [isAbsolute] using h
    subst hb
    -- a slash is read as itself, whatever bytes follow
    have hdisplay : display ⟨slashByte :: rest⟩ = '/' :: Utf8.lossy rest := rfl
    rw [hdisplay]
    intro he
    exact absurd (List.cons.inj he).1 (by decide)

theorem Url.text_ne_absent (u : Url) : u.text ≠ Answer.absent := by
  have hcolon : ':' ∈ u.text := by simp [Url.text, Url.beforePath]
  intro he
  rw [he] at hcolon
  exact absurd hcolon (by decide)

namespace Answer

variable (l : Locator) (d : InstallDir)

/-- A dash for the native path of a directory says that it has none. -/
theorem pathText_eq_absent : (directoryRow l d).pathText = "-".toList ↔ l.dirFile? d = none := by
  show _ = absent ↔ _
  rw [Row.pathText, directoryRow]
  cases hp : l.dirFile? d with
  | none => simp
  | some p => simpa using NativePath.display_ne_absent (l.isAbsolute_dirFile? hp)

/-- A dash for the URL of a directory says that it has none. -/
theorem urlText_eq_absent : (directoryRow l d).urlText = "-".toList ↔ l.dirUrl? d = none := by
  show _ = absent ↔ _
  rw [Row.urlText, directoryRow]
  cases l.dirUrl? d with
  | none => simp
  | some u => simpa using u.text_ne_absent

/-! ### The row of a directory -/

theorem filter_all_name : InstallDir.all.filter (fun e => decide (e.name = d.name)) = [d] := by
  cases d <;> decide

/-- One row of the table bears the name of the directory. -/
theorem filter_rows : (rows l).filter (fun r => decide (r.name = d.name)) = [directoryRow l d] := by
  have horigin : (originRow l).name ≠ d.name := by
    show "origin".toList ≠ d.name
    cases d <;> decide
  have hstartup : (startupRow l).name ≠ d.name := by
    show "startup".toList ≠ d.name
    cases d <;> decide
  rw [rows, List.filter_cons_of_neg (by simpa using horigin), List.filter_cons_of_neg (by simpa using hstartup),
    List.filter_map]
  show (InstallDir.all.filter fun e => decide (e.name = d.name)).map (directoryRow l) = _
  rw [filter_all_name, List.map_singleton]

/-- The printed table: a head, and a line for each row, with its name and its URL filled up to the width of their
columns. -/
theorem table_eq : table l = "NAME     URL                                      PATH\n".toList
    ++ (rows l).flatMap fun r =>
      padRight ' ' 8 r.name ++ ' ' :: (padRight ' ' 40 r.urlText ++ ' ' :: (r.pathText ++ ['\n'])) := by
  have hhead : head = "NAME     URL                                      PATH\n".toList := by decide
  rw [table, hhead]
  rfl

/-! ### One directory -/

/-- What is told of a directory that the table shows as `column`: just that, or if it is a dash, the fallback. -/
def toldAs (column : Text) (fallback : Option NativePath) : Except CommandError Text :=
  if column = "-".toList then fallback.elim (.error (.unknownDirectory d)) fun p => .ok (p.display ++ ['\n'])
  else .ok (column ++ ['\n'])

/-- Nothing is told exactly if there is a dash and no fallback. -/
theorem toldAs_eq_error_iff (column : Text) (fallback : Option NativePath) (e : CommandError) :
    toldAs d column fallback = .error e ↔ column = "-".toList ∧ fallback = none ∧ e = .unknownDirectory d := by
  rw [toldAs]
  generalize "-".toList = dash
  by_cases hc : column = dash
  · cases fallback with
    | none => simp [hc, eq_comm]
    | some p => simp [hc]
  · simp [hc]

theorem answer_path_eq (fallbacks : FallbackTable) :
    Command.answer l fallbacks (.directory d false) = toldAs d (directoryRow l d).pathText (fallbacks d) := by
  have hdash := pathText_eq_absent l d
  rw [Command.answer, directory?, if_neg (by simp), Locator.dirFileWith?, toldAs]
  cases hp : l.dirFile? d with
  | none =>
    rw [if_pos (hdash.mpr hp)]
    cases fallbacks d <;> rfl
  | some p =>
    have hshown : (directoryRow l d).pathText = p.display := by rw [Row.pathText, directoryRow, hp, Option.elim_some]
    rw [hp] at hdash
    rw [if_neg (by rw [hdash]; simp), hshown]
    rfl

theorem answer_url_eq (fallbacks : FallbackTable) :
    Command.answer l fallbacks (.directory d true) = toldAs d (directoryRow l d).urlText (fallbacks d) := by
  have hdash := urlText_eq_absent l d
  rw [Command.answer, directory?, if_pos rfl, toldAs]
  cases hu : l.dirUrl? d with
  | none =>
    rw [if_pos (hdash.mpr hu)]
    cases fallbacks d <;> rfl
  | some u =>
    have hshown : (directoryRow l d).urlText = u.text := by rw [Row.urlText, directoryRow, hu, Option.elim_some]
    rw [hu] at hdash
    rw [if_neg (by rw [hdash]; simp), hshown]
    rfl

/-- A directory alone is told as the only row of its name in the printed table shows it, in either form, and if there is a
dash, as its fallback; no other fallback counts. It is not told exactly if both are missing, and if it is told as a native
path, it is told as a URL, too. -/
theorem answer_directory_eq (fallbacks : FallbackTable) :
    ∃ row, (rows l).filter (fun r => decide (r.name = d.name)) = [row]
      ∧ Command.answer l fallbacks .list = .ok ("NAME     URL                                      PATH\n".toList
        ++ (rows l).flatMap fun r =>
          padRight ' ' 8 r.name ++ ' ' :: (padRight ' ' 40 r.urlText ++ ' ' :: (r.pathText ++ ['\n'])))
      ∧ Command.answer l fallbacks (.directory d false) = toldAs d row.pathText (fallbacks d)
      ∧ Command.answer l fallbacks (.directory d true) = toldAs d row.urlText (fallbacks d)
      ∧ (∀ e, Command.answer l fallbacks (.directory d false) = .error e ↔
          row.pathText = "-".toList ∧ fallbacks d = none ∧ e = .unknownDirectory d)
      ∧ (∀ e, Command.answer l fallbacks (.directory d true) = .error e ↔
          row.urlText = "-".toList ∧ fallbacks d = none ∧ e = .unknownDirectory d)
      ∧ ((∃ t, Command.answer l fallbacks (.directory d false) = .ok t) →
          ∃ t, Command.answer l fallbacks (.directory d true) = .ok t) := by
  refine ⟨directoryRow l d, filter_rows l d, by rw [answer_list, table_eq], answer_path_eq l d fallbacks,
    answer_url_eq l d fallbacks, ?_, ?_, ?_⟩
  · intro e
    rw [answer_path_eq, toldAs_eq_error_iff]
  · intro e
    rw [answer_url_eq, toldAs_eq_error_iff]
  · rintro ⟨t, ht⟩
    rw [Command.answer] at ht ⊢
    split at ht
    · next told htold =>
      obtain ⟨u, hu⟩ := Option.isSome_iff_exists.mp (directory?_url_isSome l fallbacks d (by rw [htold]; rfl))
      exact ⟨u ++ ['\n'], by rw [hu]⟩
    · cases ht

/-- A program on another machine: its directories have URLs, but no native paths. -/
def remoteTool : Locator :=
  ⟨⟨.empty, ⟨.error .noEntry, .unopened .noEntry, 0, 0⟩⟩,
    .fixed ⟨⟨"https".toList, some ⟨[], none, some (.domain "h".toList), none⟩,
      .segments false ["usr".toList, "bin".toList, "tool".toList], none, none⟩⟩⟩

/-- A fallback for one directory. -/
def libraryFallback : FallbackTable :=
  Fallbacks.get { lib := some (.ofText "/l".toList) }

theorem answer_directory_eq_remoteTool :
    Command.answer remoteTool libraryFallback .list
        = .ok ("NAME     URL                                      PATH\n".toList
          ++ ("origin   https://h/usr/bin/tool                   -\n".toList
          ++ ("startup  https://h/usr/bin/                       -\n".toList
          ++ ("prefix   https://h/usr/                           -\n".toList
          ++ ("bin      https://h/usr/bin                        -\n".toList
          ++ ("sbin     https://h/usr/sbin                       -\n".toList
          ++ ("data     https://h/usr/share                      -\n".toList
          ++ ("locale   https://h/usr/share/locale               -\n".toList
          ++ ("lib      https://h/usr/lib                        -\n".toList
          ++ ("libexec  https://h/usr/libexec                    -\n".toList
          ++ "etc      https://h/usr/etc                        -\n".toList))))))))))
      ∧ Command.answer remoteTool libraryFallback (.directory .lib true) = .ok "https://h/usr/lib\n".toList
      ∧ Command.answer remoteTool libraryFallback (.directory .lib false) = .ok "/l\n".toList
      ∧ Command.answer remoteTool libraryFallback (.directory .bin false) = .error (.unknownDirectory .bin) := by
  obtain ⟨row, hrow, hlist, hpath, hurl, -⟩ := answer_directory_eq remoteTool .lib libraryFallback
  obtain ⟨other, hother, -, -, -, hmissing, -⟩ := answer_directory_eq remoteTool .bin libraryFallback
  rw [filter_rows] at hrow hother
  obtain rfl : directoryRow remoteTool .lib = row := List.head_eq_of_cons_eq hrow
  obtain rfl : directoryRow remoteTool .bin = other := List.head_eq_of_cons_eq hother
  exact ⟨hlist.trans (by rfl), hurl.trans (by rfl), hpath.trans (by rfl), (hmissing _).mpr ⟨by rfl, by rfl, rfl⟩⟩

end Answer

end Relocation
