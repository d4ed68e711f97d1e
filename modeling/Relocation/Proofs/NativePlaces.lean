import Mathlib.Data.List.Basic
import Relocation.Proofs.ReadPaths

/-!
# Relocating a native path, from bytes to bytes

A native path becomes a URL, the URL's path is cut and read again with a suffix behind it, and the result is decoded.
For paths without `..` and suffixes without anything that moves, vanishes or is an escape, all of that together is
nothing but dropping names and putting the suffix behind the rest:

* `subpathFile?_ofNativePath`: the bytes of every place below the base, and of the directory of the origin;
* `bytesOfSegments_names`, `bytesOfSegments_pieces`: decoding gives back each name and each piece of a suffix.

A result that would end in a bare drive letter gets a slash.
-/

namespace Relocation

open Url Percent

/-! ### The words of the statement -/

/-- Whether the byte is an ASCII letter. -/
def isLetterByte (b : UInt8) : Bool :=
  (0x41 ≤ b.toNat && b.toNat ≤ 0x5A) || (0x61 ≤ b.toNat && b.toNat ≤ 0x7A)

/-- Whether the bytes begin with a letter and the mark of a drive. -/
def startsLikeDrive : Bytes → Bool
  | letter :: sign :: _ => isLetterByte letter && (sign == 0x3A || sign == 0x7C)
  | _ => false

/-- More than two bytes that end like a drive letter get a slash. -/
def withDriveClosed (bs : Bytes) : Bytes :=
  if 2 < bs.length ∧ startsLikeDrive (bs.drop (bs.length - 2)) = true then bs ++ [slashByte] else bs

/-- Names, each behind a slash, and after one more slash the rest. -/
def below (names : List Bytes) (rest : Bytes) : Bytes :=
  behindSlashes names ++ slashByte :: rest

/-- How many names of a path its base keeps: all but the last two, and all but the last one for a directory. -/
def baseDepth (fs : FileSystem) (p : NativePath) : Int :=
  p.names.length - (if Origin.namesDirectory fs p = true then 1 else 2)

/-- A suffix in which nothing moves, vanishes or is an escape. -/
structure IsPlainSuffix (s : Text) : Prop where
  percent : '%' ∉ s
  backslash : '\\' ∉ s
  tab : '\t' ∉ s
  returns : '\r' ∉ s
  newline : '\n' ∉ s
  relative : s.head? ≠ some '/'
  dots : ∀ piece ∈ splitOn '/' s, piece ≠ ['.'] ∧ piece ≠ ['.', '.']

/-! ### Drive letters -/

theorem isAlpha_ofNat (b : UInt8) : (Char.ofNat b.toNat).isAlpha = isLetterByte b := by
  have h : ∀ n < 256, (Char.ofNat n).isAlpha = ((0x41 ≤ n && n ≤ 0x5A) || (0x61 ≤ n && n ≤ 0x7A)) := by
    decide +kernel
  exact h b.toNat b.toNat_lt

theorem closeDriveLetter_eq (bs : Bytes) : closeDriveLetter bs = withDriveClosed bs := by
  have hd : endsInDriveLetter bs = true ↔ 2 < bs.length ∧ startsLikeDrive (bs.drop (bs.length - 2)) = true := by
    rw [endsInDriveLetter]
    rcases hr : bs.reverse with _ | ⟨sign, _ | ⟨letter, _ | ⟨x, front⟩⟩⟩
    all_goals
      have hb := congrArg List.reverse hr
      rw [List.reverse_reverse] at hb
      subst hb
    · simp
    · simp
    · simp
    · -- only here is there something in front of the two bytes
      rw [List.reverse_cons, List.reverse_cons, List.append_assoc]
      show ((Char.ofNat letter.toNat).isAlpha && (sign == 0x3A || sign == 0x7C)) = true ↔ _
      have hl : ((x :: front).reverse ++ ([letter] ++ [sign])).length = (x :: front).reverse.length + 2 := by
        rw [List.length_append]
        rfl
      rw [isAlpha_ofNat, hl, Nat.add_sub_cancel, List.drop_left]
      show startsLikeDrive [letter, sign] = true ↔ _
      constructor
      · intro h
        exact ⟨by rw [List.length_reverse, List.length_cons]; omega, h⟩
      · exact fun h => h.2
  rw [closeDriveLetter, withDriveClosed]
  by_cases h : endsInDriveLetter bs = true
  · rw [if_pos h, if_pos (hd.mp h)]
  · rw [if_neg h, if_neg fun hc => h (hd.mpr hc)]

theorem startsLikeDrive_encode (letter sign : Char) (rest : Text) (hl : letter.isAlpha = true)
    (hs : sign = ':' ∨ sign = '|') : startsLikeDrive (Utf8.encode (letter :: sign :: rest)) = true := by
  have hn := toNat_of_isAlpha letter hl
  have hsign : sign.toNat < 0x80 ∧ (UInt8.ofNat sign.toNat = 0x3A ∨ UInt8.ofNat sign.toNat = 0x7C) := by
    rcases hs with rfl | rfl <;> decide
  rw [Utf8.encode_cons, Utf8.encode_cons, Utf8.encodeChar_of_lt letter (by omega), Utf8.encodeChar_of_lt sign hsign.1]
  show startsLikeDrive (UInt8.ofNat letter.toNat :: UInt8.ofNat sign.toNat :: Utf8.encode rest) = true
  rw [startsLikeDrive, ← isAlpha_ofNat, Utf8.ofNat_toNat_ofNat letter (by omega), hl]
  rcases hsign.2 with h1 | h1 <;> rw [h1] <;> rfl

/-- An escaped name is a drive letter only if the name begins like one. -/
theorem isDriveLetter_encode_nameSet (name : Bytes) (h : startsLikeDrive name = false) :
    isDriveLetter (encode nameSet name) = false := by
  rw [Bool.eq_false_iff]
  intro hd
  have hp := percent_not_mem_of_isDriveLetter hd
  obtain ⟨letter, sign, hl, hs, he⟩ := isDriveLetter_eq_true _ hd
  have hname : name = Utf8.encode [letter, sign] := by
    have hback := decodeText_encode_nameSet name
    rw [decodeText, decode_of_not_mem _ fun hm => hp (Utf8.mem_of_mem_encode _ _ hm (by decide)), he] at hback
    exact hback.symm
  rw [hname, startsLikeDrive_encode letter sign [] hl hs] at h
  cases h

/-- The first piece of a text is a drive letter only if the text begins like one. -/
theorem isDriveLetter_head_splitOn (s : Text) (h : startsLikeDrive (Utf8.encode s) = false) :
    ∀ piece ∈ (splitOn '/' s).head?, isDriveLetter piece = false := by
  intro piece hp
  rw [Bool.eq_false_iff]
  intro hd
  obtain ⟨letter, sign, hl, hs, rfl⟩ := isDriveLetter_eq_true _ hd
  obtain ⟨rest, rfl⟩ := head_splitOn_isPrefix '/' s _ hp
  rw [List.cons_append, List.cons_append, startsLikeDrive_encode letter sign _ hl hs] at h
  cases h

theorem closeDriveLetter_snoc_slash (bs : Bytes) : closeDriveLetter (bs ++ [slashByte]) = bs ++ [slashByte] := by
  have h : endsInDriveLetter (bs ++ [slashByte]) = false := by
    rw [endsInDriveLetter, List.reverse_append]
    match bs.reverse with
    | [] => rfl
    | [x] => rfl
    | x :: y :: more =>
      show ((Char.ofNat x.toNat).isAlpha && (slashByte == 0x3A || slashByte == 0x7C)) = false
      rw [show (slashByte == 0x3A || slashByte == 0x7C) = false from rfl, Bool.and_false]
  rw [closeDriveLetter, h, if_neg (by simp)]

/-! ### Names and the segments that spell them -/

/-- The segments that spell names. -/
def spelledNames (names : List Bytes) : List Text :=
  names.map (encode nameSet)

theorem mem_names {p : NativePath} {name : Bytes} (h : name ∈ p.names) : name ≠ [] ∧ name ≠ [dotByte] := by
  have hi := (List.mem_filter.mp h).2
  rw [NativePath.isIdle, Bool.not_eq_true', Bool.or_eq_false_iff, beq_eq_false_iff_ne, beq_eq_false_iff_ne] at hi
  exact hi

/-- Every name but `..` is spelled by a segment that moves nobody. -/
theorem isDots_of_mem_spelledNames {p : NativePath} (hp : ∀ name ∈ p.names, name ≠ [dotByte, dotByte])
    (names : List Bytes) (hn : ∀ name ∈ names, name ∈ p.names) : ∀ s ∈ spelledNames names, isDots s = false := by
  intro s hs
  obtain ⟨name, hname, rfl⟩ := List.mem_map.mp hs
  exact isDots_encode_nameSet name (mem_names (hn name hname)).2 (hp name (hn name hname))

theorem isTidy_of_mem_spelledNames (names : List Bytes) : ∀ s ∈ spelledNames names, IsTidy .file s := by
  intro s hs
  obtain ⟨name, -, rfl⟩ := List.mem_map.mp hs
  exact isTidy_encode_nameSet .file name

theorem ne_nil_of_mem_spelledNames {p : NativePath} (names : List Bytes) (hn : ∀ name ∈ names, name ∈ p.names) :
    ∀ s ∈ spelledNames names, s ≠ [] := by
  intro s hs
  obtain ⟨name, hname, rfl⟩ := List.mem_map.mp hs
  intro he
  have hback := decodeText_encode_nameSet name
  rw [he] at hback
  exact (mem_names (hn name hname)).1 hback.symm

theorem segmentsOfNames_eq (names : List Bytes) (directory : Bool) :
    segmentsOfNames names directory
      = if names = [] ∨ directory = true then spelledNames names ++ [[]] else spelledNames names := by
  rw [segmentsOfNames]
  by_cases h : names = [] ∨ directory = true
  · rw [if_pos h, if_pos (h.imp_left fun e => by rw [e]; rfl)]
    rfl
  · rw [if_neg h, if_neg fun hc => h (hc.imp_left List.map_eq_nil_iff.mp)]
    rfl

/-- What is true of every spelled name and of the empty segment is true of all segments of a path. -/
theorem forall_mem_segmentsOfNames {P : Text → Prop} {names : List Bytes} (hnames : ∀ s ∈ spelledNames names, P s)
    (hempty : P []) (directory : Bool) : ∀ s ∈ segmentsOfNames names directory, P s := by
  intro s hs
  rw [segmentsOfNames_eq] at hs
  split at hs
  · rcases List.mem_append.mp hs with hs | hs
    · exact hnames s hs
    · rw [List.mem_singleton.mp hs]
      exact hempty
  · exact hnames s hs

theorem slash_not_mem_segmentsOfNames (names : List Bytes) (directory : Bool) :
    ∀ s ∈ segmentsOfNames names directory, '/' ∉ s :=
  forall_mem_segmentsOfNames (fun s hs => slash_not_mem_of_whole (isTidy_of_mem_spelledNames names s hs).whole)
    List.not_mem_nil directory

/-- How many names the directory of an origin keeps. -/
def startupDepth (names : List Bytes) (directory : Bool) : Nat :=
  names.length - (if directory = true then 0 else 1)

/-- The directory of an origin spells all its names, or all but the last one. -/
theorem dropLast_segmentsOfNames (names : List Bytes) (directory : Bool) :
    (segmentsOfNames names directory).dropLast = spelledNames (names.take (startupDepth names directory)) := by
  rw [segmentsOfNames_eq, startupDepth]
  by_cases hd : directory = true
  · rw [if_pos (Or.inr hd), if_pos hd, List.dropLast_concat, Nat.sub_zero, List.take_length]
  · rw [if_neg hd]
    by_cases hn : names = []
    · rw [hn, if_pos (Or.inl rfl), List.dropLast_concat]
      rfl
    · rw [if_neg fun h => h.elim hn hd, spelledNames, spelledNames, List.dropLast_eq_take, List.length_map, List.map_take]

/-- The base of an origin spells one name less than its directory. -/
theorem dropLast_dropLast_segmentsOfNames (names : List Bytes) (directory : Bool) :
    (segmentsOfNames names directory).dropLast.dropLast
      = spelledNames (names.take (startupDepth names directory - 1)) := by
  have hle : startupDepth names directory ≤ names.length := Nat.sub_le _ _
  rw [dropLast_segmentsOfNames, List.dropLast_eq_take, spelledNames, spelledNames, List.length_map, List.length_take,
    Nat.min_eq_left hle, ← List.map_take, List.take_take, Nat.min_eq_left (Nat.sub_le _ _)]

theorem length_segmentsOfNames (names : List Bytes) (directory : Bool) :
    (segmentsOfNames names directory).length = max 1 (names.length + if directory = true then 1 else 0) := by
  rw [segmentsOfNames_eq]
  by_cases hd : directory = true
  · rw [if_pos (Or.inr hd), if_pos hd, spelledNames, List.length_append, List.length_map, List.length_singleton]
    omega
  · rw [if_neg hd]
    by_cases hn : names = []
    · rw [hn, if_pos (Or.inl rfl)]
      rfl
    · have hpos := List.length_pos_iff.mpr hn
      rw [if_neg fun h => h.elim hn hd, spelledNames, List.length_map]
      omega

theorem segmentsOfNames_ne_nil (names : List Bytes) (directory : Bool) : segmentsOfNames names directory ≠ [] := by
  refine List.ne_nil_of_length_pos ?_
  rw [length_segmentsOfNames]
  omega

/-! ### Back to bytes -/

theorem bytesOfSegments_append (xs ys : List Text) :
    bytesOfSegments (xs ++ ys) = bytesOfSegments xs ++ bytesOfSegments ys := by
  rw [bytesOfSegments, bytesOfSegments, bytesOfSegments, List.flatMap_append]

theorem bytesOfSegments_names (names : List Bytes) :
    bytesOfSegments (spelledNames names) = behindSlashes names := by
  rw [bytesOfSegments, spelledNames, behindSlashes, List.flatMap_map]
  exact congrArg names.flatMap (funext fun name => by rw [decodeText_encode_nameSet])

theorem flatMap_splitOn_encode (s : Text) :
    ((splitOn '/' s).flatMap fun piece => slashByte :: Utf8.encode piece) = slashByte :: Utf8.encode s := by
  have h := congrArg Utf8.encode (flatMap_splitOn '/' s)
  rw [Utf8.encode, List.flatMap_assoc] at h
  exact h

/-! ### What reading a plain suffix gives -/

namespace IsPlainSuffix

variable {s : Text}

theorem rawSegments_file (h : IsPlainSuffix s) : rawSegments .file s = splitOn '/' s := by
  refine rawSegments_eq_splitOn fun c hc hsep => ?_
  have hb : c ≠ '\\' := fun e => h.backslash (e ▸ hc)
  simp only [isSeparator, Bool.or_eq_true, Bool.and_eq_true, beq_iff_eq] at hsep
  exact hsep.resolve_right fun hr => hb hr.2

theorem isSkipped_of_mem (h : IsPlainSuffix s) : ∀ c ∈ s, isSkipped c = false := by
  intro c hc
  exact isSkipped_eq_false (fun e => h.tab (e ▸ hc)) (fun e => h.returns (e ▸ hc)) (fun e => h.newline (e ▸ hc))

theorem tidySegment_of_mem (h : IsPlainSuffix s) : ∀ piece ∈ splitOn '/' s,
    tidySegment piece = encodeText pathSet piece := by
  intro piece hp
  exact tidySegment_eq_encodeText fun c hc => h.isSkipped_of_mem c (mem_of_mem_splitOn '/' c s piece hp hc)

theorem isDots_of_mem (h : IsPlainSuffix s) : ∀ piece ∈ splitOn '/' s, isDots piece = false := by
  intro piece hp
  have hd : Url.dots piece = piece := dots_of_not_mem piece fun hm => h.percent (mem_of_mem_splitOn '/' '%' s piece hp hm)
  obtain ⟨h1, h2⟩ := h.dots piece hp
  rw [isDots, isSingleDot, isDoubleDot, hd, Bool.or_eq_false_iff, beq_eq_false_iff_ne, beq_eq_false_iff_ne]
  exact ⟨h1, h2⟩

theorem bytesOfSegments_pieces (h : IsPlainSuffix s) :
    bytesOfSegments ((splitOn '/' s).map tidySegment) = slashByte :: Utf8.encode s := by
  rw [← flatMap_splitOn_encode, bytesOfSegments, List.flatMap_map]
  refine List.flatMap_congr fun piece hp => ?_
  rw [h.tidySegment_of_mem piece hp,
    decodeText_encodeText holdsHigh_pathSet piece fun hm => h.percent (mem_of_mem_splitOn '/' '%' s piece hp hm)]

/-- A suffix that starts with an empty piece is empty. -/
theorem splitOn_eq_of_head (h : IsPlainSuffix s) (rest : List Text) (he : (splitOn '/' s).map tidySegment = [] :: rest) :
    rest = [] := by
  cases s with
  | nil =>
    rw [splitOn, List.map_cons, List.map_nil, List.cons.injEq] at he
    exact he.2.symm
  | cons c more =>
    exfalso
    have hc : c ≠ '/' := fun e => h.relative (by rw [e]; rfl)
    cases hs : splitOn '/' (c :: more) with
    | nil => exact splitOn_ne_nil '/' _ hs
    | cons piece pieces =>
      have hp : piece ∈ splitOn '/' (c :: more) := by
        rw [hs]
        exact List.mem_cons_self
      -- the first piece holds at least the first character, and is not escaped away
      have hne : piece ≠ [] := by
        rintro rfl
        rw [splitOn, if_neg hc] at hs
        split at hs <;> cases hs
      rw [hs, List.map_cons, List.cons.injEq, h.tidySegment_of_mem piece hp] at he
      exact hne ((encodeText_eq_iff holdsHigh_pathSet rfl (by simp) piece).mp he.1)

end IsPlainSuffix

/-! ### Places below a native path -/

/-- The `file` URL of segments, with nothing else in it. -/
def nativeUrl (list : List Text) : Url :=
  ⟨"file".toList, some Authority.empty, .segments false list, none, none⟩

/-- URLs of segments are compared by their texts: as no segment holds a slash, the text keeps them apart. -/
theorem text_nativeUrl_inj {list more : List Text} (hl : ∀ s ∈ list, '/' ∉ s) (hm : ∀ s ∈ more, '/' ∉ s) :
    (nativeUrl list).text = (nativeUrl more).text ↔ nativeUrl list = nativeUrl more := by
  refine ⟨fun h => ?_, fun h => by rw [h]⟩
  have hsegments : segmentsText list = segmentsText more := List.append_cancel_left (List.append_cancel_right h)
  have hpieces := congrArg (splitOn '/') hsegments
  rw [splitOn_segmentsText hl, splitOn_segmentsText hm, List.cons.injEq] at hpieces
  rw [hpieces.2]

theorem kind_nativeUrl (list : List Text) : (nativeUrl list).kind = .file := rfl

theorem localPath?_nativeUrl (list : List Text) (h : list ≠ []) :
    localPath? (nativeUrl list) = some ⟨closeDriveLetter (bytesOfSegments list)⟩ := by
  obtain ⟨first, rest, rfl⟩ := List.exists_cons_of_ne_nil h
  have hbytes : (nativeUrl (first :: rest)).toNativePath?
      = if (nativeUrl (first :: rest)).isOnThisMachine = true
        then some ⟨closeDriveLetter (bytesOfSegments (first :: rest))⟩ else none := rfl
  show (nativeUrl (first :: rest)).toNativePath? = _
  have hlocal : (nativeUrl (first :: rest)).isOnThisMachine = true := rfl
  rw [hbytes, if_pos hlocal]

theorem ofNativePath_eq (fs : FileSystem) (p : NativePath) (h : p.isAbsolute = true) :
    Origin.ofNativePath fs p = .ok ⟨nativeUrl (segmentsOfNames p.names (Origin.namesDirectory fs p))⟩ := by
  rw [Origin.ofNativePath, ofNativePath?, if_pos h]
  rfl

/-- What is read behind names settles as it is. -/
theorem settle_spelledNames {p : NativePath} (names : List Bytes)
    (hn : ∀ name ∈ names, name ∈ p.names) (tail : List Text) (ht : ∀ rest, tail = [] :: rest → rest = []) :
    settle .file (spelledNames names ++ tail) = spelledNames names ++ tail := by
  refine settle_eq_self fun _ rest he => ?_
  cases names with
  | nil => exact ht rest he
  | cons name more =>
    rw [spelledNames, List.map_cons, List.cons_append, List.cons.injEq] at he
    exact absurd he.1 (ne_nil_of_mem_spelledNames (name :: more) hn _ List.mem_cons_self)

section Places

variable {p : NativePath} (hup : ∀ name ∈ p.names, name ≠ [dotByte, dotByte])
include hup

theorem wellRead_spelledNames (names : List Bytes) (hn : ∀ name ∈ names, name ∈ p.names) :
    WellRead .file (spelledNames names) :=
  wellRead_of_not_dots (isTidy_of_mem_spelledNames names) (isDots_of_mem_spelledNames hup names hn)

theorem wellRead_segmentsOfNames (directory : Bool) : WellRead .file (segmentsOfNames p.names directory) := by
  have hw := wellRead_spelledNames hup p.names fun _ h => h
  rw [segmentsOfNames_eq]
  split
  · exact hw.snoc_of_not_dots (isTidy_nil .file) rfl
  · exact hw

theorem isReadPath_segmentsOfNames (directory : Bool) : IsReadPath .file (segmentsOfNames p.names directory) := by
  have hsettled : settle .file (segmentsOfNames p.names directory) = segmentsOfNames p.names directory := by
    rw [segmentsOfNames_eq]
    split
    · exact settle_spelledNames p.names (fun _ h => h) [[]] fun rest he => (List.cons.inj he).2.symm
    · have hs := settle_spelledNames p.names (fun _ h => h) [] fun rest he => by cases he
      rwa [List.append_nil] at hs
  have hread := isReadPath_settle (wellRead_segmentsOfNames hup directory)
  rwa [hsettled] at hread

/-- Names are reread as they are, unless the first of them begins like a drive. -/
theorem reread_spelledNames (hdrive : ∀ name ∈ p.names.head?, startsLikeDrive name = false) (n : Nat) :
    reread .file (spelledNames (p.names.take n)) = spelledNames (p.names.take n) := by
  refine reread_of_not_dots (isDots_of_mem_spelledNames hup _ fun _ h => List.mem_of_mem_take h) ?_
  intro _ first hf
  cases n with
  | zero =>
    rw [List.take_zero] at hf
    cases hf
  | succ n =>
    cases hn : p.names with
    | nil =>
      rw [hn] at hf
      cases hf
    | cons name rest =>
      rw [hn, List.take_succ_cons] at hf
      cases hf
      exact isDriveLetter_encode_nameSet name (hdrive name (by rw [hn]; rfl))

/-- A place below a native path, told from its names. -/
theorem subpath?_nativeUrl (hdrive : ∀ name ∈ p.names.head?, startsLikeDrive name = false) {s : Text}
    (hs : IsPlainSuffix s) (directory : Bool)
    (hroot : startupDepth p.names directory = 1 → startsLikeDrive (Utf8.encode s) = false)
    (hlen : ¬(segmentsOfNames p.names directory).length < 2) :
    subpath? ⟨nativeUrl (segmentsOfNames p.names directory)⟩ s
      = some (nativeUrl (spelledNames (p.names.take (startupDepth p.names directory - 1))
        ++ (splitOn '/' s).map tidySegment)) := by
  have hkept : ∀ name ∈ p.names.take (startupDepth p.names directory - 1), name ∈ p.names :=
    fun _ h => List.mem_of_mem_take h
  have hread : finishOn .file (spelledNames (p.names.take (startupDepth p.names directory - 1))) (rawSegments .file s)
      = spelledNames (p.names.take (startupDepth p.names directory - 1)) ++ (splitOn '/' s).map tidySegment := by
    rw [hs.rawSegments_file]
    refine finishOn_plain _ _ _ ?_ hs.isDots_of_mem ?_
    · exact fun raw hm c hc => hs.isSkipped_of_mem c (mem_of_mem_splitOn '/' c s raw hm hc)
    · -- the suffix is read from the root only if no name is kept
      intro _ hnil
      refine isDriveLetter_head_splitOn s (hroot ?_)
      rw [length_segmentsOfNames] at hlen
      have hzero : (p.names.take (startupDepth p.names directory - 1)).length = 0 := by
        rw [List.map_eq_nil_iff.mp hnil]
        rfl
      rw [List.length_take, startupDepth] at hzero
      rw [startupDepth]
      by_cases hd : directory = true
      · rw [if_pos hd] at hlen hzero ⊢
        omega
      · rw [if_neg hd] at hlen hzero ⊢
        omega
  rw [subpath?_of_segments s rfl (kind_nativeUrl _ ▸ wellRead_segmentsOfNames hup directory), if_neg hlen]
  rw [dropLast_dropLast_segmentsOfNames]
  show some (withSegments _ false (settle .file (finishOn .file (reread .file _) (rawSegments .file s)))) = _
  rw [reread_spelledNames hup hdrive, hread, settle_spelledNames _ hkept _ hs.splitOn_eq_of_head]
  rfl

/-- The directory of a native path, told from its names. -/
theorem startup?_nativeUrl (hdrive : ∀ name ∈ p.names.head?, startsLikeDrive name = false) (directory : Bool) :
    startup? ⟨nativeUrl (segmentsOfNames p.names directory)⟩
      = some (nativeUrl (spelledNames (p.names.take (startupDepth p.names directory)) ++ [[]])) := by
  have hkept : ∀ name ∈ p.names.take (startupDepth p.names directory), name ∈ p.names :=
    fun _ h => List.mem_of_mem_take h
  have hlen : ¬(segmentsOfNames p.names directory).length < 1 := by
    rw [length_segmentsOfNames]
    omega
  rw [startup?_of_segments rfl (kind_nativeUrl _ ▸ wellRead_segmentsOfNames hup directory), if_neg hlen,
    dropLast_segmentsOfNames]
  show some (withSegments _ false (settle .file (reread .file _ ++ [[]]))) = _
  rw [reread_spelledNames hup hdrive, settle_spelledNames _ hkept _ fun rest he => (List.cons.inj he).2.symm]
  rfl

end Places

theorem bytesOfSegments_below (names : List Bytes) (tail : List Text) (rest : Bytes)
    (h : bytesOfSegments tail = slashByte :: rest) : bytesOfSegments (spelledNames names ++ tail) = below names rest := by
  rw [bytesOfSegments_append, bytesOfSegments_names, h, below]

theorem startupDepth_eq (fs : FileSystem) (p : NativePath) :
    startupDepth p.names (Origin.namesDirectory fs p) = (baseDepth fs p + 1).toNat := by
  rw [startupDepth, baseDepth]
  split <;> omega

theorem length_segmentsOfNames_lt (fs : FileSystem) (p : NativePath) :
    (segmentsOfNames p.names (Origin.namesDirectory fs p)).length < 2 ↔ baseDepth fs p < 0 := by
  rw [length_segmentsOfNames, baseDepth]
  by_cases hd : Origin.namesDirectory fs p = true
  · rw [if_pos hd, if_pos hd]
    omega
  · rw [if_neg hd, if_neg hd]
    omega

/-- Relocating an absolute native path drops its last two names, or the last one of a directory, and puts the bytes
of the suffix behind the others; there is no such place exactly when there are too few names. The directory of the
origin is all names but the last, or all names of a directory. -/
theorem subpathFile?_ofNativePath (fs : FileSystem) (p : NativePath) (habs : p.isAbsolute = true)
    (hup : ∀ name ∈ p.names, name ≠ [dotByte, dotByte])
    (hdrive : ∀ name ∈ p.names.head?, startsLikeDrive name = false) :
    ∃ o, Origin.ofNativePath fs p = .ok o
      ∧ (∀ s, IsPlainSuffix s → (baseDepth fs p = 0 → startsLikeDrive (Utf8.encode s) = false) →
        (subpathFile? o s = none ↔ baseDepth fs p < 0)
          ∧ (0 ≤ baseDepth fs p → subpathFile? o s
            = some ⟨withDriveClosed (below (p.names.take (baseDepth fs p).toNat) (Utf8.encode s))⟩))
      ∧ startupFile? o = some ⟨below (p.names.take (baseDepth fs p + 1).toNat) []⟩ := by
  refine ⟨_, ofNativePath_eq fs p habs, fun s hs hroot => ?_, ?_⟩
  · by_cases hneg : baseDepth fs p < 0
    · have hshort := (length_segmentsOfNames_lt fs p).mpr hneg
      have hnone : subpathFile? ⟨nativeUrl (segmentsOfNames p.names (Origin.namesDirectory fs p))⟩ s = none := by
        rw [subpathFile?, subpath?_of_segments s rfl (kind_nativeUrl _ ▸ wellRead_segmentsOfNames hup _),
          if_pos hshort]
        rfl
      exact ⟨⟨fun _ => hneg, fun _ => hnone⟩, fun h => absurd hneg (by omega)⟩
    · have hlong := fun h => hneg ((length_segmentsOfNames_lt fs p).mp h)
      have hdepth : startupDepth p.names (Origin.namesDirectory fs p) - 1 = (baseDepth fs p).toNat := by
        rw [startupDepth_eq]
        omega
      have hsome : subpathFile? ⟨nativeUrl (segmentsOfNames p.names (Origin.namesDirectory fs p))⟩ s
          = some ⟨withDriveClosed (below (p.names.take (baseDepth fs p).toNat) (Utf8.encode s))⟩ := by
        have hat : startupDepth p.names (Origin.namesDirectory fs p) = 1 → baseDepth fs p = 0 := by
          rw [startupDepth_eq]
          omega
        rw [subpathFile?, subpath?_nativeUrl hup hdrive hs _ (fun h => hroot (hat h)) hlong, Option.bind_some,
          localPath?_nativeUrl _ (by simp [splitOn_ne_nil]), closeDriveLetter_eq, hdepth,
          bytesOfSegments_below _ _ _ hs.bytesOfSegments_pieces]
      refine ⟨⟨fun h => ?_, fun h => absurd h hneg⟩, fun _ => hsome⟩
      rw [hsome] at h
      cases h
  · rw [startupFile?, startup?_nativeUrl hup hdrive, Option.bind_some, localPath?_nativeUrl _ (by simp),
      bytesOfSegments_below _ _ [] rfl, startupDepth_eq]
    rw [below, closeDriveLetter_snoc_slash]

/-- A program below a name that is no text and holds a percent sign. -/
def oddProgram : NativePath :=
  ⟨Utf8.encode "/opt/a".toList ++ 0xFF :: Utf8.encode "%2F/bin/tool".toList⟩

theorem subpathFile?_ofNativePath_oddProgram :
    ∃ o, Origin.ofNativePath FileSystem.empty oddProgram = .ok o
      ∧ subpathFile? o "share/x y".toList
        = some ⟨Utf8.encode "/opt/a".toList ++ 0xFF :: Utf8.encode "%2F/share/x y".toList⟩
      ∧ startupFile? o = some ⟨Utf8.encode "/opt/a".toList ++ 0xFF :: Utf8.encode "%2F/bin/".toList⟩ := by
  have hs : IsPlainSuffix "share/x y".toList := ⟨by decide, by decide, by decide, by decide, by decide, by decide, by decide⟩
  have hdepth : baseDepth FileSystem.empty oddProgram = 2 := by cbv
  obtain ⟨o, ho, hsub, hstart⟩ :=
    subpathFile?_ofNativePath FileSystem.empty oddProgram (by decide) (by decide) (by decide)
  refine ⟨o, ho, ?_, ?_⟩
  · rw [((hsub _ hs (fun h => by rw [hdepth] at h; cases h)).2 (by rw [hdepth]; decide)), hdepth]
    decide
  · rw [hstart, hdepth]
    decide

end Relocation
