import Relocation.Proofs.Escaping
import Relocation.Proofs.Numerals
import Relocation.Proofs.PathReading
import Relocation.Proofs.Pieces
import Relocation.Url.Parser

/-!
# Hosts hold no foreign characters

The text of a host never holds a character that no name of a host may hold (`IsForeign`), although percent coding could
bring one in: the names of special schemes are checked after decoding, label by label, the names of others before
anything is escaped, and addresses are written in digits. So it holds no end of a path, no separator and nothing that
vanishes, and what stands behind it in a URL is found again.

* `lacks_labelToAscii?`: a label, also one that is written or kept in ASCII spelling;
* `lacks_readHost`: every host that was read;
* `IsSpecialHost.text_ne_nil`, `IsSpecialHost.isDriveLetter_text`: what such a text can not be.
-/

namespace Relocation.Url

open Percent

/-! ### Text without the characters of a class -/

/-- Text without the characters of a class. -/
def Lacks (p : Char → Bool) (t : Text) : Prop :=
  ∀ c ∈ t, p c = false

instance (p : Char → Bool) (t : Text) : Decidable (Lacks p t) :=
  List.decidableBAll _ t

namespace Lacks

variable {p : Char → Bool}

theorem nil : Lacks p [] := by
  intro c h
  cases h

theorem cons {c : Char} {t : Text} (hc : p c = false) (h : Lacks p t) : Lacks p (c :: t) := by
  intro d hd
  rcases List.mem_cons.mp hd with rfl | hd
  · exact hc
  · exact h d hd

theorem append {s t : Text} (hs : Lacks p s) (ht : Lacks p t) : Lacks p (s ++ t) := by
  intro c hc
  rcases List.mem_append.mp hc with hc | hc
  · exact hs c hc
  · exact ht c hc

theorem of_subset {s t : Text} (ht : Lacks p t) (h : s ⊆ t) : Lacks p s :=
  fun c hc => ht c (h hc)

/-- Text that lacks a class lacks every smaller one. -/
theorem mono {q : Char → Bool} {t : Text} (h : Lacks p t) (hq : ∀ c, q c = true → p c = true) : Lacks q t := by
  intro c hc
  rw [Bool.eq_false_iff]
  intro hqc
  have hpc := hq c hqc
  rw [h c hc] at hpc
  cases hpc

theorem joinWith {sep : Char} (hsep : p sep = false) {pieces : List Text}
    (h : ∀ piece ∈ pieces, Lacks p piece) : Lacks p (joinWith sep pieces) := by
  induction pieces with
  | nil => exact nil
  | cons piece more ih =>
    have hp := h piece List.mem_cons_self
    have hm := ih fun q hq => h q (List.mem_cons_of_mem _ hq)
    cases more with
    | nil => exact hp
    | cons next rest => exact hp.append (hm.cons hsep)

theorem encode (he : Lacks p escapeChars) {set : EscapeSet} {bs : Bytes}
    (h : ∀ b ∈ bs, set b = false → p (Char.ofNat b.toNat) = false) : Lacks p (encode set bs) := by
  intro c hc
  rcases mem_encode set bs c hc with hm | ⟨b, hb, hs, rfl⟩
  · exact he c hm
  · exact h b hb hs

theorem encodeText (he : Lacks p escapeChars) {set : EscapeSet} (hh : HoldsHigh set) {t : Text} (h : Lacks p t) :
    Lacks p (encodeText set t) :=
  encode he fun b hb hs => h _ (Utf8.mem_of_mem_encode t b hb (hh b hs))

/-- What is spelled for a set lacks every class whose characters the set holds. -/
theorem of_spelled {set : EscapeSet} {t : Text} (h : Spelled set t)
    (hp : ∀ c, p c = true → set (UInt8.ofNat c.toNat) = true) : Lacks p t := by
  intro c hc
  rw [Bool.eq_false_iff]
  intro hpc
  have hset := hp c hpc
  rw [(h c hc).2] at hset
  cases hset

end Lacks

/-- Text without a character that would end a path. -/
def HoldsNoEnd (t : Text) : Prop :=
  Lacks endsPath t

theorem endsPath_eq_true {c : Char} (h : endsPath c = true) : c = '?' ∨ c = '#' := by
  simpa [endsPath] using h

theorem holdsNoEnd_of_pathSet {t : Text} (h : Spelled pathSet t) : HoldsNoEnd t := by
  apply Lacks.of_spelled h
  intro c hc
  rcases endsPath_eq_true hc with rfl | rfl <;> decide

/-! ### Characters that no host may hold -/

/-- A class of characters that no name of a host may hold, whatever the scheme. -/
def IsForeign (p : Char → Bool) : Prop :=
  ∀ c, p c = true → Domain.isForbiddenAscii c = true ∧ isForbiddenInHost c = true

section Foreign

variable {p : Char → Bool} (hp : IsForeign p)
include hp

omit hp in
/-- What is true of every character that no host of a plain scheme may hold. -/
theorem forall_isForbiddenInHost {q : Char → Bool}
    (h : (['\x00', '\t', '\n', '\r', ' ', '#', '/', ':', '<', '>', '?', '@', '[', '\\', ']', '^', '|'].all q) = true)
    {c : Char} (hc : isForbiddenInHost c = true) : q c = true :=
  List.all_eq_true.mp h c (List.contains_iff_mem.mp hc)

theorem IsForeign.eq_false {c : Char} (h : isForbiddenInHost c = false) : p c = false := by
  rw [Bool.eq_false_iff]
  intro hc
  rw [(hp c hc).2] at h
  cases h

theorem IsForeign.eq_false_of_mem {t : Text} (h : Lacks isForbiddenInHost t) : Lacks p t :=
  fun c hc => hp.eq_false (h c hc)

/-! ### Numbers -/

theorem eq_false_digitChar (n : Nat) : p n.digitChar = false := by
  apply hp.eq_false
  match n with
  | 0 | 1 | 2 | 3 | 4 | 5 | 6 | 7 | 8 | 9 | 10 | 11 | 12 | 13 | 14 | 15 => decide
  | _ + 16 => simp [Nat.digitChar, isForbiddenInHost]

theorem lacks_toDigits {radix : Nat} (hr : 1 < radix) (n : Nat) : Lacks p (Nat.toDigits radix n) := by
  intro c hc
  obtain ⟨d, -, rfl⟩ := exists_of_mem_toDigits hr n hc
  exact eq_false_digitChar hp d

theorem lacks_decimal (n : Nat) : Lacks p (decimal n) :=
  lacks_toDigits hp (by decide) n

theorem lacks_lowerHex (n : Nat) : Lacks p (lowerHex n) :=
  lacks_toDigits hp (by decide) n

theorem lacks_ipv4 (address : Nat) : Lacks p (Ipv4.write address) := by
  refine Lacks.joinWith (hp.eq_false (by decide)) fun piece hm => ?_
  obtain ⟨n, -, rfl⟩ := List.mem_map.mp hm
  exact lacks_decimal hp n

theorem lacks_writeGroups (hb : Lacks p ":[]".toList) (groups : List Nat) : Lacks p (Ipv6.writeGroups groups) := by
  refine Lacks.joinWith (hb ':' (by decide)) fun piece hm => ?_
  obtain ⟨n, -, rfl⟩ := List.mem_map.mp hm
  exact lacks_lowerHex hp n

theorem lacks_ipv6 (hb : Lacks p ":[]".toList) (groups : List Nat) : Lacks p (Ipv6.write groups) := by
  rw [Ipv6.write]
  simp only
  split
  · exact lacks_writeGroups hp hb groups
  · have hgap : Lacks p "::".toList := hb.of_subset (by decide)
    exact ((lacks_writeGroups hp hb _).append hgap).append (lacks_writeGroups hp hb _)

/-! ### Labels in ASCII -/

namespace Punycode

theorem eq_false_digit (n : Nat) (h : n < 36) : p (digit n) = false := by
  have hall : ∀ n < 36, isForbiddenInHost (digit n) = false := by decide
  exact hp.eq_false (hall n h)

theorem lacks_writeNumber (bias k n : Nat) : Lacks p (writeNumber bias k n) := by
  induction k, n using writeNumber.induct bias with
  | case1 k n h =>
    have hle := threshold_le k bias
    rw [writeNumber, if_pos h]
    exact Lacks.nil.cons (eq_false_digit hp n (by omega))
  | case2 k n h ih =>
    have hle := threshold_le k bias
    have hmod := Nat.mod_lt (n - threshold k bias) (show 0 < 36 - threshold k bias by omega)
    rw [writeNumber, if_neg h]
    exact ih.cons (eq_false_digit hp _ (by omega))

theorem lacks_pass (basics point : Nat) (e : Encoder) (c : Char) (h : Lacks p e.out) :
    Lacks p (e.pass basics point c).out := by
  rw [Encoder.pass]
  split
  · exact h
  · split
    · exact h.append (lacks_writeNumber hp _ _ _)
    · exact h

theorem lacks_foldl_pass (basics point : Nat) (label : Text) (e : Encoder) (h : Lacks p e.out) :
    Lacks p (label.foldl (Encoder.pass basics point) e).out := by
  induction label generalizing e with
  | nil => exact h
  | cons c rest ih => exact ih _ (lacks_pass hp basics point e c h)

theorem lacks_insertAll (label : Text) (basics reached : Nat) (points : List Nat) (e : Encoder)
    (h : Lacks p e.out) : Lacks p (Encoder.insertAll label basics reached points e).out := by
  induction points generalizing reached e with
  | nil => exact h
  | cons point rest ih => exact ih _ _ (lacks_foldl_pass hp basics point label _ h)

/-- A label is written with its ASCII characters and digits. -/
theorem lacks_encode (label : Text) (h : Lacks p label) : Lacks p (Punycode.encode label) := by
  have hbasics : Lacks p (label.filter fun c => c.toNat < 0x80) :=
    h.of_subset fun c hc => (List.mem_filter.mp hc).1
  refine lacks_insertAll hp _ _ _ _ _ ?_
  show Lacks p (if _ then [] else _)
  split
  · exact .nil
  · exact hbasics.append (Lacks.nil.cons (hp.eq_false (by decide)))

theorem eq_false_of_digitOf? (c : Char) (h : (digitOf? c).isSome = true) : p c = false := by
  rw [Bool.eq_false_iff]
  intro hc
  have hnone : (digitOf? c).isNone = true := forall_isForbiddenInHost (q := fun c => (digitOf? c).isNone) (by decide) (hp c hc).2
  rw [Option.isNone_iff_eq_none.mp hnone] at h
  cases h

/-- A number that is read leaves the rest of its text, and uses up digits. -/
theorem lacks_of_readNumber? (bias k weight acc : Nat) (t rest : Text) (n : Nat)
    (h : readNumber? bias k weight acc t = some (n, rest)) (hr : Lacks p rest) : Lacks p t := by
  induction t generalizing k weight acc with
  | nil => cases h
  | cons c more ih =>
    rw [readNumber?] at h
    split at h
    · cases h
    · next d hd =>
      have hc : p c = false := eq_false_of_digitOf? hp c (by rw [hd]; rfl)
      split at h
      · rw [Option.some.injEq, Prod.mk.injEq] at h
        rw [h.2]
        exact hr.cons hc
      · exact (ih _ _ _ h).cons hc

/-- What an ASCII spelling stands for keeps the ASCII characters in front, and all the others were digits. -/
theorem decodeFrom?_eq_some (fuel bias point position : Nat) (label digits inner : Text)
    (h : decodeFrom? fuel bias point position label digits = some inner) :
    (∀ c ∈ label, c ∈ inner) ∧ Lacks p digits := by
  -- every round puts one more character into the label and goes on behind the digits it has used up
  induction fuel generalizing bias point position label digits with
  | zero =>
    cases digits with
    | nil =>
      cases h
      exact ⟨fun _ hc => hc, .nil⟩
    | cons c rest => cases h
  | succ fuel ih =>
    cases digits with
    | nil =>
      cases h
      exact ⟨fun _ hc => hc, .nil⟩
    | cons c rest =>
      rw [decodeFrom?] at h
      · split at h
        · cases h
        · next reached left hread =>
          simp only at h
          split at h
          · obtain ⟨hsub, hleft⟩ := ih _ _ _ _ _ h
            refine ⟨fun d hd => hsub d ?_, lacks_of_readNumber? hp _ _ _ _ _ _ _ hread hleft⟩
            have hplace : reached % (label.length + 1) ≤ label.length :=
              Nat.lt_succ_iff.mp (Nat.mod_lt reached (Nat.succ_pos _))
            exact (List.mem_insertIdx hplace).mpr (Or.inr hd)
          · cases h
      · simp

theorem lacks_of_decode? (t inner : Text) (h : decode? t = some inner) (hi : Lacks p inner) : Lacks p t := by
  cases hc : cutAtLast? '-' t with
  | none =>
    simp only [decode?, hc] at h
    split at h
    · cases h
    · exact (decodeFrom?_eq_some hp _ _ _ _ _ _ _ h).2
  | some cut =>
    obtain ⟨before, after⟩ := cut
    simp only [decode?, hc] at h
    split at h
    · cases h
    · obtain ⟨hbasics, hdigits⟩ := decodeFrom?_eq_some hp _ _ _ _ _ _ _ h
      rw [(cutAtLast?_eq_some '-' t before after hc).1]
      exact (hi.of_subset hbasics).append (hdigits.cons (hp.eq_false (by decide)))

end Punycode

namespace Domain

theorem eq_false_of_isAllowed (c : Char) (h : isAllowed c = true) : p c = false := by
  rw [Bool.eq_false_iff]
  intro hc
  have hascii : decide (c.toNat < 0x80) = true :=
    forall_isForbiddenInHost (q := fun c => decide (c.toNat < 0x80)) (by decide) (hp c hc).2
  rw [isAllowed, if_pos (of_decide_eq_true hascii), (hp c hc).1] at h
  cases h

theorem lacks_of_isLabel (label : Text) (h : isLabel label = true) : Lacks p label := by
  intro c hc
  rw [isLabel, Bool.and_eq_true, Bool.and_eq_true] at h
  exact eq_false_of_isAllowed hp c (List.all_eq_true.mp h.1.1 c hc)

/-- A label in ASCII, whether it was written that way or kept. -/
theorem lacks_labelToAscii? (label out : Text) (h : labelToAscii? label = some out) : Lacks p out := by
  have hmark : Lacks p mark := hp.eq_false_of_mem (by decide)
  rw [labelToAscii?] at h
  split at h
  · split at h
    · next hprefix =>
      split at h
      · next inner hd =>
        split at h
        · next hn =>
          -- what the spelling stands for was checked, and the spelling holds nothing else but digits
          rw [needsMark, Bool.and_eq_true, Bool.and_eq_true] at hn
          cases h
          rw [← List.prefix_iff_eq_append.mp (List.isPrefixOf_iff_prefix.mp hprefix)]
          exact hmark.append (Punycode.lacks_of_decode? hp _ inner hd (lacks_of_isLabel hp inner hn.1.1))
        · cases h
      · cases h
    · split at h
      · next hl =>
        cases h
        exact lacks_of_isLabel hp _ hl
      · cases h
  · split at h
    · next hl =>
      rw [Bool.and_eq_true] at hl
      cases h
      exact hmark.append (Punycode.lacks_encode hp label (lacks_of_isLabel hp label hl.1))
    · cases h

theorem lacks_labelsToAscii? (labels outs : List Text) (h : labelsToAscii? labels = some outs) :
    ∀ out ∈ outs, Lacks p out := by
  induction labels generalizing outs with
  | nil =>
    cases h
    intro out ho
    cases ho
  | cons label rest ih =>
    rw [labelsToAscii?] at h
    split at h
    · next l ls hl hls =>
      cases h
      intro out ho
      rcases List.mem_cons.mp ho with rfl | ho
      · exact lacks_labelToAscii? hp label _ hl
      · exact ih ls hls out ho
    · cases h

theorem lacks_toAscii (bs : Bytes) (name : Text) (h : toAscii bs = .ok name) : Lacks p name := by
  rw [toAscii] at h
  split at h
  · cases h
  · split at h
    · next labels hl =>
      cases h
      exact Lacks.joinWith (hp.eq_false (by decide)) (lacks_labelsToAscii? hp _ labels hl)
    · cases h

end Domain

end Foreign

/-! ### Hosts -/

/-- What a host of a special scheme is. -/
inductive IsSpecialHost : Host → Prop
  | ipv6 (groups : List Nat) : IsSpecialHost (.ipv6 groups)
  | ipv4 (address : Nat) : IsSpecialHost (.ipv4 address)
  | domain {bs : Bytes} {name : Text} : Domain.toAscii bs = .ok name → name ≠ [] → IsSpecialHost (.domain name)

/-- What a host of any other scheme is. -/
inductive IsPlainHost : Host → Prop
  | ipv6 (groups : List Nat) : IsPlainHost (.ipv6 groups)
  | domain {t : Text} : t.any isForbiddenInHost = false → IsPlainHost (.domain (encodeText controls t))

theorem readBracketed_eq_ok {t : Text} {host : Host} (h : readBracketed t = .ok host) :
    ∃ groups, host = .ipv6 groups := by
  unfold readBracketed at h
  split at h
  · next inner _ =>
    cases hr : Ipv6.read inner.reverse with
    | error e =>
      rw [hr] at h
      cases h
    | ok groups =>
      rw [hr] at h
      cases h
      exact ⟨groups, rfl⟩
  · cases h

theorem isSpecialHost_of_readSpecialHost {t : Text} {host : Host} (h : readSpecialHost t = .ok host) :
    IsSpecialHost host := by
  unfold readSpecialHost at h
  split at h
  · obtain ⟨groups, rfl⟩ := readBracketed_eq_ok h
    exact .ipv6 groups
  · split at h
    · cases h
    · next name hn =>
      split at h
      · cases h
      · next hne =>
        split at h
        · cases hr : Ipv4.read name with
          | error e =>
            rw [hr] at h
            cases h
          | ok address =>
            rw [hr] at h
            cases h
            exact .ipv4 address
        · cases h
          exact .domain hn hne

theorem isPlainHost_of_readPlainHost {t : Text} {host : Host} (h : readPlainHost t = .ok host) :
    IsPlainHost host := by
  unfold readPlainHost at h
  split at h
  · obtain ⟨groups, rfl⟩ := readBracketed_eq_ok h
    exact .ipv6 groups
  · split at h
    · cases h
    · next hf =>
      cases h
      exact .domain (by simpa using hf)

section Foreign

variable {p : Char → Bool} (hp : IsForeign p)
include hp

theorem lacks_ipv6Text (hb : Lacks p ":[]".toList) (groups : List Nat) : Lacks p (Host.ipv6 groups).text := by
  have hclose : Lacks p [']'] := hb.of_subset (by decide)
  exact ((lacks_ipv6 hp hb groups).cons (hb '[' (by decide))).append hclose

theorem IsSpecialHost.lacks (hb : Lacks p ":[]".toList) {host : Host} (h : IsSpecialHost host) :
    Lacks p host.text := by
  cases h with
  | ipv6 groups => exact lacks_ipv6Text hp hb groups
  | ipv4 address => exact lacks_ipv4 hp address
  | domain hn _ => exact Domain.lacks_toAscii hp _ _ hn

theorem IsPlainHost.lacks (hb : Lacks p ":[]".toList) {host : Host} (h : IsPlainHost host) : Lacks p host.text := by
  cases h with
  | ipv6 groups => exact lacks_ipv6Text hp hb groups
  | domain ht =>
    refine Lacks.encodeText (hp.eq_false_of_mem (by decide)) holdsHigh_controls fun c hc => ?_
    exact hp.eq_false (by simpa using List.any_eq_false.mp ht c hc)

/-- No host that was read holds a foreign character. -/
theorem lacks_readHost (hb : Lacks p ":[]".toList) (kind : SchemeKind) (t : Text) (host : Host)
    (h : readHost kind t = .ok host) : Lacks p host.text := by
  rw [readHost] at h
  split at h
  · exact (isSpecialHost_of_readSpecialHost h).lacks hp hb
  · exact (isPlainHost_of_readPlainHost h).lacks hp hb

end Foreign

/-! ### What host texts look like -/

theorem ipv4_ne_nil (address : Nat) : Ipv4.write address ≠ [] := by
  rw [Ipv4.write]
  exact List.append_ne_nil_of_right_ne_nil _ (List.cons_ne_nil _ _)

/-- No host of a special scheme is spelled with nothing. -/
theorem IsSpecialHost.text_ne_nil {host : Host} (h : IsSpecialHost host) : host.text ≠ [] := by
  cases h with
  | ipv6 groups => exact List.cons_ne_nil _ _
  | ipv4 address => exact ipv4_ne_nil address
  | domain _ hne => exact hne

/-- The two signs that make a letter a drive. -/
def isDriveSign (c : Char) : Bool :=
  c == ':' || c == '|'

theorem isForeign_isDriveSign : IsForeign isDriveSign := by
  intro c hc
  rw [isDriveSign, Bool.or_eq_true, beq_iff_eq, beq_iff_eq] at hc
  rcases hc with rfl | rfl <;> decide

/-- No host is taken for a drive letter. -/
theorem IsSpecialHost.isDriveLetter_text {host : Host} (h : IsSpecialHost host) : isDriveLetter host.text = false := by
  have hlacks : ∀ t, Lacks isDriveSign t → isDriveLetter t = false := by
    intro t ht
    rw [Bool.eq_false_iff]
    intro hd
    obtain ⟨letter, sign, -, hsign, rfl⟩ := isDriveLetter_eq_true t hd
    have hs := ht sign (by simp)
    rcases hsign with rfl | rfl <;> cases hs
  cases h with
  | ipv6 groups =>
    rw [Bool.eq_false_iff]
    intro hd
    obtain ⟨letter, sign, hl, -, he⟩ := isDriveLetter_eq_true _ hd
    have hopen : '[' = letter := (List.cons.inj he).1
    rw [← hopen] at hl
    cases hl
  | ipv4 address => exact hlacks _ (lacks_ipv4 isForeign_isDriveSign address)
  | domain hn _ => exact hlacks _ (Domain.lacks_toAscii isForeign_isDriveSign _ _ hn)

end Relocation.Url
