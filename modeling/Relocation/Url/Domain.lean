import Relocation.Text.Printable
import Relocation.Text.Utf8
import Relocation.Url.CaseTable
import Relocation.Url.Error
import Relocation.Url.Punycode

/-!
# Host names in ASCII

The host of a special scheme is a domain name. It is folded (case, width, invisible characters), its labels are
checked, and a label beyond ASCII is spelled in ASCII with `xn--` in front. A label that already has the mark must
be the spelling of a label that needs it.

Three things that are asked of host names beyond ASCII are left out. Folding does not compose a letter with an accent
behind it, it knows no compatibility forms but those of its table, and labels written from right to left are not checked
for mixed directions. So some of these names come out in another spelling, or are not refused.
-/

namespace Relocation.Url.Domain

/-- The mark in front of a label that stands for one beyond ASCII. -/
def mark : Text := "xn--".toList

/-- ASCII characters no host name holds. -/
def isForbiddenAscii (c : Char) : Bool :=
  c.toNat ≤ 0x20 || c.toNat == 0x7F
    || ['%', '#', '/', ':', '<', '>', '?', '@', '[', '\\', ']', '^', '|'].contains c

/-- Whether the character tells how its neighbours are drawn. -/
def isJoiner (c : Char) : Bool :=
  c.toNat == 0x200C || c.toNat == 0x200D

/-- Whether a character may stand in a host name after folding. -/
def isAllowed (c : Char) : Bool :=
  if c.toNat < 0x80 then !isForbiddenAscii c
  else isPrintable c || isJoiner c

/-- The separators between labels. -/
def isDot (c : Char) : Bool :=
  ['.', Char.ofNat 0x3002, Char.ofNat 0xFF0E, Char.ofNat 0xFF61].contains c

def fold (c : Char) : Text :=
  if isDot c then ['.'] else foldChar c

def isAscii (t : Text) : Bool :=
  t.all fun c => c.toNat < 0x80

/-- The signs that take the vowel from a letter; they may be followed by a joiner, which tells how the letter and
the next one are drawn. -/
def viramas : List Nat :=
  [0x94D, 0x9CD, 0xA4D, 0xACD, 0xB4D, 0xBCD, 0xC4D, 0xCCD, 0xD3B, 0xD3C, 0xD4D, 0xDCA, 0xE3A, 0xEBA, 0xF84,
    0x1039, 0x103A, 0x1714, 0x1715, 0x1734, 0x17D2, 0x1A60, 0x1B44, 0x1BAA, 0x1BAB, 0x1BF2, 0x1BF3, 0x2D7F,
    0xA806, 0xA82C, 0xA8C4, 0xA953, 0xA9C0, 0xAAF6, 0xABED, 0x10A3F, 0x11046, 0x11070, 0x1107F, 0x110B9,
    0x11133, 0x11134, 0x111C0, 0x11235, 0x112EA, 0x1134D, 0x11442, 0x114C2, 0x115BF, 0x1163F, 0x116B6,
    0x1172B, 0x11839, 0x1193D, 0x1193E, 0x119E0, 0x11A34, 0x11A47, 0x11A99, 0x11C3F, 0x11D44, 0x11D45,
    0x11D97]

/-- Whether every joiner stands right behind a sign that allows one. -/
def joinersFit : Option Char → Text → Bool
  | _, [] => true
  | before, c :: rest =>
    (!isJoiner c || before.any fun b => viramas.contains b.toNat) && joinersFit (some c) rest

/-- Whether a label holds only allowed characters, joiners in their places, and does not begin with a character
that attaches itself. -/
def isLabel (label : Text) : Bool :=
  label.all isAllowed && joinersFit none label && (label.head?.map isAttaching) != some true

/-- Whether the text is what some spelling with the mark stands for: folded, well formed and beyond ASCII. -/
def needsMark (label : Text) : Bool :=
  isLabel label && !isAscii label && label.flatMap fold == label

def labelToAscii? (label : Text) : Option Text :=
  if isAscii label then
    if mark.isPrefixOf label then
      match Punycode.decode? (label.drop mark.length) with
      | some inner => if needsMark inner then some label else none
      | none => none
    else if isLabel label then some label
    else none
  else if isLabel label && !mark.isPrefixOf label then some (mark ++ Punycode.encode label)
  else none

def labelsToAscii? : List Text → Option (List Text)
  | [] => some []
  | label :: rest =>
    match labelToAscii? label, labelsToAscii? rest with
    | some l, some ls => some (l :: ls)
    | _, _ => none

/-- A host name in ASCII. It departs from the standard for names beyond ASCII: nothing is composed after folding, and
directions are not checked. -/
def toAscii (bs : Bytes) : Except Error Text :=
  match Utf8.decode? bs with
  | none => .error .idna
  | some t =>
    match labelsToAscii? (splitOn '.' (t.flatMap fold)) with
    | some labels => .ok (joinWith '.' labels)
    | none => .error .idna

end Relocation.Url.Domain
