import Relocation.Text.Basic

/-!
# Folding the letters of host names

Two spellings of a host name that differ only in case, in width or in being a compatibility form name the same
host. `foldChar` gives the form all of them share. Most foldings move a whole run of characters by one distance,
so the table lists runs; the few that yield no or several characters are listed one by one.
-/

namespace Relocation.Url

/-- A run of characters, `step` apart from each other, and where the run is moved. -/
structure FoldRun where
  first : Nat
  step : Nat
  count : Nat
  target : Nat

/-- The image of a character number under the run. -/
def FoldRun.image? (r : FoldRun) (n : Nat) : Option Nat :=
  if r.first ≤ n ∧ (n - r.first) % r.step = 0 ∧ (n - r.first) / r.step < r.count then
    some (r.target + (n - r.first))
  else none

/-- The runs beyond ASCII, in rising order of their first character. -/
def foldRuns : List FoldRun :=
  [⟨0xA0, 1, 1, 0x20⟩, ⟨0xAA, 1, 1, 0x61⟩, ⟨0xB2, 1, 2, 0x32⟩, ⟨0xB5, 1, 1, 0x3BC⟩, ⟨0xB9, 1, 1, 0x31⟩,
    ⟨0xBA, 1, 1, 0x6F⟩, ⟨0xC0, 1, 23, 0xE0⟩, ⟨0xD8, 1, 7, 0xF8⟩, ⟨0x100, 2, 24, 0x101⟩,
    ⟨0x134, 2, 2, 0x135⟩, ⟨0x139, 2, 3, 0x13A⟩, ⟨0x141, 2, 4, 0x142⟩, ⟨0x14A, 2, 23, 0x14B⟩,
    ⟨0x178, 1, 1, 0xFF⟩, ⟨0x179, 2, 3, 0x17A⟩, ⟨0x17F, 1, 1, 0x73⟩, ⟨0x181, 1, 1, 0x253⟩,
    ⟨0x182, 2, 2, 0x183⟩, ⟨0x186, 1, 1, 0x254⟩, ⟨0x187, 1, 1, 0x188⟩, ⟨0x189, 1, 2, 0x256⟩,
    ⟨0x18B, 1, 1, 0x18C⟩, ⟨0x18E, 1, 1, 0x1DD⟩, ⟨0x18F, 1, 1, 0x259⟩, ⟨0x190, 1, 1, 0x25B⟩,
    ⟨0x191, 1, 1, 0x192⟩, ⟨0x193, 1, 1, 0x260⟩, ⟨0x194, 1, 1, 0x263⟩, ⟨0x196, 1, 1, 0x269⟩,
    ⟨0x197, 1, 1, 0x268⟩, ⟨0x198, 1, 1, 0x199⟩, ⟨0x19C, 1, 1, 0x26F⟩, ⟨0x19D, 1, 1, 0x272⟩,
    ⟨0x19F, 1, 1, 0x275⟩, ⟨0x1A0, 2, 3, 0x1A1⟩, ⟨0x1A6, 1, 1, 0x280⟩, ⟨0x1A7, 1, 1, 0x1A8⟩,
    ⟨0x1A9, 1, 1, 0x283⟩, ⟨0x1AC, 1, 1, 0x1AD⟩, ⟨0x1AE, 1, 1, 0x288⟩, ⟨0x1AF, 1, 1, 0x1B0⟩,
    ⟨0x1B1, 1, 2, 0x28A⟩, ⟨0x1B3, 2, 2, 0x1B4⟩, ⟨0x1B7, 1, 1, 0x292⟩, ⟨0x1B8, 1, 1, 0x1B9⟩,
    ⟨0x1BC, 1, 1, 0x1BD⟩, ⟨0x1CD, 2, 8, 0x1CE⟩, ⟨0x1DE, 2, 9, 0x1DF⟩, ⟨0x1F4, 1, 1, 0x1F5⟩,
    ⟨0x1F6, 1, 1, 0x195⟩, ⟨0x1F7, 1, 1, 0x1BF⟩, ⟨0x1F8, 2, 20, 0x1F9⟩, ⟨0x220, 1, 1, 0x19E⟩,
    ⟨0x222, 2, 9, 0x223⟩, ⟨0x23A, 1, 1, 0x2C65⟩, ⟨0x23B, 1, 1, 0x23C⟩, ⟨0x23D, 1, 1, 0x19A⟩,
    ⟨0x23E, 1, 1, 0x2C66⟩, ⟨0x241, 1, 1, 0x242⟩, ⟨0x243, 1, 1, 0x180⟩, ⟨0x244, 1, 1, 0x289⟩,
    ⟨0x245, 1, 1, 0x28C⟩, ⟨0x246, 2, 5, 0x247⟩, ⟨0x370, 2, 2, 0x371⟩, ⟨0x374, 1, 1, 0x2B9⟩,
    ⟨0x376, 1, 1, 0x377⟩, ⟨0x37E, 1, 1, 0x3B⟩, ⟨0x37F, 1, 1, 0x3F3⟩, ⟨0x386, 1, 1, 0x3AC⟩,
    ⟨0x387, 1, 1, 0xB7⟩, ⟨0x388, 1, 3, 0x3AD⟩, ⟨0x38C, 1, 1, 0x3CC⟩, ⟨0x38E, 1, 2, 0x3CD⟩,
    ⟨0x391, 1, 17, 0x3B1⟩, ⟨0x3A3, 1, 9, 0x3C3⟩, ⟨0x3CF, 1, 1, 0x3D7⟩, ⟨0x3D0, 1, 1, 0x3B2⟩,
    ⟨0x3D1, 1, 1, 0x3B8⟩, ⟨0x3D2, 1, 1, 0x3C5⟩, ⟨0x3D3, 1, 1, 0x3CD⟩, ⟨0x3D4, 1, 1, 0x3CB⟩,
    ⟨0x3D5, 1, 1, 0x3C6⟩, ⟨0x3D6, 1, 1, 0x3C0⟩, ⟨0x3D8, 2, 12, 0x3D9⟩, ⟨0x3F0, 1, 1, 0x3BA⟩,
    ⟨0x3F1, 1, 1, 0x3C1⟩, ⟨0x3F2, 1, 1, 0x3C3⟩, ⟨0x3F4, 1, 1, 0x3B8⟩, ⟨0x3F5, 1, 1, 0x3B5⟩,
    ⟨0x3F7, 1, 1, 0x3F8⟩, ⟨0x3F9, 1, 1, 0x3C3⟩, ⟨0x3FA, 1, 1, 0x3FB⟩, ⟨0x3FD, 1, 3, 0x37B⟩,
    ⟨0x400, 1, 16, 0x450⟩, ⟨0x410, 1, 32, 0x430⟩, ⟨0x460, 2, 17, 0x461⟩, ⟨0x48A, 2, 27, 0x48B⟩,
    ⟨0x4C0, 1, 1, 0x4CF⟩, ⟨0x4C1, 2, 7, 0x4C2⟩, ⟨0x4D0, 2, 48, 0x4D1⟩, ⟨0x531, 1, 38, 0x561⟩,
    ⟨0x10A0, 1, 38, 0x2D00⟩, ⟨0x10C7, 1, 1, 0x2D27⟩, ⟨0x10CD, 1, 1, 0x2D2D⟩, ⟨0x1C90, 1, 43, 0x10D0⟩,
    ⟨0x1CBD, 1, 3, 0x10FD⟩, ⟨0x1E00, 2, 75, 0x1E01⟩, ⟨0x1E9E, 1, 1, 0xDF⟩, ⟨0x1EA0, 2, 48, 0x1EA1⟩,
    ⟨0x1F08, 1, 8, 0x1F00⟩, ⟨0x1F18, 1, 6, 0x1F10⟩, ⟨0x1F28, 1, 8, 0x1F20⟩, ⟨0x1F38, 1, 8, 0x1F30⟩,
    ⟨0x1F48, 1, 6, 0x1F40⟩, ⟨0x1F59, 2, 4, 0x1F51⟩, ⟨0x1F68, 1, 8, 0x1F60⟩, ⟨0x1FB8, 1, 2, 0x1FB0⟩,
    ⟨0x1FBA, 1, 1, 0x1F70⟩, ⟨0x1FC8, 2, 2, 0x1F72⟩, ⟨0x1FD8, 1, 2, 0x1FD0⟩, ⟨0x1FDA, 1, 1, 0x1F76⟩,
    ⟨0x1FE8, 1, 2, 0x1FE0⟩, ⟨0x1FEA, 1, 1, 0x1F7A⟩, ⟨0x1FEC, 1, 1, 0x1FE5⟩, ⟨0x1FF8, 1, 1, 0x1F78⟩,
    ⟨0x1FFA, 1, 1, 0x1F7C⟩, ⟨0x2070, 1, 1, 0x30⟩, ⟨0x2071, 1, 1, 0x69⟩, ⟨0x2074, 1, 6, 0x34⟩,
    ⟨0x207A, 1, 1, 0x2B⟩, ⟨0x207B, 1, 1, 0x2212⟩, ⟨0x207C, 1, 1, 0x3D⟩, ⟨0x207D, 1, 2, 0x28⟩,
    ⟨0x207F, 1, 1, 0x6E⟩, ⟨0x2080, 1, 10, 0x30⟩, ⟨0x208A, 1, 1, 0x2B⟩, ⟨0x208B, 1, 1, 0x2212⟩,
    ⟨0x208C, 1, 1, 0x3D⟩, ⟨0x208D, 1, 2, 0x28⟩, ⟨0x2090, 1, 1, 0x61⟩, ⟨0x2091, 1, 1, 0x65⟩,
    ⟨0x2092, 1, 1, 0x6F⟩, ⟨0x2093, 1, 1, 0x78⟩, ⟨0x2094, 1, 1, 0x259⟩, ⟨0x2095, 1, 1, 0x68⟩,
    ⟨0x2096, 1, 4, 0x6B⟩, ⟨0x209A, 1, 1, 0x70⟩, ⟨0x209B, 1, 2, 0x73⟩, ⟨0x2102, 1, 1, 0x63⟩,
    ⟨0x2107, 1, 1, 0x25B⟩, ⟨0x210A, 1, 2, 0x67⟩, ⟨0x210C, 1, 1, 0x68⟩, ⟨0x210D, 1, 1, 0x68⟩,
    ⟨0x210E, 1, 1, 0x68⟩, ⟨0x210F, 1, 1, 0x127⟩, ⟨0x2110, 1, 1, 0x69⟩, ⟨0x2111, 1, 1, 0x69⟩,
    ⟨0x2112, 1, 1, 0x6C⟩, ⟨0x2113, 2, 2, 0x6C⟩, ⟨0x2119, 1, 3, 0x70⟩, ⟨0x211C, 1, 1, 0x72⟩,
    ⟨0x211D, 1, 1, 0x72⟩, ⟨0x2124, 1, 1, 0x7A⟩, ⟨0x2126, 1, 1, 0x3C9⟩, ⟨0x2128, 1, 1, 0x7A⟩,
    ⟨0x212A, 1, 1, 0x6B⟩, ⟨0x212B, 1, 1, 0xE5⟩, ⟨0x212C, 1, 2, 0x62⟩, ⟨0x212F, 1, 1, 0x65⟩,
    ⟨0x2130, 1, 2, 0x65⟩, ⟨0x2132, 1, 1, 0x214E⟩, ⟨0x2133, 1, 1, 0x6D⟩, ⟨0x2134, 1, 1, 0x6F⟩,
    ⟨0x2135, 1, 4, 0x5D0⟩, ⟨0x2139, 1, 1, 0x69⟩, ⟨0x213C, 1, 1, 0x3C0⟩, ⟨0x213D, 1, 1, 0x3B3⟩,
    ⟨0x213E, 1, 1, 0x3B3⟩, ⟨0x213F, 1, 1, 0x3C0⟩, ⟨0x2140, 1, 1, 0x2211⟩, ⟨0x2145, 1, 1, 0x64⟩,
    ⟨0x2146, 1, 2, 0x64⟩, ⟨0x2148, 1, 2, 0x69⟩, ⟨0x2160, 1, 1, 0x69⟩, ⟨0x2164, 1, 1, 0x76⟩,
    ⟨0x2169, 1, 1, 0x78⟩, ⟨0x216C, 1, 1, 0x6C⟩, ⟨0x216D, 1, 2, 0x63⟩, ⟨0x216F, 1, 1, 0x6D⟩,
    ⟨0x2170, 1, 1, 0x69⟩, ⟨0x2174, 1, 1, 0x76⟩, ⟨0x2179, 1, 1, 0x78⟩, ⟨0x217C, 1, 1, 0x6C⟩,
    ⟨0x217D, 1, 2, 0x63⟩, ⟨0x217F, 1, 1, 0x6D⟩, ⟨0x2183, 1, 1, 0x2184⟩, ⟨0x2460, 1, 9, 0x31⟩,
    ⟨0x24B6, 1, 26, 0x61⟩, ⟨0x24D0, 1, 26, 0x61⟩, ⟨0x2C00, 1, 48, 0x2C30⟩, ⟨0x2C60, 1, 1, 0x2C61⟩,
    ⟨0x2C62, 1, 1, 0x26B⟩, ⟨0x2C63, 1, 1, 0x1D7D⟩, ⟨0x2C64, 1, 1, 0x27D⟩, ⟨0x2C67, 2, 3, 0x2C68⟩,
    ⟨0x2C6D, 1, 1, 0x251⟩, ⟨0x2C6E, 1, 1, 0x271⟩, ⟨0x2C6F, 1, 1, 0x250⟩, ⟨0x2C70, 1, 1, 0x252⟩,
    ⟨0x2C72, 1, 1, 0x2C73⟩, ⟨0x2C75, 1, 1, 0x2C76⟩, ⟨0x2C7E, 1, 2, 0x23F⟩, ⟨0x2C80, 2, 50, 0x2C81⟩,
    ⟨0x2CEB, 2, 2, 0x2CEC⟩, ⟨0x2CF2, 1, 1, 0x2CF3⟩, ⟨0xA640, 2, 23, 0xA641⟩, ⟨0xA680, 2, 14, 0xA681⟩,
    ⟨0xA722, 2, 7, 0xA723⟩, ⟨0xA732, 2, 31, 0xA733⟩, ⟨0xA779, 2, 2, 0xA77A⟩, ⟨0xA77D, 1, 1, 0x1D79⟩,
    ⟨0xA77E, 2, 5, 0xA77F⟩, ⟨0xA78B, 1, 1, 0xA78C⟩, ⟨0xA78D, 1, 1, 0x265⟩, ⟨0xA790, 2, 2, 0xA791⟩,
    ⟨0xA796, 2, 10, 0xA797⟩, ⟨0xA7AA, 1, 1, 0x266⟩, ⟨0xA7AB, 1, 1, 0x25C⟩, ⟨0xA7AC, 1, 1, 0x261⟩,
    ⟨0xA7AD, 1, 1, 0x26C⟩, ⟨0xA7AE, 1, 1, 0x26A⟩, ⟨0xA7B0, 1, 1, 0x29E⟩, ⟨0xA7B1, 1, 1, 0x287⟩,
    ⟨0xA7B2, 1, 1, 0x29D⟩, ⟨0xA7B3, 1, 1, 0xAB53⟩, ⟨0xA7B4, 2, 8, 0xA7B5⟩, ⟨0xA7C4, 1, 1, 0xA794⟩,
    ⟨0xA7C5, 1, 1, 0x282⟩, ⟨0xA7C6, 1, 1, 0x1D8E⟩, ⟨0xA7C7, 2, 2, 0xA7C8⟩, ⟨0xA7D0, 1, 1, 0xA7D1⟩,
    ⟨0xA7D6, 2, 2, 0xA7D7⟩, ⟨0xA7F5, 1, 1, 0xA7F6⟩, ⟨0xFF01, 1, 32, 0x21⟩, ⟨0xFF21, 1, 26, 0x61⟩,
    ⟨0xFF3B, 1, 36, 0x5B⟩, ⟨0xFFE0, 1, 2, 0xA2⟩, ⟨0xFFE2, 1, 1, 0xAC⟩, ⟨0xFFE5, 1, 1, 0xA5⟩,
    ⟨0xFFE6, 1, 1, 0x20A9⟩, ⟨0x10400, 1, 40, 0x10428⟩, ⟨0x104B0, 1, 36, 0x104D8⟩, ⟨0x10570, 2, 19, 0x10597⟩,
    ⟨0x10571, 1, 10, 0x10598⟩, ⟨0x1057D, 1, 14, 0x105A4⟩, ⟨0x1058D, 1, 6, 0x105B4⟩,
    ⟨0x10595, 1, 1, 0x105BC⟩, ⟨0x10C80, 1, 51, 0x10CC0⟩, ⟨0x118A0, 1, 32, 0x118C0⟩,
    ⟨0x16E40, 1, 32, 0x16E60⟩, ⟨0x1E900, 1, 34, 0x1E922⟩]

/-- The characters that fold to none or to several. -/
def foldExpansions : List (Nat × List Nat) :=
  [(0xA8, [0x20, 0x308]), (0xAD, []), (0xAF, [0x20, 0x304]), (0xB4, [0x20, 0x301]), (0xB8, [0x20, 0x327]),
    (0xBC, [0x31, 0x2044, 0x34]), (0xBD, [0x31, 0x2044, 0x32]), (0xBE, [0x33, 0x2044, 0x34]),
    (0x130, [0x69, 0x307]), (0x132, [0x69, 0x6A]), (0x133, [0x69, 0x6A]), (0x13F, [0x6C, 0xB7]),
    (0x140, [0x6C, 0xB7]), (0x149, [0x2BC, 0x6E]), (0x1C4, [0x64, 0x17E]), (0x1C5, [0x64, 0x17E]),
    (0x1C6, [0x64, 0x17E]), (0x1C7, [0x6C, 0x6A]), (0x1C8, [0x6C, 0x6A]), (0x1C9, [0x6C, 0x6A]),
    (0x1CA, [0x6E, 0x6A]), (0x1CB, [0x6E, 0x6A]), (0x1CC, [0x6E, 0x6A]), (0x1F1, [0x64, 0x7A]),
    (0x1F2, [0x64, 0x7A]), (0x1F3, [0x64, 0x7A]), (0x587, [0x565, 0x582]), (0x180B, []), (0x180C, []),
    (0x180D, []), (0x180F, []), (0x1E9E, [0x73, 0x73]), (0x200B, []), (0x2025, [0x2E, 0x2E]),
    (0x2026, [0x2E, 0x2E, 0x2E]),
    (0x2060, []), (0x2116, [0x6E, 0x6F]), (0x2120, [0x73, 0x6D]), (0x2121, [0x74, 0x65, 0x6C]),
    (0x2122, [0x74, 0x6D]), (0xFB00, [0x66, 0x66]), (0xFB01, [0x66, 0x69]), (0xFB02, [0x66, 0x6C]),
    (0xFB03, [0x66, 0x66, 0x69]), (0xFB04, [0x66, 0x66, 0x6C]), (0xFB05, [0x73, 0x74]),
    (0xFB06, [0x73, 0x74]), (0xFEFF, [])]

def foldChar (c : Char) : Text :=
  let n := c.toNat
  if n < 0x80 then [c.toLower]
  else
    match foldExpansions.find? (·.1 == n) with
    | some (_, expansion) => expansion.map Char.ofNat
    | none =>
      match foldRuns.findSome? (·.image? n) with
      | some m => [Char.ofNat m]
      | none => [c]

theorem foldChar_ascii (c : Char) (h : c.toNat < 0x80) : foldChar c = [c.toLower] := by
  simp [foldChar, h]

end Relocation.Url
