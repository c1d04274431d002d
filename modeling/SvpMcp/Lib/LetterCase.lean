import Mathlib.Init

/-!
# Letter case

The simple case maps of Unicode 15.0.0, the version of Go's `unicode` package. Most letters
stand in runs at one distance from their partners.
-/

namespace SvpMcp.LetterCase

/-- Runs of letters in upper case, outside ASCII: the first one, how many there are, and the
distance to their lower case. -/
def runs : List (Nat × Nat × Int) :=
  [(0xc0, 23, 32), (0xd8, 7, 32), (0x178, 1, -121), (0x181, 1, 210), (0x186, 1, 206),
    (0x189, 2, 205), (0x18e, 1, 79), (0x18f, 1, 202), (0x190, 1, 203), (0x193, 1, 205),
    (0x194, 1, 207), (0x196, 1, 211), (0x197, 1, 209), (0x19c, 1, 211), (0x19d, 1, 213),
    (0x19f, 1, 214), (0x1a6, 1, 218), (0x1a9, 1, 218), (0x1ae, 1, 218), (0x1b1, 2, 217),
    (0x1b7, 1, 219), (0x1c4, 1, 2), (0x1c7, 1, 2), (0x1ca, 1, 2), (0x1f1, 1, 2), (0x1f6, 1, -97),
    (0x1f7, 1, -56), (0x220, 1, -130), (0x23a, 1, 10795), (0x23d, 1, -163), (0x23e, 1, 10792),
    (0x243, 1, -195), (0x244, 1, 69), (0x245, 1, 71), (0x37f, 1, 116), (0x386, 1, 38),
    (0x388, 3, 37), (0x38c, 1, 64), (0x38e, 2, 63), (0x391, 17, 32), (0x3a3, 9, 32), (0x3cf, 1, 8),
    (0x3f9, 1, -7), (0x3fd, 3, -130), (0x400, 16, 80), (0x410, 32, 32), (0x4c0, 1, 15),
    (0x531, 38, 48), (0x10a0, 38, 7264), (0x10c7, 1, 7264), (0x10cd, 1, 7264), (0x13a0, 80, 38864),
    (0x13f0, 6, 8), (0x1c90, 43, -3008), (0x1cbd, 3, -3008), (0x1f08, 8, -8), (0x1f18, 6, -8),
    (0x1f28, 8, -8), (0x1f38, 8, -8), (0x1f48, 6, -8), (0x1f59, 1, -8), (0x1f5b, 1, -8),
    (0x1f5d, 1, -8), (0x1f5f, 1, -8), (0x1f68, 8, -8), (0x1f88, 8, -8), (0x1f98, 8, -8),
    (0x1fa8, 8, -8), (0x1fb8, 2, -8), (0x1fba, 2, -74), (0x1fbc, 1, -9), (0x1fc8, 4, -86),
    (0x1fcc, 1, -9), (0x1fd8, 2, -8), (0x1fda, 2, -100), (0x1fe8, 2, -8), (0x1fea, 2, -112),
    (0x1fec, 1, -7), (0x1ff8, 2, -128), (0x1ffa, 2, -126), (0x1ffc, 1, -9), (0x2132, 1, 28),
    (0x2160, 16, 16), (0x24b6, 26, 26), (0x2c00, 48, 48), (0x2c62, 1, -10743), (0x2c63, 1, -3814),
    (0x2c64, 1, -10727), (0x2c6d, 1, -10780), (0x2c6e, 1, -10749), (0x2c6f, 1, -10783),
    (0x2c70, 1, -10782), (0x2c7e, 2, -10815), (0xa77d, 1, -35332), (0xa78d, 1, -42280),
    (0xa7aa, 1, -42308), (0xa7ab, 1, -42319), (0xa7ac, 1, -42315), (0xa7ad, 1, -42305),
    (0xa7ae, 1, -42308), (0xa7b0, 1, -42258), (0xa7b1, 1, -42282), (0xa7b2, 1, -42261),
    (0xa7b3, 1, 928), (0xa7c4, 1, -48), (0xa7c5, 1, -42307), (0xa7c6, 1, -35384), (0xff21, 26, 32),
    (0x10400, 40, 40), (0x104b0, 36, 40), (0x10570, 11, 39), (0x1057c, 15, 39), (0x1058c, 7, 39),
    (0x10594, 2, 39), (0x10c80, 51, 64), (0x118a0, 32, 32), (0x16e40, 32, 32), (0x1e900, 34, 34)]

/-- Runs in which letters in upper and in lower case alternate: the first one, and how many pairs
there are. -/
def alternating : List (Nat × Nat) :=
  [(0x100, 24), (0x132, 3), (0x139, 8), (0x14a, 23), (0x179, 3), (0x182, 2), (0x187, 1),
    (0x18b, 1), (0x191, 1), (0x198, 1), (0x1a0, 3), (0x1a7, 1), (0x1ac, 1), (0x1af, 1), (0x1b3, 2),
    (0x1b8, 1), (0x1bc, 1), (0x1cd, 8), (0x1de, 9), (0x1f4, 1), (0x1f8, 20), (0x222, 9),
    (0x23b, 1), (0x241, 1), (0x246, 5), (0x370, 2), (0x376, 1), (0x3d8, 12), (0x3f7, 1),
    (0x3fa, 1), (0x460, 17), (0x48a, 27), (0x4c1, 7), (0x4d0, 48), (0x1e00, 75), (0x1ea0, 48),
    (0x2183, 1), (0x2c60, 1), (0x2c67, 3), (0x2c72, 1), (0x2c75, 1), (0x2c80, 50), (0x2ceb, 2),
    (0x2cf2, 1), (0xa640, 23), (0xa680, 14), (0xa722, 7), (0xa732, 31), (0xa779, 2), (0xa77e, 5),
    (0xa78b, 1), (0xa790, 2), (0xa796, 10), (0xa7b4, 8), (0xa7c7, 2), (0xa7d0, 1), (0xa7d6, 2),
    (0xa7f5, 1)]

/-- Letters with a lower case that belongs to another letter. -/
def loweredOnly : List (Nat × Nat) :=
  [(0x130, 0x69), (0x1c5, 0x1c6), (0x1c8, 0x1c9), (0x1cb, 0x1cc), (0x1f2, 0x1f3), (0x3f4, 0x3b8),
    (0x1e9e, 0xdf), (0x2126, 0x3c9), (0x212a, 0x6b), (0x212b, 0xe5)]

/-- Letters with an upper case that belongs to another letter. -/
def raisedOnly : List (Nat × Nat) :=
  [(0xb5, 0x39c), (0x131, 0x49), (0x17f, 0x53), (0x1c5, 0x1c4), (0x1c8, 0x1c7), (0x1cb, 0x1ca),
    (0x1f2, 0x1f1), (0x345, 0x399), (0x3c2, 0x3a3), (0x3d0, 0x392), (0x3d1, 0x398), (0x3d5, 0x3a6),
    (0x3d6, 0x3a0), (0x3f0, 0x39a), (0x3f1, 0x3a1), (0x3f5, 0x395), (0x1c80, 0x412),
    (0x1c81, 0x414), (0x1c82, 0x41e), (0x1c83, 0x421), (0x1c84, 0x422), (0x1c85, 0x422),
    (0x1c86, 0x42a), (0x1c87, 0x462), (0x1c88, 0xa64a), (0x1e9b, 0x1e60), (0x1fbe, 0x399)]

/-- The run of alternating letters a letter is in. -/
def pairRun (n : Nat) : Option (Nat × Nat) :=
  alternating.find? fun (first, pairs) => first ≤ n ∧ n < first + 2 * pairs

/-- The lower case of a letter outside ASCII; anything else is kept. -/
def lowerCode (n : Nat) : Nat :=
  match runs.find? fun (first, count, _) => first ≤ n ∧ n < first + count with
  | some (_, _, distance) => (n + distance).toNat
  | none =>
    match pairRun n with
    | some (first, _) => if (n - first) % 2 = 0 then n + 1 else n
    | none => (loweredOnly.lookup n).getD n

/-- The upper case of a letter outside ASCII; anything else is kept. -/
def upperCode (n : Nat) : Nat :=
  match runs.find? fun (first, count, distance) =>
      first + distance ≤ n ∧ n < first + distance + count with
  | some (_, _, distance) => (n - distance).toNat
  | none =>
    match pairRun n with
    | some (first, _) => if (n - first) % 2 = 0 then n else n - 1
    | none => (raisedOnly.lookup n).getD n

/-- `unicode.ToLower`. -/
def lower (c : Char) : Char :=
  if c.toNat < 128 then c.toLower else Char.ofNat (lowerCode c.toNat)

/-- `unicode.ToUpper`. -/
def upper (c : Char) : Char :=
  if c.toNat < 128 then c.toUpper else Char.ofNat (upperCode c.toNat)

/-- One letter for all those that `unicode.SimpleFold` leads to from each other. The dotted capital
and the dotless small letter i are only led to themselves. -/
def fold (c : Char) : Char :=
  if c = '\u0130' ∨ c = '\u0131' then c else lower (upper c)

end SvpMcp.LetterCase
