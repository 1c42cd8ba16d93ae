/-!
# Case mappings

The simple lower and upper case mappings outside ASCII, as runs of characters that move by one
offset, and the characters whose upper case has several characters.
-/

namespace Galley.Text

/-- The characters `first`, `first + step`, …, `last`, each mapped to itself plus `offset`. -/
structure CaseRun where
  first : Nat
  last : Nat
  step : Nat
  offset : Int

/-- The image of a code point under the first run that has it. -/
def CaseRun.find? (runs : List CaseRun) (n : Nat) : Option Nat :=
  (runs.find? fun r => r.first ≤ n && n ≤ r.last && (n - r.first) % r.step == 0).map
    fun r => ((n : Int) + r.offset).toNat

/-- Lower case of single characters. -/
def lowerRuns : List CaseRun := [
  ⟨0x0041, 0x005a, 1, 32⟩, ⟨0x00c0, 0x00d6, 1, 32⟩, ⟨0x00d8, 0x00de, 1, 32⟩, ⟨0x0100, 0x012e, 2, 1⟩,
  ⟨0x0132, 0x0136, 2, 1⟩, ⟨0x0139, 0x0147, 2, 1⟩, ⟨0x014a, 0x0176, 2, 1⟩, ⟨0x0178, 0x0178, 1, -121⟩,
  ⟨0x0179, 0x017d, 2, 1⟩, ⟨0x0181, 0x0181, 1, 210⟩, ⟨0x0182, 0x0184, 2, 1⟩,
  ⟨0x0186, 0x0186, 1, 206⟩, ⟨0x0187, 0x0187, 1, 1⟩, ⟨0x0189, 0x018a, 1, 205⟩,
  ⟨0x018b, 0x018b, 1, 1⟩, ⟨0x018e, 0x018e, 1, 79⟩, ⟨0x018f, 0x018f, 1, 202⟩,
  ⟨0x0190, 0x0190, 1, 203⟩, ⟨0x0191, 0x0191, 1, 1⟩, ⟨0x0193, 0x0193, 1, 205⟩,
  ⟨0x0194, 0x0194, 1, 207⟩, ⟨0x0196, 0x0196, 1, 211⟩, ⟨0x0197, 0x0197, 1, 209⟩,
  ⟨0x0198, 0x0198, 1, 1⟩, ⟨0x019c, 0x019c, 1, 211⟩, ⟨0x019d, 0x019d, 1, 213⟩,
  ⟨0x019f, 0x019f, 1, 214⟩, ⟨0x01a0, 0x01a4, 2, 1⟩, ⟨0x01a6, 0x01a6, 1, 218⟩,
  ⟨0x01a7, 0x01a7, 1, 1⟩, ⟨0x01a9, 0x01a9, 1, 218⟩, ⟨0x01ac, 0x01ac, 1, 1⟩,
  ⟨0x01ae, 0x01ae, 1, 218⟩, ⟨0x01af, 0x01af, 1, 1⟩, ⟨0x01b1, 0x01b2, 1, 217⟩,
  ⟨0x01b3, 0x01b5, 2, 1⟩, ⟨0x01b7, 0x01b7, 1, 219⟩, ⟨0x01b8, 0x01b8, 1, 1⟩, ⟨0x01bc, 0x01bc, 1, 1⟩,
  ⟨0x01c4, 0x01c4, 1, 2⟩, ⟨0x01c5, 0x01c5, 1, 1⟩, ⟨0x01c7, 0x01c7, 1, 2⟩, ⟨0x01c8, 0x01c8, 1, 1⟩,
  ⟨0x01ca, 0x01ca, 1, 2⟩, ⟨0x01cb, 0x01db, 2, 1⟩, ⟨0x01de, 0x01ee, 2, 1⟩, ⟨0x01f1, 0x01f1, 1, 2⟩,
  ⟨0x01f2, 0x01f4, 2, 1⟩, ⟨0x01f6, 0x01f6, 1, -97⟩, ⟨0x01f7, 0x01f7, 1, -56⟩,
  ⟨0x01f8, 0x021e, 2, 1⟩, ⟨0x0220, 0x0220, 1, -130⟩, ⟨0x0222, 0x0232, 2, 1⟩,
  ⟨0x023a, 0x023a, 1, 10795⟩, ⟨0x023b, 0x023b, 1, 1⟩, ⟨0x023d, 0x023d, 1, -163⟩,
  ⟨0x023e, 0x023e, 1, 10792⟩, ⟨0x0241, 0x0241, 1, 1⟩, ⟨0x0243, 0x0243, 1, -195⟩,
  ⟨0x0244, 0x0244, 1, 69⟩, ⟨0x0245, 0x0245, 1, 71⟩, ⟨0x0246, 0x024e, 2, 1⟩, ⟨0x0370, 0x0372, 2, 1⟩,
  ⟨0x0376, 0x0376, 1, 1⟩, ⟨0x037f, 0x037f, 1, 116⟩, ⟨0x0386, 0x0386, 1, 38⟩,
  ⟨0x0388, 0x038a, 1, 37⟩, ⟨0x038c, 0x038c, 1, 64⟩, ⟨0x038e, 0x038f, 1, 63⟩,
  ⟨0x0391, 0x03a1, 1, 32⟩, ⟨0x03a3, 0x03ab, 1, 32⟩, ⟨0x03cf, 0x03cf, 1, 8⟩, ⟨0x03d8, 0x03ee, 2, 1⟩,
  ⟨0x03f4, 0x03f4, 1, -60⟩, ⟨0x03f7, 0x03f7, 1, 1⟩, ⟨0x03f9, 0x03f9, 1, -7⟩, ⟨0x03fa, 0x03fa, 1, 1⟩,
  ⟨0x03fd, 0x03ff, 1, -130⟩, ⟨0x0400, 0x040f, 1, 80⟩, ⟨0x0410, 0x042f, 1, 32⟩,
  ⟨0x0460, 0x0480, 2, 1⟩, ⟨0x048a, 0x04be, 2, 1⟩, ⟨0x04c0, 0x04c0, 1, 15⟩, ⟨0x04c1, 0x04cd, 2, 1⟩,
  ⟨0x04d0, 0x052e, 2, 1⟩, ⟨0x0531, 0x0556, 1, 48⟩, ⟨0x10a0, 0x10c5, 1, 7264⟩,
  ⟨0x10c7, 0x10c7, 1, 7264⟩, ⟨0x10cd, 0x10cd, 1, 7264⟩, ⟨0x13a0, 0x13ef, 1, 38864⟩,
  ⟨0x13f0, 0x13f5, 1, 8⟩, ⟨0x1c89, 0x1c89, 1, 1⟩, ⟨0x1c90, 0x1cba, 1, -3008⟩,
  ⟨0x1cbd, 0x1cbf, 1, -3008⟩, ⟨0x1e00, 0x1e94, 2, 1⟩, ⟨0x1e9e, 0x1e9e, 1, -7615⟩,
  ⟨0x1ea0, 0x1efe, 2, 1⟩, ⟨0x1f08, 0x1f0f, 1, -8⟩, ⟨0x1f18, 0x1f1d, 1, -8⟩, ⟨0x1f28, 0x1f2f, 1, -8⟩,
  ⟨0x1f38, 0x1f3f, 1, -8⟩, ⟨0x1f48, 0x1f4d, 1, -8⟩, ⟨0x1f59, 0x1f5f, 2, -8⟩,
  ⟨0x1f68, 0x1f6f, 1, -8⟩, ⟨0x1f88, 0x1f8f, 1, -8⟩, ⟨0x1f98, 0x1f9f, 1, -8⟩,
  ⟨0x1fa8, 0x1faf, 1, -8⟩, ⟨0x1fb8, 0x1fb9, 1, -8⟩, ⟨0x1fba, 0x1fbb, 1, -74⟩,
  ⟨0x1fbc, 0x1fbc, 1, -9⟩, ⟨0x1fc8, 0x1fcb, 1, -86⟩, ⟨0x1fcc, 0x1fcc, 1, -9⟩,
  ⟨0x1fd8, 0x1fd9, 1, -8⟩, ⟨0x1fda, 0x1fdb, 1, -100⟩, ⟨0x1fe8, 0x1fe9, 1, -8⟩,
  ⟨0x1fea, 0x1feb, 1, -112⟩, ⟨0x1fec, 0x1fec, 1, -7⟩, ⟨0x1ff8, 0x1ff9, 1, -128⟩,
  ⟨0x1ffa, 0x1ffb, 1, -126⟩, ⟨0x1ffc, 0x1ffc, 1, -9⟩, ⟨0x2126, 0x2126, 1, -7517⟩,
  ⟨0x212a, 0x212a, 1, -8383⟩, ⟨0x212b, 0x212b, 1, -8262⟩, ⟨0x2132, 0x2132, 1, 28⟩,
  ⟨0x2160, 0x216f, 1, 16⟩, ⟨0x2183, 0x2183, 1, 1⟩, ⟨0x24b6, 0x24cf, 1, 26⟩, ⟨0x2c00, 0x2c2f, 1, 48⟩,
  ⟨0x2c60, 0x2c60, 1, 1⟩, ⟨0x2c62, 0x2c62, 1, -10743⟩, ⟨0x2c63, 0x2c63, 1, -3814⟩,
  ⟨0x2c64, 0x2c64, 1, -10727⟩, ⟨0x2c67, 0x2c6b, 2, 1⟩, ⟨0x2c6d, 0x2c6d, 1, -10780⟩,
  ⟨0x2c6e, 0x2c6e, 1, -10749⟩, ⟨0x2c6f, 0x2c6f, 1, -10783⟩, ⟨0x2c70, 0x2c70, 1, -10782⟩,
  ⟨0x2c72, 0x2c72, 1, 1⟩, ⟨0x2c75, 0x2c75, 1, 1⟩, ⟨0x2c7e, 0x2c7f, 1, -10815⟩,
  ⟨0x2c80, 0x2ce2, 2, 1⟩, ⟨0x2ceb, 0x2ced, 2, 1⟩, ⟨0x2cf2, 0x2cf2, 1, 1⟩, ⟨0xa640, 0xa66c, 2, 1⟩,
  ⟨0xa680, 0xa69a, 2, 1⟩, ⟨0xa722, 0xa72e, 2, 1⟩, ⟨0xa732, 0xa76e, 2, 1⟩, ⟨0xa779, 0xa77b, 2, 1⟩,
  ⟨0xa77d, 0xa77d, 1, -35332⟩, ⟨0xa77e, 0xa786, 2, 1⟩, ⟨0xa78b, 0xa78b, 1, 1⟩,
  ⟨0xa78d, 0xa78d, 1, -42280⟩, ⟨0xa790, 0xa792, 2, 1⟩, ⟨0xa796, 0xa7a8, 2, 1⟩,
  ⟨0xa7aa, 0xa7aa, 1, -42308⟩, ⟨0xa7ab, 0xa7ab, 1, -42319⟩, ⟨0xa7ac, 0xa7ac, 1, -42315⟩,
  ⟨0xa7ad, 0xa7ad, 1, -42305⟩, ⟨0xa7ae, 0xa7ae, 1, -42308⟩, ⟨0xa7b0, 0xa7b0, 1, -42258⟩,
  ⟨0xa7b1, 0xa7b1, 1, -42282⟩, ⟨0xa7b2, 0xa7b2, 1, -42261⟩, ⟨0xa7b3, 0xa7b3, 1, 928⟩,
  ⟨0xa7b4, 0xa7c2, 2, 1⟩, ⟨0xa7c4, 0xa7c4, 1, -48⟩, ⟨0xa7c5, 0xa7c5, 1, -42307⟩,
  ⟨0xa7c6, 0xa7c6, 1, -35384⟩, ⟨0xa7c7, 0xa7c9, 2, 1⟩, ⟨0xa7cb, 0xa7cb, 1, -42343⟩,
  ⟨0xa7cc, 0xa7da, 2, 1⟩, ⟨0xa7dc, 0xa7dc, 1, -42561⟩, ⟨0xa7f5, 0xa7f5, 1, 1⟩,
  ⟨0xff21, 0xff3a, 1, 32⟩, ⟨0x10400, 0x10427, 1, 40⟩, ⟨0x104b0, 0x104d3, 1, 40⟩,
  ⟨0x10570, 0x1057a, 1, 39⟩, ⟨0x1057c, 0x1058a, 1, 39⟩, ⟨0x1058c, 0x10592, 1, 39⟩,
  ⟨0x10594, 0x10595, 1, 39⟩, ⟨0x10c80, 0x10cb2, 1, 64⟩, ⟨0x10d50, 0x10d65, 1, 32⟩,
  ⟨0x118a0, 0x118bf, 1, 32⟩, ⟨0x16e40, 0x16e5f, 1, 32⟩, ⟨0x16ea0, 0x16eb8, 1, 27⟩,
  ⟨0x1e900, 0x1e921, 1, 34⟩]

/-- Upper case of single characters. -/
def upperRuns : List CaseRun := [
  ⟨0x0061, 0x007a, 1, -32⟩, ⟨0x00b5, 0x00b5, 1, 743⟩, ⟨0x00e0, 0x00f6, 1, -32⟩,
  ⟨0x00f8, 0x00fe, 1, -32⟩, ⟨0x00ff, 0x00ff, 1, 121⟩, ⟨0x0101, 0x012f, 2, -1⟩,
  ⟨0x0131, 0x0131, 1, -232⟩, ⟨0x0133, 0x0137, 2, -1⟩, ⟨0x013a, 0x0148, 2, -1⟩,
  ⟨0x014b, 0x0177, 2, -1⟩, ⟨0x017a, 0x017e, 2, -1⟩, ⟨0x017f, 0x017f, 1, -300⟩,
  ⟨0x0180, 0x0180, 1, 195⟩, ⟨0x0183, 0x0185, 2, -1⟩, ⟨0x0188, 0x0188, 1, -1⟩,
  ⟨0x018c, 0x018c, 1, -1⟩, ⟨0x0192, 0x0192, 1, -1⟩, ⟨0x0195, 0x0195, 1, 97⟩,
  ⟨0x0199, 0x0199, 1, -1⟩, ⟨0x019a, 0x019a, 1, 163⟩, ⟨0x019b, 0x019b, 1, 42561⟩,
  ⟨0x019e, 0x019e, 1, 130⟩, ⟨0x01a1, 0x01a5, 2, -1⟩, ⟨0x01a8, 0x01a8, 1, -1⟩,
  ⟨0x01ad, 0x01ad, 1, -1⟩, ⟨0x01b0, 0x01b0, 1, -1⟩, ⟨0x01b4, 0x01b6, 2, -1⟩,
  ⟨0x01b9, 0x01b9, 1, -1⟩, ⟨0x01bd, 0x01bd, 1, -1⟩, ⟨0x01bf, 0x01bf, 1, 56⟩,
  ⟨0x01c5, 0x01c5, 1, -1⟩, ⟨0x01c6, 0x01c6, 1, -2⟩, ⟨0x01c8, 0x01c8, 1, -1⟩,
  ⟨0x01c9, 0x01c9, 1, -2⟩, ⟨0x01cb, 0x01cb, 1, -1⟩, ⟨0x01cc, 0x01cc, 1, -2⟩,
  ⟨0x01ce, 0x01dc, 2, -1⟩, ⟨0x01dd, 0x01dd, 1, -79⟩, ⟨0x01df, 0x01ef, 2, -1⟩,
  ⟨0x01f2, 0x01f2, 1, -1⟩, ⟨0x01f3, 0x01f3, 1, -2⟩, ⟨0x01f5, 0x01f5, 1, -1⟩,
  ⟨0x01f9, 0x021f, 2, -1⟩, ⟨0x0223, 0x0233, 2, -1⟩, ⟨0x023c, 0x023c, 1, -1⟩,
  ⟨0x023f, 0x0240, 1, 10815⟩, ⟨0x0242, 0x0242, 1, -1⟩, ⟨0x0247, 0x024f, 2, -1⟩,
  ⟨0x0250, 0x0250, 1, 10783⟩, ⟨0x0251, 0x0251, 1, 10780⟩, ⟨0x0252, 0x0252, 1, 10782⟩,
  ⟨0x0253, 0x0253, 1, -210⟩, ⟨0x0254, 0x0254, 1, -206⟩, ⟨0x0256, 0x0257, 1, -205⟩,
  ⟨0x0259, 0x0259, 1, -202⟩, ⟨0x025b, 0x025b, 1, -203⟩, ⟨0x025c, 0x025c, 1, 42319⟩,
  ⟨0x0260, 0x0260, 1, -205⟩, ⟨0x0261, 0x0261, 1, 42315⟩, ⟨0x0263, 0x0263, 1, -207⟩,
  ⟨0x0264, 0x0264, 1, 42343⟩, ⟨0x0265, 0x0265, 1, 42280⟩, ⟨0x0266, 0x0266, 1, 42308⟩,
  ⟨0x0268, 0x0268, 1, -209⟩, ⟨0x0269, 0x0269, 1, -211⟩, ⟨0x026a, 0x026a, 1, 42308⟩,
  ⟨0x026b, 0x026b, 1, 10743⟩, ⟨0x026c, 0x026c, 1, 42305⟩, ⟨0x026f, 0x026f, 1, -211⟩,
  ⟨0x0271, 0x0271, 1, 10749⟩, ⟨0x0272, 0x0272, 1, -213⟩, ⟨0x0275, 0x0275, 1, -214⟩,
  ⟨0x027d, 0x027d, 1, 10727⟩, ⟨0x0280, 0x0280, 1, -218⟩, ⟨0x0282, 0x0282, 1, 42307⟩,
  ⟨0x0283, 0x0283, 1, -218⟩, ⟨0x0287, 0x0287, 1, 42282⟩, ⟨0x0288, 0x0288, 1, -218⟩,
  ⟨0x0289, 0x0289, 1, -69⟩, ⟨0x028a, 0x028b, 1, -217⟩, ⟨0x028c, 0x028c, 1, -71⟩,
  ⟨0x0292, 0x0292, 1, -219⟩, ⟨0x029d, 0x029d, 1, 42261⟩, ⟨0x029e, 0x029e, 1, 42258⟩,
  ⟨0x0345, 0x0345, 1, 84⟩, ⟨0x0371, 0x0373, 2, -1⟩, ⟨0x0377, 0x0377, 1, -1⟩,
  ⟨0x037b, 0x037d, 1, 130⟩, ⟨0x03ac, 0x03ac, 1, -38⟩, ⟨0x03ad, 0x03af, 1, -37⟩,
  ⟨0x03b1, 0x03c1, 1, -32⟩, ⟨0x03c2, 0x03c2, 1, -31⟩, ⟨0x03c3, 0x03cb, 1, -32⟩,
  ⟨0x03cc, 0x03cc, 1, -64⟩, ⟨0x03cd, 0x03ce, 1, -63⟩, ⟨0x03d0, 0x03d0, 1, -62⟩,
  ⟨0x03d1, 0x03d1, 1, -57⟩, ⟨0x03d5, 0x03d5, 1, -47⟩, ⟨0x03d6, 0x03d6, 1, -54⟩,
  ⟨0x03d7, 0x03d7, 1, -8⟩, ⟨0x03d9, 0x03ef, 2, -1⟩, ⟨0x03f0, 0x03f0, 1, -86⟩,
  ⟨0x03f1, 0x03f1, 1, -80⟩, ⟨0x03f2, 0x03f2, 1, 7⟩, ⟨0x03f3, 0x03f3, 1, -116⟩,
  ⟨0x03f5, 0x03f5, 1, -96⟩, ⟨0x03f8, 0x03f8, 1, -1⟩, ⟨0x03fb, 0x03fb, 1, -1⟩,
  ⟨0x0430, 0x044f, 1, -32⟩, ⟨0x0450, 0x045f, 1, -80⟩, ⟨0x0461, 0x0481, 2, -1⟩,
  ⟨0x048b, 0x04bf, 2, -1⟩, ⟨0x04c2, 0x04ce, 2, -1⟩, ⟨0x04cf, 0x04cf, 1, -15⟩,
  ⟨0x04d1, 0x052f, 2, -1⟩, ⟨0x0561, 0x0586, 1, -48⟩, ⟨0x10d0, 0x10fa, 1, 3008⟩,
  ⟨0x10fd, 0x10ff, 1, 3008⟩, ⟨0x13f8, 0x13fd, 1, -8⟩, ⟨0x1c80, 0x1c80, 1, -6254⟩,
  ⟨0x1c81, 0x1c81, 1, -6253⟩, ⟨0x1c82, 0x1c82, 1, -6244⟩, ⟨0x1c83, 0x1c84, 1, -6242⟩,
  ⟨0x1c85, 0x1c85, 1, -6243⟩, ⟨0x1c86, 0x1c86, 1, -6236⟩, ⟨0x1c87, 0x1c87, 1, -6181⟩,
  ⟨0x1c88, 0x1c88, 1, 35266⟩, ⟨0x1c8a, 0x1c8a, 1, -1⟩, ⟨0x1d79, 0x1d79, 1, 35332⟩,
  ⟨0x1d7d, 0x1d7d, 1, 3814⟩, ⟨0x1d8e, 0x1d8e, 1, 35384⟩, ⟨0x1e01, 0x1e95, 2, -1⟩,
  ⟨0x1e9b, 0x1e9b, 1, -59⟩, ⟨0x1ea1, 0x1eff, 2, -1⟩, ⟨0x1f00, 0x1f07, 1, 8⟩, ⟨0x1f10, 0x1f15, 1, 8⟩,
  ⟨0x1f20, 0x1f27, 1, 8⟩, ⟨0x1f30, 0x1f37, 1, 8⟩, ⟨0x1f40, 0x1f45, 1, 8⟩, ⟨0x1f51, 0x1f57, 2, 8⟩,
  ⟨0x1f60, 0x1f67, 1, 8⟩, ⟨0x1f70, 0x1f71, 1, 74⟩, ⟨0x1f72, 0x1f75, 1, 86⟩,
  ⟨0x1f76, 0x1f77, 1, 100⟩, ⟨0x1f78, 0x1f79, 1, 128⟩, ⟨0x1f7a, 0x1f7b, 1, 112⟩,
  ⟨0x1f7c, 0x1f7d, 1, 126⟩, ⟨0x1fb0, 0x1fb1, 1, 8⟩, ⟨0x1fbe, 0x1fbe, 1, -7205⟩,
  ⟨0x1fd0, 0x1fd1, 1, 8⟩, ⟨0x1fe0, 0x1fe1, 1, 8⟩, ⟨0x1fe5, 0x1fe5, 1, 7⟩, ⟨0x214e, 0x214e, 1, -28⟩,
  ⟨0x2170, 0x217f, 1, -16⟩, ⟨0x2184, 0x2184, 1, -1⟩, ⟨0x24d0, 0x24e9, 1, -26⟩,
  ⟨0x2c30, 0x2c5f, 1, -48⟩, ⟨0x2c61, 0x2c61, 1, -1⟩, ⟨0x2c65, 0x2c65, 1, -10795⟩,
  ⟨0x2c66, 0x2c66, 1, -10792⟩, ⟨0x2c68, 0x2c6c, 2, -1⟩, ⟨0x2c73, 0x2c73, 1, -1⟩,
  ⟨0x2c76, 0x2c76, 1, -1⟩, ⟨0x2c81, 0x2ce3, 2, -1⟩, ⟨0x2cec, 0x2cee, 2, -1⟩,
  ⟨0x2cf3, 0x2cf3, 1, -1⟩, ⟨0x2d00, 0x2d25, 1, -7264⟩, ⟨0x2d27, 0x2d27, 1, -7264⟩,
  ⟨0x2d2d, 0x2d2d, 1, -7264⟩, ⟨0xa641, 0xa66d, 2, -1⟩, ⟨0xa681, 0xa69b, 2, -1⟩,
  ⟨0xa723, 0xa72f, 2, -1⟩, ⟨0xa733, 0xa76f, 2, -1⟩, ⟨0xa77a, 0xa77c, 2, -1⟩,
  ⟨0xa77f, 0xa787, 2, -1⟩, ⟨0xa78c, 0xa78c, 1, -1⟩, ⟨0xa791, 0xa793, 2, -1⟩,
  ⟨0xa794, 0xa794, 1, 48⟩, ⟨0xa797, 0xa7a9, 2, -1⟩, ⟨0xa7b5, 0xa7c3, 2, -1⟩,
  ⟨0xa7c8, 0xa7ca, 2, -1⟩, ⟨0xa7cd, 0xa7db, 2, -1⟩, ⟨0xa7f6, 0xa7f6, 1, -1⟩,
  ⟨0xab53, 0xab53, 1, -928⟩, ⟨0xab70, 0xabbf, 1, -38864⟩, ⟨0xff41, 0xff5a, 1, -32⟩,
  ⟨0x10428, 0x1044f, 1, -40⟩, ⟨0x104d8, 0x104fb, 1, -40⟩, ⟨0x10597, 0x105a1, 1, -39⟩,
  ⟨0x105a3, 0x105b1, 1, -39⟩, ⟨0x105b3, 0x105b9, 1, -39⟩, ⟨0x105bb, 0x105bc, 1, -39⟩,
  ⟨0x10cc0, 0x10cf2, 1, -64⟩, ⟨0x10d70, 0x10d85, 1, -32⟩, ⟨0x118c0, 0x118df, 1, -32⟩,
  ⟨0x16e60, 0x16e7f, 1, -32⟩, ⟨0x16ebb, 0x16ed3, 1, -27⟩, ⟨0x1e922, 0x1e943, 1, -34⟩]

/-- The characters whose upper case has several characters. -/
def upperExpansions : List (Nat × List Nat) := [
  (0x00df, [0x0053, 0x0053]), (0x0149, [0x02bc, 0x004e]), (0x01f0, [0x004a, 0x030c]),
  (0x0390, [0x0399, 0x0308, 0x0301]), (0x03b0, [0x03a5, 0x0308, 0x0301]),
  (0x0587, [0x0535, 0x0552]), (0x1e96, [0x0048, 0x0331]), (0x1e97, [0x0054, 0x0308]),
  (0x1e98, [0x0057, 0x030a]), (0x1e99, [0x0059, 0x030a]), (0x1e9a, [0x0041, 0x02be]),
  (0x1f50, [0x03a5, 0x0313]), (0x1f52, [0x03a5, 0x0313, 0x0300]),
  (0x1f54, [0x03a5, 0x0313, 0x0301]), (0x1f56, [0x03a5, 0x0313, 0x0342]),
  (0x1f80, [0x1f08, 0x0399]), (0x1f81, [0x1f09, 0x0399]), (0x1f82, [0x1f0a, 0x0399]),
  (0x1f83, [0x1f0b, 0x0399]), (0x1f84, [0x1f0c, 0x0399]), (0x1f85, [0x1f0d, 0x0399]),
  (0x1f86, [0x1f0e, 0x0399]), (0x1f87, [0x1f0f, 0x0399]), (0x1f88, [0x1f08, 0x0399]),
  (0x1f89, [0x1f09, 0x0399]), (0x1f8a, [0x1f0a, 0x0399]), (0x1f8b, [0x1f0b, 0x0399]),
  (0x1f8c, [0x1f0c, 0x0399]), (0x1f8d, [0x1f0d, 0x0399]), (0x1f8e, [0x1f0e, 0x0399]),
  (0x1f8f, [0x1f0f, 0x0399]), (0x1f90, [0x1f28, 0x0399]), (0x1f91, [0x1f29, 0x0399]),
  (0x1f92, [0x1f2a, 0x0399]), (0x1f93, [0x1f2b, 0x0399]), (0x1f94, [0x1f2c, 0x0399]),
  (0x1f95, [0x1f2d, 0x0399]), (0x1f96, [0x1f2e, 0x0399]), (0x1f97, [0x1f2f, 0x0399]),
  (0x1f98, [0x1f28, 0x0399]), (0x1f99, [0x1f29, 0x0399]), (0x1f9a, [0x1f2a, 0x0399]),
  (0x1f9b, [0x1f2b, 0x0399]), (0x1f9c, [0x1f2c, 0x0399]), (0x1f9d, [0x1f2d, 0x0399]),
  (0x1f9e, [0x1f2e, 0x0399]), (0x1f9f, [0x1f2f, 0x0399]), (0x1fa0, [0x1f68, 0x0399]),
  (0x1fa1, [0x1f69, 0x0399]), (0x1fa2, [0x1f6a, 0x0399]), (0x1fa3, [0x1f6b, 0x0399]),
  (0x1fa4, [0x1f6c, 0x0399]), (0x1fa5, [0x1f6d, 0x0399]), (0x1fa6, [0x1f6e, 0x0399]),
  (0x1fa7, [0x1f6f, 0x0399]), (0x1fa8, [0x1f68, 0x0399]), (0x1fa9, [0x1f69, 0x0399]),
  (0x1faa, [0x1f6a, 0x0399]), (0x1fab, [0x1f6b, 0x0399]), (0x1fac, [0x1f6c, 0x0399]),
  (0x1fad, [0x1f6d, 0x0399]), (0x1fae, [0x1f6e, 0x0399]), (0x1faf, [0x1f6f, 0x0399]),
  (0x1fb2, [0x1fba, 0x0399]), (0x1fb3, [0x0391, 0x0399]), (0x1fb4, [0x0386, 0x0399]),
  (0x1fb6, [0x0391, 0x0342]), (0x1fb7, [0x0391, 0x0342, 0x0399]), (0x1fbc, [0x0391, 0x0399]),
  (0x1fc2, [0x1fca, 0x0399]), (0x1fc3, [0x0397, 0x0399]), (0x1fc4, [0x0389, 0x0399]),
  (0x1fc6, [0x0397, 0x0342]), (0x1fc7, [0x0397, 0x0342, 0x0399]), (0x1fcc, [0x0397, 0x0399]),
  (0x1fd2, [0x0399, 0x0308, 0x0300]), (0x1fd3, [0x0399, 0x0308, 0x0301]),
  (0x1fd6, [0x0399, 0x0342]), (0x1fd7, [0x0399, 0x0308, 0x0342]),
  (0x1fe2, [0x03a5, 0x0308, 0x0300]), (0x1fe3, [0x03a5, 0x0308, 0x0301]),
  (0x1fe4, [0x03a1, 0x0313]), (0x1fe6, [0x03a5, 0x0342]), (0x1fe7, [0x03a5, 0x0308, 0x0342]),
  (0x1ff2, [0x1ffa, 0x0399]), (0x1ff3, [0x03a9, 0x0399]), (0x1ff4, [0x038f, 0x0399]),
  (0x1ff6, [0x03a9, 0x0342]), (0x1ff7, [0x03a9, 0x0342, 0x0399]), (0x1ffc, [0x03a9, 0x0399]),
  (0xfb00, [0x0046, 0x0046]), (0xfb01, [0x0046, 0x0049]), (0xfb02, [0x0046, 0x004c]),
  (0xfb03, [0x0046, 0x0046, 0x0049]), (0xfb04, [0x0046, 0x0046, 0x004c]),
  (0xfb05, [0x0053, 0x0054]), (0xfb06, [0x0053, 0x0054]), (0xfb13, [0x0544, 0x0546]),
  (0xfb14, [0x0544, 0x0535]), (0xfb15, [0x0544, 0x053b]), (0xfb16, [0x054e, 0x0546]),
  (0xfb17, [0x0544, 0x053d])]

end Galley.Text
