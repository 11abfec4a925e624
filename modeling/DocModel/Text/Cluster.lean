import DocModel.Text.Category

/-!
Clusters: runs of characters that a reader takes for one. A letter with the marks behind it, the
parts of a Hangul syllable, the two letters of a flag, and a person with a skin tone are clusters;
so are an end of line of two characters, and any other control character by itself.
-/

namespace DocModel.Text

/-- Characters that belong to the cluster before them. -/
def markRanges : List (Nat × Nat) :=
  [(0x300, 0x36f), (0x483, 0x489), (0x591, 0x5bd), (0x5bf, 0x5bf), (0x5c1, 0x5c2), (0x5c4, 0x5c5),
    (0x5c7, 0x5c7), (0x610, 0x61a), (0x64b, 0x65f), (0x670, 0x670), (0x6d6, 0x6dc), (0x6df, 0x6e4),
    (0x6e7, 0x6e8), (0x6ea, 0x6ed), (0x711, 0x711), (0x730, 0x74a), (0x7a6, 0x7b0), (0x7eb, 0x7f3),
    (0x816, 0x819), (0x81b, 0x823), (0x825, 0x827), (0x829, 0x82d), (0x859, 0x85b), (0x8d4, 0x8e1),
    (0x8e3, 0x903), (0x93a, 0x93c), (0x93e, 0x94f), (0x951, 0x957), (0x962, 0x963), (0x981, 0x983),
    (0x9bc, 0x9bc), (0x9be, 0x9c4), (0x9c7, 0x9c8), (0x9cb, 0x9cd), (0x9d7, 0x9d7), (0x9e2, 0x9e3),
    (0xa01, 0xa03), (0xa3c, 0xa3c), (0xa3e, 0xa42), (0xa47, 0xa48), (0xa4b, 0xa4d), (0xa51, 0xa51),
    (0xa70, 0xa71), (0xa75, 0xa75), (0xa81, 0xa83), (0xabc, 0xabc), (0xabe, 0xac5), (0xac7, 0xac9),
    (0xacb, 0xacd), (0xae2, 0xae3), (0xafa, 0xaff), (0xb01, 0xb03), (0xb3c, 0xb3c), (0xb3e, 0xb44),
    (0xb47, 0xb48), (0xb4b, 0xb4d), (0xb56, 0xb57), (0xb62, 0xb63), (0xb82, 0xb82), (0xbbe, 0xbc2),
    (0xbc6, 0xbc8), (0xbca, 0xbcd), (0xbd7, 0xbd7), (0xc00, 0xc03), (0xc3e, 0xc44), (0xc46, 0xc48),
    (0xc4a, 0xc4d), (0xc55, 0xc56), (0xc62, 0xc63), (0xc81, 0xc83), (0xcbc, 0xcbc), (0xcbe, 0xcc4),
    (0xcc6, 0xcc8), (0xcca, 0xccd), (0xcd5, 0xcd6), (0xce2, 0xce3), (0xd00, 0xd03), (0xd3b, 0xd3c),
    (0xd3e, 0xd44), (0xd46, 0xd48), (0xd4a, 0xd4d), (0xd57, 0xd57), (0xd62, 0xd63), (0xd82, 0xd83),
    (0xdca, 0xdca), (0xdcf, 0xdd4), (0xdd6, 0xdd6), (0xdd8, 0xddf), (0xdf2, 0xdf3), (0xe31, 0xe31),
    (0xe33, 0xe3a), (0xe47, 0xe4e), (0xeb1, 0xeb1), (0xeb3, 0xeb9), (0xebb, 0xebc), (0xec8, 0xecd),
    (0xf18, 0xf19), (0xf35, 0xf35), (0xf37, 0xf37), (0xf39, 0xf39), (0xf3e, 0xf3f), (0xf71, 0xf84),
    (0xf86, 0xf87), (0xf8d, 0xf97), (0xf99, 0xfbc), (0xfc6, 0xfc6), (0x102d, 0x1037),
    (0x1039, 0x103e), (0x1056, 0x1059), (0x105e, 0x1060), (0x1071, 0x1074), (0x1082, 0x1082),
    (0x1084, 0x1086), (0x108d, 0x108d), (0x109d, 0x109d), (0x135d, 0x135f), (0x1712, 0x1714),
    (0x1732, 0x1734), (0x1752, 0x1753), (0x1772, 0x1773), (0x17b4, 0x17d3), (0x17dd, 0x17dd),
    (0x180b, 0x180d), (0x1885, 0x1886), (0x18a9, 0x18a9), (0x1920, 0x192b), (0x1930, 0x193b),
    (0x1a17, 0x1a1b), (0x1a55, 0x1a5e), (0x1a60, 0x1a60), (0x1a62, 0x1a62), (0x1a65, 0x1a7c),
    (0x1a7f, 0x1a7f), (0x1ab0, 0x1abe), (0x1b00, 0x1b04), (0x1b34, 0x1b44), (0x1b6b, 0x1b73),
    (0x1b80, 0x1b82), (0x1ba1, 0x1bad), (0x1be6, 0x1bf3), (0x1c24, 0x1c37), (0x1cd0, 0x1cd2),
    (0x1cd4, 0x1ce8), (0x1ced, 0x1ced), (0x1cf2, 0x1cf4), (0x1cf7, 0x1cf9), (0x1dc0, 0x1df9),
    (0x1dfb, 0x1dff), (0x200c, 0x200c), (0x20d0, 0x20f0), (0x2cef, 0x2cf1), (0x2d7f, 0x2d7f),
    (0x2de0, 0x2dff), (0x302a, 0x302f), (0x3099, 0x309a), (0xa66f, 0xa672), (0xa674, 0xa67d),
    (0xa69e, 0xa69f), (0xa6f0, 0xa6f1), (0xa802, 0xa802), (0xa806, 0xa806), (0xa80b, 0xa80b),
    (0xa823, 0xa827), (0xa880, 0xa881), (0xa8b4, 0xa8c5), (0xa8e0, 0xa8f1), (0xa926, 0xa92d),
    (0xa947, 0xa953), (0xa980, 0xa983), (0xa9b3, 0xa9c0), (0xa9e5, 0xa9e5), (0xaa29, 0xaa36),
    (0xaa43, 0xaa43), (0xaa4c, 0xaa4d), (0xaa7c, 0xaa7c), (0xaab0, 0xaab0), (0xaab2, 0xaab4),
    (0xaab7, 0xaab8), (0xaabe, 0xaabf), (0xaac1, 0xaac1), (0xaaeb, 0xaaef), (0xaaf5, 0xaaf6),
    (0xabe3, 0xabea), (0xabec, 0xabed), (0xfb1e, 0xfb1e), (0xfe00, 0xfe0f), (0xfe20, 0xfe2f),
    (0xff9e, 0xff9f), (0x101fd, 0x101fd), (0x102e0, 0x102e0), (0x10376, 0x1037a),
    (0x10a01, 0x10a03), (0x10a05, 0x10a06), (0x10a0c, 0x10a0f), (0x10a38, 0x10a3a),
    (0x10a3f, 0x10a3f), (0x10ae5, 0x10ae6), (0x11000, 0x11002), (0x11038, 0x11046),
    (0x1107f, 0x11082), (0x110b0, 0x110ba), (0x11100, 0x11102), (0x11127, 0x11134),
    (0x11173, 0x11173), (0x11180, 0x11182), (0x111b3, 0x111c0), (0x111c9, 0x111cc),
    (0x1122c, 0x11237), (0x1123e, 0x1123e), (0x112df, 0x112ea), (0x11300, 0x11303),
    (0x1133c, 0x1133c), (0x1133e, 0x11344), (0x11347, 0x11348), (0x1134b, 0x1134d),
    (0x11357, 0x11357), (0x11362, 0x11363), (0x11366, 0x1136c), (0x11370, 0x11374),
    (0x11435, 0x11446), (0x114b0, 0x114c3), (0x115af, 0x115b5), (0x115b8, 0x115c0),
    (0x115dc, 0x115dd), (0x11630, 0x11640), (0x116ab, 0x116b7), (0x1171d, 0x1171f),
    (0x11722, 0x1172b), (0x11a01, 0x11a0a), (0x11a33, 0x11a39), (0x11a3b, 0x11a3e),
    (0x11a47, 0x11a47), (0x11a51, 0x11a5b), (0x11a8a, 0x11a99), (0x11c2f, 0x11c36),
    (0x11c38, 0x11c3f), (0x11c92, 0x11ca7), (0x11ca9, 0x11cb6), (0x11d31, 0x11d36),
    (0x11d3a, 0x11d3a), (0x11d3c, 0x11d3d), (0x11d3f, 0x11d45), (0x11d47, 0x11d47),
    (0x16af0, 0x16af4), (0x16b30, 0x16b36), (0x16f51, 0x16f7e), (0x16f8f, 0x16f92),
    (0x1bc9d, 0x1bc9e), (0x1d165, 0x1d169), (0x1d16d, 0x1d172), (0x1d17b, 0x1d182),
    (0x1d185, 0x1d18b), (0x1d1aa, 0x1d1ad), (0x1d242, 0x1d244), (0x1da00, 0x1da36),
    (0x1da3b, 0x1da6c), (0x1da75, 0x1da75), (0x1da84, 0x1da84), (0x1da9b, 0x1da9f),
    (0x1daa1, 0x1daaf), (0x1e000, 0x1e006), (0x1e008, 0x1e018), (0x1e01b, 0x1e021),
    (0x1e023, 0x1e024), (0x1e026, 0x1e02a), (0x1e8d0, 0x1e8d6), (0x1e944, 0x1e94a),
    (0xe0020, 0xe007f), (0xe0100, 0xe01ef)]

/-- Characters that always stand alone, except for the two of an end of line. -/
def controlRanges : List (Nat × Nat) :=
  [(0x0, 0x1f), (0x7f, 0x9f), (0xad, 0xad), (0x61c, 0x61c), (0x180e, 0x180e), (0x200b, 0x200b),
    (0x200e, 0x200f), (0x2028, 0x202e), (0x2060, 0x206f), (0xfeff, 0xfeff), (0xfff0, 0xfffb),
    (0x1bca0, 0x1bca3), (0x1d173, 0x1d17a), (0xe0000, 0xe001f), (0xe0080, 0xe00ff),
    (0xe01f0, 0xe0fff)]

/-- Characters that belong to the cluster behind them. -/
def leadingRanges : List (Nat × Nat) :=
  [(0x600, 0x605), (0x6dd, 0x6dd), (0x70f, 0x70f), (0x8e2, 0x8e2), (0xd4e, 0xd4e),
    (0x110bd, 0x110bd), (0x111c2, 0x111c3), (0x11a3a, 0x11a3a), (0x11a86, 0x11a89),
    (0x11d46, 0x11d46)]

/-- Symbols that a skin tone can follow. -/
def figureRanges : List (Nat × Nat) :=
  [(0x261d, 0x261d), (0x26f9, 0x26f9), (0x270a, 0x270d), (0x1f385, 0x1f385), (0x1f3c2, 0x1f3c4),
    (0x1f3c7, 0x1f3c7), (0x1f3ca, 0x1f3cc), (0x1f442, 0x1f443), (0x1f446, 0x1f450),
    (0x1f466, 0x1f469), (0x1f46e, 0x1f46e), (0x1f470, 0x1f478), (0x1f47c, 0x1f47c),
    (0x1f481, 0x1f483), (0x1f485, 0x1f487), (0x1f4aa, 0x1f4aa), (0x1f574, 0x1f575),
    (0x1f57a, 0x1f57a), (0x1f590, 0x1f590), (0x1f595, 0x1f596), (0x1f645, 0x1f647),
    (0x1f64b, 0x1f64f), (0x1f6a3, 0x1f6a3), (0x1f6b4, 0x1f6b6), (0x1f6c0, 0x1f6c0),
    (0x1f6cc, 0x1f6cc), (0x1f918, 0x1f91c), (0x1f91e, 0x1f91f), (0x1f926, 0x1f926),
    (0x1f930, 0x1f939), (0x1f93d, 0x1f93e), (0x1f9d1, 0x1f9dd)]

/-- Symbols that belong to the cluster before them when that ends in a joiner. -/
def joinedRanges : List (Nat × Nat) :=
  [(0x2640, 0x2640), (0x2642, 0x2642), (0x2695, 0x2696), (0x2708, 0x2708), (0x2764, 0x2764),
    (0x1f308, 0x1f308), (0x1f33e, 0x1f33e), (0x1f373, 0x1f373), (0x1f393, 0x1f393),
    (0x1f3a4, 0x1f3a4), (0x1f3a8, 0x1f3a8), (0x1f3eb, 0x1f3eb), (0x1f3ed, 0x1f3ed),
    (0x1f466, 0x1f469), (0x1f48b, 0x1f48b), (0x1f4bb, 0x1f4bc), (0x1f527, 0x1f527),
    (0x1f52c, 0x1f52c), (0x1f5e8, 0x1f5e8), (0x1f680, 0x1f680), (0x1f692, 0x1f692)]

def isMark (c : Char) : Bool := inRanges markRanges c

def isControl (c : Char) : Bool := inRanges controlRanges c

def isLeading (c : Char) : Bool := inRanges leadingRanges c

def isFigure (c : Char) : Bool := inRanges figureRanges c

def isJoined (c : Char) : Bool := inRanges joinedRanges c

/-- The zero-width joiner. -/
def joiner : Char := '\u200d'

/-- The skin tones. -/
def isTone (c : Char) : Bool := inRanges [(0x1f3fb, 0x1f3ff)] c

/-- The letters that flags are made of. -/
def isFlagLetter (c : Char) : Bool := inRanges [(0x1f1e6, 0x1f1ff)] c

/-- The first consonants of Hangul syllables. -/
def isInitial (c : Char) : Bool := inRanges [(0x1100, 0x115f), (0xa960, 0xa97c)] c

/-- The vowels of Hangul syllables. -/
def isVowel (c : Char) : Bool := inRanges [(0x1160, 0x11a7), (0xd7b0, 0xd7c6)] c

/-- The last consonants of Hangul syllables. -/
def isFinal (c : Char) : Bool := inRanges [(0x11a8, 0x11ff), (0xd7cb, 0xd7fb)] c

/-- Hangul syllables as single characters. -/
def isSyllable (c : Char) : Bool := inRanges [(0xac00, 0xd7a3)] c

/-- Hangul syllables as single characters without a last consonant. -/
def isOpenSyllable (c : Char) : Bool := isSyllable c && (c.toNat - 0xac00) % 28 == 0

/-- Whether two neighbours belong to one Hangul syllable. -/
def inSyllable (a b : Char) : Bool :=
  (isInitial a && (isInitial b || isVowel b || isSyllable b)) ||
    ((isOpenSyllable a || isVowel a) && (isVowel b || isFinal b)) ||
    ((isSyllable a || isFinal a) && isFinal b)

/-- What counts of the text before a character. -/
structure Preceding where
  last : Char
  /-- Whether an odd number of flag letters stands at the end. -/
  oddFlag : Bool
  /-- Whether a symbol that can have a skin tone stands at the end, perhaps with marks. -/
  figure : Bool

namespace Preceding

/-- The text is one character. -/
def ofChar (c : Char) : Preceding := ⟨c, isFlagLetter c, isFigure c⟩

/-- The text with one more character. -/
def push (p : Preceding) (c : Char) : Preceding :=
  ⟨c, isFlagLetter c && !p.oddFlag, isFigure c || (isMark c && p.figure)⟩

/-- Whether the next character belongs to the same cluster. -/
def continues (p : Preceding) (c : Char) : Bool :=
  if p.last = '\r' ∧ c = '\n' then true
  else if isControl p.last || isControl c then false
  else
    inSyllable p.last c || isMark c || c = joiner || isLeading p.last || (isTone c && p.figure) ||
      (p.last = joiner && isJoined c) || (isFlagLetter c && p.oddFlag)

end Preceding

/-- The clusters of a text behind an open one, which is given in reverse. -/
def clustersBehind (p : Preceding) (current : List Char) : List Char → List (List Char)
  | [] => [current.reverse]
  | c :: rest =>
    if p.continues c then clustersBehind (p.push c) (c :: current) rest
    else current.reverse :: clustersBehind (p.push c) [c] rest

/-- The clusters of a text. -/
def clusters : List Char → List (List Char)
  | [] => []
  | c :: rest => clustersBehind (.ofChar c) [c] rest

theorem flatten_clustersBehind (p : Preceding) (current s : List Char) :
    (clustersBehind p current s).flatten = current.reverse ++ s := by
  induction s generalizing p current with
  | nil => simp [clustersBehind]
  | cons c rest ih =>
    rw [clustersBehind]
    split <;> simp [ih]

/-- The clusters of a text make it up. -/
theorem flatten_clusters (s : List Char) : (clusters s).flatten = s := by
  cases s with
  | nil => rfl
  | cons c rest => simp [clusters, flatten_clustersBehind]

end DocModel.Text
