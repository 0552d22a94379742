import Splice.Text.Table

/-!
# Blanks

Two notions of blank space. `isBlank` is the Unicode property White_Space, by which keys and values
are trimmed. In source text, tokens are separated by `isSourceBlank` characters and by line ends.
-/
namespace Splice

namespace Blank

/-- The Unicode property White_Space. -/
def isBlank (c : Char) : Bool :=
  inTable [0x9, 0xe, 0x20, 0x21, 0x85, 0x86, 0xa0, 0xa1, 0x1680, 0x1681, 0x2000, 0x200b, 0x2028,
    0x202a, 0x202f, 0x2030, 0x205f, 0x2060, 0x3000, 0x3001] c.toNat

/-- The ends of a line: line feed, carriage return and the two Unicode separators. -/
def isLineEnd (c : Char) : Bool :=
  c == '\n' || c == '\r' || c.toNat == 0x2028 || c.toNat == 0x2029

/-- Blanks between tokens that do not end a line. -/
def isSourceBlank (c : Char) : Bool :=
  c == ' ' || c == '\t' ||
  inTable [0xb, 0xd, 0x85, 0x86, 0xa0, 0xa1, 0x1680, 0x1681, 0x2000, 0x200c,
    0x202f, 0x2030, 0x205f, 0x2060, 0x3000, 0x3001, 0xfeff, 0xff00] c.toNat

def trimStart (s : List Char) : List Char := s.dropWhile isBlank

def trimEnd (s : List Char) : List Char := (s.reverse.dropWhile isBlank).reverse

/-- Drops blanks at both ends. -/
def trim (s : List Char) : List Char := trimEnd (trimStart s)

end Blank

end Splice
