import Splice.Text.Visible

/-!
# Text as it is shown

A text in double quotes for people to read: quotes, backslashes and line ends are escaped, and so is
every character that would not be visible on its own.
-/
namespace Splice

namespace Shown

/-- A character by its number in hexadecimal. -/
def byNumber (c : Char) : List Char := "\\u\x7b".toList ++ Nat.toDigits 16 c.toNat ++ ['\x7d']

def escape (c : Char) : List Char :=
  match c.toNat with
  | 0x00 => ['\\', '0']
  | 0x09 => ['\\', 't']
  | 0x0a => ['\\', 'n']
  | 0x0d => ['\\', 'r']
  | 0x22 => ['\\', '\x22']
  | 0x5c => ['\\', '\\']
  | _ => if Visible.isExtend c || Visible.isHidden c then byNumber c else [c]

/-- The text in quotes. -/
def quote (s : String) : String :=
  String.ofList ('\x22' :: s.toList.flatMap escape ++ ['\x22'])

end Shown

end Splice
