import Splice.Json.Reader

/-!
# Texts in JSON

A text is written in double quotes. Quotes, backslashes and control characters are escaped; a reader
also takes escapes of any other character, those beyond sixteen bits as a pair of surrogates.
-/
namespace Splice

namespace Json

/-! ## Writing -/

def hexDigit (n : Nat) : Char := Char.ofNat (if n < 10 then 48 + n else 87 + n)

/-- How a character is written. -/
def escape (c : Char) : List Char :=
  match c.toNat with
  | 0x22 => ['\\', '\x22']
  | 0x5c => ['\\', '\\']
  | 0x08 => ['\\', 'b']
  | 0x0c => ['\\', 'f']
  | 0x0a => ['\\', 'n']
  | 0x0d => ['\\', 'r']
  | 0x09 => ['\\', 't']
  | n => if n < 0x20 then ['\\', 'u', '0', '0', hexDigit (n / 16), hexDigit (n % 16)] else [c]

/-- A text in quotes. -/
def writeText (s : List Char) : List Char := '\x22' :: s.flatMap escape ++ ['\x22']

/-! ## Reading -/

def hexValue? (c : Char) : Option Nat :=
  if '0' ≤ c ∧ c ≤ '9' then some (c.toNat - 48)
  else if 'a' ≤ c ∧ c ≤ 'f' then some (c.toNat - 87)
  else if 'A' ≤ c ∧ c ≤ 'F' then some (c.toNat - 55)
  else none

/-- The number that digits in base sixteen stand for. -/
def hexNumber? (ds : List Char) : Option Nat :=
  ds.foldlM (fun n d => (hexValue? d).map (n * 16 + ·)) 0

namespace Reader

/-- Four hexadecimal digits. -/
def hex4 (s : List Char) : Except Fault (Nat × List Char) :=
  match s with
  | a :: b :: c :: d :: r =>
    match hexNumber? [a, b, c, d] with
    | some n => .ok (n, r)
    | none => fail .invalidEscape s 4
  | _ => if (utf8 s).length < 4 then fail .endInText [] else fail .invalidEscape s 4

/-- One character of an escape that needs two. -/
def follows (c : Char) (s : List Char) : Except Fault (Unit × List Char) :=
  match s with
  | [] => fail .endInText []
  | d :: r => if d = c then .ok ((), r) else fail .endOfEscape s 1

/-- A character by its number; surrogates have to come in pairs. -/
def numbered (s : List Char) : Except Fault (Char × List Char) := do
  let (n, r) ← hex4 s
  if 0xDC00 ≤ n ∧ n ≤ 0xDFFF then fail .loneSurrogate r
  else if 0xD800 ≤ n ∧ n ≤ 0xDBFF then
    let (_, r) ← follows '\\' r
    let (_, r) ← follows 'u' r
    let (m, r) ← hex4 r
    if 0xDC00 ≤ m ∧ m ≤ 0xDFFF then
      return (Char.ofNat ((n - 0xD800) * 0x400 + (m - 0xDC00) + 0x10000), r)
    else fail .loneSurrogate r
  else return (Char.ofNat n, r)

/-- The character that an escape stands for; the backslash has been read. -/
def escaped (s : List Char) : Except Fault (Char × List Char) :=
  match s with
  | [] => fail .endInText []
  | c :: r =>
    match c with
    | '\x22' => .ok ('\x22', r)
    | '\\' => .ok ('\\', r)
    | '/' => .ok ('/', r)
    | 'b' => .ok ('\x08', r)
    | 'f' => .ok ('\x0c', r)
    | 'n' => .ok ('\n', r)
    | 'r' => .ok ('\r', r)
    | 't' => .ok ('\t', r)
    | 'u' => numbered r
    | _ => fail .invalidEscape s 1

/-- The characters up to the closing quote, the first `fuel` of them. -/
def characters : (fuel : Nat) → Reader (List Char)
  | 0, s => fail .endInText s
  | _ + 1, [] => fail .endInText []
  | fuel + 1, c :: r =>
    if c = '\x22' then .ok ([], r)
    else if c = '\\' then do
      let (d, r) ← escaped r
      let (ds, r) ← characters fuel r
      return (d :: ds, r)
    else if c.toNat < 0x20 then fail .controlCharacter (c :: r) 1
    else do
      let (ds, r) ← characters fuel r
      return (c :: ds, r)

/-- A text whose opening quote has been read. It has no more characters than what is left. -/
def text : Reader String := fun s => do
  let (cs, r) ← characters (s.length + 1) s
  return (String.ofList cs, r)

end Reader

end Json

end Splice
