import Splice.Text.Blank

/-!
# Escapes

What a backslash in a string, a template or a name stands for. A string may hold half of a
surrogate pair, which no character stands for; texts with such halves are encoded by `encodeUnits`.
-/
namespace Splice

/-- A character, or half of a surrogate pair. -/
inductive TextUnit where
  | char (c : Char)
  | half (code : Nat)
deriving DecidableEq, Repr, Inhabited

def hexValue (c : Char) : Option Nat :=
  if '0' ≤ c ∧ c ≤ '9' then some (c.toNat - 48)
  else if 'a' ≤ c ∧ c ≤ 'f' then some (c.toNat - 87)
  else if 'A' ≤ c ∧ c ≤ 'F' then some (c.toNat - 55)
  else none

def isHexDigit (c : Char) : Bool := (hexValue c).isSome

def isHighHalf (n : Nat) : Bool := 0xd800 ≤ n && n ≤ 0xdbff

def isLowHalf (n : Nat) : Bool := 0xdc00 ≤ n && n ≤ 0xdfff

/-- Four lower-case hexadecimal digits. -/
def fourHex (n : Nat) : List Char :=
  [n / 4096, n / 256, n / 16, n].map fun d => Nat.digitChar (d % 16)

def TextUnit.isHalf : TextUnit → Bool
  | char _ => false
  | half _ => true

/-- The text of a unit where a half may occur: U+FFFD and four digits for a half, and likewise for
U+FFFD itself. -/
def TextUnit.marked : TextUnit → List Char
  | char c => if c.toNat = 0xfffd then c :: fourHex 0xfffd else [c]
  | half n => Char.ofNat 0xfffd :: fourHex n

def TextUnit.plain : TextUnit → List Char
  | char c => [c]
  | half _ => []

/-- The text of decoded units, and whether it holds halves of surrogate pairs. -/
def encodeUnits (us : List TextUnit) : String × Bool :=
  if us.any TextUnit.isHalf then (String.ofList (us.flatMap TextUnit.marked), true)
  else (String.ofList (us.flatMap TextUnit.plain), false)

/-- The unit of a code point. -/
def TextUnit.ofCode (n : Nat) : TextUnit :=
  if isHighHalf n || isLowHalf n then half n else char (Char.ofNat n)

/-- Reads four hexadecimal digits. -/
def readFourHex : List Char → Option (Nat × List Char)
  | a :: b :: c :: d :: r =>
    match hexValue a, hexValue b, hexValue c, hexValue d with
    | some a, some b, some c, some d => some (((a * 16 + b) * 16 + c) * 16 + d, r)
    | _, _, _, _ => none
  | _ => none

/-- A code point as read, the text after it and the number of characters it takes. -/
structure CodePoint where
  code : Nat
  rest : List Char
  taken : Nat

/-- Reads hexadecimal digits up to a closing brace, at least one, for a code point in range. -/
def readBraced (cs : List Char) : Option CodePoint :=
  let digits := cs.takeWhile isHexDigit
  let code := digits.foldl (fun n c => min (n * 16 + (hexValue c).getD 0) 0x110000) 0
  match cs.dropWhile isHexDigit with
  | '}' :: rest =>
    if digits.isEmpty || code > 0x10ffff then none
    else some { code, rest, taken := digits.length + 1 }
  | _ => none

/-- Reads what follows the letter `u` of an escape. -/
def readCodePoint : List Char → Option CodePoint
  | '{' :: r => (readBraced r).map fun p => { p with taken := p.taken + 1 }
  | cs => (readFourHex cs).map fun (code, rest) => { code, rest, taken := 4 }

/-- The outcome of reading an escape: the units it stands for, none if it is invalid, the text after
it and the number of characters it takes. -/
structure Escape where
  units : Option (List TextUnit)
  rest : List Char
  taken : Nat
deriving Inhabited

/-- An escape that stands for one character. -/
def Escape.one (c : Char) (rest : List Char) (taken : Nat) : Escape :=
  { units := some [.char c], rest, taken }

/-- An escape that stands for nothing. -/
def Escape.empty (rest : List Char) (taken : Nat) : Escape := { units := some [], rest, taken }

def Escape.invalid (rest : List Char) (taken : Nat) : Escape := { units := none, rest, taken }

/-- Reads what follows the letter `u`, joining two halves written one after the other. -/
def readUnicodeEscape (cs : List Char) : Escape :=
  match readCodePoint cs with
  | none => .invalid cs 1
  | some p =>
    let single : Escape := { units := some [TextUnit.ofCode p.code], rest := p.rest,
                             taken := p.taken + 1 }
    match cs, p.rest with
    | '{' :: _, _ => single
    | _, '\\' :: 'u' :: r =>
      match readFourHex r with
      | some (low, rest) =>
        if isHighHalf p.code && isLowHalf low then
          .one (Char.ofNat (0x10000 + (p.code - 0xd800) * 1024 + (low - 0xdc00))) rest
            (p.taken + 7)
        else single
      | none => single
    | _, _ => single

def isOctalDigit (c : Char) : Bool := '0' ≤ c && c ≤ '7'

/-- Reads a legacy octal escape: up to three digits with a value below 256. -/
def readOctal (first : Char) (cs : List Char) : Escape :=
  let limit := if first ≤ '3' then 2 else 1
  let more := (cs.take limit).takeWhile isOctalDigit
  let value := (first :: more).foldl (fun n c => n * 8 + (c.toNat - 48)) 0
  .one (Char.ofNat value) (cs.drop more.length) (1 + more.length)

/-- Reads what follows a backslash. Templates refuse octal escapes. -/
def readEscape (inTemplate : Bool) : List Char → Escape
  | [] => .invalid [] 0
  | 'n' :: r => .one '\n' r 1
  | 'r' :: r => .one '\r' r 1
  | 't' :: r => .one '\t' r 1
  | 'b' :: r => .one (Char.ofNat 8) r 1
  | 'v' :: r => .one (Char.ofNat 11) r 1
  | 'f' :: r => .one (Char.ofNat 12) r 1
  | '\r' :: '\n' :: r => .empty r 2
  | 'x' :: r =>
    match r with
    | a :: b :: r' =>
      match hexValue a, hexValue b with
      | some a, some b => .one (Char.ofNat (a * 16 + b)) r' 3
      | _, _ => .invalid r 1
    | _ => .invalid r 1
  | 'u' :: r => readUnicodeEscape r
  | c :: r =>
    if Blank.isLineEnd c then .empty r 1
    else if c == '0' && !(r.head?.any fun d => d.isDigit) then .one (Char.ofNat 0) r 1
    else if isOctalDigit c then if inTemplate then .invalid r 1 else readOctal c r
    else if c.isDigit && inTemplate then .invalid r 1
    else .one c r 1

end Splice
