import Splice.Decimal.Double
import Splice.Node.Form

/-!
# Tokens

The words, marks and literals that source text is made of. A token remembers where it stands,
whether a line ends before it, and whether a mark comment stands directly before it.
-/
namespace Splice

/-- Punctuation marks. A closing angle bracket is always read alone; the grammar joins it with what
follows where an operator may stand. -/
inductive Punct where
  | lparen | rparen | lbracket | rbracket | lbrace | rbrace
  | semicolon | comma | colon | dot | ellipsis | question | questionDot | arrow | atSign
  | coalesce | coalesceEq
  | eq | eqEq | eqEqEq | bang | bangEq | bangEqEq
  | plus | plusPlus | plusEq | minus | minusMinus | minusEq
  | star | starStar | starEq | starStarEq | slash | slashEq | percent | percentEq
  | lt | ltEq | shl | shlEq | gt | gtEq | shr | shrEq | ushr | ushrEq
  | amp | ampAmp | ampEq | ampAmpEq | pipe | pipePipe | pipeEq | pipePipeEq
  | caret | caretEq | tilde
deriving DecidableEq, Repr, Inhabited

def Punct.text : Punct → String
  | lparen => "(" | rparen => ")" | lbracket => "[" | rbracket => "]"
  | lbrace => "\x7b" | rbrace => "\x7d" | semicolon => ";" | comma => "," | colon => ":"
  | dot => "." | ellipsis => "..." | question => "?" | questionDot => "?." | arrow => "=>"
  | atSign => "@" | coalesce => "??" | coalesceEq => "??="
  | eq => "=" | eqEq => "==" | eqEqEq => "===" | bang => "!" | bangEq => "!=" | bangEqEq => "!=="
  | plus => "+" | plusPlus => "++" | plusEq => "+=" | minus => "-" | minusMinus => "--"
  | minusEq => "-=" | star => "*" | starStar => "**" | starEq => "*=" | starStarEq => "**="
  | slash => "/" | slashEq => "/=" | percent => "%" | percentEq => "%="
  | lt => "<" | ltEq => "<=" | shl => "<<" | shlEq => "<<=" | gt => ">" | gtEq => ">="
  | shr => ">>" | shrEq => ">>=" | ushr => ">>>" | ushrEq => ">>>="
  | amp => "&" | ampAmp => "&&" | ampEq => "&=" | ampAmpEq => "&&="
  | pipe => "|" | pipePipe => "||" | pipeEq => "|=" | pipePipeEq => "||="
  | caret => "^" | caretEq => "^=" | tilde => "~"

/-- The spellings of a number. -/
inductive NumberSpelling where
  | decimal | float | binary | octal | hex | exponential
deriving DecidableEq, Repr, Inhabited

def NumberSpelling.text : NumberSpelling → String
  | decimal => "decimal" | float => "float" | binary => "binary" | octal => "octal"
  | hex => "hex" | exponential => "exponential"

/-- A template piece ends the literal or opens a substitution. -/
inductive TemplatePart where
  | whole | head | middle | tail
deriving DecidableEq, Repr, Inhabited

def TemplatePart.text : TemplatePart → String
  | whole => "$\x7b\x7d" | head => "$\x7b" | middle => "$\x7bexpr\x7d" | tail => "\x7d"

inductive TokenKind where
  | eof
  /-- Text that is no token; the reason is recorded with the token. -/
  | broken
  /-- A name or keyword. -/
  | word (text : String)
  | privateName (text : String)
  /-- A number; it has no value when its exponent lacks digits. -/
  | number (value : Option Double) (spelling : NumberSpelling) (written : String)
  | bigint (digits : String) (spelling : NumberSpelling)
  | string (value : String) (surrogates : Bool)
  | template (part : TemplatePart) (quasi : Quasi)
  | regexp (pattern flags : String)
  | elementText (text : String)
  | hashbang (text : String)
  | punct (p : Punct)
deriving DecidableEq, Repr, Inhabited

/-- A word is no dotted name: it has no dot in it. -/
def TokenKind.Tidy : TokenKind → Prop
  | word w => '.' ∉ w.toList
  | _ => True

structure Token where
  kind : TokenKind
  start : Nat
  stop : Nat
  /-- A line ends between the previous token and this one. -/
  fresh : Bool
  /-- A word with an escape, or a string with any escape. -/
  escaped : Bool
  /-- A mark for calls without side effects stands before the token. -/
  pure : Bool
  /-- A mark for functions without side effects stands before the token. -/
  inert : Bool
deriving DecidableEq, Repr, Inhabited

/-- Words that can never be names. -/
def reservedWords : List String :=
  ["break", "case", "catch", "class", "const", "continue", "debugger", "default", "delete", "do",
   "else", "enum", "export", "extends", "false", "finally", "for", "function", "if", "import",
   "in", "instanceof", "new", "null", "return", "super", "switch", "this", "throw", "true", "try",
   "typeof", "var", "void", "while", "with"]

/-- Words that are names except in some positions. -/
def contextualWords : List String :=
  ["await", "yield", "let", "static", "as", "async", "from", "get", "meta", "of", "set", "target",
   "accessor", "source", "defer", "abstract", "asserts", "assert", "any", "bigint", "boolean",
   "constructor", "declare", "global", "implements", "infer", "interface", "intrinsic", "is",
   "keyof", "module", "namespace", "never", "number", "object", "out", "override", "package",
   "private", "protected", "public", "readonly", "require", "satisfies", "string", "symbol",
   "type", "undefined", "unique", "unknown", "using"]

def isReservedWord (w : String) : Bool := reservedWords.contains w

def isKeyword (w : String) : Bool := reservedWords.contains w || contextualWords.contains w

/-- How a token is called when another one was expected. -/
def TokenKind.text : TokenKind → String
  | eof => "EOF"
  | broken => "Unknown"
  | word w => if isKeyword w then w else "Identifier"
  | privateName _ => "#identifier"
  | number _ s _ => s.text
  | bigint _ s => s.text
  | string _ _ => "string"
  | template part _ => part.text
  | regexp _ _ => "/regexp/"
  | elementText _ => "jsx"
  | hashbang _ => "#!"
  | punct p => p.text

end Splice
