import Splice.Token.Problem

/-!
# Errors

Everything that can end a command. Each kind has a code, a message, and for some of them advice.
-/
namespace Splice

inductive Error where
  /-- A file could not be read or written. -/
  | io (message : String)
  | config (message : String)
  /-- A definition is not of the form `KEY=VALUE`. -/
  | invalidDefinition (arg : String)
  /-- A source file could not be read as a program. -/
  | parse (path : String) (problems : List Problem)
  | internal (message : String)
deriving DecidableEq, Repr, Inhabited

namespace Error

def message : Error → String
  | io m => "I/O error: " ++ m
  | config m => "Invalid configuration: " ++ m
  | invalidDefinition arg => "Invalid define \x60" ++ arg ++ "\x60: expected KEY=VALUE"
  | parse path ps =>
    "Failed to parse " ++ path ++ ": " ++ String.intercalate "; " (ps.map Problem.message)
  | internal m => "Internal error: " ++ m

def code : Error → String
  | io _ => "define::io_error"
  | config _ => "define::config_error"
  | invalidDefinition _ => "define::invalid_define"
  | parse _ _ => "define::parse_error"
  | internal _ => "define::internal_error"

/-- Advice on how to do better. -/
def help? : Error → Option String
  | invalidDefinition _ =>
    some "pass definitions as -D \x27process.env.NODE_ENV=\x22production\x22\x27"
  | _ => none

end Error

end Splice
