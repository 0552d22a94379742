import Splice.Command.Arguments

/-!
# Usage

How a command line is read. Arguments are taken from left to right: a request for help and a misuse
both end the reading, whichever comes first.
-/
namespace Splice

/-- What a command line asks for. -/
inductive Invocation where
  | transform (args : TransformArgs)
  | inspect (args : InspectArgs)
  /-- A text to be shown, such as help. -/
  | notice (text : String)
  | misuse
deriving DecidableEq, Repr, Inhabited

namespace Usage

/-! ## Texts -/

/-- A text of whole lines. -/
def lines (ls : List String) : String := String.join (ls.map (· ++ "\n"))

def version : String := "define-rs 0.1.0\n"

def help : String :=
  lines
    ["Replace define keys in JavaScript and TypeScript sources",
      "",
      "Usage: define-rs <COMMAND>",
      "",
      "Commands:",
      "  transform  Rewrite source files, replacing configured expressions",
      "  inspect    Show how each configured key resolves in the current environment",
      "  help       Print this message or the help of the given subcommand(s)",
      "",
      "Options:",
      "  -h, --help     Print help",
      "  -V, --version  Print version"]

def transformHelp : String :=
  lines
    ["Rewrite source files, replacing configured expressions",
      "",
      "Usage: define-rs transform [OPTIONS] <INPUTS>...",
      "",
      "Arguments:",
      "  <INPUTS>...  Input source files",
      "",
      "Options:",
      "  -c, --config <CONFIG>     JSON config file: \x7b \x22replace\x22: \x7b \x22<pattern>\x22: <value> \x7d \x7d",
      "  -D, --define <KEY=VALUE>  Additional KEY=VALUE replacement (repeatable, overrides the config file)",
      "  -o, --output <OUTPUT>     Output file (defaults to stdout, single input only)",
      "      --out-dir <OUT_DIR>   Output directory, one file per input",
      "      --minify              Minify output",
      "      --stats               Print replacement counts to stderr",
      "  -h, --help                Print help"]

def inspectHelp : String :=
  lines
    ["Show how each configured key resolves in the current environment",
      "",
      "Usage: define-rs inspect [OPTIONS]",
      "",
      "Options:",
      "  -c, --config <CONFIG>     JSON config file",
      "  -D, --define <KEY=VALUE>  Additional KEY=VALUE replacement (repeatable)",
      "  -f, --format <FORMAT>     Output format (text, json) [default: text]",
      "  -h, --help                Print help"]

def helpHelp : String :=
  lines
    ["Print this message or the help of the given subcommand(s)",
      "",
      "Usage: define-rs help [COMMAND]...",
      "",
      "Arguments:",
      "  [COMMAND]...  Print help for the subcommand(s)"]

/-! ## Options -/

/-- What may follow the name of an option. -/
inductive Takes where
  | nothing
  | text
  /-- A text that is not empty. -/
  | path
deriving DecidableEq, Repr, Inhabited

structure Rule where
  long : String
  short : Option Char := none
  takes : Takes := .nothing
  repeatable : Bool := false

def transformRules : List Rule :=
  [{ long := "config", short := some 'c', takes := .path },
    { long := "define", short := some 'D', takes := .text, repeatable := true },
    { long := "output", short := some 'o', takes := .path },
    { long := "out-dir", takes := .path },
    { long := "minify" },
    { long := "stats" }]

def inspectRules : List Rule :=
  [{ long := "config", short := some 'c', takes := .path },
    { long := "define", short := some 'D', takes := .text, repeatable := true },
    { long := "format", short := some 'f', takes := .text }]

/-- One thing that was given. -/
inductive Given where
  | option (long value : String)
  | input (path : String)
deriving DecidableEq, Repr, Inhabited

/-- Why the reading of arguments ended early. -/
inductive Stop where
  | help
  | misuse
deriving DecidableEq, Repr, Inhabited

/-- How an argument looks. -/
inductive Look where
  /-- Two hyphens: only inputs follow. -/
  | divider
  | long (name : List Char) (value : Option (List Char))
  /-- Letters after a single hyphen. -/
  | short (letter : Char) (rest : List Char)
  | plain
deriving DecidableEq, Repr, Inhabited

/-- The parts before and after the first equals sign. -/
def cutValue (s : List Char) : List Char × Option (List Char) :=
  (s.takeWhile (· != '='),
    match s.dropWhile (· != '=') with
    | _ :: v => some v
    | [] => none)

def look (arg : String) : Look :=
  match arg.toList with
  | '-' :: '-' :: [] => .divider
  | '-' :: '-' :: s =>
    let (name, value) := cutValue s
    .long name value
  | '-' :: c :: s => .short c s
  | _ => .plain

/-- The value that is attached to a short option; an equals sign before it does not count. -/
def attached : List Char → Option (List Char)
  | [] => none
  | '=' :: v => some v
  | v => some v

/-- A value is given to an option. -/
def give (rule : Rule) (value : List Char) (seen : List String) : Except Stop Given :=
  if rule.takes = .path ∧ value.isEmpty then .error .misuse
  else if !rule.repeatable && seen.contains rule.long then .error .misuse
  else .ok (.option rule.long (String.ofList value))

/-- Reads arguments. `seen` holds the options that were given before, and `inputs` says whether there
may be any. -/
def scan (rules : List Rule) (inputs : Bool) (seen : List String) :
    List String → Except Stop (List Given)
  | [] => .ok []
  | arg :: rest =>
    let input (path : String) : Except Stop Given :=
      if inputs && !path.isEmpty then .ok (.input path) else .error .misuse
    match look arg with
    | .divider => rest.mapM input
    | .plain => do
      let g ← input arg
      return g :: (← scan rules inputs seen rest)
    | .long name value =>
      if name = "help".toList then .error (if value.isSome then .misuse else .help)
      else
        match rules.find? fun r => r.long.toList = name, value with
        | none, _ => .error .misuse
        | some rule, some v =>
          if rule.takes = .nothing then .error .misuse
          else do
            let g ← give rule v seen
            return g :: (← scan rules inputs (rule.long :: seen) rest)
        | some rule, none =>
          if rule.takes = .nothing then do
            let g ← give rule [] seen
            return g :: (← scan rules inputs (rule.long :: seen) rest)
          else valued rule rest
    | .short letter more =>
      if letter = 'h' then .error .help
      else
        match rules.find? fun r => r.short = some letter, attached more with
        | none, _ => .error .misuse
        | some rule, some v => do
          let g ← give rule v seen
          return g :: (← scan rules inputs (rule.long :: seen) rest)
        | some rule, none => valued rule rest
where
  /-- The value of an option is the next argument, unless that looks like an option. -/
  valued (rule : Rule) : List String → Except Stop (List Given)
    | [] => .error .misuse
    | v :: rest =>
      match look v with
      | .plain => do
        let g ← give rule v.toList seen
        return g :: (← scan rules inputs (rule.long :: seen) rest)
      | _ => .error .misuse

/-! ## Commands -/

/-- The value that was given to an option. -/
def valueOf? (long : String) (gs : List Given) : Option String :=
  gs.findSome? fun g => match g with
    | .option l v => if l = long then some v else none
    | .input _ => none

/-- All values that were given to an option. -/
def valuesOf (long : String) (gs : List Given) : List String :=
  gs.filterMap fun g => match g with
    | .option l v => if l = long then some v else none
    | .input _ => none

def inputsOf (gs : List Given) : List String :=
  gs.filterMap fun g => match g with
    | .input p => some p
    | .option _ _ => none

def has (long : String) (gs : List Given) : Bool := (valueOf? long gs).isSome

/-- There must be an input, and only one of the two places for outputs. -/
def transformOf (gs : List Given) : Invocation :=
  let inputs := inputsOf gs
  if inputs.isEmpty || (has "output" gs && has "out-dir" gs) then .misuse
  else .transform
    { inputs
      config := valueOf? "config" gs
      definitions := valuesOf "define" gs
      output := valueOf? "output" gs
      outDir := valueOf? "out-dir" gs
      minify := has "minify" gs
      stats := has "stats" gs }

def inspectOf (gs : List Given) : Invocation :=
  .inspect
    { config := valueOf? "config" gs
      definitions := valuesOf "define" gs
      format := (valueOf? "format" gs).getD "text" }

/-- Reads the arguments of a command. -/
def command (rules : List Rule) (inputs : Bool) (helpText : String)
    (make : List Given → Invocation) (args : List String) : Invocation :=
  match scan rules inputs [] args with
  | .ok gs => make gs
  | .error .help => .notice helpText
  | .error .misuse => .misuse

/-- Help on a command. -/
def helpOn : List String → Invocation
  | [] => .notice help
  | ["transform"] => .notice transformHelp
  | ["inspect"] => .notice inspectHelp
  | ["help"] => .notice helpHelp
  | _ => .misuse

/-- Reads a command line. -/
def parse : List String → Invocation
  | [] => .misuse
  | arg :: rest =>
    match arg with
    | "transform" => command transformRules true transformHelp transformOf rest
    | "inspect" => command inspectRules false inspectHelp inspectOf rest
    | "help" => helpOn rest
    | _ =>
      match look arg with
      | .long name none =>
        if name = "help".toList then .notice help
        else if name = "version".toList then .notice version
        else .misuse
      | .short 'h' _ => .notice help
      | .short 'V' _ => .notice version
      | _ => .misuse

end Usage

end Splice
