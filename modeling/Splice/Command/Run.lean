import Splice.Command.Arguments
import Splice.Command.Surroundings
import Splice.Command.Usage
import Splice.Config.Document
import Splice.Define.Report
import Splice.Text.Wrap
import Splice.Transform

/-!
# Commands

Transforming files and inspecting a configuration. All inputs are read and transformed before the
first output is written; outputs are then written in order, and the first failure ends the command.
-/
namespace Splice

namespace Command

variable {m : Type → Type} [Monad m]

/-! ## Configurations -/

/-- Reads a configuration from a file. -/
def configFile (s : Surroundings m) (path : String) : m (Except Error Config) := do
  match ← s.read path with
  | .error e => return .error (.io (path ++ ": " ++ e.message))
  | .ok text =>
    match Config.parse text with
    | .error message => return .error (.config (path ++ ": " ++ message))
    | .ok c => return .ok c

/-- Adds definitions to a configuration. -/
def define (c : Config) (definitions : List String) : Except Error Config :=
  match c.define definitions with
  | (c, none) => .ok c
  | (_, some bad) => .error (.invalidDefinition bad)

/-- The configuration of a file, if one is given, and of definitions. -/
def loadConfig (s : Surroundings m) (path : Option String) (definitions : List String) :
    m (Except Error Config) := do
  match path with
  | none => return define {} definitions
  | some path =>
    match ← configFile s path with
    | .error e => return .error e
    | .ok c => return define c definitions

/-! ## Transforming -/

/-- Reads and transforms a file. -/
def transformFile (s : Surroundings m) (t : Table) (env : Environment) (minify : Bool)
    (path : String) : m (Except Error Output) := do
  match ← s.read path with
  | .error e => return .error (.io (path ++ ": " ++ e.message))
  | .ok source => return transform t env path source minify

/-- Where the output for an input goes; nowhere but to the standard output if no place is given. -/
def destination (args : TransformArgs) (input : String) : Except Error (Option String) :=
  match args.outDir with
  | some dir =>
    match Path.fileName? input.toList with
    | some name => .ok (some (Path.join dir (String.ofList name)))
    | none => .error (.internal ("No file name in " ++ input))
  | none => .ok args.output

def statsLine (name : String) (s : Stats) : String :=
  name ++ ": " ++ toString s.replaced ++ " replaced, " ++ toString s.unresolved ++ " unresolved, " ++
    toString s.rejected ++ " rejected\n"

/-- Writes an output to its destination. -/
def deliver (s : Surroundings m) (args : TransformArgs) (input : String) (code : String) :
    m (Except Error Unit) := do
  match destination args input with
  | .error e => return .error e
  | .ok none =>
    s.print code
    return .ok ()
  | .ok (some path) =>
    match ← s.write path code with
    | .error e => return .error (.io e.message)
    | .ok () => return .ok ()

/-- Writes the outputs in order and sums up what was done. -/
def deliverAll (s : Surroundings m) (args : TransformArgs) (total : Stats) :
    List (String × Except Error Output) → m (Except Error Stats)
  | [] => return .ok total
  | (_, .error e) :: _ => return .error e
  | (input, .ok out) :: rest => do
    match ← deliver s args input out.code with
    | .error e => return .error e
    | .ok () =>
      if args.stats then s.printError (statsLine input out.stats)
      deliverAll s args (total + out.stats) rest

/-- Arguments that cannot be followed. -/
def checkTransform (args : TransformArgs) : Except Error Unit :=
  if args.inputs.isEmpty then .error (.config "no input files given")
  else if args.output.isSome && args.inputs.length > 1 then
    .error (.config "--output takes a single input; use --out-dir for several files")
  else .ok ()

/-- Transforms files. -/
def runTransform (s : Surroundings m) (args : TransformArgs) : m (Except Error Stats) := do
  match checkTransform args with
  | .error e => return .error e
  | .ok () =>
    match ← loadConfig s args.config args.definitions with
    | .error e => return .error e
    | .ok config =>
      let table := Table.ofConfig config
      let env ← s.environment table.references
      let outputs ← args.inputs.mapM (transformFile s table env args.minify)
      match ← deliverAll s args {} (args.inputs.zip outputs) with
      | .error e => return .error e
      | .ok total =>
        if args.stats && args.inputs.length > 1 then s.printError (statsLine "total" total)
        return .ok total

/-! ## Inspecting -/

/-- A report in one of the formats. -/
def formatReport (format : String) (r : Report) : Except Error String :=
  match format with
  | "json" => .ok (r.json ++ "\n")
  | "text" => .ok r.text
  | _ => .error (.config ("unknown format \x60" ++ format ++ "\x60 (expected text or json)"))

/-- Shows what the keys of a configuration stand for. -/
def runInspect (s : Surroundings m) (args : InspectArgs) : m (Except Error Unit) := do
  match ← loadConfig s args.config args.definitions with
  | .error e => return .error e
  | .ok config =>
    let table := Table.ofConfig config
    let env ← s.environment table.references
    match formatReport args.format (Report.ofTable table env) with
    | .error e => return .error e
    | .ok text =>
      s.print text
      return .ok ()

/-! ## The program -/

/-- An error as it is shown to people. -/
def errorText (e : Error) : String :=
  "Error: " ++ Wrap.fill 78 "  × " "  │ " e.message ++ "\n\n"

/-- Shows an error, if there is one; the exit code. -/
def conclude {α : Type} (s : Surroundings m) : Except Error α → m Nat
  | .ok _ => return 0
  | .error e => do
    s.printError (errorText e)
    return 1

/-- Follows a command line; the exit code. -/
def run (s : Surroundings m) (args : List String) : m Nat := do
  match Usage.parse args with
  | .transform args => conclude s (← runTransform s args)
  | .inspect args => conclude s (← runInspect s args)
  | .notice text =>
    s.print text
    return 0
  | .misuse => return 2

end Command

end Splice
