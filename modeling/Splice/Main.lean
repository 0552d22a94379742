import Splice.Command.Run

/-!
# The program

The commands in the real surroundings.
-/
namespace Splice

namespace Program

/-- What went wrong with a file. -/
def fileError : IO.Error → FileError
  | .noFileOrDirectory _ _ _ => .notFound
  | .noSuchThing _ _ _ => .notFound
  | .alreadyExists _ _ _ => .fileExists
  | .inappropriateType _ _ _ => .isDirectory
  | _ => .notDirectory

def read (path : String) : IO (Except FileError String) := do
  try
    match String.fromUTF8? (← IO.FS.readBinFile path) with
    | some text => return .ok text
    | none => return .error .notText
  catch e => return .error (fileError e)

def write (path text : String) : IO (Except FileError Unit) := do
  try
    let dir := String.intercalate "/" (Path.parentNames path.toList)
    let root := if Path.isAbsolute path.toList then "/" else ""
    if !dir.isEmpty then IO.FS.createDirAll (root ++ dir)
    IO.FS.writeFile path text
    return .ok ()
  catch e => return .error (fileError e)

def environment (names : List String) : IO Environment := do
  let vars ← names.filterMapM fun name => do
    return (← IO.getEnv name).map fun content => (name, content)
  return .ofList vars

def surroundings : Surroundings IO where
  read := read
  write := write
  print := IO.print
  printError := IO.eprint
  environment := environment

end Program

end Splice

def main (args : List String) : IO UInt32 := do
  let code ← Splice.Command.run Splice.Program.surroundings args
  if code = 2 then IO.eprintln "error: invalid command line"
  return UInt32.ofNat code
