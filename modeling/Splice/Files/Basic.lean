import Splice.Files.Path

/-!
# Files

Files and directories as a value. Nothing is known of the places outside the current directory but
that the directories above it exist.
-/
namespace Splice

/-- What a file holds. -/
inductive Content where
  | text (value : String)
  /-- Bytes that are no text. -/
  | binary (bytes : List UInt8)
deriving DecidableEq, Repr, Inhabited

def Content.ofBytes (bytes : List UInt8) : Content :=
  match String.fromUTF8? ⟨bytes.toArray⟩ with
  | some s => .text s
  | none => .binary bytes

inductive FileError where
  | notFound
  | notDirectory
  | isDirectory
  | fileExists
  | notText
deriving DecidableEq, Repr, Inhabited

def FileError.message : FileError → String
  | notFound => "No such file or directory (os error 2)"
  | notDirectory => "Not a directory (os error 20)"
  | isDirectory => "Is a directory (os error 21)"
  | fileExists => "File exists (os error 17)"
  | notText => "stream did not contain valid UTF-8"

/-- A place where something can be: names below the root, or below the current directory or one of
those above it. -/
structure Location where
  absolute : Bool := false
  /-- How many directories above the current one the names begin. -/
  above : Nat := 0
  /-- The innermost name first. -/
  names : List String := []
deriving DecidableEq, Repr, Inhabited

namespace Location

def child (l : Location) (name : String) : Location := { l with names := name :: l.names }

def parent (l : Location) : Location :=
  match l.names with
  | _ :: ns => { l with names := ns }
  | [] => if l.absolute then l else { l with above := l.above + 1 }

/-- Where a path begins. -/
def origin (path : String) : Location := { absolute := Path.isAbsolute path.toList }

end Location

inductive FileEntry where
  | file (content : Content)
  | directory
deriving DecidableEq, Repr, Inhabited

structure Files where
  entries : List (Location × FileEntry) := []
deriving DecidableEq, Repr, Inhabited

namespace Files

/-- What is at a place. The places without names always are directories. -/
def get? (fs : Files) (l : Location) : Option FileEntry :=
  if l.names.isEmpty then some .directory else fs.entries.lookup l

/-- Puts an entry in its place. -/
def insert (fs : Files) (l : Location) (e : FileEntry) : Files :=
  ⟨(l, e) :: fs.entries.filter fun x => x.1 != l⟩

/-! ## Reading -/

/-- Goes on by one name. -/
def step (fs : Files) (l : Location) (name : String) : Except FileError Location :=
  match fs.get? l with
  | none => .error .notFound
  | some (.file _) => .error .notDirectory
  | some .directory =>
    .ok (if name = "." then l else if name = ".." then l.parent else l.child name)

/-- The place that a path leads to; nothing has to be there. -/
def locate (fs : Files) (path : String) : Except FileError Location :=
  if path.isEmpty then .error .notFound
  else (Path.steps path.toList).foldlM fs.step (.origin path)

/-- The text of a file. -/
def read (fs : Files) (path : String) : Except FileError String := do
  match fs.get? (← fs.locate path) with
  | none => .error .notFound
  | some .directory => .error .isDirectory
  | some (.file (.text s)) => .ok s
  | some (.file (.binary _)) => .error .notText

/-! ## Writing -/

/-- Makes the directories along some names where they are missing. -/
def makeDirectories (fs : Files) (l : Location) : List String → Files × Except FileError Unit
  | [] => (fs, .ok ())
  | name :: rest =>
    if name = ".." then fs.makeDirectories l.parent rest
    else
      match fs.get? (l.child name) with
      | some .directory => fs.makeDirectories (l.child name) rest
      | some (.file _) => (fs, .error (if rest.isEmpty then .fileExists else .notDirectory))
      | none => (fs.insert (l.child name) .directory).makeDirectories (l.child name) rest

/-- Replaces or creates a file in a directory that is there. -/
def put (fs : Files) (path : String) (content : Content) : Files × Except FileError Unit :=
  if Path.endsInSlash path.toList then (fs, .error .isDirectory)
  else
    match fs.locate path with
    | .error e => (fs, .error e)
    | .ok l =>
      match fs.get? l with
      | some .directory => (fs, .error .isDirectory)
      | _ => (fs.insert l (.file content), .ok ())

/-- Writes a file, making the directories it lies in. -/
def write (fs : Files) (path text : String) : Files × Except FileError Unit :=
  match fs.makeDirectories (.origin path) (Path.parentNames path.toList) with
  | (fs, .error e) => (fs, .error e)
  | (fs, .ok ()) => fs.put path (.text text)

/-! ## Building and comparing -/

/-- Adds a file, or an empty directory for no content, with the directories around it. -/
def add (fs : Files) (path : String) (content : Option Content) : Files :=
  match content with
  | none => (fs.makeDirectories {} ((Path.names path.toList).map String.ofList)).1
  | some c => ((fs.makeDirectories {} (Path.parentNames path.toList)).1.put path c).1

/-- The path of a place below the current directory. -/
def pathOf? (l : Location) : Option String :=
  if l.absolute || l.above != 0 then none else some (String.intercalate "/" l.names.reverse)

/-- The files that are new or different in `after`, with their texts. -/
def changes (before after : Files) : List (String × String) :=
  after.entries.filterMap fun (l, e) =>
    match e with
    | .file (.text s) =>
      if before.get? l = some e then none else (pathOf? l).map fun p => (p, s)
    | _ => none

end Files

end Splice
