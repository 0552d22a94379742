import Splice.Grammar.Element
import Splice.Grammar.Statement

/-!
# Programs

The rules of the grammar call each other through phrases; here the knot is tied, with a bound on the
depth that no text reaches, and whole programs are read.
-/
namespace Splice

namespace Read

variable {input : Source}

/-- Reads one phrase, given how to read the phrases inside it. -/
def phrase (go : Descend) : Phrase → Read Node
  | .expression => expression go
  | .assignment resultType => assignment go resultType
  | .binary above => binaryExpression go above
  | .unary => unaryExpression go
  | .leftHandSide => leftHandSide go
  | .newTarget => newTarget go
  | .statement single => statement go single
  | .block => block go
  | .pattern => pattern go
  | .type => type go
  | .unionType => unionType go
  | .typeOperator => typeOperator go
  | .element inside => element go inside

/-- Reads a phrase whose parts nest at most `depth` deep. -/
def descend : (depth : Nat) → Descend
  | 0, _ => throw .tooDeep
  | depth + 1, p => phrase (descend depth) p

/-- Reads all statements of a text. -/
def program (depth : Nat) : Read Node := do
  let t ← token
  let hashbang ← match t.kind with
    | .hashbang text => do
      bump
      pure (some (text, (⟨t.start, t.stop⟩ : Span)))
    | _ => pure none
  let items ← statements (descend depth) true
  let s ← get
  return .mk (.program (hashbang.map Prod.fst) s.language.elements) .part
    ⟨⟨0, s.size⟩, (hashbang.map Prod.snd).toList⟩ items

end Read

/-- A text that was read: its tree and its comments in order. -/
structure Parsed where
  tree : Node
  comments : List Comment

mutual

/-- The names that a pattern binds. -/
def boundNames : Node → List String
  | .mk form _ _ cs =>
    match form with
    | .bindingName w => [w]
    | .binding _ | .defaultPattern | .restElement | .arrayPattern | .objectPattern
    | .bindingProperty _ _ => allBoundNames cs
    | _ => []

def allBoundNames : List Node → List String
  | [] => []
  | c :: cs => boundNames c ++ allBoundNames cs

end

/-- The names a statement exports. -/
def exportedNames (n : Node) : List String :=
  let declared (d : Node) : List String :=
    match d.form with
    | .function _ => match (d.child 0).form with
      | .name w => [w]
      | _ => []
    | .classDef _ => match (d.child 1).form with
      | .name w => [w]
      | _ => []
    | .variableDecl _ _ => d.children.flatMap fun v => boundNames (v.child 0)
    | _ => []
  match n.form with
  | .exportNamed _ _ _ =>
    declared (n.child 0) ++ (n.child 1).children.filterMap fun s =>
      match s.form with
      | .exportName _ m _ => some m.text
      | _ => none
  | .exportAll (some m) _ _ _ _ => [m.text]
  | _ => []

def isDefaultExport (n : Node) : Bool :=
  match n.form with
  | .exportDefault => true
  | _ => false

/-- Faults of the exports of a program: names and defaults that are exported twice, and a default
that is also exported by name. -/
def exportProblems (statements : List Node) : List Problem :=
  let names := statements.flatMap exportedNames
  let defaults := statements.filter isDefaultExport
  (Read.repeatedNames [] names).map .duplicateExport ++
    (defaults.drop 1).map (fun _ => .duplicateDefault) ++
    if names.contains "default" && !defaults.isEmpty then [.duplicateDefault] else []

namespace ReadState

variable {input : Source}

/-- The problem that ended the reading tells nothing new when a token was faulty and the text ends
early: where the end has been reached, where a bracket is open, or where the faulty place has been
passed over. -/
def lastProblem (s : ReadState input) (p : Problem) : List Problem :=
  let early := s.token.kind == .eof || s.opened > 0 || p.passesOver
  if early && !s.tokenProblems.isEmpty then [] else [p]

/-- The text declares, in its first comment, that it is written with another kind of types. -/
def declaresFlow (s : ReadState input) : Bool :=
  !s.language.typed && (s.trivia.comments.getLast?.any fun c => hasText "@flow" c.text)

/-- All faults of a text: those of tokens first, then the others in the order they were met. -/
def faults (s : ReadState input) (last repeated : List Problem) : List Problem :=
  let own := s.tokenProblems.reverse ++ s.problems.reverse ++ last ++
    s.defaults.map fun _ => .shorthandDefault
  if !own.isEmpty && s.declaresFlow then [.unsupportedFlow] else own ++ repeated

end ReadState

/-- The state at the start of a text. -/
def ReadState.initial (language : Language) (chars : List Char) : ReadState ⟨chars⟩ :=
  let size := chars.length
  let first := scanToken language.script size chars 0 {} true
  { language
    size
    rest := first.rest
    pos := first.pos
    token := first.token
    placed := placed_scanToken (.refl chars) ..
    lastStop := 0
    context := { inAsync := !language.script, ambient := language.definition }
    opened := 0
    tokenProblems := first.problems.reverse
    problems := []
    trivia := first.trivia
    notArrow := []
    defaults := []
    trailing := [] }

/-- Reads a whole text, and reports all of its faults. -/
def parse (language : Language) (source : String) : Except (List Problem) Parsed :=
  let chars := source.toList
  match Read.program (16 * (chars.length + 1) + 64) (.initial language chars) with
  | .error p s => .error (s.faults (s.lastProblem p) [])
  | .ok tree s =>
    let repeated := if language.typed then [] else exportProblems tree.children
    match s.faults [] repeated with
    | [] => .ok { tree, comments := s.trivia.comments.reverse }
    | ps => .error ps

end Splice
