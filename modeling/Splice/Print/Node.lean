import Splice.Print.Element
import Splice.Print.Module

/-!
# Printing trees

`Form.emit` picks the rule for a construct and `Node.piece` ties the rules together. `Node.print`
prints a whole program with its comments, and `Node.render` a single expression without any.
-/
namespace Splice

open Emit in
/-- Prints a construct, given the pieces of its parts. -/
def Form.emit (form : Form) (span : Span) (parts : List Piece) (spot : Spot) : Emit :=
  let part (i : Nat) : Piece := parts.getD i .absent
  match form with
  | .absent | .hole => pure ()
  | .group => parts.forM Piece.plain
  -- Expressions
  | .identifier w | .name w => word w
  | .thisValue => word "this"
  | .superValue => word "super"
  | .nullValue => word "null"
  | .boolean b => word (if b then "true" else "false")
  | .number d written =>
    if spot.verbatim && !written.isEmpty then text written else Emit.number d spot
  | .bigint digits => do
    word digits
    char 'n'
  | .regexp p f => Print.regexp p f
  | .string v s => quoted v s true
  | .template qs => Print.template qs parts
  | .tagged qs => do
    (part 0).emit (.of .update)
    (part 1).plain
    Print.template qs (part 2).parts
  | .array => Print.array parts
  | .object => Print.objectLiteral span.start parts spot
  | .spread => Print.spread (part 0)
  | .property t => Print.objectMember t (part 0) (part 1) spot
  | .privateName w => do
    char '#'
    text w
  | .function t => Print.function t parts spot
  | .arrow t => Print.arrow t parts spot
  | .classDef t => Print.classDef t parts spot
  | .unary op => Print.unary op (part 0) spot
  | .update op before => Print.update op before (part 0) spot
  | .binary op => Print.binary op (part 0) (part 1) spot
  | .logical op => Print.logical op (part 0) (part 1) spot
  | .privateIn => Print.privateIn (part 0) (part 1) spot
  | .conditional => Print.conditional (part 0) (part 1) (part 2) spot
  | .assign op => Print.assign op (part 0) (part 1) spot
  | .sequence => Print.sequence parts spot
  | .await => Print.awaitExpression (part 0) spot
  | .yield d => Print.yieldExpression d (part 0) spot
  | .call o pure => Print.call o pure span (part 0) (part 1) (part 2).parts spot
  | .new pure => Print.construct pure span (part 0) (part 2).parts spot
  | .member w o => Print.member w o (part 0) spot
  | .index o => Print.index o (part 0) (part 1) spot
  | .privateMember w o => Print.privateMember w o (part 0) spot
  | .chain => wrap (spot.strength.atLeast .update) ((part 0).emit spot)
  | .metaProperty t p => do
    word t
    char '.'
    text p
  | .importCall phase => Print.importCall phase span (part 0) (part 1) spot
  | .parens => (part 0).emit spot
  | .asType => Print.asType (part 0) (part 1) spot
  | .satisfies => Print.satisfies (part 0) (part 1) spot
  | .assertion => Print.assertion (part 0) (part 1) spot
  | .nonNull => Print.nonNull (part 0) spot
  | .instantiation => Print.instantiation (part 0) (part 1) spot
  -- Elements
  | .element => Print.element parts
  | .fragment => Print.fragment parts
  | .elementName w => text w
  | .elementNamespaced n w => text (n ++ ":" ++ w)
  | .elementMember w => do
    (part 0).plain
    char '.'
    text w
  | .elementAttribute => Print.elementAttribute (part 0) (part 1)
  | .attributeSpread => Print.spreadContainer (part 0)
  | .attributeText v => Print.attributeText v
  | .container => Print.container (part 0)
  | .emptyContainer => commentsAt span.stop
  | .contentSpread => Print.spreadContainer (part 0)
  | .contentText v => text v
  -- Patterns
  | .binding o => Print.binding o (part 0) (part 1)
  | .bindingName w => word w
  | .objectPattern => Print.objectPattern parts
  | .arrayPattern => Print.arrayPattern parts
  | .defaultPattern => Print.withDefault (part 0) (part 1)
  | .bindingProperty _ computed => Print.bindingProperty computed (part 0) (part 1)
  | .restElement => Print.rest (part 0)
  | .arrayTarget => Print.arrayPattern parts
  | .objectTarget => Print.objectTarget parts
  | .targetDefault => Print.withDefault (part 0) (part 1)
  | .targetShorthand => Print.targetShorthand (part 0) (part 1)
  | .targetProperty computed => Print.targetProperty computed (part 0) (part 1)
  | .targetRest => Print.rest (part 0)
  -- Functions and classes
  | .parameters => list Piece.plain parts
  | .parameter a o r => Print.parameter a o r (part 0).parts (part 1)
  | .thisParameter => Print.thisParameter (part 0)
  | .functionBody => Print.functionBody span parts spot
  | .directive raw => Print.directive raw
  | .method t => Print.method t (part 0).parts (part 1) (part 2) spot
  | .field t => Print.field t (part 0).parts (part 1) (part 2) (part 3)
  | .staticBlock => do
    word "static"
    softSpace
    Print.block parts spot
  | .decorator => Print.decorator (part 0)
  -- Statements
  | .program hashbang elements => do
    modify fun o => { o with elements }
    commentsAt 0
    match hashbang with
    | some line => do
      char '#'
      text line
      newline
    | none => pure ()
    Print.directivesAndStatements parts spot
    owedSemicolon
    commentsAt span.stop
  | .block => Print.block parts spot
  | .emptyStatement => do
    semicolon
    softNewline
  | .expressionStatement => Print.expressionStatement (part 0)
  | .variableDecl k d => Print.variableList k d parts spot
  | .declarator d => Print.declarator d (part 0) (part 1) spot
  | .ifStatement => Print.ifStatement (part 0) (part 1) (part 2) spot
  | .forStatement => Print.forStatement (part 0) (part 1) (part 2) (part 3) spot
  | .forIn => Print.forIn (part 0) (part 1) (part 2) spot
  | .forOf a => Print.forOf a (part 0) (part 1) (part 2) spot
  | .whileStatement => Print.whileStatement (part 0) (part 1) spot
  | .doWhile => Print.doWhile (part 0) (part 1) spot
  | .returnStatement => Print.keywordStatement "return" (part 0)
  | .throwStatement => Print.keywordStatement "throw" (part 0)
  | .breakStatement l => Print.jump "break" l
  | .continueStatement l => Print.jump "continue" l
  | .labeled l => Print.labeled l (part 0) spot
  | .switch => Print.switchStatement (part 0) (parts.drop 1) spot
  | .case => Print.caseClause (part 0) (parts.drop 1) spot
  | .tryStatement => Print.tryStatement (part 0) (part 1) (part 2) spot
  | .catchClause => Print.catchClause span.start (part 0) (part 1) spot
  | .debugger => word "debugger"
  | .withStatement => Print.withStatement (part 0) (part 1) spot
  -- Modules
  | .importDecl source s t phase names clause =>
    Print.importDecl source s t phase names clause parts
  | .importDefault w => text w
  | .importAll w => text w
  | .importName m w t => Print.importName m w t
  | .exportNamed source t _ => Print.exportNamed source t (part 0) (part 1).parts spot
  | .exportName a b t => Print.exportName a b t
  | .exportAll m source s t clause => Print.exportAll m source s t clause
  | .exportDefault => Print.exportDefault (part 0) spot
  | .exportAssign => do
    text "export = "
    (part 0).plain
  | .exportNamespace w => do
    text "export as namespace "
    text w
  | .importEquals w t => Print.importEquals w t (part 0)
  | .externalModule source s => Print.externalModule source s
  -- Declarations of types
  | .interface _ => Print.interface (part 0) (part 1) (part 2).parts (part 3).parts
  | .heritage => Print.heritage (part 0) (part 1)
  | .implemented => do
    (part 0).plain
    (part 1).plain
  | .typeAlias d => Print.typeAlias d (part 0) (part 1) (part 2)
  | .enumDecl c d => Print.enumDecl c d (part 0) (part 1).parts spot
  | .enumMember computed => Print.enumMember computed (part 0) (part 1) spot
  | .quotedName v s => quoted v s false
  | .moduleDecl k d => Print.moduleDecl k d (part 0) (part 1) spot
  | .moduleBlock => Print.moduleBlock parts spot
  | .globalDecl d => Print.globalDecl d (part 0) spot
  -- Types
  | .typeParameters => Print.typeParameters parts
  | .typeParameter w c i o => Print.typeParameter w c i o (part 0) (part 1)
  | .typeArguments => Print.typeArguments parts
  | .keywordType t => text t
  | .thisType => text "this"
  | .typeReference => do
    (part 0).plain
    (part 1).plain
  | .typeName w => text w
  | .qualifiedName w => do
    (part 0).plain
    char '.'
    text w
  | .typeQuery => Print.typeQuery (part 0) (part 1)
  | .literalType => (part 0).emit { verbatim := true }
  | .templateType qs => Print.templateType qs parts
  | .arrayType => do
    (part 0).plain
    text "[]"
  | .tupleType => do
    char '['
    list Piece.plain parts
    char ']'
  | .optionalType => do
    (part 0).plain
    char '?'
  | .restType => do
    text "..."
    (part 0).plain
  | .namedElement l o => Print.namedElement l o (part 0)
  | .unionType => Print.joined "|" parts
  | .intersectionType => Print.joined "&" parts
  | .conditionalType => Print.conditionalType parts
  | .inferType w => Print.inferType w (part 0)
  | .functionType => Print.functionType (part 0) (part 1) (part 2) (part 3)
  | .constructorType a => Print.constructorType a (part 0) (part 1) (part 2)
  | .typeLiteral => Print.typeMembers parts { verbatim := true }
  | .mappedType w o r => Print.mappedType w o r (part 0) (part 1) (part 2)
  | .indexedType => Print.indexedType (part 0) (part 1)
  | .typeOperator k => do
    text k
    space
    (part 0).plain
  | .importType => Print.importType (part 0) (part 1) (part 2) (part 3)
  | .typePredicate w a => Print.typePredicate w a (part 0)
  | .parenthesizedType => wrap true (part 0).plain
  | .nullableType after => do
    if !after then char '?'
    (part 0).plain
    if after then char '?'
  | .nonNullableType after => do
    if !after then char '!'
    (part 0).plain
    if after then char '!'
  | .unknownType => char '?'
  | .propertySignature c o r => Print.propertySignature c o r (part 0) (part 1) spot
  | .methodSignature k c o => Print.methodSignature k c o parts spot
  | .callSignature => Print.signature (part 0) (part 1) (part 2) (part 3)
  | .constructSignature => Print.constructSignature (part 0) (part 1) (part 2)
  | .indexSignature w r _ => Print.indexSignature w r (part 0) (part 1)

mutual

/-- A tree as a piece that can be printed. -/
def Node.piece : Node → Piece
  | .mk form place spans cs =>
    let parts := Node.pieces cs
    .mk (.mk form place spans cs) (form.emit spans.own parts) parts

def Node.pieces : List Node → List Piece
  | [] => []
  | c :: cs => Node.piece c :: Node.pieces cs

end

/-- The text that a printer leaves behind. -/
def Emit.result (e : Emit) (o : Out) : String := String.ofList (e.run o).2.text.reverse

/-- Comments that are printed where they lead: marks are printed with what they mark. -/
def printedComments (cs : List Comment) : List Comment :=
  cs.filter fun c => c.leads.isSome && c.content != .pure && c.content != .inert

/-- Prints a program. -/
def Node.print (n : Node) (comments : List Comment) (minify : Bool) : String :=
  n.piece.plain.result { minify, comments := printedComments comments }

/-- Prints an expression alone, as if it began a statement. -/
def Node.render (n : Node) : String := n.piece.plain.result { marks := false }

end Splice
