import Splice.Decimal.Double
import Splice.Node.Operator

/-!
# Forms of syntax

A `Form` says which construct a node is and holds what the construct is made of besides other
constructs: names, operators, flags. The parts that are constructs themselves are the node's
children; the comment of each form lists them in order. A part that is left out is a child of form
`absent`, and a sequence of parts of varying length inside a longer list is a child of form
`group`.
-/
namespace Splice

/-- A stretch of template text: as written, and with its escapes decoded when they are valid. -/
structure Quasi where
  raw : String
  cooked : Option String
  /-- The decoded text holds halves of surrogate pairs, in the form of `Form.string`. -/
  surrogates : Bool
deriving DecidableEq, Repr, Inhabited

inductive PropertyKind where
  | init | get | set
deriving DecidableEq, Repr, Inhabited

/-- A property of an object literal. -/
structure PropertyTraits where
  kind : PropertyKind := .init
  method : Bool := false
  shorthand : Bool := false
  computed : Bool := false
deriving DecidableEq, Repr, Inhabited

inductive FunctionRole where
  | expression | declaration | method
deriving DecidableEq, Repr, Inhabited

/-- What is said of a function before its parameters. `pure` marks a function without side
effects. -/
structure FunctionTraits where
  role : FunctionRole := .expression
  async : Bool := false
  generator : Bool := false
  declare : Bool := false
  pure : Bool := false
deriving DecidableEq, Repr, Inhabited

/-- `bare` arrows have an expression for a body; `wrapped` ones stood in parentheses. -/
structure ArrowTraits where
  async : Bool := false
  bare : Bool := false
  pure : Bool := false
  wrapped : Bool := false
deriving DecidableEq, Repr, Inhabited

structure ClassTraits where
  expression : Bool := false
  abstract : Bool := false
  declare : Bool := false
deriving DecidableEq, Repr, Inhabited

inductive Access where
  | isPublic | isPrivate | isProtected
deriving DecidableEq, Repr, Inhabited

def Access.text : Access → String
  | isPublic => "public" | isPrivate => "private" | isProtected => "protected"

inductive MethodKind where
  | constructor | method | get | set
deriving DecidableEq, Repr, Inhabited

/-- What is said of a class member before its key. -/
structure MemberTraits where
  kind : MethodKind := .method
  access : Option Access := none
  isStatic : Bool := false
  abstract : Bool := false
  override : Bool := false
  readonly : Bool := false
  declare : Bool := false
  accessor : Bool := false
  computed : Bool := false
  optional : Bool := false
  definite : Bool := false
deriving DecidableEq, Repr, Inhabited

inductive VariableKind where
  | varKind | letKind | constKind | usingKind | awaitUsing
deriving DecidableEq, Repr, Inhabited

def VariableKind.text : VariableKind → String
  | varKind => "var" | letKind => "let" | constKind => "const" | usingKind => "using"
  | awaitUsing => "await using"

/-- The optional and readonly marks of a mapped type. -/
inductive MappedMark where
  | none | present | plus | minus
deriving DecidableEq, Repr, Inhabited

/-- The name under which a module binding is known: a plain name, or any text in quotes. -/
inductive ModuleName where
  | name (text : String)
  | quoted (text : String) (surrogates : Bool)
deriving DecidableEq, Repr, Inhabited

def ModuleName.text : ModuleName → String
  | name t => t
  | quoted t _ => t

/-- The key of an import attribute. -/
structure ImportAttribute where
  key : ModuleName
  value : String
  surrogates : Bool
deriving DecidableEq, Repr, Inhabited

/-- The attributes clause of an import or a re-export, with its keyword. -/
structure AttributeClause where
  keyword : String
  entries : List ImportAttribute
deriving DecidableEq, Repr, Inhabited

/-- The constructs of the language. -/
inductive Form where
  /-- A part that is not there. -/
  | absent
  /-- Children: any parts. -/
  | group
  -- Expressions
  | identifier (name : String)
  | thisValue
  | superValue
  | nullValue
  | boolean (value : Bool)
  /-- A number, and how it is written in the source. -/
  | number (value : Double) (written : String)
  /-- A whole number of any size, in decimal digits. -/
  | bigint (digits : String)
  | regexp (pattern flags : String)
  /-- In a string with `surrogates`, U+FFFD is followed by the four hexadecimal digits of the
  code unit it stands for. -/
  | string (value : String) (surrogates : Bool)
  /-- Children: the substitutions. -/
  | template (quasis : List Quasi)
  /-- Children: tag, type arguments, substitutions. -/
  | tagged (quasis : List Quasi)
  /-- Children: the elements. -/
  | array
  /-- A missing array element. -/
  | hole
  /-- Children: properties and spreads. -/
  | object
  /-- Child: the spread expression. -/
  | spread
  /-- Children: key, value. -/
  | property (traits : PropertyTraits)
  /-- A name that is not an expression: a key, a binding of a function or class. -/
  | name (text : String)
  | privateName (text : String)
  /-- Children: name, type parameters, this-parameter, parameters, return type, body. -/
  | function (traits : FunctionTraits)
  /-- Children: type parameters, parameters, return type, body. -/
  | arrow (traits : ArrowTraits)
  /-- Children: decorators, name, type parameters, superclass, its type arguments, implemented
  interfaces, members. -/
  | classDef (traits : ClassTraits)
  /-- Child: operand. -/
  | unary (op : UnaryOp)
  /-- Child: target. -/
  | update (op : UpdateOp) (before : Bool)
  /-- Children: left, right. -/
  | binary (op : BinaryOp)
  /-- Children: left, right. -/
  | logical (op : LogicalOp)
  /-- Children: private name, right. -/
  | privateIn
  /-- Children: test, consequent, alternate. -/
  | conditional
  /-- Children: target, value. -/
  | assign (op : AssignOp)
  /-- Children: the expressions. -/
  | sequence
  /-- Child: operand. -/
  | await
  /-- Child: operand or absent. -/
  | yield (delegate : Bool)
  /-- Children: callee, type arguments, arguments. -/
  | call (optional pure : Bool)
  /-- Children: callee, type arguments, arguments. -/
  | new (pure : Bool)
  /-- Child: object. -/
  | member (name : String) (optional : Bool)
  /-- Children: object, index. -/
  | index (optional : Bool)
  /-- Child: object. -/
  | privateMember (name : String) (optional : Bool)
  /-- Child: the outermost link. -/
  | chain
  | metaProperty (target property : String)
  /-- Children: source, options or absent. -/
  | importCall (phase : Option String)
  /-- Child: the expression between the parentheses. -/
  | parens
  -- Typed expressions
  /-- Children: expression, type. -/
  | asType
  /-- Children: expression, type. -/
  | satisfies
  /-- Children: type, expression. -/
  | assertion
  /-- Child: expression. -/
  | nonNull
  /-- Children: expression, type arguments. -/
  | instantiation
  -- Elements
  /-- Children: name, type arguments, attributes, contents, closing name or absent. -/
  | element
  /-- Children: the contents. -/
  | fragment
  | elementName (name : String)
  | elementNamespaced (space name : String)
  /-- Child: the object part of the name. -/
  | elementMember (name : String)
  /-- Children: name, value or absent. -/
  | elementAttribute
  /-- Child: expression. -/
  | attributeSpread
  | attributeText (value : String)
  /-- Child: expression or `emptyContainer`. -/
  | container
  | emptyContainer
  /-- Child: expression. -/
  | contentSpread
  | contentText (value : String)
  -- Patterns
  /-- Children: pattern, type or absent. -/
  | binding (optional : Bool)
  | bindingName (name : String)
  /-- Children: binding properties, then possibly a rest element. -/
  | objectPattern
  /-- Children: elements and holes, then possibly a rest element. -/
  | arrayPattern
  /-- Children: binding, default value. -/
  | defaultPattern
  /-- Children: key, binding. -/
  | bindingProperty (shorthand computed : Bool)
  /-- Child: binding. -/
  | restElement
  -- Assignment targets
  /-- Children: targets and holes, then possibly a rest target. -/
  | arrayTarget
  /-- Children: target properties, then possibly a rest target. -/
  | objectTarget
  /-- Children: target, default value. -/
  | targetDefault
  /-- Children: the name, default value or absent. -/
  | targetShorthand
  /-- Children: key, target. -/
  | targetProperty (computed : Bool)
  /-- Child: target. -/
  | targetRest
  -- Functions and classes
  /-- Children: parameters, then possibly a rest element. -/
  | parameters
  /-- Children: decorators, binding. -/
  | parameter (access : Option Access) (override readonly : Bool)
  /-- Child: type or absent. -/
  | thisParameter
  /-- Children: directives, then statements. -/
  | functionBody
  | directive (raw : String)
  /-- Children: decorators, key, function. -/
  | method (traits : MemberTraits)
  /-- Children: decorators, key, type, value. -/
  | field (traits : MemberTraits)
  /-- Children: statements. -/
  | staticBlock
  /-- Child: expression. -/
  | decorator
  -- Statements
  /-- Children: directives, then statements. -/
  | program (hashbang : Option String) (elements : Bool)
  | block
  | emptyStatement
  | expressionStatement
  /-- Children: the declarators. -/
  | variableDecl (kind : VariableKind) (declare : Bool)
  /-- Children: binding, initial value or absent. -/
  | declarator (definite : Bool)
  /-- Children: test, consequent, alternate or absent. -/
  | ifStatement
  /-- Children: initialiser, test, update, each possibly absent, and the body. -/
  | forStatement
  /-- Children: left, right, body. -/
  | forIn
  /-- Children: left, right, body. -/
  | forOf (await : Bool)
  /-- Children: test, body. -/
  | whileStatement
  /-- Children: body, test. -/
  | doWhile
  /-- Child: value or absent. -/
  | returnStatement
  | throwStatement
  | breakStatement (label : Option String)
  | continueStatement (label : Option String)
  /-- Child: statement. -/
  | labeled (label : String)
  /-- Children: discriminant, cases. -/
  | switch
  /-- Children: test or absent, statements. -/
  | case
  /-- Children: block, handler or absent, finalizer or absent. -/
  | tryStatement
  /-- Children: parameter or absent, block. -/
  | catchClause
  | debugger
  /-- Children: object, body. -/
  | withStatement
  -- Modules
  /-- Children: the specifiers. `braces` tells `import {} from "m"` from `import "m"`. -/
  | importDecl (source : String) (surrogates : Bool) (typeOnly : Bool) (phase : Option String)
      (braces : Bool) (clause : Option AttributeClause)
  | importDefault (name : String)
  | importAll (name : String)
  | importName (imported : ModuleName) (name : String) (typeOnly : Bool)
  /-- Children: declaration or absent, specifiers. -/
  | exportNamed (source : Option (String × Bool)) (typeOnly : Bool) (clause : Option AttributeClause)
  | exportName (inner exported : ModuleName) (typeOnly : Bool)
  | exportAll (exported : Option ModuleName) (source : String) (surrogates : Bool) (typeOnly : Bool)
      (clause : Option AttributeClause)
  /-- Child: declaration or expression. -/
  | exportDefault
  /-- Child: expression. -/
  | exportAssign
  | exportNamespace (name : String)
  /-- Child: a type name, or `externalModule`. -/
  | importEquals (name : String) (typeOnly : Bool)
  | externalModule (source : String) (surrogates : Bool)
  -- Declarations of types
  /-- Children: name, type parameters, extended interfaces, members. -/
  | interface (declare : Bool)
  /-- Children: expression, type arguments. -/
  | heritage
  /-- Children: type name, type arguments. -/
  | implemented
  /-- Children: name, type parameters, type. -/
  | typeAlias (declare : Bool)
  /-- Children: name, members. -/
  | enumDecl (isConst declare : Bool)
  /-- Children: name, initial value or absent. A computed name is a literal in brackets. -/
  | enumMember (computed : Bool)
  /-- A quoted name that is not an expression. -/
  | quotedName (value : String) (surrogates : Bool)
  /-- Children: name; `moduleBlock`, another such declaration for a dotted name, or absent. Only the
  first declaration of a dotted name has a keyword. -/
  | moduleDecl (keyword : String) (declare : Bool)
  /-- Children: directives, then statements. -/
  | moduleBlock
  /-- Child: body. -/
  | globalDecl (declare : Bool)
  -- Types
  /-- Children: type parameters. -/
  | typeParameters
  /-- Children: constraint or absent, default or absent. -/
  | typeParameter (name : String) (isConst isIn isOut : Bool)
  /-- Children: types. -/
  | typeArguments
  | keywordType (text : String)
  | thisType
  /-- Children: name, type arguments. -/
  | typeReference
  | typeName (name : String)
  /-- Child: left part. -/
  | qualifiedName (right : String)
  /-- Children: name or import type, type arguments. -/
  | typeQuery
  /-- A literal that is not an expression: null, boolean, number, string and so on. Child: the
  literal, or the negated number. -/
  | literalType
  /-- Children: types. -/
  | templateType (quasis : List Quasi)
  /-- Child: type. -/
  | arrayType
  /-- Children: element types. -/
  | tupleType
  | optionalType
  | restType
  /-- Child: type. -/
  | namedElement (label : String) (optional : Bool)
  | unionType
  | intersectionType
  /-- Children: checked, extended, true and false types. -/
  | conditionalType
  /-- Child: constraint or absent. -/
  | inferType (name : String)
  /-- Children: type parameters, this-parameter, parameters, return type. -/
  | functionType
  /-- Children: type parameters, parameters, return type. -/
  | constructorType (abstract : Bool)
  /-- Children: members. -/
  | typeLiteral
  /-- Children: constraint, name type or absent, type or absent. -/
  | mappedType (name : String) (optional readonly : MappedMark)
  /-- Children: object, index. -/
  | indexedType
  | typeOperator (keyword : String)
  /-- Children: argument, options or absent, qualifier or absent, type arguments. -/
  | importType
  /-- Child: asserted type or absent. -/
  | typePredicate (name : String) (asserts : Bool)
  | parenthesizedType
  | nullableType (after : Bool)
  | nonNullableType (after : Bool)
  | unknownType
  -- Members of interfaces and type literals
  /-- Children: key, type or absent. -/
  | propertySignature (computed optional readonly : Bool)
  /-- Children: key, type parameters, this-parameter, parameters, return type. -/
  | methodSignature (kind : MethodKind) (computed optional : Bool)
  /-- Children: type parameters, this-parameter, parameters, return type. -/
  | callSignature
  /-- Children: type parameters, parameters, return type. -/
  | constructSignature
  /-- Children: the type of the index, the type of the value. -/
  | indexSignature (name : String) (readonly isStatic : Bool)
deriving Inhabited

end Splice
