import Splice.Node.Form

/-!
# What a walk reaches

A walk goes through a construct by its kind. It reaches the span of the construct, the spans of the
pieces that the form holds, and the parts; how many of each there are is said here for every kind. A
piece or a part that is not counted is one that the walk passes over.
-/
namespace Splice

namespace Form

/-- The number of pieces of a clause of attributes: the clause and its keyword, and for each entry the
entry, its key and its value. -/
def clausePieces : Option AttributeClause → Nat
  | none => 0
  | some c => 3 * c.entries.length + 2

/-- The number of parts of a construct, unless it is a sequence of any length. -/
def arity : Form → Option Nat
  | absent | hole | identifier _ | thisValue | superValue | nullValue | boolean _ | number _ _
  | bigint _ | regexp _ _ | string _ _ | name _ | privateName _ | metaProperty _ _ | elementName _
  | elementNamespaced _ _ | attributeText _ | emptyContainer | contentText _ | bindingName _
  | directive _ | emptyStatement | breakStatement _ | continueStatement _ | debugger
  | importDefault _ | importAll _ | importName _ _ _ | exportName _ _ _ | exportAll _ _ _ _ _
  | exportNamespace _ | externalModule _ _ | quotedName _ _ | keywordType _ | thisType | typeName _
  | unknownType => some 0
  | spread | unary _ | update _ _ | await | yield _ | member _ _ | privateMember _ _ | chain | parens
  | nonNull | elementMember _ | attributeSpread | container | contentSpread | restElement | targetRest
  | thisParameter | decorator | expressionStatement | returnStatement | throwStatement | labeled _
  | exportDefault | exportAssign | importEquals _ _ | globalDecl _ | qualifiedName _ | literalType
  | arrayType | optionalType | restType | namedElement _ _ | inferType _ | typeOperator _
  | typePredicate _ _ | parenthesizedType | nullableType _ | nonNullableType _ => some 1
  | property _ | binary _ | logical _ | privateIn | assign _ | index _ | importCall _ | asType
  | satisfies | assertion | instantiation | elementAttribute | binding _ | defaultPattern
  | bindingProperty _ _ | targetDefault | targetShorthand | targetProperty _ | parameter _ _ _
  | declarator _ | whileStatement | doWhile | catchClause | withStatement | exportNamed _ _ _
  | heritage | implemented | enumDecl _ _ | enumMember _ | moduleDecl _ _ | typeParameter _ _ _ _
  | typeReference | typeQuery | indexedType | propertySignature _ _ _ | indexSignature _ _ _ => some 2
  | tagged _ | conditional | call _ _ | new _ | method _ | ifStatement | forIn | forOf _ | tryStatement
  | typeAlias _ | constructorType _ | mappedType _ _ _ | constructSignature => some 3
  | arrow _ | field _ | forStatement | interface _ | conditionalType | functionType | importType
  | callSignature => some 4
  | element | methodSignature _ _ _ => some 5
  | function _ => some 6
  | classDef _ => some 7
  | group | template _ | array | object | sequence | fragment | objectPattern | arrayPattern
  | arrayTarget | objectTarget | parameters | functionBody | staticBlock | program _ _ | block
  | variableDecl _ _ | switch | case | importDecl _ _ _ _ _ _ | moduleBlock | typeParameters
  | typeArguments | templateType _ | tupleType | unionType | intersectionType | typeLiteral => none

/-- The number of pieces that a construct always has. Names, labels, sources and the texts of a
template are pieces of their own; a template after a tag, the braces around the members of a
declaration and the tags of an element are so, too, and so are the body and the statement that the
expression after an arrow stands for. -/
def pieces : Form → Nat
  | member _ _ | privateMember _ _ | labeled _ | classDef _ | elementMember _ | qualifiedName _
  | namedElement _ _ | typeParameter _ _ _ _ | thisParameter | typePredicate _ _ | directive _
  | importDefault _ | importAll _ | exportNamespace _ | importEquals _ _ | externalModule _ _
  | interface _ | enumDecl _ _ | globalDecl _ | functionType | constructorType _ | element => 1
  | metaProperty _ _ | elementNamespaced _ _ | fragment | inferType _ | mappedType _ _ _
  | importName _ _ _ | exportName _ _ _ | indexSignature _ _ _ => 2
  | template qs | templateType qs => qs.length
  | tagged qs => qs.length + 1
  | arrow t => if t.bare then 2 else 0
  | breakStatement label | continueStatement label => label.toList.length
  | program hashbang _ => hashbang.toList.length
  | importDecl _ _ _ _ _ clause => clausePieces clause + 1
  | exportNamed source _ clause => clausePieces clause + source.toList.length
  | exportAll exported _ _ _ clause => clausePieces clause + 1 + exported.toList.length
  | _ => 0

/-- The number of pieces that a construct may have besides: the colon and the type after it, the
closing tag of an element, the parameter of a handler. -/
def sparePieces : Form → Nat
  | function _ | arrow _ | binding _ | field _ | thisParameter | typePredicate _ _
  | propertySignature _ _ _ | methodSignature _ _ _ | callSignature | constructSignature
  | indexSignature _ _ _ | element | catchClause => 1
  | _ => 0

/-- The number of spans of pieces that a walk reaches. -/
def reachedPieces (form : Form) : Nat := form.pieces + form.sparePieces

end Form

end Splice
