import Splice.Proofs.Grammar.Binding

/-!
# Types are grammatical
-/
namespace Splice

open Std.Do

set_option mvcgen.warning false

variable {input : Source}

namespace Read

attribute [local simp] Form.Takes Form.Asks Form.assigned Form.Agrees Form.isExpression Form.isAtom
  Form.isOpen Form.isMarked Form.Complete Form.arity Form.pieces Form.sparePieces

variable {go : Descend} [go.Sound]

/-! ## Names and functions -/

@[spec] theorem typeName_spec : Yields typeName Node.Grammatical := by
  mvcgen [typeName, iterate_node_spec]
  all_goals simp_all

@[spec] theorem sameLineTypeArguments_spec : Yields (sameLineTypeArguments go) Node.Grammatical := by
  mvcgen [sameLineTypeArguments]
  all_goals simp_all

@[spec] theorem typeReference_spec : Yields (typeReference go) Node.Grammatical := by
  mvcgen [typeReference]
  all_goals simp_all

@[spec] theorem functionType_spec : Yields (functionType go) Node.Grammatical := by
  mvcgen [functionType, arrowResult]
  all_goals simp_all

/-! ## Members -/

@[spec] theorem indexSignature_spec {s : Nat} {ms : List String} :
    Yields (indexSignature go s ms) Node.Grammatical := by
  mvcgen [indexSignature]
  all_goals simp_all

/-- All parts of a signature are grammatical. -/
structure Signature.Grammatical (g : Signature) : Prop where
  typeParameters : g.typeParameters.Grammatical
  this : g.this.Grammatical
  parameters : g.parameters.Grammatical
  result : g.result.Grammatical
  colon : g.colon.length ≤ 1

attribute [local simp] Signature.Grammatical.typeParameters Signature.Grammatical.this
  Signature.Grammatical.parameters Signature.Grammatical.result Signature.Grammatical.colon

@[spec] theorem signature_spec : Yields (signature go) Signature.Grammatical := by
  mvcgen [signature]
  all_goals constructor <;> simp_all

@[spec] theorem methodSignature_spec {s : Nat} {k : MethodKind} {key : Node}
    {computed optional : Bool} (grammatical : key.Grammatical) :
    Yields (methodSignature go s k key computed optional) Node.Grammatical := by
  mvcgen [methodSignature]
  all_goals simp_all

@[spec] theorem accessorSignature_spec {s : Nat} {k : MethodKind} :
    Yields (accessorSignature go s k) Node.Grammatical := by
  mvcgen [accessorSignature]
  all_goals simp_all

@[spec] theorem typeMember_spec : Yields (typeMember go) Node.Grammatical := by
  mvcgen +jp [typeMember]
  all_goals simp_all

@[spec] theorem typeMembers_spec : Yields (typeMembers go) fun ns => ∀ n ∈ ns, n.Grammatical := by
  have members := @untilMark_spec _ _ _ .rbrace _ (@typeMember_spec _ go _)
  mvcgen [typeMembers, members]

@[spec] theorem typeLiteral_spec : Yields (typeLiteral go) Node.Grammatical := by
  mvcgen [typeLiteral]
  all_goals simp_all

@[spec] theorem mappedMark_spec {isMark : Read Bool} : Yields (mappedMark isMark) fun _ => True :=
  any _

@[spec] theorem mappedType_spec : Yields (mappedType go) Node.Grammatical := by
  mvcgen [mappedType]
  all_goals simp_all

/-! ## Tuples -/

@[spec] theorem tupleElement_spec : Yields (tupleElement go) Node.Grammatical := by
  mvcgen [tupleElement]
  all_goals simp_all
  have nullable := Node.Grammatical.complete ‹_›
  exact Node.Grammatical.withForm ‹_› (by simp_all) trivial (.of_none rfl trivial) (by simp_all)

@[spec] theorem tupleType_spec : Yields (tupleType go) Node.Grammatical := by
  have elements := @separated_spec _ _ _ .rbracket .comma _ (@tupleElement_spec _ go _)
  mvcgen [tupleType, elements]
  all_goals simp_all

/-! ## Literals and templates -/

@[spec] theorem literalType_spec : Yields literalType Node.Grammatical := by
  mvcgen [literalType]
  all_goals simp_all +zetaDelta

@[spec] theorem negativeType_spec : Yields negativeType Node.Grammatical := by
  mvcgen [negativeType]
  all_goals simp_all +zetaDelta

theorem templatePieces_spec {substitution : Read Node} {checked : Bool}
    (yields : Yields substitution Node.Grammatical) :
    Yields (templatePieces substitution checked) fun r => ∀ n ∈ r.2, n.Grammatical := by
  have loop := @iterate_spec input (List (Quasi × Span) × List Node) fun r =>
    ∀ n ∈ r.2, n.Grammatical
  mvcgen [templatePieces, loop, yields]
  all_goals
    clear loop
    simp_all

@[spec] theorem templateType_spec : Yields (templateType go) Node.Grammatical := by
  have pieces := @templatePieces_spec _ _ false (@Descend.Sound.type _ go _)
  mvcgen [templateType, pieces]
  all_goals simp_all

/-! ## Other types -/

@[spec] theorem importType_spec : Yields (importType go) Node.Grammatical := by
  mvcgen [importType]
  all_goals simp_all

@[spec] theorem typeQuery_spec : Yields (typeQuery go) Node.Grammatical := by
  mvcgen [typeQuery]
  all_goals simp_all

@[spec] theorem assertsPredicate_spec : Yields (assertsPredicate go) Node.Grammatical := by
  mvcgen [assertsPredicate]
  all_goals simp_all

@[spec] theorem primaryType_spec : Yields (primaryType go) Node.Grammatical := by
  mvcgen [primaryType]
  all_goals simp_all

@[spec] theorem arrayType_spec : Yields (arrayType go) Node.Grammatical := by
  mvcgen [arrayType, iterate_node_spec]
  all_goals simp_all

@[spec] theorem inferConstraint_spec : Yields (inferConstraint go) Node.Grammatical := by
  have constraint := @attemptSome_spec input _ Node.Grammatical
  mvcgen [inferConstraint, constraint]
  case vc4.post.success bound => exact Node.grammatical_getD bound
  all_goals simp_all

@[spec] theorem typeOperator_spec : Yields (typeOperator go) Node.Grammatical := by
  mvcgen [typeOperator]
  all_goals simp_all

theorem joinedType_spec {mark : Punct} {form : Form} {item : Read Node}
    (yields : Yields item Node.Grammatical) (takes : ∀ ns, form.Takes ns)
    (asks : ∀ ns, form.Asks ns) (complete : ∀ span ns, form.Complete ⟨span, []⟩ ns) :
    Yields (joinedType mark form item) Node.Grammatical := by
  mvcgen [joinedType, iterate_nodes_spec, yields]
  all_goals simp_all [-Form.Takes, -Form.Asks, -Form.Complete]

theorem unionType_spec : Yields (unionType go) Node.Grammatical :=
  joinedType_spec
    (joinedType_spec typeOperator_spec (fun _ => trivial) (fun _ => .of_none rfl trivial)
      fun _ _ => by simp)
    (fun _ => trivial) (fun _ => .of_none rfl trivial) fun _ _ => by simp

theorem type_spec : Yields (type go) Node.Grammatical := by
  mvcgen [type]
  all_goals simp_all

end Read

end Splice
