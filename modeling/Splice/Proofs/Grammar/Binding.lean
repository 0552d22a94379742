import Splice.Proofs.Grammar.State

/-!
# Bindings and parameters are grammatical
-/
namespace Splice

open Std.Do

set_option mvcgen.warning false

variable {input : Source}

namespace Read

attribute [local simp] Form.Takes Form.Asks Form.assigned Form.Agrees Form.isExpression Form.isAtom
  Form.isOpen Form.isMarked Form.Complete Form.arity Form.pieces Form.sparePieces

variable {go : Descend} [go.Sound]

/-! ## Names and keys -/

@[spec] theorem declaredName_spec : Yields declaredName Node.Grammatical := by
  mvcgen [declaredName]
  all_goals simp_all

theorem nameWord?_tidy {k : TokenKind} {w : String} (tidy : k.Tidy) (name : nameWord? k = some w) :
    '.' ∉ w.toList := by
  cases k with
  | word v =>
    obtain ⟨-, rfl⟩ : ¬ isReservedWord v = true ∧ v = w := by simpa [nameWord?] using name
    exact tidy
  | _ => cases name

@[spec] theorem identifier_spec : Yields identifier Node.IsExpression := by
  mvcgen [identifier]
  · simpa using nameWord?_tidy ‹_› ‹_›
  · simp

attribute [spec] numberForm

@[spec] theorem computedKey_spec : Yields (computedKey go) Node.IsExpression := by
  mvcgen [computedKey]

@[spec] theorem literalKey_spec : Yields literalKey Node.IsExpression := by
  mvcgen [literalKey]
  all_goals simp_all

@[spec] theorem propertyKey_spec : Yields (propertyKey go) fun k => k.1.Grammatical := by
  mvcgen [propertyKey]
  all_goals simp_all

/-! ## Types after a colon -/

@[spec] theorem typeMark_spec :
    Yields (typeMark go) fun r => r.1.Grammatical ∧ r.2.length ≤ 1 := by
  mvcgen [typeMark]
  all_goals simp_all

@[spec] theorem predicateName_spec : Yields predicateName fun _ => True := any _

@[spec] theorem typeOrPredicate_spec : Yields (typeOrPredicate go) Node.Grammatical := by
  mvcgen [typeOrPredicate]
  all_goals simp_all

@[spec] theorem resultMark_spec :
    Yields (resultMark go) fun r => r.1.Grammatical ∧ r.2.length ≤ 1 := by
  mvcgen [resultMark]
  all_goals simp_all

/-! ## Patterns -/

@[spec] theorem withDefault_spec {s : Nat} {pattern : Node} (grammatical : pattern.Grammatical) :
    Yields (withDefault go s pattern) Node.Grammatical := by
  mvcgen [withDefault]
  all_goals simp_all

@[spec] theorem typedPattern_spec {omissible : Bool} :
    Yields (typedPattern go omissible) Node.Grammatical := by
  mvcgen [typedPattern]
  all_goals simp_all

@[spec] theorem patternWithDefault_spec : Yields (patternWithDefault go) Node.Grammatical := by
  mvcgen [patternWithDefault]
  all_goals simp_all

@[spec] theorem restElement_spec : Yields (restElement go) Node.Grammatical := by
  mvcgen [restElement]
  all_goals simp_all

/-- The elements of a pattern so far, and its rest element. -/
def Elements (r : List Node × Option Node × Bool) : Prop :=
  (∀ n ∈ r.1, n.Grammatical) ∧ ∀ n ∈ r.2.1, n.Grammatical

theorem nextElement_spec {close : Punct} {last : Problem} {element : Read Node}
    (yields : Yields element Node.Grammatical) {acc : List Node} {rest : Option Node} {first : Bool}
    (elements : Elements (acc, rest, first)) :
    Yields (nextElement go close last element acc rest first) (Step.All Elements) := by
  mvcgen +jp [nextElement, yields]
  all_goals simp_all [Elements]

theorem elementsWithRest_spec {close : Punct} {last : Problem} {element : Read Node}
    (yields : Yields element Node.Grammatical) :
    Yields (elementsWithRest go close last element) fun ns => ∀ n ∈ ns, n.Grammatical := by
  have next := @nextElement_spec _ go _ close last _ yields
  have loop := @iterate_spec input _ Elements
  mvcgen [elementsWithRest, loop, next]
  case vc1.start => simp [Elements]
  case vc2 elements => exact fun _ => elements
  case vc3.post.success elements =>
    obtain ⟨items, rest⟩ := elements
    simp only [List.mem_append, List.mem_reverse, Option.mem_toList]
    rintro n (inside | last)
    · exact items n inside
    · exact rest n last

@[spec] theorem bindingProperty_spec : Yields (bindingProperty go) Node.Grammatical := by
  mvcgen [bindingProperty]
  all_goals simp_all +zetaDelta

@[spec] theorem objectPattern_spec : Yields (objectPattern go) Node.Grammatical := by
  have elements := @elementsWithRest_spec _ go _ .rbrace .patternRestNotLast _ (@bindingProperty_spec _ go _)
  mvcgen [objectPattern, elements]
  all_goals simp_all

@[spec] theorem arrayPattern_spec : Yields (arrayPattern go) Node.Grammatical := by
  have elements := @elementsWithRest_spec _ go _ .rbracket .patternRestNotLast
  mvcgen [arrayPattern, elements]
  all_goals simp_all

theorem pattern_spec : Yields (pattern go) Node.Grammatical := by
  mvcgen [pattern, bindingPatternName]
  all_goals simp_all

/-! ## Parameters -/

@[spec] theorem decorators_spec : Yields (decorators go) fun ns => ∀ n ∈ ns, n.Grammatical := by
  mvcgen [decorators, nextDecorator, iterate_nodes_spec]
  all_goals simp_all

@[spec] theorem parameter_spec {decorated : Bool} :
    Yields (parameter go decorated) Node.Grammatical := by
  mvcgen +jp [parameter]
  all_goals simp_all

@[spec] theorem thisParameter_spec : Yields (thisParameter go) Node.Grammatical := by
  mvcgen [thisParameter]
  all_goals simp_all

@[spec] theorem parameters_spec {decorated : Bool} :
    Yields (parameters go decorated) fun ps => ps.1.Grammatical ∧ ps.2.Grammatical := by
  have elements := @elementsWithRest_spec _ go _ .rparen .restNotLast _ (@parameter_spec _ go _ decorated)
  mvcgen [parameters, elements]
  all_goals simp_all

/-! ## Type parameters and arguments -/

@[spec] theorem typeParameter_spec : Yields (typeParameter go) Node.Grammatical := by
  mvcgen [typeParameter]
  all_goals simp_all

@[spec] theorem typeParameters_spec : Yields (typeParameters go) Node.Grammatical := by
  have items := @separated_spec _ _ _ .gt .comma _ (@typeParameter_spec _ go _)
  mvcgen [typeParameters, items]
  all_goals simp_all

@[spec] theorem typeArguments_spec : Yields (typeArguments go) Node.Grammatical := by
  have items := @separated_spec _ _ _ .gt .comma _ (@Descend.Sound.type _ go _)
  mvcgen [typeArguments, items]
  all_goals simp_all

end Read

end Splice
