import Splice.Proofs.Grammar.Binding

/-!
# Elements are grammatical
-/
namespace Splice

open Std.Do

set_option mvcgen.warning false

variable {input : Source}

namespace Read

attribute [local simp] Form.Takes Form.Asks Form.assigned Form.Agrees Form.isExpression Form.isAtom
  Form.isOpen Form.isMarked Form.Complete Form.arity Form.pieces Form.sparePieces

variable {go : Descend} [go.Sound]

/-! ## Names -/

@[spec] theorem elementName_spec : Yields elementName Node.Grammatical := by
  mvcgen [elementName, iterate_node_spec]
  all_goals simp_all

@[spec] theorem attributeName_spec : Yields attributeName Node.Grammatical := by
  mvcgen [attributeName]
  all_goals simp_all

/-! ## Attributes and containers -/

@[spec] theorem containedExpression_spec : Yields (containedExpression go) Node.IsExpression := by
  mvcgen [containedExpression]

@[spec] theorem container_spec {inside : Bool} : Yields (container go inside) Node.Grammatical := by
  mvcgen [container]
  all_goals simp_all +zetaDelta

@[spec] theorem attributeValue_spec : Yields (attributeValue go) Node.Grammatical := by
  mvcgen [attributeValue]
  all_goals simp_all [Node.Grammatical.withPlace]

@[spec] theorem elementAttribute_spec : Yields (elementAttribute go) Node.Grammatical := by
  mvcgen [elementAttribute]
  all_goals simp_all

@[spec] theorem elementAttributes_spec :
    Yields (elementAttributes go) fun ns => ∀ n ∈ ns, n.Grammatical := by
  mvcgen [elementAttributes, iterate_nodes_spec]
  all_goals simp_all

/-! ## Contents -/

@[spec] theorem contents_spec : Yields (contents go) fun ns => ∀ n ∈ ns, n.Grammatical := by
  mvcgen [contents, iterate_nodes_spec]
  all_goals simp_all [Node.Grammatical.withPlace]

@[spec] theorem closingTag_spec {inside : Bool} : Yields (closingTag inside) Node.Grammatical := by
  mvcgen [closingTag]
  all_goals simp_all

theorem element_spec {inside : Bool} : Yields (element go inside) Node.IsExpression := by
  mvcgen [element]
  all_goals simp_all [Node.grammatical_ite]

end Read

end Splice
