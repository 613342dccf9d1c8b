import DomSelect.Selector.Term
import DomSelect.Text.Occurs
import DomSelect.Tree.Basic

/-!
# Matching a term

An id term asks for an `id` attribute with exactly its value. Any other term asks for its tag, if
it has one, and for a `class` attribute in which its class occurs, if it has one. One attribute of
several with the same name is enough. Only elements match.
-/

namespace DomSelect.Term

/-- Whether an element meets a term. -/
def matchesElement (term : Term) (element : Element) : Bool :=
  match term.id? with
  | some value => (element.valuesOf "id").contains value
  | none =>
    (match term.tag? with
      | some tag => tag == element.tag
      | none => true) &&
    (match term.class? with
      | some value => (element.valuesOf "class").any fun text => occursIn value.toList text.toList
      | none => true)

/-- Whether a node of a tree is an element that meets a term. -/
def matchesNode (term : Term) (tree : Tree) (id : NodeId) : Bool :=
  (tree.element? id).any term.matchesElement

end DomSelect.Term
