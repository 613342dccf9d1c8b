import DomSelect.Selector.Term

/-!
# Chains

A chain is the list of terms of a selector. A node matches the whole chain if it matches the last
term and lies below matches of the terms before it.
-/

namespace DomSelect

/-- The terms of a selector, first to last. -/
structure Chain where
  terms : List Term
  deriving DecidableEq, Repr, Inhabited

namespace Chain

/-- The chain without terms. -/
def empty : Chain := ⟨[]⟩

/-- Number of terms. -/
def length (chain : Chain) : Nat := chain.terms.length

/-- Whether there are no terms. -/
def isEmpty (chain : Chain) : Bool := chain.terms.isEmpty

/-- The written form of a chain: its terms, one space between two of them. -/
def render (chain : Chain) : String := " ".intercalate (chain.terms.map Term.render)

end Chain

end DomSelect
