/-!
# Trees as values

A node of a `Rose` holds a value and, in order, the nodes below it. Statements about such trees are
proved of lists of nodes at once: the first node, what is below it, and the nodes after it
(`Rose.forestInduction`).
-/

namespace DomSelect

/-- A value with the nodes below it. -/
inductive Rose (α : Type) where
  | node (value : α) (children : List (Rose α))
  deriving Repr, Inhabited

namespace Rose

variable {α : Type} {motive : List (Rose α) → Prop}

mutual

private theorem motive_cons (nil : motive [])
    (cons : ∀ value children rest, motive children → motive rest →
      motive (.node value children :: rest)) : ∀ tree : Rose α,
    ∀ rest, motive rest → motive (tree :: rest)
  | .node value children, rest, hrest =>
    cons value children rest (motive_forest nil cons children) hrest

private theorem motive_forest (nil : motive [])
    (cons : ∀ value children rest, motive children → motive rest →
      motive (.node value children :: rest)) : ∀ forest : List (Rose α), motive forest
  | [] => nil
  | tree :: rest => motive_cons nil cons tree rest (motive_forest nil cons rest)

end

/-- A statement about lists of nodes holds if it passes from what is below the first node and from
the nodes after it to the whole list. -/
@[elab_as_elim]
theorem forestInduction (nil : motive [])
    (cons : ∀ value children rest, motive children → motive rest →
      motive (.node value children :: rest)) (forest : List (Rose α)) : motive forest :=
  motive_forest nil cons forest

end Rose

end DomSelect
