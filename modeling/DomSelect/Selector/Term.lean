/-!
# Terms

A term is one position of a selector: the criteria that an element has to meet there. An id that
is not empty decides alone; otherwise the tag and a class count. Absent and empty criteria are
unset.
-/

namespace DomSelect

/-- The criteria of one position in a chain. -/
structure Term where
  id : Option String
  /-- The tag; `*` stands for any tag. -/
  elementName : Option String
  /-- A text that must occur in a `class` attribute. -/
  className : Option String
  deriving DecidableEq, Repr, Inhabited

namespace Term

/-- The name that stands for any tag. -/
def anyName : String := "*"

/-- The term `#value`. -/
def byId (value : String) : Term := ⟨some value, none, none⟩

/-- The term `name`. -/
def ofName (name : String) : Term := ⟨none, some name, none⟩

/-- The term `*`. -/
def wildcard : Term := ofName anyName

/-- The same term with a class. -/
def withClass (term : Term) (value : String) : Term := { term with className := some value }

/-- A criterion that is present and not empty. -/
def setText? (criterion : Option String) : Option String := criterion.filter (· != "")

/-- The id, if it is set. -/
def id? (term : Term) : Option String := setText? term.id

/-- The class, if it is set. -/
def class? (term : Term) : Option String := setText? term.className

/-- The tag that is asked for; `none` if any tag will do. -/
def tag? (term : Term) : Option String := (setText? term.elementName).filter (· != anyName)

/-- Whether the id decides alone. -/
def isIdTerm (term : Term) : Bool := term.id?.isSome

/-- The written form of a term. -/
def render (term : Term) : String :=
  match term.id? with
  | some value => "#" ++ value
  | none =>
    (setText? term.elementName).getD anyName ++
      match term.class? with
      | some value => "." ++ value
      | none => ""

end Term

end DomSelect
