/-!
# Elements

An element has a tag and a list of attributes. The list keeps its order and may hold one name
several times; `valuesOf` lists every value of a name, `attribute?` gives the first.
-/

namespace DomSelect

/-- A name with a value. -/
structure Attribute where
  name : String
  value : String
  deriving DecidableEq, Repr, Inhabited

/-- What an element is, apart from its place in a tree. -/
structure Element where
  tag : String
  attributes : List Attribute
  deriving DecidableEq, Repr, Inhabited

namespace Element

/-- The value of the first attribute called `name`. -/
def attribute? (element : Element) (name : String) : Option String :=
  (element.attributes.find? (·.name == name)).map (·.value)

/-- The values of all attributes called `name`, in order. -/
def valuesOf (element : Element) (name : String) : List String :=
  (element.attributes.filter (·.name == name)).map (·.value)

/-- The id of the element: the value of its first attribute of that name. -/
def id? (element : Element) : Option String := element.attribute? "id"

end Element

end DomSelect
