import DomSelect.Markup.Node
import DomSelect.Tree.Basic
import DomSelect.Warning

/-!
# From parsed markup to trees

The nodes of parsed markup are met one after the other, each before its content, and it is recorded
which node of the tree was made for which of them (`Conversion`). Elements, texts and comments
become nodes of the tree below the one made for the node that holds them. Document types and
processing instructions are dropped, and so is a nested document, with a warning. Nothing is made
for what a dropped node holds, as no node of the tree is recorded for its holder.
-/

namespace DomSelect.Markup

/-- The warning about a nested document. -/
def nestedDropped : Warning := ⟨"HTML", "nested document node dropped during conversion"⟩

/-- A conversion under way. -/
structure Conversion where
  tree : Tree
  /-- The nodes made, by the names of those they were made for, the latest first. -/
  made : List (Nat × NodeId)
  warnings : List Warning

namespace Conversion

/-- Nothing has been met yet. -/
def start : Conversion := ⟨Tree.initial, [], []⟩

/-- Make a node below `parent` for the node `name`. -/
def add (conversion : Conversion) (name : Nat) (parent : NodeId) (content : Content) :
    Conversion :=
  { conversion with
    tree := conversion.tree.addChild parent content
    made := (name, conversion.tree.size) :: conversion.made }

/-- Deal with the next node. The one that nothing holds becomes the document of the tree. -/
def meet (conversion : Conversion) (visit : Visit) : Conversion :=
  match visit.holder with
  | none => { conversion with made := (visit.name, Tree.root) :: conversion.made }
  | some holder =>
    match conversion.made.lookup holder with
    | none => conversion
    | some parent =>
      match visit.content with
      | .element data => conversion.add visit.name parent (.element data)
      | .text data => conversion.add visit.name parent (.text data)
      | .comment data => conversion.add visit.name parent (.comment data)
      | .doctype | .instruction => conversion
      | .document => { conversion with warnings := conversion.warnings ++ [nestedDropped] }

end Conversion

/-- The tree of parsed markup with the warnings about what is dropped, the names of the nodes being
given by the number of nodes met before them. -/
def convertNamed (name : Nat → Nat) (source : SourceNode) : Tree × List Warning :=
  let last := (visits name none 0 source).foldl Conversion.meet .start
  (last.tree, last.warnings)

/-- The tree of parsed markup with the warnings about what is dropped. -/
def convert (source : SourceNode) : Tree × List Warning := convertNamed id source

end DomSelect.Markup
