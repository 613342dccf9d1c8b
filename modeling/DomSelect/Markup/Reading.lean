import DomSelect.Markup.Nesting

/-!
# Reading markup

Markup is read piece by piece, each piece being added to what has been read before. What comes next
depends on that: the content of some elements is text, and a line feed right after some start tags
is no part of the content. A byte-order mark at the beginning is dropped.
-/

namespace DomSelect.Markup

/-- What is being read. -/
class Draft (δ : Type) where
  /-- The content at the place that reading has got to. -/
  content : δ → Nesting
  add : δ → Piece → δ

namespace Draft

variable {δ : Type} [Draft δ]

/-- Add the pieces of a text, at most `count` readings of them. If the first one comes right after
the start tag of an element whose content can begin on a line of its own, `isFirst` is set. -/
def addPieces : Nat → Bool → List Char → δ → δ
  | 0, _, _, draft => draft
  | _, _, [], draft => draft
  | count + 1, isFirst, text, draft =>
    match readPiece (content draft).isInForeign (count + 1) text with
    | (.startTag data isEmpty, after) =>
      let opened := add draft (.startTag data isEmpty)
      if (content opened).isAt data.tag then
        match readContent? data.tag after with
        | none => addPieces count (skipsLineFeed data.tag) after opened
        | some (piece, later) =>
          let piece := if skipsLineFeed data.tag then piece.dropLineFeed else piece
          addPieces count false later (add opened piece)
      else addPieces count false after opened
    | (piece, after) =>
      addPieces count false after (add draft (if isFirst then piece.dropLineFeed else piece))

/-- Markup without a byte-order mark at its beginning. -/
def dropByteOrderMark : List Char → List Char
  | '\uFEFF' :: rest => rest
  | text => text

/-- Add markup. Each reading takes a character at least, as does each attribute. -/
def addMarkup (draft : δ) (markup : String) : δ :=
  let text := dropByteOrderMark markup.toList
  addPieces text.length false text draft

end Draft

end DomSelect.Markup
