/-!
# Terminal output

Styles are written as control sequences around a text. A column is padded with spaces inside its
style, so that only the plain text counts, and a text longer than its column is not cut.
-/

namespace DomSelect.Terminal

/-- Ends every style. -/
def reset : String := "\x1b[0m"

/-- Begins yellow text. -/
def yellowStart : String := "\x1b[33m"

/-- Ends a colour. -/
def colourEnd : String := "\x1b[39m"

/-- Bold text. -/
def bold (text : String) : String := "\x1b[1m" ++ text ++ reset

/-- Dimmed text. -/
def dimmed (text : String) : String := "\x1b[2m" ++ text ++ reset

/-- Cyan text. -/
def cyan (text : String) : String := "\x1b[36m" ++ text ++ colourEnd

/-- Green text. -/
def green (text : String) : String := "\x1b[32m" ++ text ++ colourEnd

/-- Yellow text. -/
def yellow (text : String) : String := yellowStart ++ text ++ colourEnd

/-- The spaces that a text lacks in a column of `width` characters. -/
def padding (width : Nat) (text : String) : String :=
  String.ofList (List.replicate (width - text.length) ' ')

/-- A text at the right of its column. -/
def alignRight (width : Nat) (text : String) : String := padding width text ++ text

/-- A text at the left of its column. -/
def alignLeft (width : Nat) (text : String) : String := text ++ padding width text

end DomSelect.Terminal
