import DomSelect.Text.Digits

/-!
# Line ends and character references

A line feed, a carriage return, or the two in this order end a line; as text each of them is one
line feed.

Text and attribute values may name a character: `&amp;`, `&lt;`, `&gt;` and `&quot;` by a word, any
other one by its code point, in decimal as in `&#65;` or in hexadecimal as in `&#x41;`. A word ends
with a semicolon, a number with one or without. An ampersand that begins no reference stands for
itself.

Code points that are no characters give the replacement character. The numbers 128 to 159 name the
characters that had these places in a common single-byte code.

Words are read together with the character after them. So a carriage return right after a word
reference, or right after an ampersand, is used up and ends no line; after an ampersand with a
name that is no reference it ends a line alone, also where a line feed follows.
-/

namespace DomSelect.Markup

/-! ## Line ends -/

/-- Line feeds for all line ends. -/
def unifyLineEnds : List Char → List Char
  | '\r' :: '\n' :: rest => '\n' :: unifyLineEnds rest
  | c :: rest => (if c = '\r' then '\n' else c) :: unifyLineEnds rest
  | [] => []

/-! ## References by number -/

/-- What a reference by number gives instead of the control character of that number. -/
def namedControls : List (Nat × Char) :=
  [(0x80, '€'), (0x82, '‚'), (0x83, 'ƒ'), (0x84, '„'), (0x85, '…'), (0x86, '†'), (0x87, '‡'),
    (0x88, 'ˆ'), (0x89, '‰'), (0x8A, 'Š'), (0x8B, '‹'), (0x8C, 'Œ'), (0x8E, 'Ž'), (0x91, '‘'),
    (0x92, '’'), (0x93, '“'), (0x94, '”'), (0x95, '•'), (0x96, '–'), (0x97, '—'), (0x98, '˜'),
    (0x99, '™'), (0x9A, 'š'), (0x9B, '›'), (0x9C, 'œ'), (0x9E, 'ž'), (0x9F, 'Ÿ')]

/-- The character that a reference by number gives. -/
def charOfNumber (n : Nat) : Char :=
  match namedControls.lookup n with
  | some c => c
  | none => if n = 0 ∨ ¬ n.isValidChar then '\uFFFD' else Char.ofNat n

/-- A hexadecimal digit. -/
def isHexDigit (c : Char) : Bool :=
  c.isDigit || ('a' ≤ c && c ≤ 'f') || ('A' ≤ c && c ≤ 'F')

/-- A number, with a semicolon after it or without: the character it gives, and its length. -/
def numberReference? (base : Nat) (isDigit : Char → Bool) (text : List Char) :
    Option (Char × Nat) :=
  let digits := text.takeWhile isDigit
  if digits.isEmpty then none
  else
    let semicolons := if (text.drop digits.length).head? = some ';' then 1 else 0
    some (charOfNumber (numberOf base digits), digits.length + semicolons)

/-! ## References by a word -/

/-- The references by a word, without the ampersand. -/
def wordReferences : List (String × Char) :=
  [("amp;", '&'), ("lt;", '<'), ("gt;", '>'), ("quot;", '"')]

/-- The length of a carriage return at the beginning of a text, 0 if there is none. -/
def returnLength : List Char → Nat
  | '\r' :: _ => 1
  | _ => 0

/-- A word reference, without the ampersand: the character it gives, and its length with the
carriage return that it uses up. -/
def wordReference? (text : List Char) : Option (Char × Nat) :=
  (wordReferences.find? fun word => word.1.toList.isPrefixOf text).map fun word =>
    (word.2, word.1.length + returnLength (text.drop word.1.length))

/-! ## Decoding -/

/-- What an ampersand and the text after it name: the character, and how much of that text belongs
to it. Before a carriage return the ampersand names itself. -/
def reference? (text : List Char) : Option (Char × Nat) :=
  match text with
  | '#' :: 'x' :: rest | '#' :: 'X' :: rest =>
    (numberReference? 16 isHexDigit rest).map fun (c, n) => (c, n + 2)
  | '#' :: rest => (numberReference? 10 Char.isDigit rest).map fun (c, n) => (c, n + 1)
  | '\r' :: _ => some ('&', 1)
  | _ => wordReference? text

/-- A text with line feeds for all line ends and its references replaced, after `skipped`
characters that have been used up. -/
def decodeFrom : Nat → List Char → List Char
  | _, [] => []
  | skipped + 1, _ :: rest => decodeFrom skipped rest
  | 0, '\r' :: '\n' :: rest => '\n' :: decodeFrom 0 rest
  | 0, c :: rest =>
    if c = '&' then
      match reference? rest with
      | some (named, length) => named :: decodeFrom length rest
      | none =>
        let name := rest.takeWhile Char.isAlphanum
        if returnLength (rest.drop name.length) = 1 then
          c :: (name ++ '\n' :: decodeFrom (name.length + 1) rest)
        else c :: decodeFrom 0 rest
    else (if c = '\r' then '\n' else c) :: decodeFrom 0 rest

/-- A text with line feeds for all line ends and its references replaced. -/
def decode (text : List Char) : String := String.ofList (decodeFrom 0 text)

end DomSelect.Markup
