import DomSelect.Unicode.Unprintable

/-!
# Quoted text

Messages show a text between double quotes. Double quotes and backslashes in it are preceded by a
backslash, tab, line feed, carriage return and U+0000 have a letter or digit of their own, and
unprintable characters are written as a code point in braces. `quoteWith` takes the set of
characters written by code point as an argument; `quote` uses the unprintable ones.
-/

namespace DomSelect.Quoted

/-- The characters of a code point's lower-case hexadecimal number. -/
def hexDigits (c : Char) : List Char := Nat.toDigits 16 c.toNat

/-- A character named by its code point. -/
def byCode (c : Char) : List Char := ['\\', 'u', '\x7b'] ++ hexDigits c ++ ['\x7d']

/-- The written form of one character, where `byNumber` tells which characters are named by their
code point. -/
def encodeChar (byNumber : Char → Bool) (c : Char) : List Char :=
  if c = '"' then ['\\', '"']
  else if c = '\\' then ['\\', '\\']
  else if c = '\t' then ['\\', 't']
  else if c = '\n' then ['\\', 'n']
  else if c = '\r' then ['\\', 'r']
  else if c = '\x00' then ['\\', '0']
  else if byNumber c then byCode c
  else [c]

/-- The written form of a text, without the quotes around it. -/
def encode (byNumber : Char → Bool) (text : List Char) : List Char :=
  text.flatMap (encodeChar byNumber)

/-- `text` in double quotes, with the characters of `byNumber` named by their code points. -/
def quoteWith (byNumber : Char → Bool) (text : String) : String :=
  String.ofList ('"' :: encode byNumber text.toList ++ ['"'])

/-- `text` in double quotes, as messages show it. -/
def quote (text : String) : String := quoteWith Unicode.isUnprintable text

end DomSelect.Quoted
