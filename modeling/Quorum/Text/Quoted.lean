import Quorum.Text.Unprintable

/-! Quoted characters and texts, as messages show what they found: controls and unprintable
characters are escaped, and so are the backslash and the quote itself.
-/

namespace Quorum.Text

/-- A character between the given quotes. -/
def escape (quote character : Char) : String :=
  if character = '\x00' then "\\0"
  else if character = '\t' then "\\t"
  else if character = '\r' then "\\r"
  else if character = '\n' then "\\n"
  else if character = '\\' ∨ character = quote then "\\" ++ character.toString
  else if Unprintable character then
    "\\u\x7b" ++ String.ofList (Nat.toDigits 16 character.toNat) ++ "\x7d"
  else character.toString

/-- A character in single quotes. -/
def quotedCharacter (character : Char) : String :=
  "'" ++ escape '\'' character ++ "'"

/-- A text in double quotes. -/
def quoted (text : String) : String :=
  "\"" ++ String.join (text.toList.map (escape '"')) ++ "\""

end Quorum.Text
