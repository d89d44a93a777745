/-! Texts as JSON writes them, with the short escapes where there are some. -/

namespace Quorum.Text

/-- A character inside a JSON text; a control without a short escape takes four digits. -/
def jsonEscape (character : Char) : String :=
  if character = '"' then "\\\""
  else if character = '\\' then "\\\\"
  else if character = '\x08' then "\\b"
  else if character = '\x0c' then "\\f"
  else if character = '\n' then "\\n"
  else if character = '\r' then "\\r"
  else if character = '\t' then "\\t"
  else if character.toNat < 32 then
    let digits := Nat.toDigits 16 character.toNat
    "\\u" ++ String.ofList (List.replicate (4 - digits.length) '0' ++ digits)
  else character.toString

def jsonText (text : String) : String :=
  "\"" ++ String.join (text.toList.map jsonEscape) ++ "\""

end Quorum.Text
