import Quorum.Text.Digit
import Quorum.Toml.Value

/-! The smallest parts of a TOML document: blanks, comments, keys, texts, numbers and moments. -/

namespace Quorum.Toml

open Text Text.Parser

/-- A parser of a part of a document. -/
abbrev Grammar := Text.Parser Mistake

namespace Grammar

variable {α : Type}

/-- Refuses to go on. -/
def refuse (mistake : Mistake) : Grammar α :=
  accept (.error (some mistake))

/-- Reads one of some characters, which are named if another one is there. -/
def oneOf (characters : List Char) : Grammar Char :=
  satisfy fun character => decide (character ∈ characters)

end Grammar

open Grammar

def blank (character : Char) : Bool :=
  character = ' ' || character = '\t'

/-- Characters that may stand in comments, and with the exception of quotes in texts: all but
controls, of which a tab is allowed.
-/
def plain (character : Char) : Bool :=
  character = '\t' || (' ' ≤ character && character ≠ '\x7f')

def blanks : Grammar Unit := do
  let _ ← takeWhile blank

/-- A line feed, possibly after a carriage return. -/
def newline : Grammar Unit := do
  match ← satisfy fun _ => true with
  | '\n' => return
  | '\r' => char '\n'
  | _ => failure

def comment : Grammar Unit := do
  char '#'
  let _ ← takeWhile plain

/-- The end of a line, or of the document. -/
def lineEnd : Grammar Unit :=
  newline <|> atEnd

/-- What may follow a header or a value on its line. -/
def trailing : Grammar Unit :=
  expecting "`#`" <| expecting "newline" do
    blanks
    let _ ← maybe comment
    lineEnd

/-- Blanks, comments and ends of lines, as they may stand inside brackets. A comment that no line
end follows is no such gap.
-/
def gap : Grammar Unit :=
  retract do
    blanks
    iterate (fun () => do
      match ← next? with
      | some '#' => commit do comment; newline
      | some '\n' | some '\r' => commit newline
      | _ => failure
      blanks) ()

/-! Texts -/

/-- A character by its code point, in so many hexadecimal digits. -/
def codePoint (digits : Nat) : Grammar Char :=
  check (exactly digits hexDigit) fun digits =>
    let code := numberOf 16 digits
    if code.isValidChar then .ok (Char.ofNat code) else .error (some .outOfRange)

/-- A character that is written after a backslash. -/
def escaped : Grammar Char := do
  char '\\'
  let mark ← ahead (satisfy fun _ => true)
  let _ ← maybe (satisfy fun character => character.toNat < 128)
  match mark with
  | 'b' => return '\x08'
  | 't' => return '\t'
  | 'n' => return '\n'
  | 'f' => return '\x0c'
  | 'r' => return '\r'
  | '"' => return '"'
  | '\\' => return '\\'
  | 'u' => about "unicode 4-digit hex code" (codePoint 4).commit
  | 'U' => about "unicode 8-digit hex code" (codePoint 8).commit
  | _ =>
      ["`b`", "`f`", "`n`", "`r`", "`t`", "`u`", "`U`", "`\\`", "`\"`"].foldl
        (fun parser mark => parser.expecting mark) (about "escape sequence" fail.commit)

/-- A character of a text between double quotes on one line. -/
def basicCharacter : Grammar Char :=
  satisfy (fun character => plain character && character ≠ '"' && character ≠ '\\') <|> escaped

def basicText : Grammar (List Char) := do
  char '"'
  let characters ← many basicCharacter
  about "basic string" (char '"').commit
  return characters

def literalText : Grammar (List Char) :=
  about "literal string" do
    char '\''
    let characters ← takeWhile fun character => plain character && character ≠ '\''
    (char '\'').commit
    return characters

def lineBreak : Grammar (List Char) := do
  newline
  return ['\n']

/-- A backslash at the end of a line, with all blanks and line ends after it. -/
def joint : Grammar (List Char) := do
  char '\\'
  blanks
  newline
  let _ ← many ((do let _ ← takeSome blank) <|> newline)
  return []

/-- Up to two quotes that do not begin the closing three, as what comes next tells. -/
def looseQuotes (quote : Char) (next : Grammar Unit) : Grammar (List Char) :=
  (do chars [quote, quote]; ahead next; return [quote, quote])
    <|> (do char quote; ahead next; return [quote])

/-- A text between triple quotes, with the given pieces of content, and quotes where other content
comes next. A line end right after the opening quotes does not count.
-/
def longText (quote : Char) (piece : Grammar (List Char)) (next : Grammar Unit)
    : Grammar (List Char) := do
  let fence := chars [quote, quote, quote]
  fence
  commit do
    let _ ← maybe newline
    let pieces ← many (piece <|> looseQuotes quote next)
    let last ← maybe (looseQuotes quote fence)
    fence
    return pieces.flatten ++ last.getD []

def longBasicText : Grammar (List Char) :=
  about "multiline basic string"
    (longText '"' ((do return [← satisfy fun character =>
        plain character && character ≠ '"' && character ≠ '\\'])
      <|> joint <|> (do return [← escaped]) <|> lineBreak)
      (do let _ ← satisfy (· ≠ '"')))

def longLiteralText : Grammar (List Char) :=
  let piece :=
    (do return [← satisfy fun character => plain character && character ≠ '\'']) <|> lineBreak
  about "multiline literal string" (longText '\'' piece (do let _ ← piece))

def text : Grammar String := do
  let characters ← longBasicText <|> basicText <|> longLiteralText <|> literalText
  return String.ofList characters

/-! Keys -/

def simpleKey : Grammar Key := do
  let characters : Grammar (List Char) := do
    match ← next? with
    | some '"' => basicText
    | some '\'' => literalText
    | _ => takeSome bareKey
  let (span, name) ← spanned characters
  return ⟨String.ofList name, span⟩

/-- How deep arrays and inline tables may be nested, and the most names that dots join. -/
def nestingLimit : Nat :=
  79

/-- Names between dots. -/
def key : Grammar Path :=
  let name : Grammar Key := do
    blanks
    let name ← simpleKey
    blanks
    return name
  check (about "key" (separatedSome name (char '.'))) fun (first, others) =>
    if others.length < nestingLimit then .ok (.ofKeys first others) else .error (some .tooDeep)

/-! Numbers -/

def digit (character : Char) : Bool :=
  character.isDigit

/-- Digits after the first, between which single underscores may stand. -/
def moreDigits (test : Char → Bool) : Grammar (List Char) :=
  many (satisfy test <|> (do char '_'; (satisfy test).commit.expecting "digit"))

def digits (test : Char → Bool) : Grammar (List Char) := do
  let first ← satisfy test
  return first :: (← moreDigits test)

/-- Reads a sign, and tells whether it is a minus. -/
def sign : Grammar Bool := do
  return (← maybe (oneOf ['+', '-'])) = some '-'

/-- Decimal digits without a leading zero, and the sign. -/
def decimalDigits : Grammar (Bool × List Char) :=
  about "integer" do
    let negative ← sign
    let digits ←
      (do
        let first ← satisfy fun character => digit character && character ≠ '0'
        return first :: (← moreDigits digit))
      <|> exactly 1 digit
    return (negative, digits)

/-- The largest integer. -/
def integerLimit : Nat :=
  2 ^ 63 - 1

/-- The number that digits write, or a larger one than the limit if it lies above that. -/
def numberUpTo (limit base : Nat) (digits : List Char) : Nat :=
  digits.foldl
    (fun value digit => if limit < value then value else base * value + digitValue digit) 0

def basedInteger (name : String) (mark : Char) (base : Nat) (test : Char → Bool) : Grammar Int :=
  commit (check
    (about name do
      chars ['0', mark]
      digits test)
    fun digits =>
      let value := numberUpTo integerLimit base digits
      if value ≤ integerLimit then .ok value else .error (some .tooLarge))

def decimalInteger : Grammar Int :=
  demand decimalDigits fun (negative, digits) =>
    let value := numberUpTo (integerLimit + 1) 10 digits
    if negative then
      if value ≤ integerLimit + 1 then .ok (-value) else .error (some .tooSmall)
    else if value ≤ integerLimit then .ok value
    else .error (some .tooLarge)

def integer : Grammar Int := do
  match ← maybe (ahead (exactly 2 fun _ => true)) with
  | some ['0', 'x'] => basedInteger "hexadecimal integer" 'x' 16 hexDigit
  | some ['0', 'o'] =>
      basedInteger "octal integer" 'o' 8 fun character => '0' ≤ character && character ≤ '7'
  | some ['0', 'b'] =>
      basedInteger "binary integer" 'b' 2 fun character => character = '0' || character = '1'
  | _ => decimalInteger

/-- No exponent needs to be read beyond this one. -/
def exponentLimit : Nat :=
  2 ^ 64

def exponent : Grammar Int := do
  let _ ← oneOf ['e', 'E']
  let negative ← sign
  let value := numberUpTo exponentLimit 10 (← (digits digit).commit)
  return if negative then -value else value

def fraction : Grammar (List Char) := do
  char '.'
  (digits digit).commit.expecting "digit"

/-- A float with a fraction or an exponent. One that is not negative must be finite. -/
def decimalFloat : Grammar Double :=
  let parts : Grammar ((Bool × List Char) × List Char × Int) := do
    let whole ← decimalDigits
    let rest ←
      (do return ([], ← exponent))
        <|> (do
          let places ← fraction
          return (places, (← maybe exponent).getD 0))
    return (whole, rest)
  demand parts fun ((negative, whole), places, power) =>
    let digits := (whole ++ places).map digitValue
    match Double.ofDigits negative digits (power - places.length) with
    | .infinite false => .error none
    | value => .ok value

def specialFloat : Grammar Double := do
  let negative ← sign
  (do chars ['i', 'n', 'f']; return .infinite negative)
    <|> (do chars ['n', 'a', 'n']; return .undefined)

def float : Grammar Double :=
  about "floating-point number" (decimalFloat <|> specialFloat)

/-! Moments -/

/-- A number of so many digits within bounds. -/
def bounded (count low high : Nat) : Grammar Nat :=
  check (exactly count digit) fun digits =>
    let value := numberOf 10 digits
    if low ≤ value ∧ value ≤ high then .ok value else .error (some .outOfRange)

def daysIn (year month : Nat) : Nat :=
  if month = 2 then
    if year % 4 = 0 ∧ (year % 100 ≠ 0 ∨ year % 400 = 0) then 29 else 28
  else if month = 4 ∨ month = 6 ∨ month = 9 ∨ month = 11 then 30
  else 31

def date : Grammar Unit := do
  let year ← bounded 4 0 9999
  char '-'
  commit do
    let month ← bounded 2 1 12
    char '-'
    let _ ← check (bounded 2 1 31) fun day =>
      if day ≤ daysIn year month then .ok day else .error (some .outOfRange)

/-- A time of day, in which a second may be a leap second. -/
def time : Grammar Unit := do
  let _ ← bounded 2 0 23
  char ':'
  commit do
    let _ ← bounded 2 0 59
    char ':'
    let _ ← bounded 2 0 60
    let _ ← maybe (do char '.'; takeSome digit)

def offset : Grammar Unit :=
  about "time offset"
    ((do let _ ← oneOf ['Z', 'z']) <|> (do
      let _ ← oneOf ['+', '-']
      commit do
        let _ ← bounded 2 0 23
        char ':'
        let _ ← bounded 2 0 59))

def moment : Grammar Unit :=
  about "date-time" (do
    date
    let _ ← maybe (do
      let _ ← oneOf ['T', 't', ' ']
      time
      maybe offset))
  <|> about "time" time

end Quorum.Toml
