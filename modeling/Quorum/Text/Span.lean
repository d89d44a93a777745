/-! Spans of a text, by the bytes before them, and how a report shows them. -/

namespace Quorum.Text

/-- The bytes from `start` up to `stop`. -/
structure Span where
  start : Nat
  stop : Nat
  deriving DecidableEq

/-- A place in a text. Lines and columns count from zero. -/
structure Place where
  line : Nat
  column : Nat
  deriving DecidableEq

/-- The place of the byte with an index, after so many lines, and so many characters and bytes on
the last one. A column counts the characters before the one that ends with the byte, or else the
bytes before the byte.
-/
def placeFrom (index line characters bytes : Nat) : List Char → Place
  | [] => ⟨line, characters⟩
  | character :: rest =>
      let size := character.utf8Size
      if index < size then ⟨line, if index + 1 = size then characters else bytes + index⟩
      else if character = '\n' then placeFrom (index - size) (line + 1) 0 0 rest
      else placeFrom (index - size) line (characters + 1) (bytes + size) rest

/-- The bytes that characters take. -/
def byteCount (characters : List Char) : Nat :=
  characters.foldl (fun size character => size + character.utf8Size) 0

/-- The place before the byte with an index. An index at the end of a text counts from its last
byte.
-/
def placeOf (text : List Char) (index : Nat) : Place :=
  let last := min index (byteCount text - 1)
  let place := placeFrom last 0 0 0 text
  { place with column := place.column + (index - last) }

/-- The line with a number. -/
def lineOf (text : List Char) : Nat → List Char
  | 0 => text.takeWhile (· ≠ '\n')
  | number + 1 => lineOf ((text.dropWhile (· ≠ '\n')).drop 1) number

/-- The character at an index, or nothing at the end of the text. -/
def spanAt (index : Nat) (text : List Char) : Span :=
  go 0 text
where
  go (start : Nat) : List Char → Span
    | [] => ⟨start, start⟩
    | character :: rest =>
        let stop := start + character.utf8Size
        if index < stop then ⟨start, stop⟩ else go stop rest

/-- The line where a span starts, with marks below the span as far as it is on that line. There
is one mark at least.
-/
def excerpt (text : List Char) (span : Span) : String :=
  let place := placeOf text span.start
  let line := lineOf text place.line
  let number := toString (place.line + 1)
  let margin := "".pushn ' ' (number.length + 1) ++ "|"
  let marks := min (span.stop - span.start) (byteCount line - place.column)
  margin ++ "\n" ++ number ++ " | " ++ String.ofList line ++ "\n" ++
    margin.pushn ' ' (place.column + 1) ++ "".pushn '^' (max 1 marks) ++ "\n"

end Quorum.Text
