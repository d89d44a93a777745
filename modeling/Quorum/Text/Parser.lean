import Quorum.Text.Span

/-! Parsers that read from the front of a text, and tell where and why they fail. -/

namespace Quorum.Text

/-- What is left of a text, and how many bytes were read. -/
structure Cursor where
  rest : List Char
  offset : Nat

/-- Why a parser fails: what it was reading, what else it would have read, and the cause, if it
could read the text but not accept it.
-/
structure Complaint (ε : Type) where
  subject : Option String
  expected : List String
  cause : Option ε
  deriving DecidableEq

def Complaint.none {ε : Type} : Complaint ε :=
  ⟨.none, [], .none⟩

/-- Where and why a parser fails. Nothing else is tried after a final failure. -/
structure Failure (ε : Type) where
  final : Bool
  offset : Nat
  complaint : Complaint ε

/-- A parser that may refuse what it reads for a cause. -/
def Parser (ε α : Type) : Type :=
  Cursor → Except (Failure ε) (α × Cursor)

namespace Parser

variable {ε α β : Type}

instance : Monad (Parser ε) where
  pure value := fun cursor => .ok (value, cursor)
  bind parser next := fun cursor =>
    match parser cursor with
    | .ok (value, cursor) => next value cursor
    | .error failure => .error failure

/-- Fails without a reason. -/
def fail : Parser ε α := fun cursor =>
  .error ⟨false, cursor.offset, .none⟩

/-- Tries the second parser where the first one fails. -/
def orElse (first : Parser ε α) (second : Unit → Parser ε α) : Parser ε α := fun cursor =>
  match first cursor with
  | .error failure => if failure.final then .error failure else second () cursor
  | read => read

instance : Alternative (Parser ε) where
  failure := fail
  orElse := orElse

/-- Changes how a parser fails. -/
def onFailure (change : Failure ε → Failure ε) (parser : Parser ε α) : Parser ε α := fun cursor =>
  (parser cursor).mapError change

/-- Makes all failures final. -/
def commit (parser : Parser ε α) : Parser ε α :=
  parser.onFailure fun failure => { failure with final := true }

/-- Lets something else be tried after all failures. -/
def retract (parser : Parser ε α) : Parser ε α :=
  parser.onFailure fun failure => { failure with final := false }

/-- Says what a parser reads. Its parts may have said more about themselves. -/
def about (subject : String) (parser : Parser ε α) : Parser ε α :=
  parser.onFailure fun failure =>
    let complaint := failure.complaint
    { failure with
      complaint := { complaint with subject := complaint.subject <|> some subject } }

/-- Says what would have been read. -/
def expecting (description : String) (parser : Parser ε α) : Parser ε α :=
  parser.onFailure fun failure =>
    let complaint := failure.complaint
    { failure with
      complaint := { complaint with expected := complaint.expected ++ [description] } }

/-- Accepts what a parser reads or fails where that starts, possibly for good. -/
def judge (final : Bool) (parser : Parser ε α) (accept : α → Except (Option ε) β)
    : Parser ε β := fun cursor =>
  match parser cursor with
  | .error failure => .error failure
  | .ok (value, next) =>
      match accept value with
      | .ok value => .ok (value, next)
      | .error cause => .error ⟨final, cursor.offset, ⟨none, [], cause⟩⟩

/-- Accepts what a parser reads. What is not accepted may be read as something else. -/
def check (parser : Parser ε α) (accept : α → Except (Option ε) β) : Parser ε β :=
  judge false parser accept

/-- Accepts what a parser reads. What is not accepted is not read at all. -/
def demand (parser : Parser ε α) (accept : α → Except (Option ε) β) : Parser ε β :=
  judge true parser accept

/-- Goes on with a value, or fails. -/
def accept (result : Except (Option ε) α) : Parser ε α :=
  check (pure ()) fun () => result

/-- The next character, which is not read. -/
def next? : Parser ε (Option Char) := fun cursor =>
  .ok (cursor.rest.head?, cursor)

def satisfy (test : Char → Bool) : Parser ε Char := fun cursor =>
  match cursor.rest with
  | character :: rest =>
      if test character then .ok (character, ⟨rest, cursor.offset + character.utf8Size⟩)
      else fail cursor
  | [] => fail cursor

def char (expected : Char) : Parser ε Unit := do
  let _ ← satisfy (· = expected)

/-- Reads exactly these characters. -/
def chars (expected : List Char) : Parser ε Unit := fun cursor =>
  if expected.isPrefixOf cursor.rest then
    .ok ((), ⟨cursor.rest.drop expected.length, cursor.offset + byteCount expected⟩)
  else fail cursor

/-- The characters up to the first that fails the test. -/
def takeWhile (test : Char → Bool) : Parser ε (List Char) := fun cursor =>
  let characters := cursor.rest.takeWhile test
  .ok (characters, ⟨cursor.rest.dropWhile test, cursor.offset + byteCount characters⟩)

/-- At least one character that passes the test, and those after it. -/
def takeSome (test : Char → Bool) : Parser ε (List Char) := do
  let first ← satisfy test
  return first :: (← takeWhile test)

/-- Exactly `count` characters that pass the test. -/
def exactly (count : Nat) (test : Char → Bool) : Parser ε (List Char) := fun cursor =>
  let characters := (cursor.rest.take count).takeWhile test
  if characters.length = count then
    .ok (characters, ⟨cursor.rest.drop count, cursor.offset + byteCount characters⟩)
  else fail cursor

/-- Reads nothing where the parser fails. -/
def maybe (parser : Parser ε α) : Parser ε (Option α) :=
  (do return some (← parser)) <|> pure none

/-- Succeeds at the end of the text only. -/
def atEnd : Parser ε Unit := fun cursor =>
  if cursor.rest.isEmpty then .ok ((), cursor) else fail cursor

/-- Looks ahead without reading. -/
def ahead (parser : Parser ε α) : Parser ε α := fun cursor =>
  match parser cursor with
  | .ok (value, _) => .ok (value, cursor)
  | .error failure => .error { failure with offset := cursor.offset }

/-- What a parser reads, and where that stands. -/
def spanned (parser : Parser ε α) : Parser ε (Span × α) := fun cursor =>
  match parser cursor with
  | .ok (value, next) => .ok ((⟨cursor.offset, next.offset⟩, value), next)
  | .error failure => .error failure

/-- Goes from state to state until a step fails or reads nothing. -/
def iterate {σ : Type} (step : σ → Parser ε σ) (state : σ) : Parser ε σ := fun cursor =>
  go cursor.rest state cursor
where
  /-- Each step reads from the text, so there are no more steps than it has characters. -/
  go : List Char → σ → Parser ε σ
    | text, state, cursor =>
        match step state cursor with
        | .error failure => if failure.final then .error failure else .ok (state, cursor)
        | .ok (state', next) =>
            if next.offset = cursor.offset then .ok (state, cursor)
            else
              match text with
              | [] => .ok (state', next)
              | _ :: text => go text state' next

/-- Reads items until one fails or reads nothing. -/
def many (item : Parser ε α) : Parser ε (List α) := do
  let items ← iterate (fun items => do return (← item) :: items) []
  return items.reverse

/-- Items with separators between them, and one at least. -/
def separatedSome (item : Parser ε α) (separator : Parser ε β) : Parser ε (α × List α) := do
  let first ← item
  return (first, ← many (do let _ ← separator; item))

/-- Items with separators between them, possibly none. -/
def separated (item : Parser ε α) (separator : Parser ε β) : Parser ε (List α) := do
  match ← maybe (separatedSome item separator) with
  | none => return []
  | some (first, others) => return first :: others

/-- The value of a text that is read as a whole. -/
def parse (parser : Parser ε α) (text : List Char) : Except (Failure ε) α :=
  match (do let value ← parser; atEnd; return value : Parser ε α) ⟨text, 0⟩ with
  | .ok (value, _) => .ok value
  | .error failure => .error failure

/-- The value of a text that is read as a whole, if it can be read. -/
def parse? (parser : Parser ε α) (text : List Char) : Option α :=
  (parser.parse text).toOption

end Parser

end Quorum.Text
