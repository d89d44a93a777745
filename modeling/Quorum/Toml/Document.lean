import Quorum.Toml.Lexeme

/-! TOML documents: lines with headers and values, and the table that they make. -/

namespace Quorum.Toml

open Text Text.Parser Grammar

/-! Values -/

def array (item : Grammar Value) : Grammar (List Value) := do
  char '['
  let items ← commit do
    if (← next?) = some ']' then
      return []
    let items ← separated (do gap; let value ← item; gap; return value) (char ',')
    unless items.isEmpty do
      let _ ← maybe (char ',')
    gap
    return items
  expecting "`]`" (about "array" (char ']').commit)
  return items

/-- A key, and what follows its equals sign. -/
def pair {α : Type} (content : Grammar α) : Grammar (Path × α) := do
  let path ← key
  commit do
    expecting "`=`" (expecting "`.`" (char '='))
    blanks
    return (path, ← content)

/-- The table that keys with values between braces make. -/
def inlineEntries (pairs : List (Path × Value)) : Except Conflict (List (Key × Value)) := do
  let table ← pairs.foldlM
    (fun table (path, value) => table.insert .braces path value (.repeated path.last.name))
    (Table.empty .inline)
  return table.entries

def inlineTable (item : Grammar Value) : Grammar (List (Key × Value)) := do
  char '\x7b'
  let pairs : Grammar (List (Path × Value)) := do
    let pairs ← separated (pair do let value ← item; blanks; return value) (char ',')
    blanks
    return pairs
  let entries ← commit (check pairs fun pairs =>
    (inlineEntries pairs).mapError (some ∘ Mistake.conflict))
  expecting "`\x7d`" (about "inline table" (char '\x7d').commit)
  return entries

/-- Says that a text was expected, as where no other value can begin. -/
def expectingText {α : Type} (parser : Grammar α) : Grammar α :=
  expecting "`'`" (expecting "`\"`" (about "string" parser))

def truth : Grammar Bool :=
  (do chars ['t', 'r', 'u', 'e']; return true)
    <|> (do chars ['f', 'a', 'l', 's', 'e']; return false)

/-- A number or a moment. -/
def scalar : Grammar (Span → Value) :=
  (do moment; return .moment)
    <|> (do let value ← float; return fun span => .float span value)
    <|> (do let value ← integer; return fun span => .integer span value)

/-- A value, told by its first character, given those that stand between brackets and braces. -/
def valueOf (list : Grammar (List Value)) (braces : Grammar (List (Key × Value)))
    : Grammar Value := do
  let form : Grammar (Span → Value) := do
    match ← ahead (satisfy fun _ => true) with
    | '"' | '\'' => do let value ← text; return fun span => .text span value
    | '[' => do let items ← list; return fun span => .array span items
    | '\x7b' => do
        let entries ← braces
        return fun span => .table ⟨.inline, some span, entries⟩
    | '_' => do
        let value ← integer.expecting "leading digit"
        return fun span => .integer span value
    | '.' => do
        let value ← float.expecting "leading digit"
        return fun span => .float span value
    | 't' | 'f' => do let value ← expectingText truth.commit; return fun span => .truth span value
    | 'i' | 'n' => do
        let value ← expectingText do
          (do chars ['i', 'n', 'f']; return Double.infinite false)
            <|> (do chars ['n', 'a', 'n']; return .undefined)
        return fun span => .float span value
    | first =>
        if digit first || first = '+' || first = '-' then scalar else expectingText fail
  let (span, value) ← spanned form
  return value span

/-- A value in which arrays and inline tables are nested at most so deep. -/
def value : Nat → Grammar Value
  | 0 => valueOf (commit (refuse .tooDeep)) (commit (refuse .tooDeep))
  | depth + 1 => valueOf (array (value depth)) (inlineTable (value depth))

/-! Lines -/

/-- A document that is read up to some line: its table, and the path of the last header. -/
structure Reading where
  table : Table Value
  path : List Key

namespace Reading

/-- Before the first line. The document itself is a table. -/
def start : Reading :=
  ⟨⟨.declared, some ⟨0, 0⟩, []⟩, []⟩

/-- Adds a key with its value to the table under the last header. -/
def add (reading : Reading) (path : Path) (value : Value) : Except Conflict Reading := do
  let taken := .taken path.last.name (reading.path.map (·.name))
  let table ← reading.table.change .headers
    (fun table => (table.reach value).insert .dots path value taken) [] reading.path
  return { reading with table }

def declare (reading : Reading) (path : Path) (span : Span) : Except Conflict Reading := do
  return ⟨← reading.table.declare path span, path.parents ++ [path.last]⟩

def declareItem (reading : Reading) (path : Path) (span : Span) : Except Conflict Reading := do
  return ⟨← reading.table.declareItem path span, path.parents ++ [path.last]⟩

end Reading

/-- Reads what a line says, and adds it to a document. -/
def statement {α : Type} (content : Grammar α) (add : α → Except Conflict Reading)
    : Grammar Reading :=
  commit (check content fun content => (add content).mapError (some ∘ Mistake.conflict))

/-- A path in brackets, and the place of both. -/
def heading (opening closing : String) : Grammar (Span × Path) := do
  let heading ← spanned do
    chars opening.toList
    let path ← key.commit
    expecting s!"`{closing}`" (expecting "`.`" (chars closing.toList).commit)
    return path
  commit trailing
  return heading

/-- A header. What follows the first bracket tells which kind it is. -/
def header (reading : Reading) : Grammar Reading :=
  commit (about "table header" do
    match ← ahead (exactly 2 fun _ => true) with
    | ['[', '['] =>
        statement (heading "[[" "]]") fun (span, path) => reading.declareItem path span
    | _ => statement (heading "[" "]") fun (span, path) => reading.declare path span)

/-- A line, which may end with a comment. -/
def line (reading : Reading) : Grammar Reading := do
  match ← ahead (satisfy fun _ => true) with
  | '#' => commit (do comment; lineEnd; return reading)
  | '[' => header reading
  | '\n' | '\r' => do newline; return reading
  | _ =>
      statement (pair do let value ← value nestingLimit; blanks; trailing; return value)
        fun (path, value) => reading.add path value

/-- The lines of a document. A byte order mark in front does not count. -/
def lines : Grammar Reading := do
  let _ ← maybe (char '\ufeff')
  blanks
  iterate (fun reading => do let reading ← line reading; blanks; return reading) .start

/-- The table of a document. -/
def parse (document : String) : Except Report (Table Value) :=
  match lines.parse document.toList with
  | .ok reading => .ok reading.table
  | .error failure => .error (.ofFailure document failure)

end Quorum.Toml
