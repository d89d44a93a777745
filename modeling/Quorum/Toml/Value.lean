import Quorum.Double
import Quorum.Toml.Defect

/-! Values of TOML documents with their places, and how keys and headers add to tables. -/

namespace Quorum.Toml

open Text (Span)

structure Key where
  name : String
  span : Span
  deriving DecidableEq

/-- The names of a key with dots: those that lead to a table, and the last one. -/
structure Path where
  parents : List Key
  last : Key

def Path.ofKeys (first : Key) : List Key → Path
  | [] => ⟨[], first⟩
  | next :: rest =>
      let path := ofKeys next rest
      { path with parents := first :: path.parents }

/-- How a table came about, which decides what may still be added to it. -/
inductive Origin where
  /-- Written between braces. -/
  | inline
  /-- Named on the way to a deeper header only. -/
  | implied
  /-- Made by the dots of a key. -/
  | dotted
  /-- Made by a header, or the document itself. -/
  | declared
  deriving DecidableEq

/-- A table. Those that are not written as such have no place. -/
structure Table (α : Type) where
  origin : Origin
  span : Option Span
  entries : List (Key × α)

/-- Values. Of moments only the form is known. -/
inductive Value where
  | text (span : Span) (value : String)
  | integer (span : Span) (value : Int)
  | float (span : Span) (value : Double)
  | truth (span : Span) (value : Bool)
  | moment (span : Span)
  | array (span : Span) (items : List Value)
  | table (content : Table Value)
  /-- The tables of headers in double brackets, the last one first. -/
  | tables (items : List (Table Value))

namespace Value

/-- The place of a value. Tables in double brackets reach from the first to the last. -/
def span? : Value → Option Span
  | .text span _ | .integer span _ | .float span _ | .truth span _ | .moment span
  | .array span _ => some span
  | .table content => content.span
  | .tables items => do
      let first ← (← items.getLast?).span
      let last ← (← items.head?).span
      return ⟨first.start, last.stop⟩

/-- The kind of a value that is not a table which can be extended. -/
def kind : Value → String
  | .text .. => "string"
  | .integer .. => "integer"
  | .float .. => "float"
  | .truth .. => "boolean"
  | .moment .. => "datetime"
  | .array .. | .tables .. => "array"
  | .table .. => "inline table"

end Value

/-- A character of a name that is written without quotes. -/
def bareKey (character : Char) : Bool :=
  character.isAlphanum || character = '-' || character = '_'

namespace Key

/-- A character as it may stand between double quotes. -/
def escape (character : Char) : String :=
  match character with
  | '\x08' => "\\b"
  | '\t' => "\\t"
  | '\n' => "\\n"
  | '\x0c' => "\\f"
  | '\r' => "\\r"
  | '"' => "\\\""
  | '\\' => "\\\\"
  | _ =>
      if character < ' ' || character = '\x7f' then
        let digits := (Nat.toDigits 16 character.toNat).map Char.toUpper
        "\\u" ++ String.ofList (List.replicate (4 - digits.length) '0' ++ digits)
      else character.toString

/-- A key in its plainest form: without quotes, or else between double quotes, but between single
ones where that avoids a backslash.
-/
def text (key : Key) : String :=
  let characters := key.name.toList
  let control := characters.any fun character =>
    (character < ' ' && character ≠ '\t') || character = '\x7f'
  if characters ≠ [] ∧ characters.all bareKey then key.name
  else if ('"' ∈ characters ∨ '\\' ∈ characters) ∧ '\'' ∉ characters ∧ ¬ control then
    "'" ++ key.name ++ "'"
  else "\"" ++ String.join (characters.map escape) ++ "\""

end Key

namespace Table

variable {α : Type}

/-- A table without entries and without a place. -/
def empty (origin : Origin) : Table α :=
  ⟨origin, none, []⟩

def lookup (table : Table α) (name : String) : Option α :=
  (table.entries.find? fun entry => entry.1.name = name).map (·.2)

/-- Adds a key at the end. -/
def add (table : Table α) (key : Key) (value : α) : Table α :=
  { table with entries := table.entries ++ [(key, value)] }

/-- The table without a key. -/
def without (table : Table α) (name : String) : Table α :=
  { table with entries := table.entries.filter fun entry => decide (entry.1.name ≠ name) }

/-- Replaces the value of a name at its place. -/
def set (table : Table α) (name : String) (value : α) : Table α :=
  { table with
    entries := table.entries.map fun entry =>
      if entry.1.name = name then (entry.1, value) else entry }

/-- Which names lead from table to table. -/
inductive Walk where
  /-- The names of a header. -/
  | headers
  /-- The names of a key with dots. -/
  | dots
  /-- The names of a key with dots between braces. -/
  | braces

/-- Leads from table to table. Dots do not lead into a table that was declared, and nothing leads
into one between braces.
-/
def Walk.enter (walk : Walk) (key : Key) (passed : List String) (origin : Origin)
    : Except Conflict Unit :=
  match walk, origin with
  | .braces, .inline | .dots, .declared => .error (.repeated key.name)
  | _, .inline => .error (.noTable passed "inline table")
  | _, _ => .ok ()

/-- Changes the table at the end of a path, given the names that were passed before. Tables that
are missing on the way are made; of tables in double brackets the last is meant.
-/
def change (walk : Walk) (edit : Table Value → Except Conflict (Table Value))
    : List String → List Key → Table Value → Except Conflict (Table Value)
  | _, [], table => edit table
  | passed, key :: path, table => do
      let passed := passed ++ [key.name]
      match table.lookup key.name with
      | none =>
          let origin :=
            match walk with
            | .headers => Origin.implied
            | .dots | .braces => .dotted
          return table.add key (.table (← change walk edit passed path (.empty origin)))
      | some (.table inner) =>
          walk.enter key passed inner.origin
          return table.set key.name (.table (← change walk edit passed path inner))
      | some (.tables items) =>
          let last ← change walk edit passed path (items.headD (.empty .declared))
          return table.set key.name (.tables (last :: items.tail))
      | some value => throw (.noTable passed value.kind)

/-- Adds a key with its value, where a key with dots must end in a table that dots made. A key
that is taken makes a conflict.
-/
def insert (walk : Walk) (path : Path) (value : Value) (taken : Conflict) (table : Table Value)
    : Except Conflict (Table Value) :=
  change walk
    (fun table =>
      if decide (table.origin = .dotted) = path.parents.isEmpty then
        .error (.repeated path.last.name)
      else if (table.lookup path.last.name).isSome then .error taken
      else .ok (table.add path.last value))
    [] path.parents table

/-- The conflict of a header with what is there. -/
def headerConflict (path : Path) : Conflict :=
  .taken path.last.text (path.parents.map (·.name))

/-- Declares a table. One that was only implied so far moves to the end. -/
def declare (path : Path) (span : Span) (table : Table Value)
    : Except Conflict (Table Value) :=
  change .headers
    (fun parent =>
      match parent.lookup path.last.name with
      | none => .ok (parent.add path.last (.table ⟨.declared, some span, []⟩))
      | some (.table ⟨.implied, _, entries⟩) =>
          .ok ((parent.without path.last.name).add path.last
            (.table ⟨.declared, some span, entries⟩))
      | some _ => .error (headerConflict path))
    [] path.parents table

/-- Declares one more table of those under a key. -/
def declareItem (path : Path) (span : Span) (table : Table Value)
    : Except Conflict (Table Value) :=
  let item : Table Value := ⟨.declared, some span, []⟩
  change .headers
    (fun parent =>
      match parent.lookup path.last.name with
      | none => .ok (parent.add path.last (.tables [item]))
      | some (.tables items) => .ok (parent.set path.last.name (.tables (item :: items)))
      | some _ => .error (headerConflict path))
    [] path.parents table

/-- A table that reaches up to the end of one more value. -/
def reach (table : Table α) (value : Value) : Table α :=
  { table with
    span := do
      let span ← table.span
      let last ← value.span?
      return ⟨span.start, last.stop⟩ }

end Table

end Quorum.Toml
