import Quorum.Text.Blank
import Quorum.Toml.Value

/-! Reading typed data from TOML values. A record is a table, of which unknown keys do not
count, or an array with values for its fields in order.
-/

namespace Quorum.Toml

open Text (Span)

/-- A defect, and its place where that is known. -/
structure Misfit where
  span : Option Span
  defect : Defect

/-- Places what is wrong, unless it has a place. -/
def located {α : Type} (span : Option Span) (result : Except Misfit α) : Except Misfit α :=
  result.mapError fun misfit => { misfit with span := misfit.span <|> span }

/-- A value as messages show it. -/
def Value.description : Value → String
  | .text _ value => "string " ++ Text.quoted value
  | .integer _ value => s!"integer `{value}`"
  | .float _ value => s!"floating point `{value.text}`"
  | .truth _ value => s!"boolean `{value}`"
  | .moment _ | .table _ => "map"
  | .array .. | .tables _ => "sequence"

/-- Reads data from a value. -/
abbrev Reader (α : Type) := Value → Except Misfit α

namespace Reader

variable {α record : Type}

/-- A value of another kind than is expected. -/
def mismatch (expected : String) (value : Value) : Except Misfit α :=
  .error ⟨value.span?, .kind value.description expected⟩

def text : Reader String
  | .text _ value => .ok value
  | value => mismatch "a string" value

/-- An integer from zero up to a limit. -/
def natural (expected : String) (limit : Nat) : Reader Nat
  | .integer span value =>
      if 0 ≤ value ∧ value < limit then .ok value.toNat
      else .error ⟨some span, .range value expected⟩
  | value => mismatch expected value

def word64 : Reader UInt64 := fun value => do
  return UInt64.ofNat (← natural "u64" UInt64.size value)

def word32 : Reader UInt32 := fun value => do
  return UInt32.ofNat (← natural "u32" UInt32.size value)

/-- Bytes as hexadecimal text, between blank characters and possibly after `0x`. -/
def hex : Reader Bytes := fun value => do
  let trimmed := Text.trim (← text value)
  let digits :=
    match trimmed.toList with
    | '0' :: 'x' :: digits => String.ofList digits
    | _ => trimmed
  match Hex.decode (Bytes.ofText digits) with
  | .ok bytes => return bytes
  | .error fault => throw ⟨none, .hexKey trimmed fault⟩

def list (item : Reader α) : Reader (List α)
  | .array _ items => items.mapM item
  | .tables items => items.reverse.mapM fun table => item (.table table)
  | value => mismatch "a sequence" value

end Reader

/-- A field of a record: its key, and how a value sets it. -/
structure Field (record : Type) where
  key : String
  set : record → Reader record

/-- A field that holds what a reader reads. -/
def Field.of {α record : Type} (key : String) (reader : Reader α) (store : record → α → record)
    : Field record where
  key
  set current value := return store current (← reader value)

/-- The name of a kind of records, and the fields that they have. -/
structure Shape (record : Type) where
  name : String
  fields : List (Field record)

namespace Shape

variable {α record : Type}

/-- Sets fields from the values of an array. -/
def inOrder (shape : Shape record) (initial : record) (items : List Value)
    : Except Misfit record :=
  (shape.fields.zip items).foldlM (fun current (field, value) => field.set current value) initial

/-- Sets the fields of a record that a value names, in the order of the value. A moment counts as
a record without any.
-/
def read (shape : Shape record) (initial : record) : Reader record := fun value =>
  located value.span?
    (match value with
    | .table table => table.entries.foldlM
        (fun current (key, value) =>
          match shape.fields.find? (·.key = key.name) with
          | some field => located (value.span? <|> some key.span) (field.set current value)
          | none => .ok current)
        initial
    | .array _ items => shape.inOrder initial items
    | .tables items => shape.inOrder initial (items.reverse.map .table)
    | .moment _ => .ok initial
    | value => Reader.mismatch s!"struct {shape.name}" value)

/-- The value of a field that a record must have. -/
def require (shape : Shape record) (key : String) (value : Value) : Option α → Except Misfit α
  | some content => .ok content
  | none =>
      let index := shape.fields.findIdx (·.key = key)
      let count := shape.fields.length
      let defect :=
        match value with
        | .array .. | .tables _ =>
            Defect.length index s!"struct {shape.name} with {count} elements"
        | _ => .missing key
      .error ⟨value.span?, defect⟩

end Shape

end Quorum.Toml
