import Quorum.Bytes.Hex
import Quorum.Text.Parser
import Quorum.Text.Quoted

/-! What can be wrong with a TOML document, and the reports that show it at its place. -/

namespace Quorum.Toml

/-- Why a key or a header cannot be added to a table. -/
inductive Conflict where
  /-- The key is taken. Tables are named by their paths. -/
  | taken (key : String) (table : List String)
  /-- The key is taken, or its dots lead where dots may not lead. -/
  | repeated (key : String)
  /-- The path leads into a value of a kind that is no table. -/
  | noTable (path : List String) (kind : String)
  deriving DecidableEq

def Conflict.message : Conflict → String
  | .taken key [] => s!"duplicate key `{key}` in document root"
  | .taken key table => s!"duplicate key `{key}` in table `" ++ ".".intercalate table ++ "`"
  | .repeated key => s!"duplicate key `{key}`"
  | .noTable path kind =>
      "dotted key `" ++ ".".intercalate path ++
        s!"` attempted to extend non-table type ({kind})"

/-- Why a part of a document that can be read is refused. -/
inductive Mistake where
  | outOfRange
  | tooDeep
  | tooLarge
  | tooSmall
  | conflict (reason : Conflict)
  deriving DecidableEq

def Mistake.message : Mistake → String
  | .outOfRange => "value is out of range"
  | .tooDeep => "recursion limit exceeded"
  | .tooLarge => "number too large to fit in target type"
  | .tooSmall => "number too small to fit in target type"
  | .conflict reason => reason.message

/-- A complaint as lines: what is invalid, what was expected, and the cause. -/
def complaintMessage (complaint : Text.Complaint Mistake) : String :=
  let subject := complaint.subject.toList.map fun subject => s!"invalid {subject}"
  let expected :=
    if complaint.expected = [] then [] else ["expected " ++ ", ".intercalate complaint.expected]
  "\n".intercalate (subject ++ expected ++ complaint.cause.toList.map Mistake.message)

inductive Defect where
  /-- The text is no document. -/
  | grammar (complaint : Text.Complaint Mistake)
  /-- A value is not of the kind that is expected. -/
  | kind (found expected : String)
  /-- An integer is not in the range that is expected. -/
  | range (value : Int) (expected : String)
  | missing (key : String)
  /-- An array has not as many items as are expected. -/
  | length (count : Nat) (expected : String)
  /-- A text does not write bytes. -/
  | hexKey (text : String) (fault : Hex.Fault)
  deriving DecidableEq

def Defect.message : Defect → String
  | .grammar complaint => complaintMessage complaint
  | .kind found expected => s!"invalid type: {found}, expected {expected}"
  | .range value expected => s!"invalid value: integer `{value}`, expected {expected}"
  | .missing key => s!"missing field `{key}`"
  | .length count expected => s!"invalid length {count}, expected {expected}"
  | .hexKey text fault => "invalid hex key " ++ Text.quoted text ++ ": " ++ fault.message

/-- A defect of a document, and the span that it is about. -/
structure Report where
  document : String
  span : Text.Span
  defect : Defect
  deriving DecidableEq

/-- The report of a failure to read a document. -/
def Report.ofFailure (document : String) (failure : Text.Failure Mistake) : Report where
  document
  span := Text.spanAt failure.offset document.toList
  defect := .grammar failure.complaint

def Report.message (report : Report) : String :=
  let text := report.document.toList
  let place := Text.placeOf text report.span.start
  let (line, column) := (place.line + 1, place.column + 1)
  s!"TOML parse error at line {line}, column {column}\n" ++ Text.excerpt text report.span ++
    report.defect.message ++ "\n"

end Quorum.Toml
