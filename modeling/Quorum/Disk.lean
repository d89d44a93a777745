import Quorum.Fault

/-! A disk: files by the names on the way to them, and the directory where paths start. Of what
lies elsewhere it holds only the sink.
-/

namespace Quorum

/-- Names from the root on. -/
abbrev Place := List String

structure Disk where
  files : List (Place × Bytes)
  /-- Where the paths start that do not start at the root. -/
  home : Place

namespace Disk

/-- A file that takes everything and holds nothing. -/
def sink : Place :=
  ["dev", "null"]

/-- The contents of a file. -/
def contents? (disk : Disk) (place : Place) : Option Bytes :=
  if place = sink then some [] else disk.files.lookup place

/-- A directory, which is home, or on the way to home or to a file. -/
def HasDirectory (disk : Disk) (place : Place) : Prop :=
  place <+: disk.home ∨ ∃ file ∈ sink :: disk.files.map (·.1), place <+: file ∧ place ≠ file

instance (disk : Disk) (place : Place) : Decidable (disk.HasDirectory place) :=
  inferInstanceAs (Decidable (place <+: disk.home
    ∨ ∃ file ∈ sink :: disk.files.map (·.1), place <+: file ∧ place ≠ file))

/-- The names on a path. -/
def names (path : String) : List String :=
  (path.splitOn "/").filter (· ≠ "")

/-- A disk with files at home, by their paths. -/
def ofFiles (home : Place) (files : List (String × Bytes)) : Disk :=
  ⟨files.map fun file => (home ++ names file.1, file.2), home⟩

/-- The files at home by their paths. -/
def toFiles (disk : Disk) : List (String × Bytes) :=
  disk.files.filterMap fun file =>
    if disk.home <+: file.1 then
      some ("/".intercalate (file.1.drop disk.home.length), file.2)
    else none

/-- Where a name leads from a place, which has to be a directory. -/
def enter (disk : Disk) (place : Place) (name : String) : Except FileDefect Place :=
  if disk.HasDirectory place then
    if name = "." then .ok place
    else if name = ".." then .ok place.dropLast
    else if 255 < name.utf8ByteSize then .error .longName
    else .ok (place ++ [name])
  else if (disk.contents? place).isSome then .error .notDirectory
  else .error .missing

/-- Where some of the names on a path lead. -/
def follow (disk : Disk) (path : String) (choose : List String → List String)
    : Except FileDefect Place :=
  if path = "" then .error .missing
  else if 4096 ≤ path.utf8ByteSize then .error .longName
  else (choose (names path)).foldlM disk.enter (if path.startsWith "/" then [] else disk.home)

def read (disk : Disk) (path : String) : Except FileDefect Bytes := do
  let place ← disk.follow path id
  match disk.contents? place with
  | some bytes => if path.endsWith "/" then .error .notDirectory else .ok bytes
  | none => .error (if disk.HasDirectory place then .directory else .missing)

/-- There is a file or a directory at the path. -/
def has (disk : Disk) (path : String) : Bool :=
  match disk.read path with
  | .ok _ | .error .directory => true
  | .error _ => false

/-- Puts the contents at their place. -/
def store (place : Place) (bytes : Bytes) : List (Place × Bytes) → List (Place × Bytes)
  | [] => [(place, bytes)]
  | file :: rest =>
      if file.1 = place then (place, bytes) :: rest else file :: store place bytes rest

/-- Writes a file, which may be a new one in a directory that there is. A path that ends as those
of directories do names no file. Apart from the sink, what lies outside home is not to be changed.
-/
def write (disk : Disk) (path : String) (bytes : Bytes) : Except FileDefect Disk := do
  if path.endsWith "/" then
    let _ ← disk.follow path fun names => names.dropLast ++ ["."]
    throw .directory
  let place ← disk.follow path id
  if disk.HasDirectory place then
    throw .directory
  else if place = sink then
    return disk
  else if ¬ disk.home <+: place then
    throw .forbidden
  else
    return { disk with files := store place bytes disk.files }

end Disk

end Quorum
