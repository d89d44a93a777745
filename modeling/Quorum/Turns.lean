import Quorum.Word

/-! Turns of items that wait at one moment. Turns come in rows, and an item that breaks off waits
again after its row.
-/

namespace Quorum

/-- Items that wait for their turns, in order. -/
structure Turns (α : Type) where
  /-- Those that had no turn yet. -/
  fresh : List α
  /-- Those that wait again. -/
  again : List α
  /-- Those that broke off in this row, the last one first. -/
  broken : List α
  /-- The turns so far, including those that nobody took. -/
  number : Nat
  /-- The turns that are left in this row. -/
  left : Nat

namespace Turns

variable {α : Type}

/-- The turns in a row. -/
def rowLength : Nat :=
  61

/-- One turn of so many goes to a fresh item rather than to one that waits again. -/
def freshEvery : Nat :=
  31

def ofList (items : List α) : Turns α :=
  ⟨items, [], [], 0, rowLength⟩

/-- Ends a row. Those that broke off wait again, the last one first. -/
def endRow (turns : Turns α) : Turns α :=
  { turns with again := turns.again ++ turns.broken, broken := [], left := rowLength }

/-- Passes over a turn that nobody takes, which ends the row. -/
def skip (turns : Turns α) : Turns α :=
  { turns.endRow with number := turns.number + 1 }

/-- Lets an item wait again after this row. -/
def breakOff (turns : Turns α) (item : α) : Turns α :=
  { turns with broken := item :: turns.broken }

/-- Gives the next turn of a row to an item, if one waits. -/
def give? (turns : Turns α) : Option (α × Turns α) :=
  let taken := { turns with number := turns.number + 1, left := turns.left - 1 }
  match turns.fresh, turns.again with
  | [], [] => none
  | item :: fresh, [] => some (item, { taken with fresh })
  | [], item :: again => some (item, { taken with again })
  | first :: fresh, other :: again =>
      if taken.number % freshEvery = 0 then some (first, { taken with fresh })
      else some (other, { taken with again })

/-- The item that has the next turn. A row ends when it is full, or with a turn that nobody takes.
-/
def next? (turns : Turns α) : Option (α × Turns α) :=
  let turns := if turns.left = 0 then turns.endRow else turns
  match turns.give? with
  | none => turns.skip.give?
  | given => given

/-- The sum of a measure over the items. -/
def total (measure : α → Nat) (turns : Turns α) : Nat :=
  ((turns.fresh ++ turns.again ++ turns.broken).map measure).sum

@[simp] theorem total_ofList (measure : α → Nat) (items : List α)
    : (ofList items).total measure = (items.map measure).sum := by
  simp [total, ofList]

@[simp] theorem total_endRow (measure : α → Nat) (turns : Turns α)
    : turns.endRow.total measure = turns.total measure := by
  simp [total, endRow]

@[simp] theorem total_skip (measure : α → Nat) (turns : Turns α)
    : turns.skip.total measure = turns.total measure :=
  total_endRow measure turns

@[simp] theorem total_breakOff (measure : α → Nat) (turns : Turns α) (item : α)
    : (turns.breakOff item).total measure = measure item + turns.total measure := by
  simp only [total, breakOff, List.map_append, List.map_cons, List.sum_append, List.sum_cons]
  omega

theorem total_give? (measure : α → Nat) {turns rest : Turns α} {item : α}
    (h : turns.give? = some (item, rest))
    : turns.total measure = measure item + rest.total measure := by
  simp only [give?] at h
  split at h
  · contradiction
  · next fresh again =>
      cases h
      simp [total, fresh, again]
  · next fresh again =>
      cases h
      simp [total, fresh, again]
  · next fresh again =>
      split at h <;> cases h
      · simp [total, fresh, again]
      · simp only [total, fresh, again, List.map_append, List.map_cons, List.sum_append,
          List.sum_cons]
        omega

theorem total_next? (measure : α → Nat) {turns rest : Turns α} {item : α}
    (h : turns.next? = some (item, rest))
    : turns.total measure = measure item + rest.total measure := by
  have row : (if turns.left = 0 then turns.endRow else turns).total measure =
      turns.total measure := by
    split
    · exact total_endRow measure turns
    · rfl
  rw [← row]
  simp only [next?] at h
  split at h
  · exact (total_skip measure _).symm.trans (total_give? measure h)
  · exact total_give? measure h

/-- The first item has the first turn. -/
theorem next?_ofList_cons (item : α) (items : List α)
    : (ofList (item :: items)).next? =
        some (item, ⟨items, [], [], 1, rowLength - 1⟩) := rfl

end Turns

end Quorum
