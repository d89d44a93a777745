import Quorum.Word

/-! What is due at later moments of a clock that moves only when it is told to. -/

namespace Quorum

/-- Entries ascend by their moments; of two for one moment the earlier made comes first. -/
structure Agenda (α : Type) where
  now : Nat
  entries : List (Nat × α)

namespace Agenda

variable {α : Type}

def empty : Agenda α :=
  ⟨0, []⟩

def insert (moment : Nat) (item : α) : List (Nat × α) → List (Nat × α)
  | [] => [(moment, item)]
  | entry :: rest =>
      if moment < entry.1 then (moment, item) :: entry :: rest else entry :: insert moment item rest

/-- Adds an item that is due after a delay. -/
def add (agenda : Agenda α) (delay : Nat) (item : α) : Agenda α :=
  { agenda with entries := insert (agenda.now + delay) item agenda.entries }

/-- Takes out the first item that is due by a moment, and moves the clock to it. -/
def take? (agenda : Agenda α) (limit : Nat) : Option (α × Agenda α) :=
  match agenda.entries with
  | [] => none
  | (moment, item) :: rest => if moment ≤ limit then some (item, ⟨moment, rest⟩) else none

/-- Takes out all items of the first moment, if that is due, and moves the clock to it. -/
def takeDue? (agenda : Agenda α) (limit : Nat) : Option (List α × Agenda α) :=
  match agenda.entries with
  | [] => none
  | (moment, item) :: rest =>
      if moment ≤ limit then
        let first := fun (entry : Nat × α) => decide (entry.1 = moment)
        some (item :: (rest.takeWhile first).map (·.2), ⟨moment, rest.dropWhile first⟩)
      else none

/-- Moves the clock on. -/
def moveTo (agenda : Agenda α) (moment : Nat) : Agenda α :=
  { agenda with now := max agenda.now moment }

/-- The sum of a measure over the entries. -/
def total (measure : α → Nat) (agenda : Agenda α) : Nat :=
  (agenda.entries.map fun entry => measure entry.2).sum

@[simp] theorem total_add (measure : α → Nat) (agenda : Agenda α) (delay : Nat) (item : α)
    : (agenda.add delay item).total measure = agenda.total measure + measure item := by
  have sum (moment : Nat) (entries : List (Nat × α))
      : ((insert moment item entries).map fun entry => measure entry.2).sum =
          (entries.map fun entry => measure entry.2).sum + measure item := by
    induction entries with
    | nil => simp [insert]
    | cons entry rest ih =>
        unfold insert
        split
        · simp; omega
        · simp [ih]; omega
  exact sum _ _

theorem total_take? (measure : α → Nat) {agenda rest : Agenda α} {limit : Nat} {item : α}
    (h : agenda.take? limit = some (item, rest))
    : agenda.total measure = measure item + rest.total measure := by
  unfold take? at h
  split at h
  · contradiction
  · next entries =>
      split at h
      · cases h
        simp [total, entries]
      · contradiction

theorem total_takeDue? (measure : α → Nat) {agenda rest : Agenda α} {limit : Nat} {due : List α}
    (h : agenda.takeDue? limit = some (due, rest))
    : due ≠ [] ∧ agenda.total measure = (due.map measure).sum + rest.total measure := by
  unfold takeDue? at h
  split at h
  · contradiction
  · next moment item entries all =>
      split at h
      · simp only [Option.some.injEq, Prod.mk.injEq] at h
        obtain ⟨rfl, rfl⟩ := h
        refine ⟨List.cons_ne_nil _ _, ?_⟩
        have parts : entries.takeWhile (fun entry => decide (entry.1 = moment)) ++
            entries.dropWhile (fun entry => decide (entry.1 = moment)) = entries :=
          List.takeWhile_append_dropWhile
        simp only [total, all, List.map_cons, List.sum_cons, List.map_map]
        conv => lhs; rw [← parts]
        simp only [List.map_append, List.sum_append, Function.comp_def, Nat.add_assoc]
      · contradiction

end Agenda

end Quorum
