/-!
Tables keep their entries in the order in which the keys were first inserted. Inserting at a key
that is present replaces its value in place.
-/

namespace Workflow

abbrev Table (κ α : Type) := List (κ × α)

/-- The elements of a list without repetition, in order of first occurrence. -/
def distinct {α : Type} [DecidableEq α] : List α → List α
  | [] => []
  | a :: as => a :: (distinct as).filter (· ≠ a)

@[simp]
theorem mem_distinct {α : Type} [DecidableEq α] {a : α} {as : List α} : a ∈ distinct as ↔ a ∈ as := by
  induction as with
  | nil => simp [distinct]
  | cons b bs ih =>
      by_cases heq : a = b
      · simp [distinct, heq]
      · simp [distinct, heq, ih]

namespace Table

variable {κ α : Type}

section Keys

variable [DecidableEq κ]

def find? (t : Table κ α) (k : κ) : Option α :=
  match t with
  | [] => none
  | (k', a) :: rest => if k' = k then some a else find? rest k

def contains (t : Table κ α) (k : κ) : Bool := (find? t k).isSome

def insert (t : Table κ α) (k : κ) (a : α) : Table κ α :=
  match t with
  | [] => [(k, a)]
  | (k', a') :: rest => if k' = k then (k', a) :: rest else (k', a') :: insert rest k a

def erase (t : Table κ α) (k : κ) : Table κ α := t.filter fun entry => entry.1 ≠ k

/-- Changes the value at `k`, if there is one. -/
def adjust (t : Table κ α) (k : κ) (f : α → α) : Table κ α :=
  t.map fun (k', a) => if k' = k then (k', f a) else (k', a)

/-- The entries of `new`, one after the other, inserted into `t`. -/
def insertAll (t new : Table κ α) : Table κ α :=
  new.foldl (fun t entry => insert t entry.1 entry.2) t

def ofEntries (entries : List (κ × α)) : Table κ α := insertAll [] entries

end Keys

def keys (t : Table κ α) : List κ := t.map (·.1)

end Table

end Workflow
