import Workflow.Calendar
import Workflow.Table

/-!
Values: what workflow documents, payloads, parameters and results are made of. A mapping keeps its
entries in order, and its keys are scalars.
-/

namespace Workflow

inductive Scalar where
  | null
  | bool (value : Bool)
  | int (value : Int)
  | float (value : Float)
  | str (value : String)
  | date (value : Date)
  | moment (value : Moment)
  deriving DecidableEq, Inhabited

inductive Value where
  | scalar (value : Scalar)
  | list (items : List Value)
  | map (entries : List (Scalar × Value))
  deriving Inhabited

/-- The entries of a mapping. -/
abbrev Fields := Table Scalar Value

namespace Value

@[match_pattern] abbrev null : Value := .scalar .null
@[match_pattern] abbrev bool (value : Bool) : Value := .scalar (.bool value)
@[match_pattern] abbrev int (value : Int) : Value := .scalar (.int value)
@[match_pattern] abbrev float (value : Float) : Value := .scalar (.float value)
@[match_pattern] abbrev str (value : String) : Value := .scalar (.str value)

mutual

def decEq : (a b : Value) → Decidable (a = b)
  | .scalar a, .scalar b =>
    if h : a = b then isTrue (h ▸ rfl) else isFalse fun e => h (Value.scalar.inj e)
  | .list a, .list b =>
    match decEqItems a b with
    | isTrue h => isTrue (h ▸ rfl)
    | isFalse h => isFalse fun e => h (Value.list.inj e)
  | .map a, .map b =>
    match decEqEntries a b with
    | isTrue h => isTrue (h ▸ rfl)
    | isFalse h => isFalse fun e => h (Value.map.inj e)
  | .scalar _, .list _ => isFalse nofun
  | .scalar _, .map _ => isFalse nofun
  | .list _, .scalar _ => isFalse nofun
  | .list _, .map _ => isFalse nofun
  | .map _, .scalar _ => isFalse nofun
  | .map _, .list _ => isFalse nofun

def decEqItems : (a b : List Value) → Decidable (a = b)
  | [], [] => isTrue rfl
  | [], _ :: _ => isFalse nofun
  | _ :: _, [] => isFalse nofun
  | x :: xs, y :: ys =>
    match decEq x y, decEqItems xs ys with
    | isTrue h, isTrue hs => isTrue (h ▸ hs ▸ rfl)
    | isFalse h, _ => isFalse fun e => h (List.cons.inj e).1
    | _, isFalse hs => isFalse fun e => hs (List.cons.inj e).2

def decEqEntries : (a b : List (Scalar × Value)) → Decidable (a = b)
  | [], [] => isTrue rfl
  | [], _ :: _ => isFalse nofun
  | _ :: _, [] => isFalse nofun
  | (j, x) :: xs, (k, y) :: ys =>
    match decEq x y, decEqEntries xs ys with
    | isTrue h, isTrue hs =>
      if hk : j = k then isTrue (hk ▸ h ▸ hs ▸ rfl)
      else isFalse fun e => hk (Prod.mk.inj (List.cons.inj e).1).1
    | isFalse h, _ => isFalse fun e => h (Prod.mk.inj (List.cons.inj e).1).2
    | _, isFalse hs => isFalse fun e => hs (List.cons.inj e).2

end

instance : DecidableEq Value := decEq

def ofOption (f : α → Value) : Option α → Value
  | none => .null
  | some a => f a

def strs (texts : List String) : Value := .list (texts.map .str)

/-- Whether a value counts as present: `null`, `false`, zero and everything empty do not. -/
def isTruthy : Value → Bool
  | .scalar .null => false
  | .scalar (.bool b) => b
  | .scalar (.int n) => n ≠ 0
  | .scalar (.float x) => !(x == 0)
  | .scalar (.str s) => s ≠ ""
  | .scalar (.date _) => true
  | .scalar (.moment _) => true
  | .list items => !items.isEmpty
  | .map entries => !entries.isEmpty

end Value

namespace Fields

/-- The value under a name. -/
def get? (fields : Fields) (name : String) : Option Value := Table.find? fields (.str name)

/-- The value under a name; `null` when there is none. -/
def get (fields : Fields) (name : String) : Value := (get? fields name).getD .null

def set (fields : Fields) (name : String) (value : Value) : Fields :=
  Table.insert fields (.str name) value

/-- A mapping from names. -/
def named (entries : List (String × Value)) : Fields :=
  entries.map fun entry => (.str entry.1, entry.2)

end Fields

/-- A mapping value from names. -/
def Value.record (entries : List (String × Value)) : Value := .map (Fields.named entries)

end Workflow
