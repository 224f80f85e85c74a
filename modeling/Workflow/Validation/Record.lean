import Workflow.Validation.Scalar

/-!
Decoders for lists, mappings and records. A field may be known under several names, of which the
first one present counts; a problem is reported under the name that was used, and a missing field
under the first.
-/

namespace Workflow.Decode

variable {α : Type}

/-- Decodes the items of a list from the one with index `index` on. -/
def itemsFrom (decode : Decoder α) (index : Nat) : List Value → List (Checked α)
  | [] => []
  | item :: rest => (decode item).within (.item index) :: itemsFrom decode (index + 1) rest

def list (decode : Decoder α) : Decoder (List α)
  | .list items => .collect (itemsFrom decode 0 items)
  | _ => .problem .notList

def nullable (decode : Decoder α) : Decoder (Option α)
  | .null => .valid none
  | value => (decode value).map some

/-- How a key is named in a place: machine words by their value, all others by their text. -/
def keyPlace : Scalar → Place
  | .int n => if fitsWord n then .item n else .field (toString n)
  | .bool b => .item (if b then 1 else 0)
  | .str s => .field s
  | key => .field key.literal

/-- A key that has to be a text. -/
def textKey : Scalar → Checked Scalar
  | .str s => .valid (.str s)
  | key => ((Checked.problem .notText).within (.field "[key]")).within (keyPlace key)

/-- A mapping from texts to any values. -/
def mapping : Decoder Fields
  | .map entries =>
    (Checked.collect (entries.map fun entry => textKey entry.1)).map fun _ => entries
  | _ => .problem .notMapping

/-- A record is given as a mapping; keys that name none of its fields are ignored. -/
def record (model : String) (decode : Fields → Checked α) : Decoder α
  | .map entries => decode entries
  | _ => .problem (.notRecord model)

/-- The first of the names that is present, with its value. -/
def present? (fields : Fields) : List String → Option (String × Value)
  | [] => none
  | name :: names =>
    match fields.get? name with
    | some value => some (name, value)
    | none => present? fields names

def required (fields : Fields) (names : List String) (decode : Decoder α) : Checked α :=
  match present? fields names with
  | some (name, value) => (decode value).within (.field name)
  | none => (Checked.problem .missing).within (.field (names.headD ""))

def optional (fields : Fields) (names : List String) (default : α) (decode : Decoder α) :
    Checked α :=
  match present? fields names with
  | some (name, value) => (decode value).within (.field name)
  | none => .valid default

end Workflow.Decode
