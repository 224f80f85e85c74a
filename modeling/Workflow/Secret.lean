import Workflow.Host

/-!
Secrets by the ids of their credentials. They are kept in a table of their own or in the
environment, and one that is empty counts as missing.
-/

namespace Workflow

inductive SecretStore where
  | table (secrets : Table String String)
  /-- Environment variables whose names are the ids behind a common beginning. -/
  | environment (beginning : String)
  deriving DecidableEq

namespace SecretStore

def find? (host : Host) (id : String) : SecretStore → Option String
  | .table secrets => (Table.find? secrets id).filter (· ≠ "")
  | .environment beginning => (host.setting? (beginning ++ id)).filter (· ≠ "")

/-- The environment is not changed through a store. -/
def set (id value : String) : SecretStore → SecretStore
  | .table secrets => .table (Table.insert secrets id value)
  | store => store

def remove (id : String) : SecretStore → SecretStore
  | .table secrets => .table (Table.erase secrets id)
  | store => store

def resolve (host : Host) (store : SecretStore) (id : String) : Except Failure String :=
  match store.find? host id with
  | some secret => .ok secret
  | none => .error (.secretNotFound id)

/-- Those of some credentials that have no secret. -/
def missing (host : Host) (store : SecretStore) (ids : List String) : List String :=
  ids.filter fun id => (store.find? host id).isNone

end SecretStore

end Workflow
