import TronCourier.Store.Store

/-! One store for each sender, made when it is first asked for. -/

namespace TronCourier

structure Accounts where
  stores : Table Address Store := .empty
deriving Repr

namespace Accounts

def empty : Accounts := {}

def ensure (as : Accounts) (a : Address) : Accounts :=
  if as.stores.contains a then as else ⟨as.stores.insert a .empty⟩

def store (as : Accounts) (a : Address) : Store :=
  (as.stores.get? a).getD .empty

def set (as : Accounts) (a : Address) (s : Store) : Accounts :=
  ⟨as.stores.insert a s⟩

def find? (as : Accounts) (id : String) : Option Address :=
  (as.stores.rows.find? fun row => row.2.entries.contains id).map Prod.fst

def entry? (as : Accounts) (id : String) : Option Entry :=
  (as.find? id).bind fun a => (as.store a).entries.get? id

def status (as : Accounts) (id : String) : Status :=
  match as.entry? id with
  | some e => .ofStage e.tx.stage
  | none => .unknown

def hashRows (as : Accounts) : Table String String :=
  ⟨as.stores.rows.foldl (fun rows row =>
    row.2.hashes.rows.foldl (fun rows h => Table.put h.1 h.2 rows) rows) []⟩

def awaitingCount (as : Accounts) : Nat :=
  as.stores.rows.foldl (fun n row => n + row.2.awaiting.length) 0

def finishedCount (as : Accounts) : Nat :=
  as.stores.rows.foldl (fun n row => n + row.2.finished.size) 0

end Accounts

end TronCourier
