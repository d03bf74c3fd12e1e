import TronCourier.Json.Value

/-! The tables of a TOML document while it is read. A table may be opened by its
header once, and a table that dotted keys have made only by more such keys. -/

namespace TronCourier.Toml

inductive Item
  /-- A finished value, inline tables and lists included. -/
  | value (v : Json)
  /-- A table. It is implicit until its own header is read. -/
  | table (implicit dotted : Bool) (rows : List (String × Item))
  /-- Tables under one repeated header, the latest one first. -/
  | tables (items : List (List (String × Item)))
deriving Inhabited

abbrev Rows := List (String × Item)

def find (rows : Rows) (key : String) : Option Item :=
  (rows.find? fun r => r.1 == key).map Prod.snd

def put (rows : Rows) (key : String) (item : Item) : Rows :=
  rows.filter (fun r => r.1 != key) ++ [(key, item)]

/-- Changes the table at a path. Missing tables are made on the way. The last of
repeated tables is meant. -/
def at? (dotted : Bool) (change : Bool → Rows → Option Rows) :
    List String → (isDotted : Bool) → Rows → Option Rows
  | [], isDotted, rows => change isDotted rows
  | key :: path, _, rows =>
    match find rows key with
    | none => do
      let inner ← at? dotted change path dotted []
      return put rows key (.table true dotted inner)
    | some (.value _) => none
    | some (.tables []) => none
    | some (.tables (last :: earlier)) => do
      let last ← at? dotted change path false last
      return put rows key (.tables (last :: earlier))
    | some (.table implicit isDotted inner) =>
      if dotted && !implicit then none
      else do
        let inner ← at? dotted change path isDotted inner
        return put rows key (.table implicit isDotted inner)

/-- Adds a value under a dotted key. Only tables made by dotted keys take keys
with a path. -/
def addValue (path : List String) (key : String) (v : Json) (rows : Rows) : Option Rows :=
  at? true (fun isDotted rows =>
    if isDotted == path.isEmpty then none
    else if (find rows key).isSome then none
    else some (put rows key (.value v))) path false rows

/-- The rows that a header's table starts with, and the document without them. -/
def openTable (path : List String) (root : Rows) : Option (Rows × Rows) :=
  match path.reverse with
  | [] => none
  | key :: parents =>
    match find (lookup parents.reverse root) key with
    | none => some ([], root)
    | some (.table true false rows) => do
      let root ← at? false (fun _ rows => some (rows.filter fun r => r.1 != key)) parents.reverse
        false root
      return (rows, root)
    | some _ => none
where
  lookup : List String → Rows → Rows
    | [], rows => rows
    | key :: path, rows =>
      match find rows key with
      | some (.table _ _ inner) => lookup path inner
      | some (.tables (last :: _)) => lookup path last
      | _ => []

def closeTable (path : List String) (repeated : Bool) (table root : Rows) : Option Rows :=
  match path.reverse with
  | [] => some table
  | key :: parents =>
    at? false (fun _ rows =>
      if repeated then
        match find rows key with
        | none => some (put rows key (.tables [table]))
        | some (.tables items) => some (put rows key (.tables (table :: items)))
        | _ => none
      else
        match find rows key with
        | none | some (.table true _ _) => some (put rows key (.table false false table))
        | _ => none) parents.reverse false root

def openRepeated (path : List String) (root : Rows) : Option Rows :=
  match path.reverse with
  | [] => none
  | key :: parents =>
    at? false (fun _ rows =>
      match find rows key with
      | none | some (.tables _) => some rows
      | _ => none) parents.reverse false root

mutual

def Item.toJson : Item → Json
  | .value v => v
  | .table _ _ rows => .obj (rowsJson rows)
  | .tables items => .arr (itemsJson items).reverse

def rowsJson : Rows → List (String × Json)
  | [] => []
  | (k, item) :: rest => (k, item.toJson) :: rowsJson rest

def itemsJson : List Rows → List Json
  | [] => []
  | rows :: rest => .obj (rowsJson rows) :: itemsJson rest

end

end TronCourier.Toml
