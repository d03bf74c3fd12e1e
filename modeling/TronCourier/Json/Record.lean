import TronCourier.Json.Value

/-! Records read from JSON. An object gives fields by name in any order, none of
them twice; other names are skipped. A list gives the first fields in order. -/

namespace TronCourier.Json

structure Fields where
  /-- The record was written as a list, in which only a field with a default may
  be left out. -/
  listed : Bool
  given : List (String × Json)

def Fields.find (fs : Fields) (name : String) : Option Json :=
  (fs.given.find? fun m => m.1 == name).map Prod.snd

def fields? (names : List String) : Json → Option Fields
  | obj members =>
    let given := members.filter fun m => names.contains m.1
    if (given.map Prod.fst).Nodup then some ⟨false, given⟩ else none
  | arr items => if items.length ≤ names.length then some ⟨true, names.zip items⟩ else none
  | _ => none

namespace Fields

def required (fs : Fields) (name : String) (read : Json → Option α) : Option α :=
  (fs.find name).bind read

def withDefault (fs : Fields) (name : String) (value : α) (read : Json → Option α) : Option α :=
  match fs.find name with
  | none => some value
  | some j => read j

/-- A field that may be null, or left out where names are given. -/
def nullable (fs : Fields) (name : String) (read : Json → Option α) : Option (Option α) :=
  match fs.find name with
  | none => if fs.listed then none else some none
  | some j => j.orNull? read

def optional (fs : Fields) (name : String) (read : Json → Option α) : Option (Option α) :=
  fs.withDefault name none (Json.orNull? read)

end Fields

end TronCourier.Json
