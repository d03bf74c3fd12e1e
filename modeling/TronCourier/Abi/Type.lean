import TronCourier.Number.Bounds
import TronCourier.Text.Blank
import TronCourier.Text.Integer

/-! The types of contract parameters and their names. A name is a base type with
any number of array suffixes, the innermost suffix first. -/

namespace TronCourier

inductive AbiType
  | address
  | bool
  | uint (bits : Nat)
  | int (bits : Nat)
  | fixedBytes (count : Nat)
  | bytes
  | string
  | array (item : AbiType)
  | fixedArray (item : AbiType) (count : Nat)
deriving DecidableEq, Repr

namespace AbiType

def name : AbiType → String
  | address => "address"
  | bool => "bool"
  | uint bits => "uint" ++ toString bits
  | int bits => "int" ++ toString bits
  | fixedBytes count => "bytes" ++ toString count
  | bytes => "bytes"
  | string => "string"
  | array item => item.name ++ "[]"
  | fixedArray item count => item.name ++ "[" ++ toString count ++ "]"

def count? (cs : List Char) : Option Nat :=
  (Text.readNat nat64Max cs).toOption

def bitWidth? (cs : List Char) : Option Nat :=
  (count? cs).filter fun n => n % 8 == 0 && 8 ≤ n && n ≤ 256

def byteWidth? (cs : List Char) : Option Nat :=
  (count? cs).filter fun n => 1 ≤ n && n ≤ 32

def ofBaseName? (cs : List Char) : Option AbiType :=
  match cs with
  | 'u' :: 'i' :: 'n' :: 't' :: r => if r.isEmpty then some (uint 256) else (bitWidth? r).map uint
  | 'i' :: 'n' :: 't' :: r => if r.isEmpty then some (int 256) else (bitWidth? r).map int
  | 'b' :: 'y' :: 't' :: 'e' :: 's' :: r =>
    if r.isEmpty then some bytes else (byteWidth? r).map fixedBytes
  | _ =>
    if cs = "address".toList then some address
    else if cs = "bool".toList then some bool
    else if cs = "string".toList then some string
    else none

/-- What stands before and inside the brackets that end a name. There is no
inside without an opening bracket. -/
def splitSuffix? (cs : List Char) : Option (List Char × Option (List Char)) :=
  match cs.reverse with
  | ']' :: r =>
    match r.dropWhile (· ≠ '[') with
    | _ :: inner => some (inner.reverse, some (r.takeWhile (· ≠ '[')).reverse)
    | [] => some ([], none)
  | _ => none

theorem length_trimChars_le (cs : List Char) : (Text.trimChars cs).length ≤ cs.length := by
  have inner := (List.dropWhile_suffix (p := Text.isBlank) (l := cs)).length_le
  have outer := (List.dropWhile_suffix (p := Text.isBlank)
    (l := (cs.dropWhile Text.isBlank).reverse)).length_le
  simp only [Text.trimChars, List.length_reverse] at *
  omega

theorem length_lt_of_splitSuffix? {cs inner : List Char} {size : List Char}
    (h : splitSuffix? cs = some (inner, some size)) : inner.length < cs.length := by
  unfold splitSuffix? at h
  split at h
  · rename_i r hr
    have whole : cs.length = r.length + 1 := by
      rw [← List.length_reverse, hr, List.length_cons]
    have part := (List.dropWhile_suffix (p := (· ≠ '[')) (l := r)).length_le
    split at h
    · rename_i hd
      rw [hd, List.length_cons] at part
      simp only [Option.some.injEq, Prod.mk.injEq] at h
      rw [← h.1, List.length_reverse]
      omega
    · simp at h
  · simp at h

/-- Reads a name with blanks around any of its parts. What fails is given back:
the innermost text that is no type. -/
def parseChars (cs : List Char) : Except String AbiType :=
  let trimmed := Text.trimChars cs
  match _split : splitSuffix? trimmed with
  | some (inner, some size) => do
    let item ← parseChars inner
    if size.isEmpty then return array item
    else match count? size with
      | some n => return fixedArray item n
      | none => .error (String.ofList trimmed)
  | some (_, none) => .error (String.ofList trimmed)
  | none =>
    match ofBaseName? trimmed with
    | some t => .ok t
    | none => .error (String.ofList trimmed)
termination_by cs.length
decreasing_by
  exact Nat.lt_of_lt_of_le (length_lt_of_splitSuffix? _split) (length_trimChars_le cs)

def parse (s : String) : Except String AbiType :=
  parseChars s.toList

def isDynamic : AbiType → Bool
  | bytes | string | array _ => true
  | fixedArray item _ => item.isDynamic
  | _ => false

/-- How many octets a value takes in the head of an enclosing tuple. -/
def headSize : AbiType → Nat
  | fixedArray item count => if item.isDynamic then 32 else item.headSize * count
  | _ => 32

end AbiType

end TronCourier
