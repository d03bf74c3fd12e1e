import TronCourier.Abi.Type
import TronCourier.Address
import TronCourier.Hash.Keccak256
import TronCourier.Json.Value

/-! Call data of contracts. Parameters come as a list in which a type's name and
a value alternate. Values are laid out in a head and a tail: a static value
stands in the head, a dynamic one in the tail behind an offset in the head. -/

namespace TronCourier.Abi

inductive ValueError
  | notString
  | badAddress (cause : Address.Error)
  | notBoolean
  | outOfRange
  | byteCount (wanted got : Nat)
  | notHex
  | badHex (cause : Text.HexError)
  | notArray
  | itemCount (wanted got : Nat)
  | notUnsigned
  | emptyNumber
  | badDigit (c : Char)
  | notNumber
  | notInteger
  | badInteger (cause : Text.IntegerError)
deriving DecidableEq, Repr

def ValueError.message : ValueError → String
  | notString => "expected string"
  | badAddress cause => cause.message
  | notBoolean => "expected boolean"
  | outOfRange => "value out of range"
  | byteCount wanted got => "expected " ++ toString wanted ++ " bytes, got " ++ toString got
  | notHex => "expected hex string"
  | badHex cause => cause.message
  | notArray => "expected array"
  | itemCount wanted got => "expected " ++ toString wanted ++ " elements, got " ++ toString got
  | notUnsigned => "expected unsigned integer"
  | emptyNumber => "empty number"
  | badDigit c => "invalid digit " ++ Text.quoted c
  | notNumber => "expected number or string"
  | notInteger => "expected integer"
  | badInteger cause => cause.message

inductive Error
  | oddCount (count : Nat)
  | typeNotString (position : Nat)
  | unsupportedType (text : String)
  | invalidValue (type : AbiType) (cause : ValueError)
  /-- A tuple, or its head alone, would not fit into memory. -/
  | headTooLarge
deriving DecidableEq, Repr

def Error.message : Error → String
  | oddCount count =>
    "Parameter list must alternate type and value, got " ++ toString count ++ " entries"
  | typeNotString position =>
    "Parameter type at position " ++ toString position ++ " must be a string"
  | unsupportedType text => "Unsupported ABI type: " ++ text
  | invalidValue type cause => "Invalid value for " ++ type.name ++ ": " ++ cause.message
  | headTooLarge => "capacity overflow"

def word (n : Nat) : Bytes :=
  Bytes.ofNat 32 n

/-- Zeros that fill `length` octets up to whole words. -/
def filler (length : Nat) : Bytes :=
  Bytes.zeros ((32 - length % 32) % 32)

def lengthPrefixed (bs : Bytes) : Bytes :=
  word bs.length ++ (bs ++ filler bs.length)

/-- Head and tail of parts that are dynamic or not. The next dynamic part starts
at `offset`. -/
def headAndTail : Nat → List (Bool × Bytes) → Bytes × Bytes
  | _, [] => ([], [])
  | offset, (true, part) :: rest =>
    let (head, tail) := headAndTail (offset + part.length) rest
    (word offset ++ head, part ++ tail)
  | offset, (false, part) :: rest =>
    let (head, tail) := headAndTail offset rest
    (part ++ head, tail)

/-- As many octets, or items, cannot be asked for. That the machine may have too little memory
for fewer of them, so that an allocation below this limit fails, is left out. -/
def memoryLimit : Nat := 0x8000000000000000

/-- Sizes are counted in 64 bits, and half of these can be asked for. It is left out that what
can be asked for may fail to be allocated. -/
def fitsMemory (headLength : Nat) : Bool :=
  headLength % (nat64Max + 1) < memoryLimit

def layout (headLength : Nat) (parts : List (Bool × Bytes)) : Except Error Bytes :=
  let (head, tail) := headAndTail headLength parts
  if head.length + tail.length < memoryLimit then .ok (head ++ tail) else .error .headTooLarge

/-- A word times ten plus `carry`, octet by octet from the last one, and what the first octet
carries out. -/
def timesTen (carry : UInt16) : Bytes → Bytes × UInt16
  | [] => ([], carry)
  | b :: r =>
    let (rest, carry) := timesTen carry r
    let v := b.toUInt16 * 10 + carry
    (v.toUInt8 :: rest, v >>> 8)

/-- Appends decimal digits to the number in a word. -/
def readDecimal (w : Bytes) : List Char → Except ValueError Bytes
  | [] => .ok w
  | c :: r =>
    match Text.digit? c with
    | none => .error (.badDigit c)
    | some d =>
      let (next, carry) := timesTen (UInt16.ofNat d) w
      if carry = 0 then readDecimal next r else .error .outOfRange

/-- A hexadecimal number of at most 32 octets, of which the first may lack its
first digit. -/
def readHexNumber (text : Bytes) : Except ValueError Bytes :=
  let padded := if text.length % 2 = 1 then 0x30 :: text else text
  match Text.unhexOctets padded with
  | .error e => .error (.badHex e)
  | .ok bs =>
    if 32 < bs.length then .error .outOfRange else .ok (Bytes.zeros (32 - bs.length) ++ bs)

/-- The word of an unsigned integer. -/
def readUnsigned : Json → Except ValueError Bytes
  | .int n => if 0 ≤ n ∧ n ≤ nat64Max then .ok (word n.toNat) else .error .notUnsigned
  | .real _ => .error .notUnsigned
  | .str s =>
    match s.toList with
    | '0' :: 'x' :: r => readHexNumber (Text.utf8 (String.ofList r))
    | [] => .error .emptyNumber
    | cs => readDecimal (Bytes.zeros 32) cs
  | _ => .error .notNumber

def readSigned : Json → Except ValueError Int
  | .int n => if int64Min ≤ n ∧ n ≤ int64Max then .ok n else .error .notInteger
  | .real _ => .error .notInteger
  | .str s =>
    match Text.readInt (Nat.pow 2 127) (Nat.pow 2 127 - 1) s.toList with
    | .ok n => .ok n
    | .error e => .error (.badInteger e)
  | _ => .error .notNumber

def readBytes : Json → Except ValueError Bytes
  | .str s =>
    match Text.unhex (Address.withoutMarker s) with
    | .ok bs => .ok bs
    | .error e => .error (.badHex e)
  | _ => .error .notHex

def readBool : Json → Except ValueError Bool
  | .bool b => .ok b
  | .str s => if s = "true" then .ok true else if s = "false" then .ok false else .error .notBoolean
  | _ => .error .notBoolean

/-- The encoding of a value that is no array. -/
def encodeAtom (type : AbiType) (value : Json) : Except ValueError Bytes :=
  match type with
  | .address =>
    match value.str? with
    | none => .error .notString
    | some s =>
      match Address.parse s with
      | .ok a => .ok (Bytes.zeros 12 ++ a.hash)
      | .error e => .error (.badAddress e)
  | .bool => (readBool value).map fun b => word (if b then 1 else 0)
  | .uint bits => do
    let w ← readUnsigned value
    if (w.take ((256 - bits) / 8)).all (· == 0) then return w else .error .outOfRange
  | .int bits => do
    let n ← readSigned value
    let half : Int := Nat.pow 2 (bits - 1)
    if bits < 128 ∧ ¬(-half ≤ n ∧ n < half) then .error .outOfRange
    else return Bytes.ofInt 32 n
  | .fixedBytes count => do
    let bs ← readBytes value
    if bs.length = count then return bs ++ filler bs.length
    else .error (.byteCount count bs.length)
  | .bytes => (readBytes value).map lengthPrefixed
  | .string =>
    match value.str? with
    | none => .error .notString
    | some s => .ok (lengthPrefixed (Text.utf8 s))
  | .array _ | .fixedArray _ _ => .error .notArray

/-- The items of an array, of which a fixed array wants a certain number. -/
def arrayItems (type : AbiType) (value : Json) : Except Error (List Json) :=
  match value.arr? with
  | none => .error (.invalidValue type .notArray)
  | some items =>
    match type with
    | .fixedArray _ count =>
      if items.length = count then .ok items
      else .error (.invalidValue type (.itemCount count items.length))
    | _ => .ok items

/-- The items of one type, each encoded by `encode`, laid out. -/
def layoutItems (type : AbiType) (encode : Json → Except Error Bytes) (items : List Json) :
    Except Error Bytes := do
  let headLength := items.length * type.headSize
  if !(items.length < memoryLimit && fitsMemory headLength) then .error .headTooLarge
  else
    let parts ← items.mapM encode
    layout headLength (parts.map fun part => (type.isDynamic, part))

def encodeValue : AbiType → Json → Except Error Bytes
  | .array item, value => do
    let items ← arrayItems (.array item) value
    return word items.length ++ (← layoutItems item (encodeValue item) items)
  | .fixedArray item count, value => do
    let items ← arrayItems (.fixedArray item count) value
    layoutItems item (encodeValue item) items
  | type, value => (encodeAtom type value).mapError (.invalidValue type)

def encodeTuple (params : List (AbiType × Json)) : Except Error Bytes := do
  let headLength := params.foldl (fun n p => n + p.1.headSize) 0
  if !fitsMemory headLength then .error .headTooLarge
  else
    let parts ← params.mapM fun p => return (p.1.isDynamic, ← encodeValue p.1 p.2)
    layout headLength parts

/-- Pairs the types' names with the values. Names stand at even positions. -/
def pairs (position : Nat) : List Json → Except Error (List (String × Json))
  | name :: value :: rest =>
    match name.str? with
    | none => .error (.typeNotString position)
    | some s => do return (s, value) :: (← pairs (position + 2) rest)
  | _ => .ok []

def checkShape (params : List Json) : Except Error (List (String × Json)) :=
  if params.length % 2 = 1 then .error (.oddCount params.length) else pairs 0 params

def readType (name : String) : Except Error AbiType :=
  (AbiType.parse name).mapError .unsupportedType

def encodeParams (params : List Json) : Except Error Bytes := do
  let named ← checkShape params
  let typed ← named.mapM fun p => return (← readType p.1, p.2)
  encodeTuple typed

/-- Four octets that name a method, whatever blanks its signature has. -/
def selector (method : String) : Bytes :=
  (keccak256 (Text.utf8 (Text.squeeze method))).take 4

def encodeCall (method : String) (params : List Json) : Except Error Bytes := do
  return selector method ++ (← encodeParams params)

end TronCourier.Abi
