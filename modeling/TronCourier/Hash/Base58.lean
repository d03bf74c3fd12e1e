import TronCourier.Hash.Sha256
import TronCourier.Text.Utf8
import TronCourier.Text.Quoted

/-! Base58 text, and its form that ends in four octets of a double SHA-256. Each
zero octet at the front is written as the digit one. -/

namespace TronCourier.Base58

def alphabet : List Char :=
  "123456789ABCDEFGHJKLMNPQRSTUVWXYZabcdefghijkmnopqrstuvwxyz".toList

inductive Error
  | badCharacter (octet : UInt8) (position : Nat)
  | notAscii (position : Nat)
  | tooShort
  | badChecksum (computed given : Bytes)
deriving DecidableEq, Repr

namespace Error

def listing (bs : Bytes) : String :=
  "[" ++ String.intercalate ", " (bs.map fun b => toString b.toNat) ++ "]"

def message : Error → String
  | badCharacter octet position =>
    "provided string contained invalid character " ++ Text.quoted (Char.ofNat octet.toNat) ++
      " at byte " ++ toString position
  | notAscii position =>
    "provided string contained non-ascii character starting at byte " ++ toString position
  | tooShort => "provided string is too small to contain a checksum"
  | badChecksum computed given =>
    "invalid checksum, calculated checksum: '" ++ listing computed ++
      "', expected checksum: " ++ listing given

end Error

/-- The base 58 digits of a number, least significant first. Zero has none. -/
def digits (n : Nat) : List Nat :=
  if n = 0 then [] else n % 58 :: digits (n / 58)
termination_by n
decreasing_by omega

def symbol (digit : Nat) : Char :=
  alphabet.getD digit '1'

def encode (bs : Bytes) : String :=
  let ones := (bs.takeWhile (· == 0)).map fun _ => '1'
  String.ofList (ones ++ ((digits (Bytes.toNat bs)).reverse.map symbol))

def digitValue (octet : UInt8) : Option Nat :=
  alphabet.idxOf? (Char.ofNat octet.toNat)

/-- Reads digits that start `position` octets into the text onto the number `n`. -/
def readDigits (n position : Nat) : Bytes → Except Error Nat
  | [] => .ok n
  | b :: r =>
    if 127 < b then .error (.notAscii position)
    else match digitValue b with
      | none => .error (.badCharacter b position)
      | some d => readDigits (n * 58 + d) (position + 1) r

def decode (s : String) : Except Error Bytes := do
  let text := Text.utf8 s
  let n ← readDigits 0 0 text
  return (text.takeWhile (· == 0x31)).map (fun _ => 0) ++ Bytes.minimal n

def checksum (payload : Bytes) : Bytes :=
  (sha256 (sha256 payload)).take 4

def encodeCheck (payload : Bytes) : String :=
  encode (payload ++ checksum payload)

def decodeCheck (s : String) : Except Error Bytes := do
  let bs ← decode s
  if bs.length < 4 then .error .tooShort
  else
    let payload := bs.take (bs.length - 4)
    let given := bs.drop (bs.length - 4)
    if checksum payload = given then .ok payload
    else .error (.badChecksum (checksum payload) given)

end TronCourier.Base58
