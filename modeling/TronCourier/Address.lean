import TronCourier.Hash.Base58
import TronCourier.Hash.Keccak256
import TronCourier.Text.Blank
import TronCourier.Text.Hex
import TronCourier.Json.Value

/-! Account addresses of the TRON network. An address is a hash of twenty octets
behind the network's octet 0x41. Its usual text is base58check and starts with
T; hexadecimal text is read too, with or without the network's octet. -/

namespace TronCourier

structure Address where
  hash : Bytes
  length_hash : hash.length = 20

namespace Address

instance : DecidableEq Address := fun a b =>
  decidable_of_iff (a.hash = b.hash) (by cases a; cases b; simp)

instance : Repr Address := ⟨fun a _ => repr a.hash⟩

def network : UInt8 := 0x41

def byteCount : Nat := 21

inductive Error
  | base58 (cause : Base58.Error)
  | hex (cause : Text.HexError)
  | length (count : Nat)
  | network (octet : UInt8)
deriving DecidableEq, Repr

namespace Error

def message : Error → String
  | base58 cause => "Invalid base58check address: " ++ cause.message
  | hex cause => "Invalid hex address: " ++ cause.message
  | length count =>
    "Invalid address length: expected " ++ toString byteCount ++ " bytes, got " ++ toString count
  | network octet => "Invalid address prefix: 0x" ++ Text.hex [octet]

end Error

/-- The address whose hash starts with the first twenty of `bs`, filled up with
zeros. -/
def ofHash (bs : Bytes) : Address :=
  ⟨(bs ++ Bytes.zeros 20).take 20, by simp [Bytes.zeros]⟩

def toBytes (a : Address) : Bytes :=
  network :: a.hash

def ofBytes (bs : Bytes) : Except Error Address :=
  match bs with
  | n :: hash =>
    if h : hash.length = 20 then
      if n = network then .ok ⟨hash, h⟩ else .error (.network n)
    else .error (.length bs.length)
  | [] => .error (.length 0)

def toBase58 (a : Address) : String :=
  Base58.encodeCheck a.toBytes

def toHex (a : Address) : String :=
  Text.hex a.toBytes

def ofBase58 (s : String) : Except Error Address :=
  match Base58.decodeCheck s with
  | .ok bs => ofBytes bs
  | .error e => .error (.base58 e)

def withoutMarker (s : String) : String :=
  match s.toList with
  | '0' :: 'x' :: r => String.ofList r
  | _ => s

def ofHex (s : String) : Except Error Address :=
  match Text.unhex (withoutMarker s) with
  | .ok bs => if h : bs.length = 20 then .ok ⟨bs, h⟩ else ofBytes bs
  | .error e => .error (.hex e)

def parse (s : String) : Except Error Address :=
  let s := Text.trim s
  if s.toList.head? = some 'T' then ofBase58 s else ofHex s

def toJson (a : Address) : Json :=
  .str a.toBase58

def json? (j : Json) : Option Address :=
  j.str?.bind fun s => (parse s).toOption

/-- The account of a public point: the end of the hash of its coordinates. -/
def ofPublicOctets (bs : Bytes) : Address :=
  ofHash ((keccak256 bs).drop 12)

def le (a b : Address) : Bool :=
  Bytes.toNat a.hash ≤ Bytes.toNat b.hash

def sort (as : List Address) : List Address :=
  as.mergeSort le

theorem ofBytes_toBytes (a : Address) : ofBytes a.toBytes = .ok a := by
  simp [ofBytes, toBytes, a.length_hash]

end Address

end TronCourier
