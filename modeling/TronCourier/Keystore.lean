import TronCourier.Address
import TronCourier.Curve.Signature

/-! Secret keys by the accounts that they sign for. -/

namespace TronCourier

inductive KeyError
  | badHex (cause : Text.HexError)
  | length (count : Nat)
  | notScalar
deriving DecidableEq, Repr

def KeyError.message : KeyError → String
  | badHex cause => cause.message
  | length count => "expected 32 bytes, got " ++ toString count
  | notScalar => "signature error"

inductive KeystoreError
  | unknownAddress (address : Address)
  | digestLength (count : Nat)
  | invalidKey (cause : KeyError)
  | signing (reason : String)
deriving DecidableEq, Repr

def KeystoreError.message : KeystoreError → String
  | unknownAddress address => "No key for address " ++ address.toBase58
  | digestLength count => "Invalid digest: expected 32 bytes, got " ++ toString count
  | invalidKey cause => "Invalid private key: " ++ cause.message
  | signing reason => "Signing error: " ++ reason

structure Keystore where
  keys : List (Address × Nat)
deriving Repr

namespace Keystore

def empty : Keystore := ⟨[]⟩

def accounts (ks : Keystore) : List Address :=
  ks.keys.map Prod.fst

def secret? (ks : Keystore) (a : Address) : Option Nat :=
  ks.keys.lookup a

def accountOf (secret : Nat) : Option Address :=
  (Secp256k1.publicOctets? (Secp256k1.publicPoint secret)).map Address.ofPublicOctets

/-- A secret in 32 octets: a scalar of the curve other than zero. -/
def readSecret (octets : Bytes) : Except KeyError Nat :=
  if octets.length ≠ 32 then .error (.length octets.length)
  else
    let n := Bytes.toNat octets
    if n = 0 ∨ Secp256k1.order ≤ n then .error .notScalar else .ok n

def add (ks : Keystore) (octets : Bytes) : Except KeystoreError (Keystore × Address) := do
  let secret ← (readSecret octets).mapError .invalidKey
  match accountOf secret with
  | none => .error (.invalidKey .notScalar)
  | some a => return (⟨(a, secret) :: ks.keys.filter fun k => k.1 ≠ a⟩, a)

def addHex (ks : Keystore) (text : String) : Except KeystoreError Keystore := do
  let text := Text.trim text
  if text.isEmpty then return ks
  else
    let octets ← (Text.unhex (Address.withoutMarker text)).mapError fun e => .invalidKey (.badHex e)
    return (← ks.add octets).1

/-- A keystore of secrets written in hexadecimal, where blank entries are passed
over. -/
def ofHexKeys (texts : List String) : Except KeystoreError Keystore :=
  texts.foldlM addHex empty

/-- Signs a digest. Without a digest it only tells whether the account's key is
here. -/
def sign (ks : Keystore) (a : Address) (digest : Option Bytes) : Except KeystoreError Bytes :=
  match ks.secret? a with
  | none => .error (.unknownAddress a)
  | some secret =>
    match digest with
    | none => .ok []
    | some d =>
      if d.length ≠ 32 then .error (.digestLength d.length)
      else match Secp256k1.sign secret d with
        | some σ => .ok σ.encode
        | none => .error (.signing "signature error")

end Keystore

end TronCourier
