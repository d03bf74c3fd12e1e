import TronCourier.Text.Utf8
import TronCourier.Text.Quoted

/-! Octets as pairs of hexadecimal digits. Writing uses lower case, reading takes
both cases. -/

namespace TronCourier.Text

/-- Why a text is no hexadecimal text. The length is looked at first. -/
inductive HexError
  | oddLength
  | badDigit (octet : UInt8) (position : Nat)
deriving DecidableEq, Repr

namespace HexError

def message : HexError → String
  | oddLength => "Odd number of digits"
  | badDigit octet position =>
    "Invalid character " ++ quoted (Char.ofNat octet.toNat) ++ " at position " ++ toString position

end HexError

def hexValue (octet : UInt8) : Option Nat :=
  let n := octet.toNat
  if 48 ≤ n && n ≤ 57 then some (n - 48)
  else if 97 ≤ n && n ≤ 102 then some (n - 87)
  else if 65 ≤ n && n ≤ 70 then some (n - 55)
  else none

def hexChars : Bytes → List Char
  | [] => []
  | b :: r => hexDigit (b.toNat / 16) :: hexDigit (b.toNat % 16) :: hexChars r

def hex (bs : Bytes) : String :=
  String.ofList (hexChars bs)

def readPairs (position : Nat) : Bytes → Except HexError Bytes
  | [] => .ok []
  | [_] => .error .oddLength
  | a :: b :: r =>
    match hexValue a, hexValue b with
    | none, _ => .error (.badDigit a position)
    | _, none => .error (.badDigit b (position + 1))
    | some x, some y => do
      let rest ← readPairs (position + 2) r
      return UInt8.ofNat (x * 16 + y) :: rest

def unhexOctets (text : Bytes) : Except HexError Bytes :=
  if text.length % 2 = 1 then .error .oddLength else readPairs 0 text

def unhex (s : String) : Except HexError Bytes :=
  unhexOctets (utf8 s)

end TronCourier.Text
