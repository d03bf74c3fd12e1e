import TronCourier.Text.Visible

/-! A character between single quotes. Quote, backslash and the common controls
have a short escape. Other hidden characters are written by code point. -/

namespace TronCourier.Text

def hexDigit (n : Nat) : Char :=
  if n < 10 then Char.ofNat (48 + n) else Char.ofNat (87 + n)

def hexNumber (n : Nat) : String :=
  String.ofList (Nat.toDigits 16 n)

def escaped (c : Char) : String :=
  if c = '\x00' then "\\0"
  else if c = '\t' then "\\t"
  else if c = '\n' then "\\n"
  else if c = '\r' then "\\r"
  else if c = '\'' then "\\'"
  else if c = '\\' then "\\\\"
  else if isHidden c then "\\u\x7b" ++ hexNumber c.toNat ++ "\x7d"
  else String.singleton c

def quoted (c : Char) : String :=
  "'" ++ escaped c ++ "'"

end TronCourier.Text
