import TronCourier.Json.Value
import TronCourier.Text.Quoted

/-! Writing JSON text without blanks. Only quotes, backslashes and control
characters are escaped. -/

namespace TronCourier.Json

namespace Printer

def escape (c : Char) : List Char :=
  if c = '"' then ['\\', '"']
  else if c = '\\' then ['\\', '\\']
  else if c = '\x08' then ['\\', 'b']
  else if c = '\x0c' then ['\\', 'f']
  else if c = '\n' then ['\\', 'n']
  else if c = '\x0d' then ['\\', 'r']
  else if c = '\t' then ['\\', 't']
  else if c.toNat < 0x20 then
    ['\\', 'u', '0', '0', Text.hexDigit (c.toNat / 16), Text.hexDigit (c.toNat % 16)]
  else [c]

def quote (s : String) : String :=
  String.ofList ('"' :: s.toList.flatMap escape ++ ['"'])

end Printer

mutual

def render : Json → String
  | null => "null"
  | bool b => if b then "true" else "false"
  | int n => toString n
  | real x => x.literal
  | str s => Printer.quote s
  | arr items => "[" ++ String.intercalate "," (renderItems items) ++ "]"
  | obj members => "\x7b" ++ String.intercalate "," (renderMembers members) ++ "\x7d"
  | beyond => "null"

def renderItems : List Json → List String
  | [] => []
  | j :: r => render j :: renderItems r

def renderMembers : List (String × Json) → List String
  | [] => []
  | (k, j) :: r => (Printer.quote k ++ ":" ++ render j) :: renderMembers r

end

end TronCourier.Json
