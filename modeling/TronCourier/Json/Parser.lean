import TronCourier.Json.Value

/-! Reading JSON text. The grammar is strict. An integer beyond 64 bits and a
number with a point or an exponent is scaled from its first digits. -/

namespace TronCourier.Json

namespace Parser

def isSpace (c : Char) : Bool :=
  c = ' ' || c = '\t' || c = '\n' || c = '\x0d'

def skipSpace (cs : List Char) : List Char :=
  cs.dropWhile isSpace

/-- The digits of a significand as far as they fit into 64 bits, and how many
digits were taken and how many passed over. -/
def takeSignificand (n taken : Nat) : List Char → Nat × Nat × Nat
  | [] => (n, taken, 0)
  | c :: r =>
    let next := n * 10 + (Text.digit? c).getD 0
    if next ≤ nat64Max then takeSignificand next (taken + 1) r else (n, taken, r.length + 1)

/-- A significand times a power of ten: the two are rounded first and then
multiplied or divided. Powers beyond the range are applied in steps. -/
def scale (negative : Bool) (significand : Nat) (exponent : Int) : Json :=
  let start := Binary64.nearest (significand * Binary64.one) 1
  go 8 start exponent
where
  go : Nat → Nat → Int → Json
    | 0, _, _ => real ⟨negative, 0⟩
    | fuel + 1, magnitude, e =>
      let power (k : Nat) := Binary64.units (Binary64.ofDecimal false 1 k).magnitude
      if e.natAbs ≤ 308 then
        let result :=
          if 0 ≤ e then Binary64.nearest (Binary64.units magnitude * power e.natAbs) Binary64.one
          else Binary64.nearest (Binary64.units magnitude * Binary64.one) (power e.natAbs)
        if result = Binary64.top then beyond else real ⟨negative, result⟩
      else if magnitude = 0 then real ⟨negative, 0⟩
      else if 0 ≤ e then beyond
      else
        go fuel (Binary64.nearest (Binary64.units magnitude * Binary64.one) (power 308)) (e + 308)

def exponentPart (cs : List Char) : Option (Int × List Char) :=
  let (negative, rest) := match cs with
    | '+' :: r => (false, r)
    | '-' :: r => (true, r)
    | r => (false, r)
  match Text.spanDigits rest with
  | ([], _) => none
  | (ds, rest) =>
    let n : Int := Text.digitsValue ds
    some (if negative then -n else n, rest)

def number (negative : Bool) (cs : List Char) : Option (Json × List Char) := do
  let (whole, rest) := Text.spanDigits cs
  if whole.isEmpty || (whole.length > 1 && whole.head? == some '0') then none
  else
    let (n, _, passed) := takeSignificand 0 0 whole
    let (fraction, rest) := match rest with
      | '.' :: r => (true, r)
      | r => (false, r)
    let (ds, rest) := if fraction then Text.spanDigits rest else ([], rest)
    if fraction && ds.isEmpty then none
    else
      let (m, taken, _) := takeSignificand n 0 ds
      let shift : Int := (passed : Int) - taken
      match rest with
      | 'e' :: r | 'E' :: r =>
        let (e, rest) ← exponentPart r
        return (scale negative m (shift + e), rest)
      | _ =>
        if fraction || passed > 0 then return (scale negative m shift, rest)
        else if negative then
          return (if n = 0 ∨ 0x8000000000000000 < n then scale true n 0 else int (-(n : Int)), rest)
        else return (int n, rest)

def hexValue (c : Char) : Option Nat :=
  if '0' ≤ c ∧ c ≤ '9' then some (c.toNat - 48)
  else if 'a' ≤ c ∧ c ≤ 'f' then some (c.toNat - 87)
  else if 'A' ≤ c ∧ c ≤ 'F' then some (c.toNat - 55)
  else none

def hexFour : List Char → Option (Nat × List Char)
  | a :: b :: c :: d :: r => do
    let a ← hexValue a
    let b ← hexValue b
    let c ← hexValue c
    let d ← hexValue d
    return (((a * 16 + b) * 16 + c) * 16 + d, r)
  | _ => none

def shortEscape : Char → Option Char
  | '"' => some '"'
  | '\\' => some '\\'
  | '/' => some '/'
  | 'b' => some '\x08'
  | 'f' => some '\x0c'
  | 'n' => some '\n'
  | 'r' => some '\x0d'
  | 't' => some '\t'
  | _ => none

/-- The characters up to the closing quote, latest first in `acc`. Without a
value in `acc` the text has half of a surrogate pair in it. -/
def stringBody : Nat → Option (List Char) → List Char → Option (Option String × List Char)
  | 0, _, _ => none
  | _, _, [] => none
  | fuel + 1, acc, c :: r =>
    if c = '"' then some (acc.map fun cs => String.ofList cs.reverse, r)
    else if c.toNat < 0x20 then none
    else if c ≠ '\\' then stringBody fuel (acc.map (c :: ·)) r
    else match r with
      | 'u' :: r => do
        let (n, r) ← hexFour r
        if 0xDC00 ≤ n ∧ n ≤ 0xDFFF then stringBody fuel none r
        else if 0xD800 ≤ n ∧ n ≤ 0xDBFF then
          match r with
          | '\\' :: 'u' :: rest =>
            let (m, rest) ← hexFour rest
            if 0xDC00 ≤ m ∧ m ≤ 0xDFFF then
              let c := Char.ofNat (0x10000 + (n - 0xD800) * 0x400 + (m - 0xDC00))
              stringBody fuel (acc.map (c :: ·)) rest
            else stringBody fuel none r
          | _ => stringBody fuel none r
        else stringBody fuel (acc.map (Char.ofNat n :: ·)) r
      | e :: r => do
        let c ← shortEscape e
        stringBody fuel (acc.map (c :: ·)) r
      | [] => none

def string (cs : List Char) : Option (Option String × List Char) :=
  stringBody (cs.length + 1) (some []) cs

def keyword (word : String) (j : Json) (cs : List Char) : Option (Json × List Char) :=
  if word.toList.isPrefixOf cs then some (j, cs.drop word.length) else none

/-- How many levels of lists and objects are held. -/
def maxDepth : Nat := 127

mutual

def value : Nat → Nat → List Char → Option (Json × List Char)
  | 0, _, _ => none
  | fuel + 1, depth, cs =>
    match skipSpace cs with
    | [] => none
    | 'n' :: r => keyword "ull" null r
    | 't' :: r => keyword "rue" (bool true) r
    | 'f' :: r => keyword "alse" (bool false) r
    | '-' :: r => number true r
    | '"' :: r => do
      let (s, r) ← string r
      return (match s with | some s => str s | none => beyond, r)
    | '[' :: r => do
      let (items, r) ← match skipSpace r with
        | ']' :: r => some ([], r)
        | r => items fuel (depth + 1) r
      return (if depth < maxDepth then arr items else beyond, r)
    | '\x7b' :: r => do
      let (members, r) ← match skipSpace r with
        | '\x7d' :: r => some (some [], r)
        | r => members fuel (depth + 1) r
      return (match members with
        | some ms => if depth < maxDepth then obj ms else beyond
        | none => beyond, r)
    | r => number false r

def items : Nat → Nat → List Char → Option (List Json × List Char)
  | 0, _, _ => none
  | fuel + 1, depth, cs => do
    let (j, r) ← value fuel depth cs
    match skipSpace r with
    | ',' :: r =>
      let (rest, r) ← items fuel depth r
      return (j :: rest, r)
    | ']' :: r => return ([j], r)
    | _ => none

/-- The members of an object, or nothing if one of the names cannot be held. -/
def members : Nat → Nat → List Char → Option (Option (List (String × Json)) × List Char)
  | 0, _, _ => none
  | fuel + 1, depth, cs =>
    match skipSpace cs with
    | '"' :: r => do
      let (name, r) ← string r
      match skipSpace r with
      | ':' :: r =>
        let (j, r) ← value fuel depth r
        let entry := name.map fun n => (n, j)
        match skipSpace r with
        | ',' :: r =>
          let (rest, r) ← members fuel depth r
          return ((do return (← entry) :: (← rest)), r)
        | '\x7d' :: r => return (entry.map ([·]), r)
        | _ => none
      | _ => none
    | _ => none

end

end Parser

def parse (s : String) : Option Json :=
  let cs := s.toList
  match Parser.value (cs.length + 1) 0 cs with
  | some (j, rest) => if (Parser.skipSpace rest).isEmpty then some j else none
  | none => none

end TronCourier.Json
