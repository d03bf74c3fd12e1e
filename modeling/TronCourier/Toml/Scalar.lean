import TronCourier.Json.Parser

/-! Strings, numbers and times of TOML. A reader takes its value from the front
of a text and leaves the rest. -/

namespace TronCourier.Toml

abbrev Reader (α : Type) := List Char → Option (α × List Char)

def isSpace (c : Char) : Bool :=
  c = ' ' || c = '\t'

def skipSpace (cs : List Char) : List Char :=
  cs.dropWhile isSpace

def newline? : List Char → Option (List Char)
  | '\n' :: r => some r
  | '\x0d' :: '\n' :: r => some r
  | _ => none

/-- Characters that stand for themselves in comments and in every kind of string. -/
def isPlain (c : Char) : Bool :=
  c = '\t' || (0x20 ≤ c.toNat && c.toNat ≠ 0x7F)

def hexNumber (cs : List Char) : Option Nat :=
  cs.foldlM (fun n c => (Json.Parser.hexValue c).map (n * 16 + ·)) 0

/-- The character with a number of `width` hexadecimal digits. -/
def escapedNumber (width : Nat) (cs : List Char) : Option (Char × List Char) := do
  if (cs.take width).length = width then
    let n ← hexNumber (cs.take width)
    if h : n.isValidChar then return (Char.ofNatAux n h, cs.drop width) else none
  else none

def escape : Reader Char
  | '"' :: r => some ('"', r)
  | '\\' :: r => some ('\\', r)
  | 'b' :: r => some ('\x08', r)
  | 'f' :: r => some ('\x0c', r)
  | 'n' :: r => some ('\n', r)
  | 'r' :: r => some ('\x0d', r)
  | 't' :: r => some ('\t', r)
  | 'u' :: r => escapedNumber 4 r
  | 'U' :: r => escapedNumber 8 r
  | _ => none

def basicBody : Nat → List Char → Reader (List Char)
  | 0, _, _ => none
  | fuel + 1, acc, cs =>
    match cs with
    | '"' :: r => some (acc.reverse, r)
    | '\\' :: r => do
      let (c, r) ← escape r
      basicBody fuel (c :: acc) r
    | c :: r => if isPlain c then basicBody fuel (c :: acc) r else none
    | [] => none

def literalBody (cs : List Char) : Option (List Char × List Char) :=
  let inside := cs.takeWhile (· ≠ '\'')
  match cs.dropWhile (· ≠ '\'') with
  | _ :: r => if inside.all isPlain then some (inside, r) else none
  | [] => none

/-- The quotes in front of a text, of which up to two may belong to the string
before the three that close it. -/
def quoteRun (quote : Char) (cs : List Char) : Nat :=
  min 5 (cs.takeWhile (· = quote)).length

def skipBlank : List Char → List Char
  | '\x0d' :: '\n' :: r => skipBlank r
  | c :: r => if isSpace c || c = '\n' then skipBlank r else c :: r
  | [] => []

/-- What follows a line break and more white space, after a backslash. -/
def joinLines (cs : List Char) : Option (List Char) :=
  (newline? (skipSpace cs)).map skipBlank

def multilineBody (quote : Char) (escapes : Bool) : Nat → List Char → Reader (List Char)
  | 0, _, _ => none
  | fuel + 1, acc, cs =>
    match newline? cs with
    | some r => multilineBody quote escapes fuel ('\n' :: acc) r
    | none =>
      match cs with
      | [] => none
      | c :: r =>
        if c = quote then
          let run := quoteRun quote cs
          if run < 3 then multilineBody quote escapes fuel (quote :: acc) r
          else some (acc.reverse ++ List.replicate (run - 3) quote, cs.drop run)
        else if escapes && c = '\\' then
          match joinLines r with
          | some r => multilineBody quote escapes fuel acc r
          | none => do
            let (c, r) ← escape r
            multilineBody quote escapes fuel (c :: acc) r
        else if isPlain c then multilineBody quote escapes fuel (c :: acc) r
        else none

/-- The line break right after the opening quotes does not count. -/
def multiline (quote : Char) (escapes : Bool) (cs : List Char) : Option (List Char × List Char) :=
  multilineBody quote escapes (cs.length + 1) [] ((newline? cs).getD cs)

def string : Reader String
  | '"' :: '"' :: '"' :: r => (multiline '"' true r).map fun p => (String.ofList p.1, p.2)
  | '\'' :: '\'' :: '\'' :: r => (multiline '\'' false r).map fun p => (String.ofList p.1, p.2)
  | '"' :: r => (basicBody (r.length + 1) [] r).map fun p => (String.ofList p.1, p.2)
  | '\'' :: r => (literalBody r).map fun p => (String.ofList p.1, p.2)
  | _ => none

/-- Digits after those in `acc`. Behind an underscore there has to be one. -/
def moreDigits (isDigit : Char → Bool) (acc : List Char) : Reader (List Char)
  | '_' :: c :: r => if isDigit c then moreDigits isDigit (c :: acc) r else none
  | ['_'] => none
  | c :: r => if isDigit c then moreDigits isDigit (c :: acc) r else some (acc.reverse, c :: r)
  | [] => some (acc.reverse, [])

/-- Digits, in which single underscores may stand between two digits. -/
def digitGroups (isDigit : Char → Bool) : Reader (List Char)
  | c :: r => if isDigit c then moreDigits isDigit [c] r else none
  | [] => none

def isDecimal (c : Char) : Bool :=
  (Text.digit? c).isSome

def optionalSign : List Char → Bool × List Char
  | '-' :: r => (true, r)
  | '+' :: r => (false, r)
  | r => (false, r)

/-- Decimal digits without leading zeros. -/
def wholeDigits : Reader (List Char)
  | '0' :: r => some (['0'], r)
  | cs => digitGroups isDecimal cs

def exponentDigits (cs : List Char) : Option (Int × List Char) := do
  let (negative, r) := optionalSign cs
  let (ds, r) ← digitGroups isDecimal r
  let n : Int := Text.digitsValue ds
  return (if negative then -n else n, r)

/-- A number with a fraction, an exponent, or both. Only a negative one may be
beyond the range. -/
def float (cs : List Char) : Option (Json × List Char) := do
  let (negative, r) := optionalSign cs
  let (whole, r) ← wholeDigits r
  let (fraction, r) ← match r with
    | '.' :: r => digitGroups isDecimal r
    | r => some ([], r)
  let isExponent := r.head?.any fun c => c = 'e' || c = 'E'
  if fraction.isEmpty && !isExponent then none
  else
    let (e, r) ← if isExponent then exponentDigits (r.drop 1) else some (0, r)
    let x := Binary64.ofDecimal negative (Text.digitsValue (whole ++ fraction)) (e - fraction.length)
    if x = Binary64.infinity false then none else return (.real x, r)

def namedFloat (cs : List Char) : Option (Json × List Char) :=
  let (negative, r) := optionalSign cs
  match r with
  | 'i' :: 'n' :: 'f' :: r => some (.real (Binary64.infinity negative), r)
  | 'n' :: 'a' :: 'n' :: r => some (.real Binary64.nan, r)
  | _ => none

/-- An integer of 64 bits. -/
def int64 (n : Int) : Option Json :=
  if int64Min ≤ n ∧ n ≤ int64Max then some (.int n) else none

def radixValue (radix : Nat) (ds : List Char) : Nat :=
  ds.foldl (fun n c => n * radix + (Json.Parser.hexValue c).getD 0) 0

def radixInteger (radix : Nat) (cs : List Char) : Option (Json × List Char) := do
  let isDigit c := (Json.Parser.hexValue c).any (· < radix)
  let (ds, r) ← digitGroups isDigit cs
  return (← int64 (radixValue radix ds), r)

def integer : Reader Json
  | '0' :: 'x' :: r => radixInteger 16 r
  | '0' :: 'o' :: r => radixInteger 8 r
  | '0' :: 'b' :: r => radixInteger 2 r
  | cs => do
    let (negative, r) := optionalSign cs
    let (ds, r) ← wholeDigits r
    let n : Int := Text.digitsValue ds
    return (← int64 (if negative then -n else n), r)

/-- A number of exactly `width` digits within a range. -/
def field (width low high : Nat) (cs : List Char) : Option (Nat × List Char) :=
  let ds := cs.take width
  let n := Text.digitsValue ds
  if ds.length = width && ds.all isDecimal && low ≤ n && n ≤ high then some (n, cs.drop width)
  else none

def mark (c : Char) : List Char → Option (List Char)
  | d :: r => if c = d then some r else none
  | [] => none

def daysIn (year month : Nat) : Nat :=
  if month = 2 then
    if year % 4 = 0 ∧ (year % 100 ≠ 0 ∨ year % 400 = 0) then 29 else 28
  else if [4, 6, 9, 11].contains month then 30 else 31

/-- What follows a date of the calendar. -/
def date? (cs : List Char) : Option (List Char) := do
  let (year, r) ← field 4 0 9999 cs
  let (month, r) ← field 2 1 12 (← mark '-' r)
  let (_, r) ← field 2 1 (daysIn year month) (← mark '-' r)
  return r

/-- What follows a time of the day. -/
def time? (cs : List Char) : Option (List Char) := do
  let (_, r) ← field 2 0 23 cs
  let (_, r) ← field 2 0 59 (← mark ':' r)
  let (_, r) ← field 2 0 60 (← mark ':' r)
  match r with
  | '.' :: r => if (r.head?.any isDecimal) then return r.dropWhile isDecimal else none
  | _ => return r

/-- What follows an offset from universal time, or the text itself. -/
def offset? : List Char → Option (List Char)
  | 'Z' :: r | 'z' :: r => some r
  | '+' :: r | '-' :: r => do
    let (_, r) ← field 2 0 23 r
    let (_, r) ← field 2 0 59 (← mark ':' r)
    return r
  | r => some r

def moment? (cs : List Char) : Option (List Char) :=
  match date? cs with
  | none => time? cs
  | some r =>
    match r with
    | c :: next =>
      if c = 'T' || c = 't' || (c = ' ' && (field 2 0 23 next).any fun p => p.2.head? = some ':') then
        (time? next).bind offset?
      else some r
    | [] => some r

/-- A date, a time or both. Nothing is read from it, so it is kept as text. -/
def moment (cs : List Char) : Option (Json × List Char) :=
  (moment? cs).map fun r =>
    (.obj [("moment", .str (String.ofList (cs.take (cs.length - r.length))))], r)

end TronCourier.Toml
