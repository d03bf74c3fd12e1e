import TronCourier.Toml.Document
import TronCourier.Toml.Scalar

/-! Reading TOML documents: keys, values, and the lines that set a value or open
a table. -/

namespace TronCourier.Toml

/-- How many levels of lists and inline tables, or parts of a key, are too many. -/
def maxDepth : Nat := 80

def isBareKey (c : Char) : Bool :=
  c.isAlphanum || c = '-' || c = '_'

def keyPart : Reader String
  | '"' :: r => (basicBody (r.length + 1) [] r).map fun p => (String.ofList p.1, p.2)
  | '\'' :: r => (literalBody r).map fun p => (String.ofList p.1, p.2)
  | cs =>
    let (name, r) := cs.span isBareKey
    if name.isEmpty then none else some (String.ofList name, r)

def keyParts : Nat → Reader (List String)
  | 0, _ => none
  | fuel + 1, cs => do
    let (part, r) ← keyPart (skipSpace cs)
    match skipSpace r with
    | '.' :: r =>
      let (parts, r) ← keyParts fuel r
      return (part :: parts, r)
    | r => return ([part], r)

def key (cs : List Char) : Option (List String × List Char) := do
  let (parts, r) ← keyParts (cs.length + 1) cs
  if parts.length < maxDepth then return (parts, r) else none

def splitKey (parts : List String) : List String × String :=
  (parts.dropLast, parts.getLast?.getD "")

/-- What follows the rest of a line, in which only a comment may stand. -/
def lineEnd? (cs : List Char) : Option (List Char) :=
  let r := match skipSpace cs with
    | '#' :: r => r.dropWhile isPlain
    | r => r
  if r.isEmpty then some [] else newline? r

def skipLines : Nat → List Char → Option (List Char)
  | 0, _ => none
  | fuel + 1, cs =>
    match skipSpace cs with
    | '#' :: r => (newline? (r.dropWhile isPlain)).bind (skipLines fuel)
    | '\n' :: r => skipLines fuel r
    | '\x0d' :: '\n' :: r => skipLines fuel r
    | '\x0d' :: _ => none
    | r => some r

def keyword (word : String) (j : Json) (cs : List Char) : Option (Json × List Char) :=
  if word.toList.isPrefixOf cs then some (j, cs.drop word.length) else none

def numberOrMoment (cs : List Char) : Option (Json × List Char) :=
  moment cs <|> float cs <|> namedFloat cs <|> integer cs

mutual

def value : Nat → Nat → Reader Json
  | 0, _, _ => none
  | fuel + 1, depth, cs =>
    match cs with
    | '"' :: _ | '\'' :: _ => (string cs).map fun p => (.str p.1, p.2)
    | '[' :: r =>
      if maxDepth ≤ depth + 1 then none
      else do
        let (vs, r) ← items fuel (depth + 1) r
        return (.arr vs, r)
    | '\x7b' :: r =>
      if maxDepth ≤ depth + 1 then none
      else do
        let (rows, r) ← match skipSpace r with
          | '\x7d' :: r => some ([], r)
          | _ => pairs fuel (depth + 1) [] r
        return (.obj (rowsJson rows), r)
    | 't' :: _ => keyword "true" (.bool true) cs
    | 'f' :: _ => keyword "false" (.bool false) cs
    | _ => numberOrMoment cs

/-- The items of a list up to its closing bracket. A comma may follow the last. -/
def items : Nat → Nat → Reader (List Json)
  | 0, _, _ => none
  | fuel + 1, depth, cs => do
    match ← skipLines (cs.length + 1) cs with
    | ']' :: r => return ([], r)
    | r =>
      let (v, r) ← value fuel depth r
      match ← skipLines (r.length + 1) r with
      | ',' :: r =>
        let (vs, r) ← items fuel depth r
        return (v :: vs, r)
      | ']' :: r => return ([v], r)
      | _ => none

def pairs : Nat → Nat → Rows → Reader Rows
  | 0, _, _, _ => none
  | fuel + 1, depth, rows, cs => do
    let (parts, r) ← key cs
    let (v, r) ← value fuel depth (skipSpace (← mark '=' r))
    let (path, name) := splitKey parts
    let rows ← addValue path name v rows
    match skipSpace r with
    | ',' :: r => pairs fuel depth rows r
    | '\x7d' :: r => return (rows, r)
    | _ => none

end

/-- A document while it is read: the finished tables, and the open one with its
header. -/
structure Draft where
  root : Rows := []
  path : List String := []
  repeated : Bool := false
  current : Rows := []

namespace Draft

def close (d : Draft) : Option Rows :=
  closeTable d.path d.repeated d.current d.root

def addPair (d : Draft) (parts : List String) (v : Json) : Option Draft := do
  let (path, name) := splitKey parts
  return { d with current := ← addValue path name v d.current }

def openHeader (d : Draft) (repeated : Bool) (path : List String) : Option Draft := do
  let root ← d.close
  if repeated then return ⟨← openRepeated path root, path, true, []⟩
  else
    let (current, root) ← openTable path root
    return ⟨root, path, false, current⟩

end Draft

def lines : Nat → Draft → List Char → Option Draft
  | 0, _, _ => none
  | fuel + 1, d, cs =>
    match skipSpace cs with
    | [] => some d
    | '#' :: r => (lineEnd? ('#' :: r)).bind (lines fuel d)
    | '\n' :: r => lines fuel d r
    | '\x0d' :: r => (mark '\n' r).bind (lines fuel d)
    | '[' :: '[' :: r => do
      let (path, r) ← key r
      let r ← mark ']' (← mark ']' r)
      lines fuel (← d.openHeader true path) (← lineEnd? r)
    | '[' :: r => do
      let (path, r) ← key r
      let r ← lineEnd? (← mark ']' r)
      lines fuel (← d.openHeader false path) r
    | r => do
      let (parts, r) ← key r
      let r := skipSpace (← mark '=' r)
      let (v, r) ← value (r.length + 1) 0 r
      lines fuel (← d.addPair parts v) (← lineEnd? r)

/-- Reads a document as one object. A byte order mark may stand in front. -/
def parse (s : String) : Option Json := do
  let cs := match s.toList with
    | '\uFEFF' :: r => r
    | r => r
  let d ← lines (cs.length + 1) {} cs
  return .obj (rowsJson (← d.close))

end TronCourier.Toml
