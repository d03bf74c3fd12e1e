import TronCourier.Store.Table
import TronCourier.Text.Alphanumeric
import TronCourier.Text.Blank

/-! Files that assign variables, one on a line. A value may be quoted, and then
go on over line breaks, and may refer to variables. The variables that are there
already keep their values. -/

namespace TronCourier.EnvFile

/-- What the end of a text is inside of. -/
inductive Inside
  | nothing
  | blanks
  | escape
  | strong
  | strongEscape
  | weak
  | weakEscape
deriving DecidableEq, Repr

namespace Inside

def opened (c : Char) : Inside :=
  if c = '\\' then escape
  else if c = '"' then weak
  else if c = '\'' then strong
  else nothing

def next (i : Inside) (c : Char) : Inside :=
  match i with
  | nothing => if Text.isBlank c && c ≠ '\n' && c ≠ '\x0d' then blanks else opened c
  | blanks => opened c
  | escape => nothing
  | weak => if c = '\\' then weakEscape else if c = '"' then nothing else weak
  | weakEscape => weak
  | strong => if c = '\\' then strongEscape else if c = '\'' then nothing else strong
  | strongEscape => strong

end Inside

/-- Follows a line to its end or to a comment. Before the comment it gives what
stands in front of it. -/
def follow (i : Inside) (seen : List Char) : List Char → Inside × Option (List Char)
  | [] => (i, none)
  | c :: r =>
    if i = .blanks ∧ c = '#' then (i, some seen.reverse) else follow (i.next c) (c :: seen) r

def rawLines (acc : List Char) : List Char → List (List Char)
  | [] => if acc.isEmpty then [] else [acc.reverse]
  | c :: r => if c = '\n' then (c :: acc).reverse :: rawLines [] r else rawLines (c :: acc) r

def withoutBreak (cs : List Char) : List Char :=
  match cs.reverse with
  | '\n' :: '\x0d' :: r => r.reverse
  | '\n' :: r => r.reverse
  | _ => cs

/-- Joins lines as long as a quote, an escape or blanks are open at the end. The
last line is nothing if the text ends there. -/
def joined (before : List Char) (i : Inside) : List (List Char) → List (Option (List Char))
  | [] => if i = .nothing then [] else [none]
  | l :: rest =>
    let whole := before ++ l
    if (whole.dropWhile Text.isBlank).head? = some '#' then some [] :: joined [] .nothing rest
    else match follow i [] l with
      | (_, some kept) => some (before ++ kept) :: joined [] .nothing rest
      | (.nothing, none) => some (withoutBreak whole) :: joined [] .nothing rest
      | (i, none) => joined whole i rest

inductive Mode
  | plain
  | escaped
  | strong
  | name (acc : List Char)
  | braced (acc : List Char)
  | ended
deriving DecidableEq, Repr

def unescape (c : Char) : Option Char :=
  if ['\\', '\'', '"', '$', ' '].contains c then some c
  else if c = 'n' then some '\n'
  else none

/-- The rest of a value. `out` holds what there is of it, latest first. -/
def readValue (lookup : String → List Char) (weak : Bool) :
    Mode → List Char → List Char → Option (List Char)
  | mode, out, [] =>
    match mode with
    | .braced _ | .strong => none
    | .name acc =>
      if weak then none else some (out.reverse ++ lookup (String.ofList acc.reverse))
    | _ => if weak then none else some out.reverse
  | mode, out, c :: r =>
    match mode with
    | .ended =>
      if c = ' ' || c = '\t' then readValue lookup weak .ended out r
      else if c = '#' then some out.reverse
      else none
    | .escaped => (unescape c).bind fun c => readValue lookup weak .plain (c :: out) r
    | .strong =>
      if c = '\'' then readValue lookup weak .plain out r
      else readValue lookup weak .strong (c :: out) r
    | .name acc =>
      if Text.isAlphanumeric c then readValue lookup weak (.name (c :: acc)) out r
      else if c = '\x7b' && acc.isEmpty then readValue lookup weak (.braced []) out r
      else
        let out := (lookup (String.ofList acc.reverse)).reverse ++ out
        if c = '$' then readValue lookup weak (.name []) out r
        else readValue lookup weak .plain (c :: out) r
    | .braced acc =>
      if c = '\x7d' then
        readValue lookup weak .plain ((lookup (String.ofList acc.reverse)).reverse ++ out) r
      else readValue lookup weak (.braced (c :: acc)) out r
    | .plain =>
      if c = '$' then readValue lookup weak (.name []) out r
      else if c = '\\' then readValue lookup weak .escaped out r
      else if c = '"' then readValue lookup (!weak) .plain out r
      else if weak then readValue lookup weak .plain (c :: out) r
      else if c = '\'' then readValue lookup weak .strong out r
      else if c = ' ' || c = '\t' then readValue lookup weak .ended out r
      else readValue lookup weak .plain (c :: out) r

/-- The name in front of a text, and what follows it without blanks. -/
def readName (cs : List Char) : Option (String × List Char) :=
  match cs with
  | c :: _ =>
    if c.isAlpha || c = '_' then
      let (name, r) := cs.span fun c => c.isAlphanum || c = '_' || c = '.'
      some (String.ofList name, r.dropWhile Text.isBlank)
    else none
  | [] => none

/-- What follows the name and the equals sign of an assignment. The name may
stand behind the word export. -/
def readHead (cs : List Char) : Option (String × List Char) := do
  match ← readName cs with
  | (name, '=' :: r) => return (name, r)
  | ("export", r) =>
    match ← readName r with
    | (name, '=' :: r) => return (name, r)
    | _ => none
  | _ => none

/-- Reads a line. A blank line and a comment assign nothing. -/
def readLine (lookup : String → List Char) (line : List Char) :
    Option (Option (String × String)) :=
  let cs := Text.trimChars line
  if cs.isEmpty || cs.head? = some '#' then some none
  else do
    let (name, r) ← readHead cs
    let r := r.dropWhile Text.isBlank
    if r.isEmpty || r.head? = some '#' then return some (name, "")
    else
      let value ← readValue lookup false .plain [] r
      return some (name, String.ofList value)

/-- Adds the variables of lines, up to the first one that is malformed. No variable
can hold a NUL: there is no result if a new one would. -/
def loadLines (known : Table String String) :
    List (Option (List Char)) → Option (Table String String)
  | [] => some known
  | none :: _ => some known
  | some line :: rest =>
    match readLine (fun name => ((known.get? name).getD "").toList) line with
    | none => some known
    | some none => loadLines known rest
    | some (some (name, value)) =>
      if known.contains name then loadLines known rest
      else if value.toList.contains '\x00' then none
      else loadLines (known.insert name value) rest

def load (known : Table String String) (text : String) : Option (Table String String) :=
  let cs := match text.toList with
    | '\uFEFF' :: r => r
    | r => r
  loadLines known (joined [] .nothing (rawLines [] cs))

end TronCourier.EnvFile
