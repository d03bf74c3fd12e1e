import TronCourier.Bytes

/-! Text as UTF-8. Strict reading refuses malformed octets; lossy reading puts
U+FFFD for each longest piece that begins a character and does not finish it. -/

namespace TronCourier.Text

def utf8 (s : String) : Bytes :=
  s.toByteArray.data.toList

def utf8? (bs : Bytes) : Option String :=
  String.fromUTF8? ⟨bs.toArray⟩

theorem utf8?_utf8 (s : String) : utf8? (utf8 s) = some s := by
  have octets : (⟨(utf8 s).toArray⟩ : ByteArray) = s.toByteArray := by simp [utf8]
  rw [utf8?, octets, String.fromUTF8?, dif_pos s.isValidUTF8]
  rfl

/-- What may follow a lead octet: the range of the second octet and how many
octets follow in all. -/
def continuation (lead : UInt8) : Option (UInt8 × UInt8 × Nat) :=
  if 0xC2 ≤ lead && lead ≤ 0xDF then some (0x80, 0xBF, 1)
  else if lead == 0xE0 then some (0xA0, 0xBF, 2)
  else if lead == 0xED then some (0x80, 0x9F, 2)
  else if 0xE1 ≤ lead && lead ≤ 0xEF then some (0x80, 0xBF, 2)
  else if lead == 0xF0 then some (0x90, 0xBF, 3)
  else if 0xF1 ≤ lead && lead ≤ 0xF3 then some (0x80, 0xBF, 3)
  else if lead == 0xF4 then some (0x80, 0x8F, 3)
  else none

/-- Takes at most `n` octets, the first in `lo..hi` and the others in the range
of plain continuation octets. -/
def takeContinuation (lo hi : UInt8) : Nat → Bytes → Bytes
  | 0, _ => []
  | _, [] => []
  | n + 1, b :: r =>
    if lo ≤ b && b ≤ hi then b :: takeContinuation 0x80 0xBF n r else []

/-- The character that starts at `lead`, or U+FFFD, and how many of the
following octets belong to it. -/
def lossyHead (lead : UInt8) (rest : Bytes) : Char × Nat :=
  if lead < 0x80 then (Char.ofNat lead.toNat, 0)
  else match continuation lead with
    | none => ('\uFFFD', 0)
    | some (lo, hi, n) =>
      let tail := takeContinuation lo hi n rest
      if tail.length = n then
        let bits := tail.foldl (fun v b => v * 64 + b.toNat % 64)
          (lead.toNat % (if n = 1 then 32 else if n = 2 then 16 else 8))
        (Char.ofNat bits, n)
      else ('\uFFFD', tail.length)

def lossyChars : Bytes → List Char
  | [] => []
  | lead :: rest =>
    let (c, n) := lossyHead lead rest
    c :: lossyChars (rest.drop n)
termination_by bs => bs.length
decreasing_by simp only [List.length_drop, List.length_cons]; omega

def utf8Lossy (bs : Bytes) : String :=
  String.ofList (lossyChars bs)

end TronCourier.Text
