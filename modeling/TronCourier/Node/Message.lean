import TronCourier.Node.Answer
import TronCourier.Text.Hex

/-! Messages of nodes. A node writes them plainly or as hexadecimal UTF-8. -/

namespace TronCourier.Node

/-- The message behind hexadecimal UTF-8. Any other text stands for itself. -/
def plainMessage (raw : String) : String :=
  match Text.unhex raw with
  | .ok bs => (Text.utf8? bs).getD raw
  | .error _ => raw

def occursIn (part : List Char) : List Char → Bool
  | [] => part.isEmpty
  | c :: r => part.isPrefixOf (c :: r) || occursIn part r

/-- What a node says if it cannot estimate energy. -/
def unsupportedPhrase : String := "does not support estimate energy"

def Error.ofRefusal (code message : Option String) : Error :=
  let message := (message.map plainMessage).getD ""
  if occursIn unsupportedPhrase.toList message.toList then .estimateUnsupported
  else .refused (code.getD "OTHER_ERROR") message

end TronCourier.Node
