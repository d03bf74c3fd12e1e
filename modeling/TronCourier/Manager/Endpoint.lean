import TronCourier.Manager.State
import TronCourier.Text.Blank
import TronCourier.Text.Utf8

/-! What a manager tells those who connect to it: its counts under one path, and how
it is under another. -/

namespace TronCourier.Manager

def healthText (m : Manager) : String :=
  "state=" ++ m.lifecycle.name ++ " queued=" ++ toString m.queueLength ++ " unconfirmed=" ++
    toString m.accounts.awaitingCount ++ "\n"

/-- The second word of what a caller sent. Only so much of it is looked at. -/
def pathOf (received : Bytes) : String :=
  match Text.words (Text.utf8Lossy (received.take 1024)).toList with
  | _ :: path :: _ => String.ofList path
  | _ => "/"

def response (status body : String) : String :=
  "HTTP/1.1 " ++ status ++ "\r\nContent-Type: text/plain; version=0.0.4\r\nContent-Length: " ++
    toString body.utf8ByteSize ++ "\r\nConnection: close\r\n\r\n" ++ body

def reply (m : Manager) (received : Bytes) : String :=
  match pathOf received with
  | "/metrics" => response "200 OK" m.metrics.text
  | "/health" => response "200 OK" m.healthText
  | _ => response "404 Not Found" "not found\n"

end TronCourier.Manager
