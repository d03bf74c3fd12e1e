import TronCourier.Bytes

/-! Fields of tagged binary messages. A field is a key, made of its tag and of
the way its value is written, and the value. A field that has its default value
is left out. -/

namespace TronCourier.Wire

/-- Seven bits to an octet, the lowest first; all octets but the last have the
high bit. -/
def varint (n : Nat) : Bytes :=
  if n < 128 then [UInt8.ofNat n] else UInt8.ofNat (n % 128 + 128) :: varint (n / 128)
termination_by n
decreasing_by omega

/-- An integer as the 64 bits of its two's complement. -/
def varintOfInt (i : Int) : Bytes :=
  varint (i % 0x10000000000000000).toNat

def key (tag wireType : Nat) : Bytes :=
  varint (tag * 8 + wireType)

def delimited (bs : Bytes) : Bytes :=
  varint bs.length ++ bs

def intField (tag : Nat) (i : Int) : Bytes :=
  if i = 0 then [] else key tag 0 ++ varintOfInt i

/-- A field of octets that is written even when there are none. -/
def itemField (tag : Nat) (bs : Bytes) : Bytes :=
  key tag 2 ++ delimited bs

def bytesField (tag : Nat) (bs : Bytes) : Bytes :=
  if bs.isEmpty then [] else itemField tag bs

def messageField (tag : Nat) (encode : α → Bytes) : Option α → Bytes
  | none => []
  | some m => itemField tag (encode m)

def repeatedField (tag : Nat) (encode : α → Bytes) (ms : List α) : Bytes :=
  ms.flatMap fun m => itemField tag (encode m)

end TronCourier.Wire
