import TronCourier.Hash.Sha256

/-! Keyed hashing with SHA-256, and the deterministic octet generator built on it. -/

namespace TronCourier

namespace Hmac

def blockSize : Nat := 64

/-- A key of one block: a long key is hashed, a short one filled with zeros. -/
def blockKey (key : Bytes) : Bytes :=
  let short := if blockSize < key.length then sha256 key else key
  short ++ Bytes.zeros (blockSize - short.length)

end Hmac

def hmac (key message : Bytes) : Bytes :=
  let block := Hmac.blockKey key
  sha256 (block.map (· ^^^ 0x5C) ++ sha256 (block.map (· ^^^ 0x36) ++ message))

/-- A generator holds a key and the value that it gave last. -/
structure Generator where
  key : Bytes
  value : Bytes
deriving Repr

namespace Generator

def advance (g : Generator) : Generator :=
  { g with value := hmac g.key g.value }

def stir (g : Generator) (tag : UInt8) (material : Bytes) : Generator :=
  advance { g with key := hmac g.key (g.value ++ tag :: material) }

def seed (material : Bytes) : Generator :=
  ((Generator.mk (Bytes.zeros 32) (List.replicate 32 1)).stir 0 material).stir 1 material

def next (g : Generator) : Bytes × Generator :=
  let given := g.advance
  (given.value, given.stir 0 [])

end Generator

end TronCourier
