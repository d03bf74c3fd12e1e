import TronCourier.Proofs.Abi.Meaning

/-! The standard decoder of call data, in its strict form. It follows the offsets that
stand in the heads, and the tails must lie behind the heads in order and without gaps. -/

namespace TronCourier

/-- How many octets each value of the type takes, if they all take as many. -/
def AbiType.fixedSize? : AbiType → Option Nat
  | bytes | string | array _ => none
  | fixedArray item count => item.fixedSize?.map (· * count)
  | address | bool | uint _ | int _ | fixedBytes _ => some 32

namespace Abi

def word? (data : Bytes) : Option Nat :=
  if data.length < 32 then none else some (Bytes.toNat (data.take 32))

/-- Two's complement of 256 bits. -/
def signed (n : Nat) : Int :=
  if n < 2 ^ 255 then n else n - 2 ^ 256

def wholeWords (count : Nat) : Nat :=
  (count + 31) / 32 * 32

/-- The first `count` octets, if zeros fill their last word. -/
def filled? (count : Nat) (data : Bytes) : Option Bytes :=
  if wholeWords count ≤ data.length ∧ ∀ b ∈ (data.take (wholeWords count)).drop count, b = 0
  then some (data.take count) else none

def payload? (data : Bytes) : Option Bytes := do
  filled? (← word? data) (data.drop 32)

/-- Reads a value at the front of what is left, and tells how many octets it took. -/
abbrev Reader := Bytes → Option (Value × Nat)

def decodeAtom (type : AbiType) (data : Bytes) : Option (Value × Nat) :=
  match type with
  | .address =>
    if 32 ≤ data.length ∧ ∀ b ∈ data.take 12, b = 0 then some (.octets ((data.take 32).drop 12), 32)
    else none
  | .bool =>
    match word? data with
    | some 0 => some (.flag false, 32)
    | some 1 => some (.flag true, 32)
    | _ => none
  | .uint bits => do
    let n ← word? data
    if n < 2 ^ bits then some (.number n, 32) else none
  | .int bits => do
    let n := signed (← word? data)
    if -2 ^ (bits - 1) ≤ n ∧ n < 2 ^ (bits - 1) then some (.number n, 32) else none
  | .fixedBytes count => (filled? count data).map fun bs => (.octets bs, 32)
  | .bytes => (payload? data).map fun bs => (.octets bs, 32 + wholeWords bs.length)
  | .string => do
    let bs ← payload? data
    let s ← Text.utf8? bs
    return (.text s, 32 + wholeWords bs.length)
  | .array _ | .fixedArray _ _ => none

/-- Reads the parts of a tuple one after the other. A part that is fixed in size stands in
the head; of any other the head has the place in `whole`, which is the first octet
that belongs to no part before. In the end this is the first octet behind the tuple. -/
def decodeParts (whole : Bytes) : Bytes → Nat → List (Bool × Reader) → Option (List Value × Nat)
  | _, frontier, [] => some ([], frontier)
  | head, frontier, (true, read) :: parts => do
    let place ← word? head
    if place = frontier then
      let (v, size) ← read (whole.drop place)
      let (vs, stop) ← decodeParts whole (head.drop 32) (frontier + size) parts
      return (v :: vs, stop)
    else none
  | head, frontier, (false, read) :: parts => do
    let (v, size) ← read head
    let (vs, stop) ← decodeParts whole (head.drop size) frontier parts
    return (v :: vs, stop)

/-- Offsets count from where the head of the tuple starts, and the tails from where it
ends. -/
def decodeTuple (headSize : Nat) (parts : List (Bool × Reader)) (data : Bytes) :
    Option (List Value × Nat) :=
  decodeParts data data headSize parts

def decode : AbiType → Reader
  | .array item, data => do
    let count ← word? data
    let (vs, size) ← decodeTuple (count * item.fixedSize?.getD 32)
      (List.replicate count (item.fixedSize?.isNone, decode item)) (data.drop 32)
    return (.items vs, 32 + size)
  | .fixedArray item count, data => do
    let (vs, size) ← decodeTuple (count * item.fixedSize?.getD 32)
      (List.replicate count (item.fixedSize?.isNone, decode item)) data
    return (.items vs, size)
  | type, data => decodeAtom type data

/-- The values of the types in octets that hold nothing else. -/
def decodeParams (types : List AbiType) (data : Bytes) : Option (List Value) := do
  let (vs, size) ← decodeTuple (types.map fun t => t.fixedSize?.getD 32).sum
    (types.map fun t => (t.fixedSize?.isNone, decode t)) data
  if size = data.length then some vs else none

theorem word?_word_append {n : Nat} (h : n < 2 ^ 256) (rest : Bytes) :
    word? (word n ++ rest) = some n := by
  have long : ¬ (word n ++ rest).length < 32 := by simp [length_word]
  have front : (word n ++ rest).take 32 = word n := List.take_left' (length_word n)
  rw [word?, if_neg long, front, toNat_word h]

theorem word?_ofInt_append {i : Int} (low : -2 ^ 255 ≤ i) (high : i < 2 ^ 255) (rest : Bytes) :
    (word? (Bytes.ofInt 32 i ++ rest)).map signed = some i := by
  have power : ((Nat.pow 256 32 : Nat) : Int) = 2 ^ 256 := by norm_num
  have bound : (i % 2 ^ 256).toNat < 2 ^ 256 := by omega
  rw [Bytes.ofInt, power, ← word, word?_word_append bound, Option.map_some, signed]
  split <;> simp only [Option.some.injEq] <;> omega

theorem le_wholeWords (count : Nat) : count ≤ wholeWords count := by
  unfold wholeWords
  omega

theorem length_filler (count : Nat) : (filler count).length + count = wholeWords count := by
  simp only [filler, Bytes.zeros, List.length_replicate, wholeWords]
  omega

theorem filled?_append (bs rest : Bytes) :
    filled? bs.length (bs ++ filler bs.length ++ rest) = some bs := by
  have hl := length_filler bs.length
  have long : wholeWords bs.length ≤ (bs ++ filler bs.length ++ rest).length := by
    simp only [List.length_append]
    omega
  have front : (bs ++ filler bs.length ++ rest).take (wholeWords bs.length) =
      bs ++ filler bs.length := by
    apply List.take_left'
    simp only [List.length_append]
    omega
  have zeros : ∀ b ∈ (bs ++ filler bs.length).drop bs.length, b = 0 := by
    intro b hb
    rw [List.drop_left' rfl] at hb
    exact List.eq_of_mem_replicate hb
  rw [filled?, front, if_pos ⟨long, zeros⟩, List.append_assoc, List.take_left' rfl]

theorem payload?_append {bs : Bytes} (h : bs.length < 2 ^ 256) (rest : Bytes) :
    payload? (lengthPrefixed bs ++ rest) = some bs := by
  rw [payload?, lengthPrefixed, List.append_assoc, word?_word_append h,
    List.drop_left' (by simp [word])]
  exact filled?_append bs rest

theorem length_lengthPrefixed (bs : Bytes) :
    (lengthPrefixed bs).length = 32 + wholeWords bs.length := by
  have := length_filler bs.length
  simp only [lengthPrefixed, word, List.length_append, Bytes.length_ofNat]
  omega

theorem Written.length_eq {type : AbiType} {v : Value} {data : Bytes} (h : Written type v data)
    (wf : type.WellFormed) {size : Nat} (hs : type.fixedSize? = some size) :
    data.length = size := by
  cases h with
  | address a => simpa [Bytes.zeros, a.length_hash, AbiType.fixedSize?] using hs
  | bool b => simpa [word, AbiType.fixedSize?] using hs
  | uint bound => simpa [word, AbiType.fixedSize?] using hs
  | int low high => simpa [AbiType.fixedSize?] using hs
  | fixedBytes bs =>
    have := length_filler bs.length
    have : 1 ≤ bs.length ∧ bs.length ≤ 32 := wf
    cases hs
    simp only [wholeWords] at *
    rw [List.length_append]
    omega
  | bytes bs => cases hs
  | string s => cases hs

theorem decodeAtom_append {type : AbiType} {v : Value} {data : Bytes} (h : Written type v data)
    (wf : type.WellFormed) (bound : data.length < 2 ^ 256) (rest : Bytes) :
    decodeAtom type (data ++ rest) = some (v, data.length) := by
  cases h with
  | address a =>
    have zeros : ∀ b ∈ (Bytes.zeros 12 ++ a.hash ++ rest).take 12, b = 0 := by
      intro b hb
      rw [List.append_assoc, List.take_left' (by simp [Bytes.zeros])] at hb
      exact List.eq_of_mem_replicate hb
    have front : (Bytes.zeros 12 ++ a.hash ++ rest).take 32 = Bytes.zeros 12 ++ a.hash :=
      List.take_left' (by simp [Bytes.zeros, a.length_hash])
    have long : 32 ≤ (Bytes.zeros 12 ++ a.hash ++ rest).length := by
      simp [Bytes.zeros, a.length_hash]
    rw [decodeAtom, if_pos ⟨long, zeros⟩, front, List.drop_left' (by simp [Bytes.zeros])]
    simp [Bytes.zeros, a.length_hash]
  | bool b =>
    have small : (if b then 1 else 0) < 2 ^ 256 := by
      split <;> decide
    rw [decodeAtom, word?_word_append small]
    cases b with
    | false => simp [word]
    | true => simp [word]
  | @uint bits n below =>
    have small : n < 2 ^ 256 := (below wf).trans_le (Nat.pow_le_pow_right (by decide) wf.2.2)
    rw [decodeAtom, word?_word_append small]
    simp [below wf, word]
  | @int bits n low high =>
    have power : (2 : Int) ^ (bits - 1) ≤ 2 ^ 255 := by
      have : bits ≤ 256 := wf.2.2
      exact_mod_cast Nat.pow_le_pow_right (by decide) (by omega : bits - 1 ≤ 255)
    have hw := word?_ofInt_append (i := n) (by omega) (by omega) rest
    obtain ⟨w, hw, rfl⟩ := Option.map_eq_some_iff.mp hw
    simp [decodeAtom, hw, low, high]
  | fixedBytes bs =>
    have size := (Written.fixedBytes bs).length_eq wf rfl
    rw [decodeAtom, filled?_append, size, Option.map_some]
  | bytes bs =>
    have hl := length_lengthPrefixed bs
    have := le_wholeWords bs.length
    rw [decodeAtom, payload?_append (by omega), hl, Option.map_some]
  | string s =>
    have hl := length_lengthPrefixed (Text.utf8 s)
    have := le_wholeWords (Text.utf8 s).length
    rw [decodeAtom, payload?_append (by omega), hl]
    simp [Text.utf8?_utf8]

end Abi

end TronCourier
