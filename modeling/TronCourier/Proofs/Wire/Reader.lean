import Mathlib
import TronCourier.Number.Bounds
import TronCourier.Wire.Format

/-! Reading tagged binary messages. The octets of a message are cut into fields first, and
the fields are merged into the message one after another, by the message's own rule. What
was written as a field is read as the same field, whatever follows it. -/

namespace TronCourier.Wire

/-- The number that at most so many octets write, seven bits to an octet, and the octets
after it. -/
def readVarint : Nat → Bytes → Option (Nat × Bytes)
  | 0, _ => none
  | _ + 1, [] => none
  | octets + 1, b :: rest =>
    if b.toNat < 128 then some (b.toNat, rest)
    else (readVarint octets rest).map fun (high, rest) => (b.toNat % 128 + 128 * high, rest)

/-- A number of 64 bits takes ten octets at most. -/
def readNumber (bs : Bytes) : Option (Nat × Bytes) :=
  (readVarint 10 bs).filter fun read => read.1 ≤ nat64Max

inductive Payload
  | varint (n : Nat)
  | fixed64 (bs : Bytes)
  | delimited (bs : Bytes)
  | fixed32 (bs : Bytes)
deriving DecidableEq, Repr

structure Field where
  tag : Nat
  payload : Payload
deriving DecidableEq, Repr

def cut? (count : Nat) (bs : Bytes) : Option (Bytes × Bytes) :=
  if count ≤ bs.length then some (bs.take count, bs.drop count) else none

/-- The value that is written in some way at the front. Groups are not read. -/
def readPayload : Nat → Bytes → Option (Payload × Bytes)
  | 0, bs => (readNumber bs).map fun (n, rest) => (.varint n, rest)
  | 1, bs => (cut? 8 bs).map fun (item, rest) => (.fixed64 item, rest)
  | 2, bs => (readNumber bs).bind fun (count, rest) =>
    (cut? count rest).map fun (item, rest) => (.delimited item, rest)
  | 5, bs => (cut? 4 bs).map fun (item, rest) => (.fixed32 item, rest)
  | _, _ => none

def maxTag : Nat := 0x1FFFFFFF

def readField (bs : Bytes) : Option (Field × Bytes) :=
  (readNumber bs).bind fun (key, rest) =>
    if key / 8 = 0 ∨ maxTag < key / 8 then none
    else (readPayload (key % 8) rest).map fun (payload, rest) => (⟨key / 8, payload⟩, rest)

theorem length_readVarint {octets n : Nat} {bs rest : Bytes}
    (h : readVarint octets bs = some (n, rest)) : rest.length < bs.length := by
  induction octets, bs using readVarint.induct generalizing n rest with
  | case1 => cases h
  | case2 => cases h
  | case3 octets b bs hlast =>
    rw [readVarint, if_pos hlast] at h
    cases h
    simp
  | case4 octets b bs hmore ih =>
    rw [readVarint, if_neg hmore, Option.map_eq_some_iff] at h
    obtain ⟨⟨high, rest⟩, hread, h⟩ := h
    cases h
    have := ih hread
    rw [List.length_cons]
    omega

theorem length_readNumber {n : Nat} {bs rest : Bytes} (h : readNumber bs = some (n, rest)) :
    rest.length < bs.length :=
  length_readVarint (Option.filter_eq_some_iff.mp h).1

theorem length_cut? {count : Nat} {bs item rest : Bytes} (h : cut? count bs = some (item, rest)) :
    rest.length ≤ bs.length := by
  unfold cut? at h
  split at h
  · cases h
    simp
  · cases h

theorem length_readPayload {way : Nat} {bs rest : Bytes} {payload : Payload}
    (h : readPayload way bs = some (payload, rest)) : rest.length ≤ bs.length := by
  unfold readPayload at h
  split at h
  · obtain ⟨⟨n, r⟩, hread, h⟩ := Option.map_eq_some_iff.mp h
    cases h
    exact Nat.le_of_lt (length_readNumber hread)
  · obtain ⟨⟨item, r⟩, hcut, h⟩ := Option.map_eq_some_iff.mp h
    cases h
    exact length_cut? hcut
  · obtain ⟨⟨count, r⟩, hread, h⟩ := Option.bind_eq_some_iff.mp h
    obtain ⟨⟨item, r'⟩, hcut, h⟩ := Option.map_eq_some_iff.mp h
    cases h
    exact Nat.le_trans (length_cut? hcut) (Nat.le_of_lt (length_readNumber hread))
  · obtain ⟨⟨item, r⟩, hcut, h⟩ := Option.map_eq_some_iff.mp h
    cases h
    exact length_cut? hcut
  · cases h

theorem length_readField {bs rest : Bytes} {field : Field}
    (h : readField bs = some (field, rest)) : rest.length < bs.length := by
  obtain ⟨⟨key, r⟩, hread, h⟩ := Option.bind_eq_some_iff.mp h
  simp only at h
  split at h
  · cases h
  · obtain ⟨⟨payload, r'⟩, hpayload, h⟩ := Option.map_eq_some_iff.mp h
    cases h
    exact Nat.lt_of_le_of_lt (length_readPayload hpayload) (length_readNumber hread)

def readFields (bs : Bytes) : Option (List Field) :=
  if bs = [] then some []
  else match _ : readField bs with
    | none => none
    | some (field, rest) => (readFields rest).map (field :: ·)
termination_by bs.length
decreasing_by exact length_readField (by assumption)

/-- Merges the fields of some octets into a message. The rule refuses a field that the
message does not have. -/
def merge {μ : Type} (rule : μ → Field → Option μ) (m : μ) (bs : Bytes) : Option μ :=
  (readFields bs).bind fun fields => fields.foldlM rule m

theorem readVarint_varint (octets n : Nat) (h : n < 128 ^ (octets + 1)) (rest : Bytes) :
    readVarint (octets + 1) (varint n ++ rest) = some (n, rest) := by
  induction octets generalizing n with
  | zero =>
    have hn : n < 128 := by simpa using h
    have octet : (UInt8.ofNat n).toNat = n := by
      rw [UInt8.toNat_ofNat']
      omega
    rw [varint, if_pos hn, List.singleton_append, readVarint, octet, if_pos hn]
  | succ octets ih =>
    by_cases hn : n < 128
    · have octet : (UInt8.ofNat n).toNat = n := by
        rw [UInt8.toNat_ofNat']
        omega
      rw [varint, if_pos hn, List.singleton_append, readVarint, octet, if_pos hn]
    · have octet : (UInt8.ofNat (n % 128 + 128)).toNat = n % 128 + 128 := by
        rw [UInt8.toNat_ofNat']
        omega
      have hhigh : n / 128 < 128 ^ (octets + 1) := by
        rw [Nat.div_lt_iff_lt_mul (by omega), ← Nat.pow_succ]
        exact h
      rw [varint, if_neg hn, List.cons_append, readVarint, octet, if_neg (by omega),
        ih (n / 128) hhigh, Option.map_some]
      simp only [Option.some.injEq, Prod.mk.injEq, and_true]
      omega

theorem readNumber_varint {n : Nat} (h : n ≤ nat64Max) (rest : Bytes) :
    readNumber (varint n ++ rest) = some (n, rest) := by
  have hn : n < 128 ^ 10 := lt_of_le_of_lt h (by decide)
  rw [readNumber, readVarint_varint 9 n hn]
  simp [h]

/-- An integer that 64 bits can be the two's complement of. -/
def IsInt64 (i : Int) : Prop :=
  int64Min ≤ i ∧ i ≤ int64Max

/-- The integer that 64 bits are the two's complement of. -/
def int64 (n : Nat) : Int :=
  if n < 0x8000000000000000 then n else n - 0x10000000000000000

/-- The integer that the lowest 32 bits are the two's complement of. -/
def int32 (n : Nat) : Int :=
  let low := n % 0x100000000
  if low < 0x80000000 then low else low - 0x100000000

def complement (i : Int) : Nat :=
  (i % 0x10000000000000000).toNat

theorem complement_le (i : Int) : complement i ≤ nat64Max := by
  unfold complement nat64Max
  omega

theorem int64_complement {i : Int} (h : IsInt64 i) : int64 (complement i) = i := by
  unfold IsInt64 int64Min int64Max at h
  unfold int64 complement
  split <;> omega

theorem int32_complement {i : Int} (hlow : -0x80000000 ≤ i) (hhigh : i < 0x80000000) :
    int32 (complement i) = i := by
  simp only [int32, complement]
  omega

section fields

variable {tag : Nat} (htag : 0 < tag ∧ tag ≤ maxTag)

include htag in
theorem readField_key {way : Nat} (hway : way < 8) {payload : Payload} {bs rest : Bytes}
    (h : readPayload way bs = some (payload, rest)) :
    readField (key tag way ++ bs) = some (⟨tag, payload⟩, rest) := by
  have hmax := htag.2
  unfold maxTag at hmax
  have hkey : tag * 8 + way ≤ nat64Max := by
    unfold nat64Max
    omega
  have hdiv : (tag * 8 + way) / 8 = tag := by omega
  have hmod : (tag * 8 + way) % 8 = way := by omega
  have hvalid : ¬ (tag = 0 ∨ maxTag < tag) := by omega
  rw [readField, key, readNumber_varint hkey, Option.bind_some]
  simp only [hdiv, hmod, if_neg hvalid, h, Option.map_some]

include htag in
theorem readField_item {bs : Bytes} (hlength : bs.length ≤ nat64Max) (rest : Bytes) :
    readField (itemField tag bs ++ rest) = some (⟨tag, .delimited bs⟩, rest) := by
  have hpayload : readPayload 2 (delimited bs ++ rest) = some (.delimited bs, rest) := by
    rw [delimited, List.append_assoc, readPayload, readNumber_varint hlength, Option.bind_some]
    simp [cut?]
  rw [itemField, List.append_assoc]
  exact readField_key htag (by omega) hpayload

include htag in
theorem readField_int (i : Int) (rest : Bytes) :
    readField (key tag 0 ++ varintOfInt i ++ rest) = some (⟨tag, .varint (complement i)⟩, rest) := by
  have hpayload : readPayload 0 (varintOfInt i ++ rest) =
      some (.varint (complement i), rest) := by
    have hvarint : varintOfInt i = varint (complement i) := rfl
    rw [hvarint, readPayload, readNumber_varint (complement_le i), Option.map_some]
  rw [List.append_assoc]
  exact readField_key htag (by omega) hpayload

theorem readFields_nil : readFields [] = some [] := by
  rw [readFields, if_pos rfl]

theorem readFields_cons {bs rest : Bytes} {field : Field}
    (h : readField bs = some (field, rest)) :
    readFields bs = (readFields rest).map (field :: ·) := by
  have hne : bs ≠ [] := by
    rintro rfl
    cases h
  rw [readFields, if_neg hne]
  split
  · rename_i hnone
    rw [h] at hnone
    cases hnone
  · rename_i hsome
    rw [h] at hsome
    cases hsome
    rfl

variable {μ : Type} {rule : μ → Field → Option μ} {m r : μ}

theorem merge_nil : merge rule m [] = some m := by
  rw [merge, readFields_nil]
  rfl

theorem merge_cons {bs rest : Bytes} {field : Field} (h : readField bs = some (field, rest))
    (hrule : rule m field = some r) : merge rule m bs = merge rule r rest := by
  rw [merge, merge, readFields_cons h]
  cases readFields rest with
  | none => rfl
  | some fields =>
    show (rule m field).bind (fun m => fields.foldlM rule m) = fields.foldlM rule r
    rw [hrule, Option.bind_some]

include htag in
theorem merge_intField {i : Int} (hrule : rule m ⟨tag, .varint (complement i)⟩ = some r)
    (hzero : i = 0 → m = r) (rest : Bytes) :
    merge rule m (intField tag i ++ rest) = merge rule r rest := by
  by_cases hi : i = 0
  · rw [intField, if_pos hi, List.nil_append, hzero hi]
  · rw [intField, if_neg hi]
    exact merge_cons (readField_int htag i rest) hrule

include htag in
theorem merge_itemField {bs : Bytes} (hlength : bs.length ≤ nat64Max)
    (hrule : rule m ⟨tag, .delimited bs⟩ = some r) (rest : Bytes) :
    merge rule m (itemField tag bs ++ rest) = merge rule r rest :=
  merge_cons (readField_item htag hlength rest) hrule

include htag in
theorem merge_bytesField {bs : Bytes} (hlength : bs.length ≤ nat64Max)
    (hrule : rule m ⟨tag, .delimited bs⟩ = some r) (hempty : bs = [] → m = r) (rest : Bytes) :
    merge rule m (bytesField tag bs ++ rest) = merge rule r rest := by
  cases bs with
  | nil =>
    rw [hempty rfl]
    rfl
  | cons b bs =>
    rw [bytesField, if_neg (by simp)]
    exact merge_itemField htag hlength hrule rest

end fields

end TronCourier.Wire
