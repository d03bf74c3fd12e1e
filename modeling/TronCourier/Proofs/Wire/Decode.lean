import TronCourier.Proofs.Wire.Reader
import TronCourier.Wire.Message

/-! The binary messages of a contract call read back. A field that comes twice counts the
last time, a message within a message is merged with what was there before, and repeated
messages are kept in their order. A message that was written is read as it was, and nothing
in its octets is left over. -/

namespace TronCourier.Wire

def Any.rule (m : Any) : Field → Option Any
  | ⟨1, .delimited bs⟩ => (Text.utf8? bs).map fun url => { m with typeUrl := url }
  | ⟨2, .delimited bs⟩ => some { m with value := bs }
  | _ => none

def Trigger.rule (m : Trigger) : Field → Option Trigger
  | ⟨1, .delimited bs⟩ => some { m with owner := bs }
  | ⟨2, .delimited bs⟩ => some { m with contract := bs }
  | ⟨3, .varint n⟩ => some { m with callValue := int64 n }
  | ⟨4, .delimited bs⟩ => some { m with data := bs }
  | ⟨5, .varint n⟩ => some { m with callTokenValue := int64 n }
  | ⟨6, .varint n⟩ => some { m with tokenId := int64 n }
  | _ => none

def Contract.rule (m : Contract) : Field → Option Contract
  | ⟨1, .varint n⟩ => some { m with kind := int32 n }
  | ⟨2, .delimited bs⟩ =>
    (merge Any.rule (m.parameter.getD {}) bs).map fun any => { m with parameter := some any }
  | _ => none

def Raw.rule (m : Raw) : Field → Option Raw
  | ⟨1, .delimited bs⟩ => some { m with refBlockBytes := bs }
  | ⟨3, .varint n⟩ => some { m with refBlockNum := int64 n }
  | ⟨4, .delimited bs⟩ => some { m with refBlockHash := bs }
  | ⟨8, .varint n⟩ => some { m with expiration := int64 n }
  | ⟨10, .delimited bs⟩ => some { m with data := bs }
  | ⟨11, .delimited bs⟩ =>
    (merge Contract.rule {} bs).map fun c => { m with contracts := m.contracts ++ [c] }
  | ⟨14, .varint n⟩ => some { m with timestamp := int64 n }
  | ⟨18, .varint n⟩ => some { m with feeLimit := int64 n }
  | _ => none

def Any.decode? (bs : Bytes) : Option Any := merge Any.rule {} bs

def Trigger.decode? (bs : Bytes) : Option Trigger := merge Trigger.rule {} bs

def Contract.decode? (bs : Bytes) : Option Contract := merge Contract.rule {} bs

def Raw.decode? (bs : Bytes) : Option Raw := merge Raw.rule {} bs

/-- The integers of a message are of the size that the message gives them. -/
structure Trigger.Fits (m : Trigger) : Prop where
  callValue : IsInt64 m.callValue
  callTokenValue : IsInt64 m.callTokenValue
  tokenId : IsInt64 m.tokenId

def Contract.Fits (m : Contract) : Prop :=
  -0x80000000 ≤ m.kind ∧ m.kind < 0x80000000

structure Raw.Fits (m : Raw) : Prop where
  refBlockNum : IsInt64 m.refBlockNum
  expiration : IsInt64 m.expiration
  contracts : ∀ c ∈ m.contracts, c.Fits
  timestamp : IsInt64 m.timestamp
  feeLimit : IsInt64 m.feeLimit

theorem length_le_itemField (tag : Nat) (bs : Bytes) : bs.length ≤ (itemField tag bs).length := by
  simp only [itemField, delimited, List.length_append]
  omega

theorem length_le_bytesField (tag : Nat) (bs : Bytes) :
    bs.length ≤ (bytesField tag bs).length := by
  cases bs with
  | nil => simp
  | cons b bs => exact length_le_itemField tag (b :: bs)

theorem Any.decode?_encode {m : Any} (h : m.encode.length ≤ nat64Max) :
    decode? m.encode = some m := by
  obtain ⟨typeUrl, value⟩ := m
  simp only [encode, List.length_append] at h
  have hurl : (Text.utf8 typeUrl).length ≤ nat64Max := by
    have := length_le_bytesField 1 (Text.utf8 typeUrl)
    omega
  have hvalue : value.length ≤ nat64Max := by
    have := length_le_bytesField 2 value
    omega
  have readUrl : rule {} ⟨1, .delimited (Text.utf8 typeUrl)⟩ = some { typeUrl } := by
    simp only [rule, Text.utf8?_utf8, Option.map_some]
  have noUrl (hempty : Text.utf8 typeUrl = []) : ({} : Any) = { typeUrl } := by
    rw [hempty] at readUrl
    exact Option.some.inj readUrl
  rw [decode?, encode, merge_bytesField (by decide) hurl readUrl noUrl,
    ← List.append_nil (bytesField 2 value),
    merge_bytesField (r := { typeUrl, value }) (by decide) hvalue rfl (by rintro rfl; rfl)]
  exact merge_nil

theorem Trigger.decode?_encode {m : Trigger} (hfits : m.Fits) (h : m.encode.length ≤ nat64Max) :
    decode? m.encode = some m := by
  obtain ⟨owner, contract, callValue, data, callTokenValue, tokenId⟩ := m
  simp only [encode, List.length_append] at h
  have howner : owner.length ≤ nat64Max := by
    have := length_le_bytesField 1 owner
    omega
  have hcontract : contract.length ≤ nat64Max := by
    have := length_le_bytesField 2 contract
    omega
  have hdata : data.length ≤ nat64Max := by
    have := length_le_bytesField 4 data
    omega
  have hvalue : int64 (complement callValue) = callValue := int64_complement hfits.callValue
  have htoken : int64 (complement callTokenValue) = callTokenValue :=
    int64_complement hfits.callTokenValue
  have hid : int64 (complement tokenId) = tokenId := int64_complement hfits.tokenId
  rw [decode?, encode,
    merge_bytesField (r := { owner }) (by decide) howner rfl (by rintro rfl; rfl),
    merge_bytesField (r := { owner, contract }) (by decide) hcontract rfl (by rintro rfl; rfl),
    merge_intField (r := { owner, contract, callValue }) (by decide) (by simp only [rule, hvalue])
      (by rintro rfl; rfl),
    merge_bytesField (r := { owner, contract, callValue, data }) (by decide) hdata rfl
      (by rintro rfl; rfl),
    merge_intField (r := { owner, contract, callValue, data, callTokenValue }) (by decide)
      (by simp only [rule, htoken]) (by rintro rfl; rfl),
    ← List.append_nil (intField 6 tokenId),
    merge_intField (r := { owner, contract, callValue, data, callTokenValue, tokenId })
      (by decide) (by simp only [rule, hid]) (by rintro rfl; rfl)]
  exact merge_nil

theorem merge_messageField {tag : Nat} (htag : 0 < tag ∧ tag ≤ maxTag) {μ ν : Type}
    {rule : μ → Field → Option μ} {m r : μ} {encode : ν → Bytes} {part : Option ν}
    (hlength : (messageField tag encode part).length ≤ nat64Max)
    (hrule : ∀ n, part = some n → rule m ⟨tag, .delimited (encode n)⟩ = some r)
    (hnone : part = none → m = r) (rest : Bytes) :
    merge rule m (messageField tag encode part ++ rest) = merge rule r rest := by
  cases part with
  | none =>
    rw [hnone rfl]
    rfl
  | some n =>
    exact merge_itemField htag (Nat.le_trans (length_le_itemField tag _) hlength) (hrule n rfl) rest

theorem Contract.decode?_encode {m : Contract} (hfits : m.Fits)
    (h : m.encode.length ≤ nat64Max) : decode? m.encode = some m := by
  obtain ⟨kind, parameter⟩ := m
  simp only [encode, List.length_append] at h
  have hlength : (messageField 2 Any.encode parameter).length ≤ nat64Max := by omega
  have hkind : int32 (complement kind) = kind := int32_complement hfits.1 hfits.2
  have readParameter (any : Any) (hany : parameter = some any) :
      rule { kind } ⟨2, .delimited any.encode⟩ = some { kind, parameter } := by
    have hencode : any.encode.length ≤ nat64Max := by
      rw [hany] at hlength
      exact Nat.le_trans (length_le_itemField 2 _) hlength
    show (Any.decode? any.encode).map (fun any => Contract.mk kind (some any)) = _
    rw [Any.decode?_encode hencode, hany, Option.map_some]
  rw [decode?, encode, merge_intField (r := { kind }) (by decide) (by simp only [rule, hkind])
      (by rintro rfl; rfl),
    ← List.append_nil (messageField 2 Any.encode parameter),
    merge_messageField (by decide) hlength readParameter (by rintro rfl; rfl)]
  exact merge_nil

/-- Each of the repeated messages is put behind those that were read before. -/
theorem merge_repeatedField {tag : Nat} (htag : 0 < tag ∧ tag ≤ maxTag) {μ ν : Type}
    {rule : μ → Field → Option μ} {set : List ν → μ} {encode : ν → Bytes} (read parts : List ν)
    (hlength : (repeatedField tag encode parts).length ≤ nat64Max)
    (hrule : ∀ n ∈ parts, ∀ read,
      rule (set read) ⟨tag, .delimited (encode n)⟩ = some (set (read ++ [n])))
    (rest : Bytes) :
    merge rule (set read) (repeatedField tag encode parts ++ rest) =
      merge rule (set (read ++ parts)) rest := by
  induction parts generalizing read with
  | nil => rw [List.append_nil]; rfl
  | cons n parts ih =>
    rw [repeatedField, List.flatMap_cons] at hlength ⊢
    rw [List.length_append] at hlength
    have hitem : (encode n).length ≤ nat64Max := by
      have := length_le_itemField tag (encode n)
      omega
    rw [List.append_assoc, merge_itemField htag hitem (hrule n List.mem_cons_self read)]
    have hrest := ih (read ++ [n]) (Nat.le_trans (Nat.le_add_left _ _) hlength)
      fun n hn => hrule n (List.mem_cons_of_mem _ hn)
    rw [repeatedField, List.append_assoc, List.singleton_append] at hrest
    exact hrest

theorem length_le_repeatedField (tag : Nat) {μ : Type} {encode : μ → Bytes} {part : μ}
    {parts : List μ} (h : part ∈ parts) :
    (encode part).length ≤ (repeatedField tag encode parts).length := by
  obtain ⟨before, after, rfl⟩ := List.append_of_mem h
  have := length_le_itemField tag (encode part)
  simp only [repeatedField, List.flatMap_append, List.flatMap_cons, List.length_append]
  omega

theorem Raw.decode?_encode {m : Raw} (hfits : m.Fits) (h : m.encode.length ≤ nat64Max) :
    decode? m.encode = some m := by
  obtain ⟨refBlockBytes, refBlockNum, refBlockHash, expiration, data, contracts, timestamp,
    feeLimit⟩ := m
  simp only [encode, List.length_append] at h
  have hbytes : refBlockBytes.length ≤ nat64Max := by
    have := length_le_bytesField 1 refBlockBytes
    omega
  have hhash : refBlockHash.length ≤ nat64Max := by
    have := length_le_bytesField 4 refBlockHash
    omega
  have hdata : data.length ≤ nat64Max := by
    have := length_le_bytesField 10 data
    omega
  have hcontracts : (repeatedField 11 Contract.encode contracts).length ≤ nat64Max := by omega
  have hnum : int64 (complement refBlockNum) = refBlockNum := int64_complement hfits.refBlockNum
  have hexpiration : int64 (complement expiration) = expiration :=
    int64_complement hfits.expiration
  have htimestamp : int64 (complement timestamp) = timestamp := int64_complement hfits.timestamp
  have hfee : int64 (complement feeLimit) = feeLimit := int64_complement hfits.feeLimit
  have readContract (c : Contract) (hc : c ∈ contracts) (read : List Contract) :
      rule { contracts := read, refBlockBytes, refBlockNum, refBlockHash, expiration, data }
        ⟨11, .delimited c.encode⟩ =
      some
        { contracts := read ++ [c], refBlockBytes, refBlockNum, refBlockHash, expiration, data } := by
    have hencode : c.encode.length ≤ nat64Max :=
      Nat.le_trans (length_le_repeatedField 11 hc) hcontracts
    show (Contract.decode? c.encode).map _ = _
    rw [Contract.decode?_encode (hfits.contracts c hc) hencode, Option.map_some]
  rw [decode?, encode,
    merge_bytesField (r := { refBlockBytes }) (by decide) hbytes rfl (by rintro rfl; rfl),
    merge_intField (r := { refBlockBytes, refBlockNum }) (by decide) (by simp only [rule, hnum])
      (by rintro rfl; rfl),
    merge_bytesField (r := { refBlockBytes, refBlockNum, refBlockHash }) (by decide) hhash rfl
      (by rintro rfl; rfl),
    merge_intField (r := { refBlockBytes, refBlockNum, refBlockHash, expiration }) (by decide)
      (by simp only [rule, hexpiration]) (by rintro rfl; rfl),
    merge_bytesField (r := { refBlockBytes, refBlockNum, refBlockHash, expiration, data })
      (by decide) hdata rfl (by rintro rfl; rfl),
    merge_repeatedField (by decide) [] contracts hcontracts readContract, List.nil_append,
    merge_intField
      (r := { refBlockBytes, refBlockNum, refBlockHash, expiration, data, contracts, timestamp })
      (by decide) (by simp only [rule, htimestamp]) (by rintro rfl; rfl),
    ← List.append_nil (intField 18 feeLimit),
    merge_intField (r := Raw.mk refBlockBytes refBlockNum refBlockHash expiration data contracts
        timestamp feeLimit) (by decide) (by simp only [rule, hfee]) (by rintro rfl; rfl)]
  exact merge_nil

end TronCourier.Wire
