import TronCourier.Proofs.Text.Hex
import TronCourier.Proofs.Wire.Decode
import TronCourier.Transaction.Build

/-! The octets that are signed and the JSON form of a transaction tell the same. Whoever
reads the octets finds what the form shows and nothing else, so that forms with the same
octets differ in the case of hexadecimal letters only. -/

namespace TronCourier

/-- How many octets are held together at most. -/
def memoryMax : Nat := 0x7FFFFFFFFFFFFFFF

/-- The integers have 64 bits, and there is room for the octets of the call data. -/
structure RawJson.Fits (raw : RawJson) : Prop where
  callValue : ∀ c ∈ raw.contracts, Wire.IsInt64 c.trigger.callValue
  data : ∀ c ∈ raw.contracts, (Text.utf8 c.trigger.data).length ≤ 2 * memoryMax
  expiration : Wire.IsInt64 raw.expiration
  feeLimit : Wire.IsInt64 raw.feeLimit
  timestamp : Wire.IsInt64 raw.timestamp

structure ContractCall.Fits (call : ContractCall) : Prop where
  callValue : Wire.IsInt64 call.callValue
  data : call.data.length ≤ memoryMax

structure BlockRef.Fits (block : BlockRef) : Prop where
  number : block.number.length = 2
  hash : block.hash.length = 8

/-- The form with all hexadecimal text in lower case. -/
def RawJson.lowered (raw : RawJson) : RawJson :=
  { raw with
    contracts := raw.contracts.map fun c =>
      { c with trigger := { c.trigger with data := c.trigger.data.toLower } }
    refBlockBytes := raw.refBlockBytes.toLower
    refBlockHash := raw.refBlockHash.toLower }

/-- The call that a form shows, with its call data as octets. -/
def TriggerJson.withData (t : TriggerJson) (data : Bytes) : Wire.Trigger where
  owner := t.owner.toBytes
  contract := t.contract.toBytes
  callValue := t.callValue
  data

/-- A message that was read says what a form shows, and nothing else. -/
structure RawJson.SaidBy (raw : RawJson) (w : Wire.Raw) : Prop where
  contract : ∃ c value data,
    raw.contracts = [c] ∧ c.kind = Wire.ContractKind.triggerSmart.name ∧
    c.typeUrl = Wire.triggerTypeUrl ∧ Text.unhex c.trigger.data = .ok data ∧
    w.contracts = [{
      kind := Wire.ContractKind.triggerSmart.number
      parameter := some { typeUrl := c.typeUrl, value } }] ∧
    Wire.Trigger.decode? value = some (c.trigger.withData data)
  refBlockBytes : Text.unhex raw.refBlockBytes = .ok w.refBlockBytes ∧ w.refBlockBytes.length = 2
  refBlockHash : Text.unhex raw.refBlockHash = .ok w.refBlockHash ∧ w.refBlockHash.length = 8
  expiration : w.expiration = raw.expiration
  feeLimit : w.feeLimit = raw.feeLimit
  timestamp : w.timestamp = raw.timestamp
  refBlockNum : w.refBlockNum = 0
  data : w.data = []

namespace Address

theorem length_toBytes (a : Address) : a.toBytes.length = 21 := by
  rw [toBytes, List.length_cons, a.length_hash]

theorem toBytes_injective {a b : Address} (h : a.toBytes = b.toBytes) : a = b := by
  obtain ⟨hash, hlength⟩ := a
  obtain ⟨hash', hlength'⟩ := b
  simp only [toBytes, List.cons.injEq, true_and] at h
  simp only [h]

end Address

theorem TriggerJson.withData_injective {t t' : TriggerJson} {d d' : Bytes}
    (h : t.withData d = t'.withData d') :
    t.owner = t'.owner ∧ t.contract = t'.contract ∧ t.callValue = t'.callValue ∧ d = d' := by
  simp only [TriggerJson.withData, Wire.Trigger.mk.injEq, and_true] at h
  obtain ⟨howner, hcontract, hvalue, hdata⟩ := h
  exact ⟨Address.toBytes_injective howner, Address.toBytes_injective hcontract, hvalue, hdata⟩

namespace Wire

theorem ContractKind.ofName?_eq_triggerSmart {name : String} :
    ofName? name = some .triggerSmart ↔ name = ContractKind.triggerSmart.name := by
  constructor
  · intro h
    rw [ofName?] at h
    exact (beq_iff_eq.mp (List.find?_some (p := fun k : ContractKind => k.name == name) h)).symm
  · rintro rfl
    decide

theorem isInt64_zero : IsInt64 0 := by
  show _ ∧ _
  decide

theorem length_varint_le (octets n : Nat) (h : n < 128 ^ (octets + 1)) :
    (varint n).length ≤ octets + 1 := by
  induction octets generalizing n with
  | zero =>
    rw [varint, if_pos (by simpa using h)]
    simp
  | succ octets ih =>
    rw [varint]
    split
    · simp
    · have := ih (n / 128) (by rwa [Nat.div_lt_iff_lt_mul (by omega), ← Nat.pow_succ])
      rw [List.length_cons]
      omega

theorem length_varint_le_ten {n : Nat} (h : n ≤ nat64Max) : (varint n).length ≤ 10 :=
  length_varint_le 9 n (Nat.lt_of_le_of_lt h (by decide))

theorem length_intField_le (tag : Nat) (htag : tag ≤ maxTag) (i : Int) :
    (intField tag i).length ≤ 20 := by
  unfold maxTag at htag
  have hkey : (key tag 0).length ≤ 10 := length_varint_le_ten (by unfold nat64Max; omega)
  have hvalue : (varintOfInt i).length ≤ 10 := length_varint_le_ten (complement_le i)
  rw [intField]
  split
  · simp
  · rw [List.length_append]
    omega

theorem length_itemField_le (tag : Nat) (htag : tag ≤ maxTag) (bs : Bytes)
    (hlength : bs.length ≤ nat64Max) : (itemField tag bs).length ≤ bs.length + 20 := by
  unfold maxTag at htag
  have hkey : (key tag 2).length ≤ 10 := length_varint_le_ten (by unfold nat64Max; omega)
  have hcount := length_varint_le_ten hlength
  simp only [itemField, delimited, List.length_append]
  omega

theorem length_bytesField_le (tag : Nat) (htag : tag ≤ maxTag) (bs : Bytes)
    (hlength : bs.length ≤ nat64Max) : (bytesField tag bs).length ≤ bs.length + 20 := by
  rw [bytesField]
  split
  · simp
  · exact length_itemField_le tag htag bs hlength

/-- The message of a transaction that makes one contract call. -/
def Raw.ofTrigger (refBlockBytes refBlockHash : Bytes) (expiration timestamp feeLimit : Int)
    (trigger : Trigger) : Raw where
  refBlockBytes
  refBlockHash
  expiration
  contracts := [{
    kind := ContractKind.triggerSmart.number
    parameter := some { typeUrl := triggerTypeUrl, value := trigger.encode } }]
  timestamp
  feeLimit

theorem le_maxTag {tag : Nat} (h : tag ≤ 18) : tag ≤ maxTag :=
  Nat.le_trans h (by decide)

section trigger

variable {trigger : Trigger} (howner : trigger.owner.length = 21)
  (hcontract : trigger.contract.length = 21) (hdata : trigger.data.length ≤ memoryMax)

include howner hcontract hdata

theorem Trigger.length_encode_le : trigger.encode.length ≤ trigger.data.length + 200 := by
  have hroom : 21 ≤ nat64Max ∧ memoryMax ≤ nat64Max := by decide
  have := length_bytesField_le 1 (le_maxTag (by omega)) trigger.owner (by omega)
  have := length_bytesField_le 2 (le_maxTag (by omega)) trigger.contract (by omega)
  have := length_intField_le 3 (le_maxTag (by omega)) trigger.callValue
  have := length_bytesField_le 4 (le_maxTag (by omega)) trigger.data (by omega)
  have := length_intField_le 5 (le_maxTag (by omega)) trigger.callTokenValue
  have := length_intField_le 6 (le_maxTag (by omega)) trigger.tokenId
  simp only [encode, List.length_append]
  omega

omit howner hcontract hdata in
theorem Contract.length_encode_le (kind : Int) (value : Bytes)
    (hvalue : value.length + 100 ≤ nat64Max) :
    (encode { kind, parameter := some { typeUrl := triggerTypeUrl, value } }).length ≤
      value.length + 200 := by
  have hurl : (Text.utf8 triggerTypeUrl).length = 49 := by decide +kernel
  have hany : (Any.encode { typeUrl := triggerTypeUrl, value }).length ≤ value.length + 90 := by
    have := length_bytesField_le 1 (le_maxTag (by omega)) (Text.utf8 triggerTypeUrl) (by omega)
    have := length_bytesField_le 2 (le_maxTag (by omega)) value (by omega)
    simp only [Any.encode, List.length_append]
    omega
  have := length_intField_le 1 (le_maxTag (by omega)) kind
  have := length_itemField_le 2 (le_maxTag (by omega))
    (Any.encode { typeUrl := triggerTypeUrl, value }) (by omega)
  simp only [encode, messageField, List.length_append]
  omega

theorem Raw.length_encode_ofTrigger_le {refBlockBytes refBlockHash : Bytes}
    (hbytes : refBlockBytes.length = 2) (hhash : refBlockHash.length = 8)
    (expiration timestamp feeLimit : Int) :
    (ofTrigger refBlockBytes refBlockHash expiration timestamp feeLimit trigger).encode.length
      ≤ nat64Max := by
  have hroom : memoryMax + 1000 ≤ nat64Max := by decide
  have htrigger := Trigger.length_encode_le howner hcontract hdata
  have hcall := Contract.length_encode_le ContractKind.triggerSmart.number trigger.encode (by omega)
  have := length_bytesField_le 1 (le_maxTag (by omega)) refBlockBytes (by omega)
  have := length_intField_le 3 (le_maxTag (by omega)) 0
  have := length_bytesField_le 4 (le_maxTag (by omega)) refBlockHash (by omega)
  have := length_intField_le 8 (le_maxTag (by omega)) expiration
  have := length_bytesField_le 10 (le_maxTag (by omega)) [] (by simp)
  have := length_itemField_le 11 (le_maxTag (by omega)) _ (Nat.le_trans hcall (by omega))
  have := length_intField_le 14 (le_maxTag (by omega)) timestamp
  have := length_intField_le 18 (le_maxTag (by omega)) feeLimit
  simp only [encode, ofTrigger, repeatedField, List.flatMap_cons, List.flatMap_nil,
    List.length_append, List.length_nil] at *
  omega

theorem Trigger.decode?_encode_of_length (hfits : trigger.Fits) :
    decode? trigger.encode = some trigger := by
  have hroom : memoryMax + 200 ≤ nat64Max := by decide
  have hlength := Trigger.length_encode_le howner hcontract hdata
  exact decode?_encode hfits (by omega)

theorem Raw.decode?_encode_ofTrigger {refBlockBytes refBlockHash : Bytes}
    (hbytes : refBlockBytes.length = 2) (hhash : refBlockHash.length = 8)
    {expiration timestamp feeLimit : Int} (hexpiration : IsInt64 expiration)
    (htimestamp : IsInt64 timestamp) (hfee : IsInt64 feeLimit) :
    decode? (ofTrigger refBlockBytes refBlockHash expiration timestamp feeLimit trigger).encode =
      some (ofTrigger refBlockBytes refBlockHash expiration timestamp feeLimit trigger) := by
  refine decode?_encode ⟨isInt64_zero, hexpiration, ?_, htimestamp, hfee⟩
    (length_encode_ofTrigger_le howner hcontract hdata hbytes hhash expiration timestamp feeLimit)
  intro c hc
  obtain rfl := List.mem_singleton.mp hc
  show -0x80000000 ≤ ContractKind.triggerSmart.number ∧ ContractKind.triggerSmart.number < 0x80000000
  decide

end trigger

end Wire

namespace RawJson

variable {raw raw' : RawJson}

theorem soleContract_eq_ok_iff {c : ContractJson} : raw.soleContract = .ok c ↔
    raw.contracts = [c] ∧ c.kind = Wire.ContractKind.triggerSmart.name ∧
      c.typeUrl = Wire.triggerTypeUrl := by
  unfold soleContract
  rcases hcs : raw.contracts with _ | ⟨first, _ | ⟨second, rest⟩⟩
  · simp
  · simp only [ne_eq, ite_not, List.cons.injEq, and_true]
    constructor
    · intro h
      split at h
      · split at h
        · rename_i hkind hurl
          cases h
          exact ⟨rfl, Wire.ContractKind.ofName?_eq_triggerSmart.mp hkind, hurl⟩
        · cases h
      · cases h
    · rintro ⟨rfl, hkind, hurl⟩
      rw [if_pos (Wire.ContractKind.ofName?_eq_triggerSmart.mpr hkind), if_pos hurl]
  · simp

theorem fixedField_eq_ok_iff {name text : String} {count : Nat} {bs : Bytes} :
    fixedField name text count = .ok bs ↔ Text.unhex text = .ok bs ∧ bs.length = count := by
  unfold fixedField
  cases Text.unhex text with
  | error e => simp
  | ok bs' =>
    by_cases hcount : bs'.length = count
    · simp only [if_pos hcount, Except.ok.injEq]
      constructor
      · rintro rfl
        exact ⟨rfl, hcount⟩
      · exact And.left
    · simp only [if_neg hcount, Except.ok.injEq]
      constructor
      · intro h
        cases h
      · rintro ⟨rfl, h⟩
        exact absurd h hcount

/-- The message that a form stands for, part by part. -/
theorem toWire_eq_ok_iff {w : Wire.Raw} : raw.toWire = .ok w ↔
    ∃ c b h d, raw.contracts = [c] ∧ c.kind = Wire.ContractKind.triggerSmart.name ∧
      c.typeUrl = Wire.triggerTypeUrl ∧ Text.unhex raw.refBlockBytes = .ok b ∧ b.length = 2 ∧
      Text.unhex raw.refBlockHash = .ok h ∧ h.length = 8 ∧ 0 ≤ raw.feeLimit ∧
      Text.unhex c.trigger.data = .ok d ∧
      w = .ofTrigger b h raw.expiration raw.timestamp raw.feeLimit (c.trigger.withData d) := by
  simp only [toWire, bind_eq_ok_iff, soleContract_eq_ok_iff, fixedField_eq_ok_iff]
  constructor
  · rintro ⟨c, ⟨hc, hkind, hurl⟩, b, ⟨hb, hb2⟩, h, ⟨hh, hh8⟩, hw⟩
    split at hw
    · cases hw
    · rename_i hfee
      simp only [bind_eq_ok_iff, mapError_eq_ok_iff] at hw
      obtain ⟨d, hd, hw⟩ := hw
      cases hw
      exact ⟨c, b, h, d, hc, hkind, hurl, hb, hb2, hh, hh8, by omega, hd, rfl⟩
  · rintro ⟨c, b, h, d, hc, hkind, hurl, hb, hb2, hh, hh8, hfee, hd, rfl⟩
    refine ⟨c, ⟨hc, hkind, hurl⟩, b, ⟨hb, hb2⟩, h, ⟨hh, hh8⟩, ?_⟩
    rw [if_neg (by omega), bind_eq_ok_iff]
    exact ⟨d, mapError_eq_ok_iff.mpr hd, rfl⟩

theorem toWire_expiration {w : Wire.Raw} (h : raw.toWire = .ok w) :
    w.expiration = raw.expiration := by
  obtain ⟨c, b, h, d, -, -, -, -, -, -, -, -, -, rfl⟩ := toWire_eq_ok_iff.mp h
  rfl

/-- The octets of a form are read as what the form shows. -/
theorem Fits.saidBy {w : Wire.Raw} (hfits : raw.Fits) (hw : raw.toWire = .ok w) :
    Wire.Raw.decode? w.encode = some w ∧ raw.SaidBy w := by
  obtain ⟨c, b, h, d, hc, hkind, hurl, hb, hb2, hh, hh8, -, hd, rfl⟩ := toWire_eq_ok_iff.mp hw
  have hmem : c ∈ raw.contracts := by simp [hc]
  have howner : (c.trigger.withData d).owner.length = 21 := c.trigger.owner.length_toBytes
  have hcontract : (c.trigger.withData d).contract.length = 21 :=
    c.trigger.contract.length_toBytes
  have hdata : (c.trigger.withData d).data.length ≤ memoryMax := by
    have := hfits.data c hmem
    rw [Text.length_of_unhex hd] at this
    exact Nat.le_of_mul_le_mul_left this (by omega)
  have readTrigger := Wire.Trigger.decode?_encode_of_length howner hcontract hdata
    ⟨hfits.callValue c hmem, Wire.isInt64_zero, Wire.isInt64_zero⟩
  refine ⟨Wire.Raw.decode?_encode_ofTrigger howner hcontract hdata hb2 hh8 hfits.expiration
    hfits.timestamp hfits.feeLimit, ?_⟩
  exact {
    contract := ⟨c, _, d, hc, hkind, hurl, hd, by rw [hurl]; rfl, readTrigger⟩
    refBlockBytes := ⟨hb, hb2⟩
    refBlockHash := ⟨hh, hh8⟩
    expiration := rfl
    feeLimit := rfl
    timestamp := rfl
    refBlockNum := rfl
    data := rfl }

/-- Forms that one message says differ in the case of hexadecimal letters only. -/
theorem SaidBy.lowered_eq {w : Wire.Raw} (h : raw.SaidBy w) (h' : raw'.SaidBy w) :
    raw.lowered = raw'.lowered := by
  obtain ⟨c, value, d, hc, hkind, hurl, hd, hcall, htrigger⟩ := h.contract
  obtain ⟨c', value', d', hc', hkind', hurl', hd', hcall', htrigger'⟩ := h'.contract
  have same : value = value' := by
    rw [hcall] at hcall'
    simp only [List.cons.injEq, Wire.Contract.mk.injEq, Option.some.injEq,
      Wire.Any.mk.injEq] at hcall'
    exact hcall'.1.2.2
  rw [← same, htrigger, Option.some.injEq] at htrigger'
  obtain ⟨howner, hcontract, hvalue, rfl⟩ := TriggerJson.withData_injective htrigger'
  have hbytes : raw.refBlockBytes.toLower = raw'.refBlockBytes.toLower := by
    rw [Text.toLower_of_unhex h.refBlockBytes.1, Text.toLower_of_unhex h'.refBlockBytes.1]
  have hhash : raw.refBlockHash.toLower = raw'.refBlockHash.toLower := by
    rw [Text.toLower_of_unhex h.refBlockHash.1, Text.toLower_of_unhex h'.refBlockHash.1]
  have hdata : c.trigger.data.toLower = c'.trigger.data.toLower := by
    rw [Text.toLower_of_unhex hd, Text.toLower_of_unhex hd']
  simp only [lowered, hc, hc', List.map_cons, List.map_nil, hdata, howner, hcontract, hvalue,
    hkind, hkind', hurl, hurl', hbytes, hhash, ← h.expiration, ← h'.expiration, ← h.feeLimit,
    ← h'.feeLimit, ← h.timestamp, ← h'.timestamp]

/-- The form of a call is refused for a negative fee limit only. -/
theorem toWire_ofCall_eq_ok_iff (call : ContractCall) {block : BlockRef} (hblock : block.Fits)
    (feeLimit timestamp : Int) (expiration : Option Int) :
    (∃ w, (ofCall call block feeLimit timestamp expiration).toWire = .ok w) ↔ 0 ≤ feeLimit := by
  simp only [toWire_eq_ok_iff]
  constructor
  · rintro ⟨w, c, b, h, d, -, -, -, -, -, -, -, hfee, -⟩
    exact hfee
  · intro hfee
    exact ⟨_, _, block.number, block.hash, call.data, rfl, rfl, rfl, Text.unhex_hex _,
      hblock.number, Text.unhex_hex _, hblock.hash, hfee, Text.unhex_hex _, rfl⟩

theorem fits_ofCall {call : ContractCall} (hcall : call.Fits) (block : BlockRef)
    {feeLimit timestamp : Int} {expiration : Option Int} (hfee : Wire.IsInt64 feeLimit)
    (htimestamp : Wire.IsInt64 timestamp) (hexpiration : ∀ t ∈ expiration, Wire.IsInt64 t) :
    (ofCall call block feeLimit timestamp expiration).Fits where
  callValue := by
    intro c hc
    obtain rfl := List.mem_singleton.mp hc
    exact hcall.callValue
  data := by
    intro c hc
    obtain rfl := List.mem_singleton.mp hc
    have := Text.length_of_unhex (Text.unhex_hex call.data)
    have := hcall.data
    show (Text.utf8 (Text.hex call.data)).length ≤ _
    omega
  expiration := by
    cases expiration with
    | none => exact clamp_mem (by decide)
    | some t => exact hexpiration t rfl
  feeLimit := hfee
  timestamp := htimestamp

/-- A form of a call says in lower case what it was made of. -/
theorem lowered_ofCall_injective {call call' : ContractCall} {block block' : BlockRef}
    {feeLimit feeLimit' timestamp timestamp' : Int} {expiration expiration' : Option Int}
    (h : (ofCall call block feeLimit timestamp expiration).lowered =
      (ofCall call' block' feeLimit' timestamp' expiration').lowered) :
    call = call' ∧ block = block' ∧ feeLimit = feeLimit' ∧ timestamp = timestamp' ∧
      expiration.getD (addClamped timestamp defaultLifetime) =
        expiration'.getD (addClamped timestamp' defaultLifetime) := by
  obtain ⟨owner, contract, callValue, data⟩ := call
  obtain ⟨owner', contract', callValue', data'⟩ := call'
  obtain ⟨number, hash⟩ := block
  obtain ⟨number', hash'⟩ := block'
  have hex_eq {bs bs' : Bytes} (h : (Text.hex bs).toLower = (Text.hex bs').toLower) : bs = bs' := by
    rw [Text.toLower_of_unhex (Text.unhex_hex bs), Text.toLower_of_unhex (Text.unhex_hex bs')] at h
    exact Text.hex_injective h
  simp only [lowered, ofCall, List.map_cons, List.map_nil, mk.injEq, List.cons.injEq,
    ContractJson.mk.injEq, TriggerJson.mk.injEq, and_true] at h
  obtain ⟨⟨hdata, rfl, rfl, rfl⟩, hnumber, hhash, hexpiration, rfl, rfl⟩ := h
  obtain rfl := hex_eq hdata
  obtain rfl := hex_eq hnumber
  obtain rfl := hex_eq hhash
  exact ⟨rfl, rfl, rfl, rfl, hexpiration⟩

end RawJson

namespace UnsignedTransaction

theorem ofRaw_eq_ok_iff {u : UnsignedTransaction} {raw : RawJson} : ofRaw raw = .ok u ↔
    ∃ w, raw.toWire = .ok w ∧ u = { raw, octets := w.encode, id := sha256 w.encode } := by
  simp only [ofRaw, bind_eq_ok_iff, pure, Except.pure, Except.ok.injEq, eq_comm (b := u)]

theorem decode?_octets {raw : RawJson} {t : UnsignedTransaction} (hfits : raw.Fits)
    (h : ofRaw raw = .ok t) : ∃ w, Wire.Raw.decode? t.octets = some w ∧ raw.SaidBy w := by
  obtain ⟨w, hw, rfl⟩ := ofRaw_eq_ok_iff.mp h
  exact ⟨w, hfits.saidBy hw⟩

theorem lowered_eq_of_octets_eq {raw raw' : RawJson} {t t' : UnsignedTransaction}
    (hfits : raw.Fits) (hfits' : raw'.Fits) (h : ofRaw raw = .ok t) (h' : ofRaw raw' = .ok t')
    (hoctets : t.octets = t'.octets) : raw.lowered = raw'.lowered := by
  obtain ⟨w, hread, hsaid⟩ := decode?_octets hfits h
  obtain ⟨w', hread', hsaid'⟩ := decode?_octets hfits' h'
  rw [hoctets, hread', Option.some.injEq] at hread
  rw [hread] at hsaid'
  exact hsaid.lowered_eq hsaid'

/-- The octets that are signed say what the form shows and nothing else. Forms with the same
octets differ in the case of hexadecimal letters only. A call is refused for a negative fee
limit only, and what it was made of can be told from its octets. -/
theorem octets_tell_form :
    (∀ raw t, raw.Fits → ofRaw raw = .ok t →
      ∃ w, Wire.Raw.decode? t.octets = some w ∧ raw.SaidBy w) ∧
    (∀ raw raw' t t', raw.Fits → raw'.Fits → ofRaw raw = .ok t → ofRaw raw' = .ok t' →
      t.octets = t'.octets → raw.lowered = raw'.lowered) ∧
    (∀ call block feeLimit timestamp expiration, block.Fits →
      ((∃ t, ofCall call block feeLimit timestamp expiration = .ok t) ↔ 0 ≤ feeLimit)) ∧
    (∀ call call' block block' feeLimit feeLimit' timestamp timestamp' expiration expiration' t t',
      call.Fits → call'.Fits → Wire.IsInt64 feeLimit → Wire.IsInt64 feeLimit' →
      Wire.IsInt64 timestamp → Wire.IsInt64 timestamp' →
      (∀ e ∈ expiration, Wire.IsInt64 e) → (∀ e ∈ expiration', Wire.IsInt64 e) →
      ofCall call block feeLimit timestamp expiration = .ok t →
      ofCall call' block' feeLimit' timestamp' expiration' = .ok t' → t.octets = t'.octets →
      call = call' ∧ block = block' ∧ feeLimit = feeLimit' ∧ timestamp = timestamp' ∧
        expiration.getD (addClamped timestamp defaultLifetime) =
          expiration'.getD (addClamped timestamp' defaultLifetime)) := by
  refine ⟨fun _ _ => decode?_octets, fun _ _ _ _ => lowered_eq_of_octets_eq, ?_, ?_⟩
  · intro call block feeLimit timestamp expiration hblock
    rw [← RawJson.toWire_ofCall_eq_ok_iff call hblock feeLimit timestamp expiration]
    simp only [ofCall, ofRaw_eq_ok_iff]
    constructor
    · rintro ⟨t, w, hw, -⟩
      exact ⟨w, hw⟩
    · rintro ⟨w, hw⟩
      exact ⟨_, w, hw, rfl⟩
  · intro call call' block block' feeLimit feeLimit' timestamp timestamp' expiration expiration'
      t t' hcall hcall' hfee hfee' htime htime' hend hend' h h' hoctets
    exact RawJson.lowered_ofCall_injective (lowered_eq_of_octets_eq
      (RawJson.fits_ofCall hcall block hfee htime hend)
      (RawJson.fits_ofCall hcall' block' hfee' htime' hend') h h' hoctets)

/-- A form with upper-case hexadecimal text and with integers at their bounds. -/
def shoutedSample : RawJson where
  contracts := [{
    trigger := {
      data := "A9059cBB"
      owner := .ofHash [0x11]
      contract := .ofHash []
      callValue := -1 }
    typeUrl := Wire.triggerTypeUrl
    kind := Wire.ContractKind.triggerSmart.name }]
  refBlockBytes := "E4c1"
  refBlockHash := "F1D6A3A9F0C9E36B"
  expiration := int64Min
  feeLimit := 0
  timestamp := int64Max

def sampleCall : ContractCall where
  owner := .ofHash [0x11]
  contract := .ofHash []
  callValue := -1
  data := [0xA9]

def sampleBlock : BlockRef where
  number := [0xE4, 0xC1]
  hash := [0, 0, 0, 0, 0, 0, 0, 1]

theorem octets_tell_form_shoutedSample :
    (∃ t t' w, ofRaw shoutedSample = .ok t ∧ ofRaw shoutedSample.lowered = .ok t' ∧
      t.octets = t'.octets ∧ shoutedSample ≠ shoutedSample.lowered ∧
      Wire.Raw.decode? t.octets = some w ∧ shoutedSample.SaidBy w ∧
      shoutedSample.lowered = shoutedSample.lowered.lowered) ∧
    ∃ u u', ofCall sampleCall sampleBlock 0 int64Max none = .ok u ∧
      ofCall sampleCall sampleBlock 0 int64Max (some int64Max) = .ok u' ∧
      u.octets = u'.octets ∧ addClamped int64Max defaultLifetime = int64Max := by
  obtain ⟨reads, agree, succeeds, differ⟩ := octets_tell_form
  have low : Wire.IsInt64 int64Min := by
    show _ ∧ _
    decide
  have minusOne : Wire.IsInt64 (-1) := by
    show _ ∧ _
    decide
  have high : Wire.IsInt64 int64Max := by
    show _ ∧ _
    decide
  constructor
  · have fits : ∀ raw ∈ [shoutedSample, shoutedSample.lowered], raw.Fits := by
      simp only [List.forall_mem_cons]
      refine ⟨?_, ?_, nofun⟩ <;> exact {
        callValue := fun c hc => by
          obtain rfl := List.mem_singleton.mp hc
          exact minusOne
        data := by decide +kernel
        expiration := low
        feeLimit := Wire.isInt64_zero
        timestamp := high }
    have hw : ∃ w, shoutedSample.toWire = .ok w ∧ shoutedSample.lowered.toWire = .ok w := by
      simp only [RawJson.toWire_eq_ok_iff]
      refine ⟨_, ⟨_, [0xE4, 0xC1], [0xF1, 0xD6, 0xA3, 0xA9, 0xF0, 0xC9, 0xE3, 0x6B],
        [0xA9, 0x05, 0x9C, 0xBB], rfl, rfl, rfl, ?_, rfl, ?_, rfl, ?_, ?_, rfl⟩,
        ⟨_, [0xE4, 0xC1], [0xF1, 0xD6, 0xA3, 0xA9, 0xF0, 0xC9, 0xE3, 0x6B],
        [0xA9, 0x05, 0x9C, 0xBB], rfl, rfl, rfl, ?_, rfl, ?_, rfl, ?_, ?_, rfl⟩⟩ <;>
      decide +kernel
    obtain ⟨w, hw, hw'⟩ := hw
    have ht := ofRaw_eq_ok_iff.mpr ⟨w, hw, rfl⟩
    have ht' := ofRaw_eq_ok_iff.mpr ⟨w, hw', rfl⟩
    have hfits := fits _ List.mem_cons_self
    have hfits' := fits _ (List.mem_cons_of_mem _ List.mem_cons_self)
    obtain ⟨v, hread, hsaid⟩ := reads _ _ hfits ht
    exact ⟨_, _, v, ht, ht', rfl, by decide +kernel, hread, hsaid,
      agree _ _ _ _ hfits hfits' ht ht' rfl⟩
  · have fits : sampleCall.Fits := ⟨minusOne, by decide⟩
    have blockFits : sampleBlock.Fits := ⟨rfl, rfl⟩
    obtain ⟨u, hu⟩ := (succeeds sampleCall sampleBlock 0 int64Max none blockFits).mpr (by omega)
    obtain ⟨u', hu'⟩ :=
      (succeeds sampleCall sampleBlock 0 int64Max (some int64Max) blockFits).mpr (by omega)
    have hoctets : u.octets = u'.octets := by
      have same : Except.ok u = Except.ok u' := hu.symm.trans hu'
      cases same
      rfl
    have hend := differ _ _ _ _ _ _ _ _ _ _ _ _ fits fits Wire.isInt64_zero Wire.isInt64_zero
      high high (by simp) (by simpa using high) hu hu' hoctets
    exact ⟨u, u', hu, hu', hoctets, hend.2.2.2.2⟩

end UnsignedTransaction

end TronCourier
