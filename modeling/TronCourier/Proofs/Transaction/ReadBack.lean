import TronCourier.Proofs.Address
import TronCourier.Proofs.Json.Reordered
import TronCourier.Transaction.Build

/-! Transactions are read back from their JSON form as they are, in whichever order the members
of its objects come. -/

namespace TronCourier

/-- The integers have 64 bits. -/
structure RawJson.HasInt64s (raw : RawJson) : Prop where
  callValue : ∀ c ∈ raw.contracts, int64Min ≤ c.trigger.callValue ∧ c.trigger.callValue ≤ int64Max
  expiration : int64Min ≤ raw.expiration ∧ raw.expiration ≤ int64Max
  feeLimit : int64Min ≤ raw.feeLimit ∧ raw.feeLimit ≤ int64Max
  timestamp : int64Min ≤ raw.timestamp ∧ raw.timestamp ≤ int64Max

open Json (ReadsAs)

theorem Address.readsAs_json? (a : Address) : ReadsAs json? a.toJson a := by
  intro j h
  rw [h.eq_str]
  exact a.json?_toJson

namespace TriggerJson

/-- The members of a call with the call value left out if it is zero. -/
def members (t : TriggerJson) : List (String × Json) :=
  [("data", .str t.data), ("owner_address", t.owner.toJson),
    ("contract_address", t.contract.toJson)] ++
    if t.callValue = 0 then [] else [("call_value", .int t.callValue)]

theorem names_members (t : TriggerJson) : t.members.map Prod.fst =
    ["data", "owner_address", "contract_address"] ++
      if t.callValue = 0 then [] else ["call_value"] := by
  unfold members
  split <;> rfl

theorem callValue_mem_names_iff (t : TriggerJson) :
    "call_value" ∈ t.members.map Prod.fst ↔ t.callValue ≠ 0 := by
  rw [names_members]
  split <;> simp [*]

theorem readsAs (t : TriggerJson) (ht : int64Min ≤ t.callValue ∧ t.callValue ≤ int64Max) :
    ReadsAs json? t.toJson t := by
  intro j hj
  have hnodup : (t.members.map Prod.fst).Nodup := by
    rw [names_members]
    split <;> decide
  have hj : (Json.obj t.members).Reordered j := hj
  obtain ⟨fs, hfs, shows⟩ :=
    hj.fields? hnodup ["data", "owner_address", "contract_address", "call_value"]
  have hdata : fs.required "data" Json.str? = some t.data :=
    shows.required (by decide) (by simp [members]) (Json.readsAs_str? t.data)
  have howner : fs.required "owner_address" Address.json? = some t.owner :=
    shows.required (by decide) (by simp [members]) t.owner.readsAs_json?
  have hcontract : fs.required "contract_address" Address.json? = some t.contract :=
    shows.required (by decide) (by simp [members]) t.contract.readsAs_json?
  have hvalue : fs.withDefault "call_value" 0 Json.int64? = some t.callValue := by
    by_cases hzero : t.callValue = 0
    · rw [shows.withDefault_missing (fun h => t.callValue_mem_names_iff.mp h hzero), hzero]
    · exact shows.withDefault (by decide) (by simp [members, hzero]) (Json.readsAs_int64? ht) 0
  simp [json?, hfs, hdata, howner, hcontract, hvalue]

/-- Nothing but a call value of zero is read where there is none. -/
theorem callValue_eq_zero {members : List (String × Json)} {t : TriggerJson}
    (h : "call_value" ∉ members.map Prod.fst) (ht : json? (.obj members) = some t) :
    t.callValue = 0 := by
  simp only [json?, Json.fields?, Option.bind_eq_bind, Option.bind_eq_some_iff,
    Option.ite_none_right_eq_some] at ht
  obtain ⟨fs, ⟨-, hfs⟩, data, -, owner, -, contract, -, callValue, hvalue, ht⟩ := ht
  cases hfs
  rw [Json.Fields.withDefault, Json.Fields.find_eq_none h] at hvalue
  cases hvalue
  cases ht
  rfl

end TriggerJson

namespace ContractJson

variable {c : ContractJson}

theorem readsAs_parameter (ht : int64Min ≤ c.trigger.callValue ∧ c.trigger.callValue ≤ int64Max) :
    ReadsAs parameter? (.obj [("value", c.trigger.toJson), ("type_url", .str c.typeUrl)])
      (c.trigger, c.typeUrl) := by
  intro j hj
  obtain ⟨fs, hfs, shows⟩ := hj.fields? (by simp) ["value", "type_url"]
  have hvalue : fs.required "value" TriggerJson.json? = some c.trigger :=
    shows.required (by decide) (by simp) (c.trigger.readsAs ht)
  have htypeUrl : fs.required "type_url" Json.str? = some c.typeUrl :=
    shows.required (by decide) (by simp) (Json.readsAs_str? c.typeUrl)
  simp [parameter?, hfs, hvalue, htypeUrl]

theorem readsAs (ht : int64Min ≤ c.trigger.callValue ∧ c.trigger.callValue ≤ int64Max) :
    ReadsAs json? c.toJson c := by
  intro j hj
  obtain ⟨fs, hfs, shows⟩ := hj.fields? (by simp) ["parameter", "type"]
  have hparameter : fs.required "parameter" parameter? = some (c.trigger, c.typeUrl) :=
    shows.required (by decide) (by simp) (readsAs_parameter ht)
  have hkind : fs.required "type" Json.str? = some c.kind :=
    shows.required (by decide) (by simp) (Json.readsAs_str? c.kind)
  simp [json?, hfs, hparameter, hkind]

end ContractJson

theorem RawJson.readsAs {raw : RawJson} (h : raw.HasInt64s) : ReadsAs json? raw.toJson raw := by
  intro j hj
  obtain ⟨fs, hfs, shows⟩ := hj.fields? (by simp)
    ["contract", "ref_block_bytes", "ref_block_hash", "expiration", "fee_limit", "timestamp"]
  have hcontracts : fs.required "contract" (Json.listOf? ContractJson.json?) =
      some raw.contracts :=
    shows.required (by decide) (by simp)
      (Json.readsAs_listOf? fun c hc => ContractJson.readsAs (h.callValue c hc))
  have hbytes : fs.required "ref_block_bytes" Json.str? = some raw.refBlockBytes :=
    shows.required (by decide) (by simp) (Json.readsAs_str? _)
  have hhash : fs.required "ref_block_hash" Json.str? = some raw.refBlockHash :=
    shows.required (by decide) (by simp) (Json.readsAs_str? _)
  have hexpiration : fs.required "expiration" Json.int64? = some raw.expiration :=
    shows.required (by decide) (by simp) (Json.readsAs_int64? h.expiration)
  have hfeeLimit : fs.required "fee_limit" Json.int64? = some raw.feeLimit :=
    shows.required (by decide) (by simp) (Json.readsAs_int64? h.feeLimit)
  have htimestamp : fs.required "timestamp" Json.int64? = some raw.timestamp :=
    shows.required (by decide) (by simp) (Json.readsAs_int64? h.timestamp)
  simp [json?, hfs, hcontracts, hbytes, hhash, hexpiration, hfeeLimit, htimestamp]

theorem SignedTransaction.readsAs {t : SignedTransaction} (h : t.raw.HasInt64s) :
    ReadsAs json? t.toJson t := by
  intro j hj
  obtain ⟨fs, hfs, shows⟩ := hj.fields? (by simp)
    ["txID", "raw_data", "raw_data_hex", "signature", "visible"]
  have hid : fs.required "txID" Json.str? = some t.id :=
    shows.required (by decide) (by simp) (Json.readsAs_str? _)
  have hraw : fs.required "raw_data" RawJson.json? = some t.raw :=
    shows.required (by decide) (by simp) (RawJson.readsAs h)
  have hrawHex : fs.required "raw_data_hex" Json.str? = some t.rawHex :=
    shows.required (by decide) (by simp) (Json.readsAs_str? _)
  have hsignatures : fs.required "signature" (Json.listOf? Json.str?) = some t.signatures :=
    shows.required (by decide) (by simp) (Json.readsAs_listOf? fun s _ => Json.readsAs_str? s)
  have hvisible : fs.required "visible" Json.bool? = some t.visible :=
    shows.required (by decide) (by simp) (Json.readsAs_bool? _)
  simp [json?, hfs, hid, hraw, hrawHex, hsignatures, hvisible]

/-- What is written is read back, in whichever order its members come, so that its octets and
its identifier are the same, or the error is. A call value is left out just if it is zero, and
where there is none it is read as zero. -/
theorem json_reads_back :
    (∀ raw : RawJson, raw.HasInt64s → ∀ j, raw.toJson.Reordered j →
      RawJson.json? j = some raw ∧
      (RawJson.json? j).map UnsignedTransaction.ofRaw = some (UnsignedTransaction.ofRaw raw)) ∧
    (∀ t : SignedTransaction, t.raw.HasInt64s → ∀ j, t.toJson.Reordered j →
      SignedTransaction.json? j = some t ∧
      (SignedTransaction.json? j).map (UnsignedTransaction.ofRaw ·.raw) =
        some (UnsignedTransaction.ofRaw t.raw)) ∧
    (∀ t : TriggerJson, ∃ members, t.toJson = .obj members ∧
      ("call_value" ∈ members.map Prod.fst ↔ t.callValue ≠ 0)) ∧
    ∀ members t, "call_value" ∉ members.map Prod.fst →
      TriggerJson.json? (.obj members) = some t → t.callValue = 0 := by
  refine ⟨fun raw h j hj => ?_, fun t h j hj => ?_, fun t => ?_, fun members t h ht => ?_⟩
  · have hread := RawJson.readsAs h j hj
    exact ⟨hread, by rw [hread, Option.map_some]⟩
  · have hread := SignedTransaction.readsAs h j hj
    exact ⟨hread, by rw [hread, Option.map_some]⟩
  · exact ⟨t.members, rfl, t.callValue_mem_names_iff⟩
  · exact TriggerJson.callValue_eq_zero h ht

/-- A form of two calls, the first of which sends nothing, with integers at their bounds. -/
def pairSample : RawJson where
  contracts := [
    { trigger := { data := "A9", owner := .ofHash [0x11], contract := .ofHash [], callValue := 0 }
      typeUrl := "T"
      kind := "K" },
    { trigger := { data := "", owner := .ofHash [], contract := .ofHash [], callValue := -1 }
      typeUrl := ""
      kind := "" }]
  refBlockBytes := "e4c1"
  refBlockHash := ""
  expiration := int64Min
  feeLimit := 0
  timestamp := int64Max

theorem json_reads_back_pairSample :
    (∃ members, pairSample.toJson = .obj members ∧
      RawJson.json? (.obj members.reverse) = some pairSample) ∧
    (∃ members, (SignedTransaction.mk "id" pairSample "" ["00", "01"] true).toJson = .obj members ∧
      SignedTransaction.json? (.obj members.reverse) =
        some ⟨"id", pairSample, "", ["00", "01"], true⟩) ∧
    ∃ t members, TriggerJson.json? (.obj members) = some t ∧ t.callValue = 0 := by
  obtain ⟨raw, signed, absent, zero⟩ := json_reads_back
  have hints : pairSample.HasInt64s := {
    callValue := by decide
    expiration := by decide
    feeLimit := by decide
    timestamp := by decide }
  have hreverse (members : List (String × Json)) :
      (Json.obj members).Reordered (.obj members.reverse) :=
    .obj rfl (List.forall₂_same.mpr fun j _ => .refl j) (List.reverse_perm members).symm
  let t : TriggerJson :=
    { data := "A9", owner := .ofHash [0x11], contract := .ofHash [], callValue := 0 }
  obtain ⟨members, hmembers, hvalue⟩ := absent t
  have hread := t.readsAs (by decide) _ (.refl _)
  rw [hmembers] at hread
  exact ⟨⟨_, rfl, (raw _ hints _ (hreverse _)).1⟩, ⟨_, rfl, (signed _ hints _ (hreverse _)).1⟩,
    t, members, hread, zero members t (fun h => hvalue.mp h rfl) hread⟩

end TronCourier
