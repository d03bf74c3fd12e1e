import TronCourier.Proofs.Wire.Decode

/-! Nothing is lost when a transaction is written. Both the message that is signed and the
one that holds it with its signatures are read back as they were, so that an absent part, an
empty one and a part with default values stay apart. -/

namespace TronCourier.Wire

def Transaction.rule (m : Transaction) : Field → Option Transaction
  | ⟨1, .delimited bs⟩ =>
    (merge Raw.rule (m.raw.getD {}) bs).map fun raw => { m with raw := some raw }
  | ⟨2, .delimited bs⟩ => some { m with signatures := m.signatures ++ [bs] }
  | _ => none

def Transaction.decode? (bs : Bytes) : Option Transaction := merge Transaction.rule {} bs

def Transaction.Fits (m : Transaction) : Prop :=
  ∀ raw ∈ m.raw, raw.Fits

theorem Transaction.decode?_encode {m : Transaction} (hfits : m.Fits)
    (h : m.encode.length ≤ nat64Max) : decode? m.encode = some m := by
  obtain ⟨raw, signatures⟩ := m
  simp only [encode, List.length_append] at h
  have hraw : (messageField 1 Raw.encode raw).length ≤ nat64Max := by omega
  have hsignatures : (repeatedField 2 id signatures).length ≤ nat64Max := by omega
  have readRaw (part : Raw) (hpart : raw = some part) :
      rule {} ⟨1, .delimited part.encode⟩ = some { raw } := by
    have hlength : part.encode.length ≤ nat64Max := by
      rw [hpart] at hraw
      exact Nat.le_trans (length_le_itemField 1 _) hraw
    show (Raw.decode? part.encode).map (fun raw => Transaction.mk (some raw) []) = _
    rw [Raw.decode?_encode (hfits part hpart) hlength, hpart, Option.map_some]
  have readSignature (signature : Bytes) (_ : signature ∈ signatures) (read : List Bytes) :
      rule { raw, signatures := read } ⟨2, .delimited signature⟩ =
        some { raw, signatures := read ++ [signature] } := rfl
  have readSignatures := merge_repeatedField (by decide) [] signatures hsignatures readSignature []
  rw [decode?, encode, merge_messageField (by decide) hraw readRaw (by rintro rfl; rfl),
    ← List.append_nil (repeatedField 2 id signatures), readSignatures]
  exact merge_nil

/-- What is read back as it was written is not written as anything else. -/
theorem injective_of_reads {μ : Type} {encode : μ → Bytes} {decode? : Bytes → Option μ} {m m' : μ}
    (hm : decode? (encode m) = some m) (hm' : decode? (encode m') = some m')
    (h : encode m = encode m') : m = m' := by
  rw [h, hm', Option.some.injEq] at hm
  exact hm.symm

/-- Messages whose integers have the size of their fields, and that are no longer than a length
can say, are read back as they were. No two of them are written alike. -/
theorem written_losslessly :
    (∀ m : Raw, m.Fits → m.encode.length ≤ nat64Max → Raw.decode? m.encode = some m) ∧
    (∀ m : Transaction, m.Fits → m.encode.length ≤ nat64Max →
      Transaction.decode? m.encode = some m) ∧
    (∀ m m' : Raw, m.Fits → m'.Fits → m.encode.length ≤ nat64Max → m.encode = m'.encode →
      m = m') ∧
    ∀ m m' : Transaction, m.Fits → m'.Fits → m.encode.length ≤ nat64Max →
      m.encode = m'.encode → m = m' := by
  refine ⟨fun _ => Raw.decode?_encode, fun _ => Transaction.decode?_encode, ?_, ?_⟩
  · intro m m' hm hm' hlength h
    have hlength' : m'.encode.length ≤ nat64Max := h ▸ hlength
    exact injective_of_reads (Raw.decode?_encode hm hlength)
      (Raw.decode?_encode hm' hlength') h
  · intro m m' hm hm' hlength h
    have hlength' : m'.encode.length ≤ nat64Max := h ▸ hlength
    exact injective_of_reads (Transaction.decode?_encode hm hlength)
      (Transaction.decode?_encode hm' hlength') h

/-- A transaction with integers at their bounds, with an unknown kind of contract, and with parts
that are empty or absent. -/
def sparseSample : Transaction where
  raw := some {
    refBlockNum := -1
    expiration := int64Min
    contracts := [{ kind := -0x80000000 }, { kind := 77, parameter := some {} }, {}]
    timestamp := int64Max }
  signatures := [[], [0]]

theorem written_losslessly_sparseSample :
    Transaction.decode? sparseSample.encode = some sparseSample ∧
    (∀ raw ∈ sparseSample.raw, Raw.decode? raw.encode = some raw) ∧
    (Raw.encode { contracts := [{}] } ≠ Raw.encode {} ∧
      Transaction.encode { raw := some {} } ≠ Transaction.encode {}) := by
  obtain ⟨rawRead, read, rawApart, apart⟩ := written_losslessly
  have fits : ∀ raw ∈ sparseSample.raw, raw.Fits := by
    rintro _ ⟨⟩
    exact {
      refBlockNum := by show _ ∧ _; decide
      expiration := by show _ ∧ _; decide
      contracts := by
        simp only [List.forall_mem_cons]
        refine ⟨?_, ?_, ?_, nofun⟩ <;> show _ ∧ _ <;> decide
      timestamp := by show _ ∧ _; decide
      feeLimit := by show _ ∧ _; decide }
  have zero : IsInt64 0 := by show _ ∧ _; decide
  have empty : Raw.Fits {} := ⟨zero, zero, nofun, zero, zero⟩
  have single : Raw.Fits { contracts := [{}] } := by
    refine ⟨zero, zero, List.forall_mem_singleton.mpr ?_, zero, zero⟩
    show _ ∧ _
    decide
  refine ⟨read _ fits (by decide +kernel), ?_, ?_, ?_⟩
  · rintro raw hraw
    refine rawRead raw (fits raw hraw) ?_
    obtain ⟨⟩ := hraw
    decide +kernel
  · intro h
    cases rawApart _ _ single empty (by decide +kernel) h
  · intro h
    have same := apart { raw := some {} } {} (by rintro _ ⟨⟩; exact empty) nofun
      (by decide +kernel) h
    cases same

end TronCourier.Wire
