import TronCourier.Address
import TronCourier.Proofs.Hash.Base58
import TronCourier.Proofs.Text.Trim

/-! The texts of an address. Each address has one in base58, which starts with T, and hexadecimal
ones: with or without the network's octet and a marker, in any case. Nothing else is read. -/

namespace TronCourier

namespace Text

/-- A character of hexadecimal octets is not blank, nor is it one of a marker, nor T. -/
theorem hexadecimal_of_mem {digits : String} {bs : Bytes} (h : digits.toLower = hex bs) {c : Char}
    (hc : c ∈ digits.toList) : isBlank c = false ∧ c ≠ 'x' ∧ c ≠ 'T' := by
  have every : hexDigits.all fun c => !isBlank c && c != 'x' && c != 'T' := by decide
  obtain ⟨_, hdigits⟩ := exists_hex_iff.mp ⟨bs, h⟩
  simpa [and_assoc] using List.all_eq_true.mp every c (hdigits c hc)

end Text

theorem Base58.isBlank_of_mem_encode {bs : Bytes} {c : Char} (h : c ∈ (encode bs).toList) :
    Text.isBlank c = false := by
  rw [encode_eq_spell, spell, String.toList_ofList] at h
  obtain ⟨d, hd, rfl⟩ := List.mem_map.mp h
  have every : ∀ d : Fin 58, Text.isBlank (symbol d) = false := by decide +kernel
  exact every ⟨d, lt_of_mem_rebase (by decide) hd⟩

namespace Address

variable {a : Address} {s text : String}

/-- The hexadecimal digits of an address or of its hash alone, in any case. -/
def HexDigits (a : Address) (digits : String) : Prop :=
  digits.toLower = a.toHex ∨ digits.toLower = Text.hex a.hash

inductive Writes (a : Address) : String → Prop
  | base58 : Writes a a.toBase58
  | hex {digits : String} (h : a.HexDigits digits) : Writes a digits
  | marked {digits : String} (h : a.HexDigits digits) : Writes a ("0x" ++ digits)

theorem HexDigits.of_mem {digits : String} (h : a.HexDigits digits) {c : Char}
    (hc : c ∈ digits.toList) : Text.isBlank c = false ∧ c ≠ 'x' ∧ c ≠ 'T' := by
  rcases h with h | h
  · exact Text.hexadecimal_of_mem h hc
  · exact Text.hexadecimal_of_mem h hc

theorem Writes.not_blank (h : a.Writes text) {c : Char} (hc : c ∈ text.toList) :
    Text.isBlank c = false := by
  cases h with
  | base58 => exact Base58.isBlank_of_mem_encode hc
  | hex h => exact (h.of_mem hc).1
  | marked h =>
    rw [String.toList_append] at hc
    rcases List.mem_append.mp hc with hc | hc
    · have hc : c = '0' ∨ c = 'x' := by simpa using hc
      rcases hc with rfl | rfl
      · rfl
      · rfl
    · exact (h.of_mem hc).1

theorem head?_toBase58 (a : Address) : a.toBase58.toList.head? = some 'T' := by
  have hlength : (a.hash ++ Base58.checksum a.toBytes).length = 24 := by
    rw [List.length_append, a.length_hash, Base58.length_checksum]
  exact Base58.head?_encode hlength

theorem ofBytes_eq_ok_iff {bs : Bytes} : ofBytes bs = .ok a ↔ a.toBytes = bs := by
  constructor
  · intro h
    cases bs with
    | nil => cases h
    | cons n hash =>
      rw [ofBytes] at h
      split at h
      · split at h
        · rename_i hn
          cases h
          rw [hn]
          rfl
        · cases h
      · cases h
  · rintro rfl
    exact ofBytes_toBytes a

theorem ofBase58_eq_ok_iff : ofBase58 s = .ok a ↔ s = a.toBase58 := by
  rw [toBase58, ← Base58.decodeCheck_eq_ok_iff, ofBase58]
  cases Base58.decodeCheck s with
  | error e => simp
  | ok bs =>
    simp only [ofBytes_eq_ok_iff, Except.ok.injEq]
    exact eq_comm

theorem withoutMarker_append (digits : String) : withoutMarker ("0x" ++ digits) = digits := by
  rw [withoutMarker, String.toList_append]
  exact String.ofList_toList

theorem withoutMarker_of_not_mem (h : 'x' ∉ s.toList) : withoutMarker s = s := by
  rw [withoutMarker]
  split
  · rename_i r hs
    rw [hs] at h
    simp at h
  · rfl

theorem withoutMarker_cases (s : String) : withoutMarker s = s ∨ s = "0x" ++ withoutMarker s := by
  unfold withoutMarker
  split
  · rename_i r hs
    refine .inr ?_
    rw [← String.toList_inj, hs, String.toList_append]
    simp
  · exact .inl rfl

theorem ofHex_eq_ok_iff : ofHex s = .ok a ↔ a.HexDigits (withoutMarker s) := by
  rw [ofHex, HexDigits, toHex]
  cases hs : Text.unhex (withoutMarker s) with
  | error e =>
    have hnone (bs : Bytes) : (withoutMarker s).toLower ≠ Text.hex bs := fun h => by
      rw [← Text.unhex_eq_ok_iff, hs] at h
      cases h
    simp [hnone]
  | ok bs =>
    have hbs (bs' : Bytes) : (withoutMarker s).toLower = Text.hex bs' ↔ bs = bs' := by
      rw [← Text.unhex_eq_ok_iff, hs, Except.ok.injEq]
    simp only [hbs]
    split
    · rename_i hlength
      have hlong : bs ≠ a.toBytes := by
        rintro rfl
        simp [toBytes, a.length_hash] at hlength
      cases a
      simp [hlong]
    · rename_i hlength
      have hshort : bs ≠ a.hash := by
        rintro rfl
        exact hlength a.length_hash
      rw [ofBytes_eq_ok_iff, eq_comm]
      simp [hshort]

theorem writes_iff : a.Writes text ↔ text = a.toBase58 ∨ a.HexDigits (withoutMarker text) := by
  constructor
  · intro h
    cases h with
    | base58 => exact .inl rfl
    | hex h =>
      rw [withoutMarker_of_not_mem fun hx => (h.of_mem hx).2.1 rfl]
      exact .inr h
    | marked h =>
      rw [withoutMarker_append]
      exact .inr h
  · rintro (rfl | h)
    · exact .base58
    · rcases withoutMarker_cases text with htext | htext
      · rw [htext] at h
        exact .hex h
      · rw [htext]
        exact .marked h

theorem head?_of_hexDigits (h : a.HexDigits (withoutMarker text)) :
    text.toList.head? ≠ some 'T' := by
  intro hT
  rcases withoutMarker_cases text with htext | htext
  · rw [htext] at h
    exact (h.of_mem (List.mem_of_head? hT)).2.2 rfl
  · rw [htext, String.toList_append] at hT
    cases hT

/-- What is read as an address is one of its texts, and each of these is read so. -/
theorem parse_eq_ok_iff : parse s = .ok a ↔ a.Writes (Text.trim s) := by
  rw [writes_iff]
  simp only [parse]
  split
  · rename_i hT
    rw [ofBase58_eq_ok_iff, or_iff_left fun h => head?_of_hexDigits h hT]
  · rename_i hT
    have hother : Text.trim s ≠ a.toBase58 := fun hs => hT (hs ▸ a.head?_toBase58)
    rw [ofHex_eq_ok_iff, or_iff_right hother]

theorem Writes.parse_append (h : a.Writes text) {before after : String}
    (hbefore : ∀ c ∈ before.toList, Text.isBlank c = true)
    (hafter : ∀ c ∈ after.toList, Text.isBlank c = true) :
    parse (before ++ text ++ after) = .ok a := by
  rw [parse_eq_ok_iff, Text.trim_append (fun c hc => h.not_blank hc) hbefore hafter]
  exact h

theorem eq_toBase58_of_parse (h : parse s = .ok a)
    (hT : (Text.trim s).toList.head? = some 'T') : Text.trim s = a.toBase58 :=
  (writes_iff.mp (parse_eq_ok_iff.mp h)).resolve_right fun hhex => head?_of_hexDigits hhex hT

theorem json?_eq_some_iff {j : Json} : json? j = some a ↔ ∃ s, j = .str s ∧ parse s = .ok a := by
  have hparse (s : String) : (parse s).toOption = some a ↔ parse s = .ok a := by
    cases parse s with
    | error e => simp [Except.toOption]
    | ok b => simp [Except.toOption]
  cases j with
  | str s => simpa [json?, Json.str?] using hparse s
  | _ => simp [json?, Json.str?]

theorem json?_toJson (a : Address) : json? a.toJson = some a := by
  refine json?_eq_some_iff.mpr ⟨a.toBase58, rfl, ?_⟩
  have h : parse ("" ++ a.toBase58 ++ "") = .ok a := Writes.base58.parse_append nofun nofun
  rwa [String.append_empty, String.empty_append] at h

theorem toBytes_ofHash {hash : Bytes} (h : hash.length = 20) :
    (ofHash hash).toBytes = network :: hash := by
  exact congrArg (network :: ·) (List.take_left' h)

/-- An address is read from each of its texts, with blanks around it or not, and from nothing
else. Only its text in base58 starts with T. The octets that it can be made from, and those that
it has, start with the octet of the network. -/
theorem texts_read_back (a : Address) :
    (∀ before text after, a.Writes text → (∀ c ∈ before.toList, Text.isBlank c = true) →
      (∀ c ∈ after.toList, Text.isBlank c = true) → parse (before ++ text ++ after) = .ok a) ∧
    (∀ s, parse s = .ok a → a.Writes (Text.trim s)) ∧
    a.toBase58.toList.head? = some 'T' ∧
    (∀ s, (Text.trim s).toList.head? = some 'T' → parse s = .ok a → a.toBase58 = Text.trim s) ∧
    (∀ bs, ofBytes bs = .ok a ↔ a.toBytes = bs) ∧
    (∀ hash, hash.length = 20 → (ofHash hash).toBytes = network :: hash) ∧
    (∀ j, json? j = some a ↔ ∃ s, j = .str s ∧ parse s = .ok a) ∧ json? a.toJson = some a ∧
    a.toBytes.length = byteCount ∧ a.toBytes.head? = some 0x41 := by
  refine ⟨?_, ?_, a.head?_toBase58, ?_, fun bs => ofBytes_eq_ok_iff, ?_,
    fun j => json?_eq_some_iff, a.json?_toJson, ?_, rfl⟩
  · intro before text after h hbefore hafter
    exact h.parse_append hbefore hafter
  · intro s h
    exact parse_eq_ok_iff.mp h
  · intro s hT h
    exact (eq_toBase58_of_parse h hT).symm
  · intro hash h
    exact toBytes_ofHash h
  · rw [toBytes, List.length_cons, a.length_hash]
    rfl

def sample : Address :=
  ⟨[0xa6, 0x14, 0xf8, 0x03, 0xb6, 0xfd, 0x78, 0x09, 0x86, 0xa4, 0x2c, 0x78, 0xec, 0x9c, 0x7f, 0x77,
    0xe6, 0xde, 0xd1, 0x3c], rfl⟩

theorem toBase58_sample : sample.toBase58 = "TR7NHqjeKQxGTCi8q8ZY4pL8otSzgjLj6t" := by
  decide +kernel

/-- The sample is read from its hash, in mixed case and behind a marker, with blanks around it,
and from its text in base58. -/
theorem texts_read_back_sample :
    sample.Writes ("0x" ++ "A614f803B6FD780986A42c78EC9C7f77E6deD13C") ∧
    parse ("\t " ++ ("0x" ++ "A614f803B6FD780986A42c78EC9C7f77E6deD13C") ++ "\n") = .ok sample ∧
    parse (" " ++ "TR7NHqjeKQxGTCi8q8ZY4pL8otSzgjLj6t" ++ "") = .ok sample ∧
    (Text.trim (" " ++ "TR7NHqjeKQxGTCi8q8ZY4pL8otSzgjLj6t" ++ "")).toList.head? = some 'T' ∧
    sample.toBase58 = Text.trim (" " ++ "TR7NHqjeKQxGTCi8q8ZY4pL8otSzgjLj6t" ++ "") ∧
    sample.hash.length = 20 ∧ (ofHash sample.hash).toBytes = network :: sample.hash := by
  obtain ⟨hread, -, -, honly, -, hmade, -⟩ := texts_read_back sample
  have hhex : sample.Writes ("0x" ++ "A614f803B6FD780986A42c78EC9C7f77E6deD13C") :=
    .marked (.inr (by decide +kernel))
  have hbase58 : sample.Writes "TR7NHqjeKQxGTCi8q8ZY4pL8otSzgjLj6t" :=
    toBase58_sample ▸ .base58
  have hparse := hread " " _ "" hbase58 (by simp [Text.isBlank]) (by simp)
  have hT : (Text.trim (" " ++ "TR7NHqjeKQxGTCi8q8ZY4pL8otSzgjLj6t" ++ "")).toList.head? =
      some 'T' := by
    decide +kernel
  exact ⟨hhex, hread "\t " _ "\n" hhex (by simp [Text.isBlank]) (by simp [Text.isBlank]), hparse,
    hT, honly _ hT hparse, rfl, hmade _ rfl⟩

end Address

end TronCourier
