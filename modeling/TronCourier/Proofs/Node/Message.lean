import TronCourier.Node.Client
import TronCourier.Proofs.Text.Hex

/-! Messages in hexadecimal. What a node says means the same said plainly and in hexadecimal, with
letters of either case, unless the plain message can itself be read as hexadecimal. -/

namespace TronCourier

namespace Text

variable {raw text text' : String}

/-- The octets of a text in hexadecimal, with letters of either case. -/
def Spells (raw text : String) : Prop :=
  raw.toLower = hex (utf8 text)

instance : Decidable (Spells raw text) :=
  inferInstanceAs (Decidable (_ = _))

/-- An even number of hexadecimal digits whose octets are UTF-8. -/
structure IsHexUtf8 (raw : String) : Prop where
  even : Even raw.length
  digits : ∀ c ∈ raw.toList, c ∈ hexDigits
  utf8 : ∀ bs, raw.toLower = hex bs → ∃ text, utf8? bs = some text

theorem spells_hex (text : String) : Spells (hex (utf8 text)) text :=
  toLower_hex _

theorem spells_toUpper_hex (text : String) : Spells (hex (utf8 text)).toUpper text := by
  have every : ∀ d < 16, (Char.toLower ∘ Char.toUpper) (hexDigit d) = hexDigit d := by decide
  rw [Spells, ← String.toList_inj, String.toLower, String.toUpper, String.toList_map,
    String.toList_map, List.map_map, hex, String.toList_ofList, map_hexChars every]

theorem spells_iff : Spells raw text ↔ ∃ bs, unhex raw = .ok bs ∧ utf8? bs = some text := by
  simp [Spells, unhex_eq_ok_iff, utf8?_eq_some_iff]

theorem isHexUtf8_iff : IsHexUtf8 raw ↔ ∃ text, Spells raw text := by
  constructor
  · rintro ⟨heven, hdigits, hutf8⟩
    obtain ⟨bs, hbs⟩ := exists_hex_iff.mpr ⟨heven, hdigits⟩
    obtain ⟨text, htext⟩ := hutf8 bs hbs
    exact ⟨text, by rw [Spells, hbs, utf8?_eq_some_iff.mp htext]⟩
  · rintro ⟨text, h⟩
    obtain ⟨heven, hdigits⟩ := exists_hex_iff.mp ⟨_, h⟩
    refine ⟨heven, hdigits, fun bs hbs => ⟨text, ?_⟩⟩
    rw [utf8?_eq_some_iff]
    exact hex_injective (hbs.symm.trans h)

theorem Spells.unique (h : Spells raw text) (h' : Spells raw text') : text = text' :=
  utf8_injective (hex_injective (h.symm.trans h'))

/-- A spelling is twice as long as its text, so that only the empty text spells itself. -/
theorem spells_self_iff : Spells text text ↔ text = "" := by
  constructor
  · intro h
    have hlength := length_of_unhex (unhex_of_toLower h)
    have hnone : utf8 text = utf8 "" := List.eq_nil_of_length_eq_zero (by omega)
    exact utf8_injective hnone
  · rintro rfl
    exact spells_hex ""

end Text

namespace Node

open Text

variable {raw m : String} {code : Option String} {part text : List Char}

theorem plainMessage_of_spells (h : Spells raw m) : plainMessage raw = m := by
  obtain ⟨bs, hbs, hm⟩ := spells_iff.mp h
  rw [plainMessage, hbs]
  simp [hm]

theorem plainMessage_of_not_isHexUtf8 (h : ¬IsHexUtf8 raw) : plainMessage raw = raw := by
  rw [plainMessage]
  cases hraw : unhex raw with
  | error e => rfl
  | ok bs =>
    cases hbs : utf8? bs with
    | none => simp [hbs]
    | some m => exact absurd (isHexUtf8_iff.mpr ⟨m, spells_iff.mpr ⟨bs, hraw, hbs⟩⟩) h

theorem plainMessage_eq_self_iff : plainMessage m = m ↔ m = "" ∨ ¬IsHexUtf8 m := by
  by_cases hm : IsHexUtf8 m
  · obtain ⟨text, h⟩ := isHexUtf8_iff.mp hm
    have hself : text = m ↔ m = "" := by
      rw [← spells_self_iff]
      exact ⟨fun same => same ▸ h, h.unique⟩
    simp [hm, plainMessage_of_spells h, hself]
  · simp [hm, plainMessage_of_not_isHexUtf8 hm]

example : plainMessage "6162" = "ab" ∧ plainMessage "decade" = "decade" := by decide +kernel

theorem occursIn_iff : occursIn part text = true ↔ part <:+: text := by
  induction text with
  | nil => simp [occursIn]
  | cons c r ih => simp [occursIn, List.infix_cons_iff, ih]

theorem not_isHexUtf8_of_unsupported (h : unsupportedPhrase.toList <:+: m.toList) :
    ¬IsHexUtf8 m := by
  intro hm
  -- A blank in the phrase is enough.
  have hblank : ' ' ∈ unsupportedPhrase.toList := by decide
  have hdigit := hm.digits ' ' (h.subset hblank)
  simp [hexDigits] at hdigit

theorem ofRefusal_eq_estimateUnsupported_iff (h : plainMessage raw = m) :
    Error.ofRefusal code (some raw) = .estimateUnsupported ↔
      unsupportedPhrase.toList <:+: m.toList := by
  rw [← occursIn_iff]
  simp [Error.ofRefusal, h]

theorem ofRefusal_eq_iff :
    Error.ofRefusal code (some raw) = Error.ofRefusal code (some m) ↔
      plainMessage raw = plainMessage m ∨
        unsupportedPhrase.toList <:+: (plainMessage raw).toList ∧
          unsupportedPhrase.toList <:+: (plainMessage m).toList := by
  simp only [← occursIn_iff, Error.ofRefusal, Option.map_some, Option.getD_some]
  split <;> split <;> grind

/-- What a node answers, with another message. -/
def Reading.Consent.saying (c : Reading.Consent) (message : String) : Reading.Consent :=
  { c with message := some message }

/-- A message in hexadecimal, with letters of either case, means what it means plainly, unless it
can be read as hexadecimal itself. Only the phrase in it tells that a node cannot estimate. -/
theorem means_same_in_hex (m : String) :
    Spells (hex (utf8 m)) m ∧ Spells (hex (utf8 m)).toUpper m ∧
    (plainMessage m = m ↔ m = "" ∨ ¬IsHexUtf8 m) ∧
    ∀ raw, Spells raw m →
      plainMessage raw = m ∧
      ∀ c : Reading.Consent,
        ((c.saying raw).error = (c.saying m).error ↔ m = "" ∨ ¬IsHexUtf8 m) ∧
        ((c.saying raw).error = .estimateUnsupported ↔
          unsupportedPhrase.toList <:+: m.toList) ∧
        (¬IsHexUtf8 m → ((c.saying m).error = .estimateUnsupported ↔
          unsupportedPhrase.toList <:+: m.toList)) := by
  refine ⟨spells_hex m, spells_toUpper_hex m, plainMessage_eq_self_iff, fun raw h => ?_⟩
  have hraw : plainMessage raw = m := plainMessage_of_spells h
  refine ⟨hraw, fun c => ⟨?_, ?_, fun hm => ?_⟩⟩
  · rw [← plainMessage_eq_self_iff]
    simp only [Reading.Consent.error, Reading.Consent.saying, ofRefusal_eq_iff, hraw]
    refine ⟨fun same => ?_, fun same => .inl same.symm⟩
    rcases same with same | ⟨hphrase, _⟩
    · exact same.symm
    -- Two messages with the phrase count as one, but then neither is hexadecimal.
    · exact plainMessage_of_not_isHexUtf8 (not_isHexUtf8_of_unsupported hphrase)
  · exact ofRefusal_eq_estimateUnsupported_iff hraw
  · exact ofRefusal_eq_estimateUnsupported_iff (plainMessage_of_not_isHexUtf8 hm)

def accentedMessage : String :=
  "é does not support estimate energy"

def accentedSpelling : String :=
  "C3A920646F6573206E6F7420737570706F727420657374696D61746520656E65726779"

theorem means_same_in_hex_accentedSample :
    Spells accentedSpelling accentedMessage ∧ ¬IsHexUtf8 accentedMessage ∧
    plainMessage accentedSpelling = accentedMessage ∧
    plainMessage accentedMessage = accentedMessage ∧
    ∀ c : Reading.Consent, (c.saying accentedSpelling).error = .estimateUnsupported ∧
      (c.saying accentedMessage).error = .estimateUnsupported := by
  have h : Spells accentedSpelling accentedMessage := by decide +kernel
  have hphrase : unsupportedPhrase.toList <:+: accentedMessage.toList :=
    ⟨['é', ' '], [], by decide +kernel⟩
  have hplain : ¬IsHexUtf8 accentedMessage := not_isHexUtf8_of_unsupported hphrase
  obtain ⟨_, _, hself, hspellings⟩ := means_same_in_hex accentedMessage
  obtain ⟨hspelled, herror⟩ := hspellings accentedSpelling h
  refine ⟨h, hplain, hspelled, hself.mpr (.inr hplain), fun c => ?_⟩
  obtain ⟨same, hunsupported, _⟩ := herror c
  have htold := hunsupported.mpr hphrase
  exact ⟨htold, (same.mpr (.inr hplain)).symm.trans htold⟩

end Node

end TronCourier
