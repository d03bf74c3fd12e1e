import TronCourier.Proofs.Abi.Numeral
import TronCourier.Proofs.Address

/-! Signed integers as parameters. The range of the type decides, and beside it how
the integer is written: as a JSON number, as decimal digits or as hexadecimal ones. -/

namespace TronCourier

namespace AbiType

theorem isBlank_of_isDigit {c : Char} (h : c.isDigit = true) : Text.isBlank c = false := by
  simp only [Char.isDigit, ge_iff_le, Bool.and_eq_true, decide_eq_true_eq] at h
  have low : 48 ≤ c.toNat := h.1
  have high : c.toNat ≤ 57 := h.2
  simp only [Text.isBlank, Bool.or_eq_false_iff, Bool.and_eq_false_iff, decide_eq_false_iff_not,
    beq_eq_false_iff_ne]
  omega

theorem splitSuffix?_eq_none {cs : List Char} (h : ']' ∉ cs) : splitSuffix? cs = none := by
  unfold splitSuffix?
  split
  · rename_i r hr
    have last : ']' ∈ cs.reverse := hr ▸ List.mem_cons_self
    exact absurd (List.mem_reverse.mp last) h
  · rfl

theorem bitWidth?_toDigits {bits : Nat} (width : 8 ∣ bits ∧ 8 ≤ bits ∧ bits ≤ 256) :
    bitWidth? (Nat.toDigits 10 bits) = some bits := by
  have read : count? (Nat.toDigits 10 bits) = some bits := by
    have small : bits ≤ nat64Max := width.2.2.trans (by decide)
    rw [count?, Abi.readNat_toDigits small]
    rfl
  have whole : bits % 8 = 0 := Nat.mod_eq_zero_of_dvd width.1
  simp [bitWidth?, read, whole, width]

/-- A name without blanks and brackets is one of a base type. -/
theorem parse_ofBaseName? {name : String} {type : AbiType}
    (solid : ∀ c ∈ name.toList, Text.isBlank c = false) (unsuffixed : ']' ∉ name.toList)
    (base : ofBaseName? name.toList = some type) : parse name = .ok type := by
  have trimmed : Text.trimChars name.toList = name.toList := by
    simpa using @Text.trimChars_append [] _ [] (by simp) (by simp) solid
  rw [parse, parseChars, trimmed]
  split
  · rename_i hs
    rw [splitSuffix?_eq_none unsuffixed] at hs
    cases hs
  · rename_i hs
    rw [splitSuffix?_eq_none unsuffixed] at hs
    cases hs
  · rw [base]

/-- A size behind letters brings neither blanks nor brackets into the name. -/
theorem parse_sized {letters : String} {cs : List Char} {n : Nat} {type : AbiType}
    (spelled : letters.toList = cs) (plain : ∀ c ∈ cs, Text.isBlank c = false ∧ c ≠ ']')
    (base : ofBaseName? (cs ++ Nat.toDigits 10 n) = some type) :
    parse (letters ++ toString n) = .ok type := by
  have chars : (letters ++ toString n).toList = cs ++ Nat.toDigits 10 n := by
    simp [spelled]
  have each : ∀ c ∈ cs ++ Nat.toDigits 10 n, Text.isBlank c = false ∧ c ≠ ']' := by
    intro c hc
    obtain hc | hc := List.mem_append.mp hc
    · exact plain c hc
    · have digit := Abi.isDigit_of_mem_toDigits hc
      exact ⟨isBlank_of_isDigit digit, by rintro rfl; exact absurd digit (by decide)⟩
  refine parse_ofBaseName? ?_ ?_ ?_
  · rw [chars]
    exact fun c hc => (each c hc).1
  · rw [chars]
    exact fun hc => (each _ hc).2 rfl
  · rw [chars, base]

/-- The name of a signed type reads as that type. -/
theorem parse_int {bits : Nat} (width : 8 ∣ bits ∧ 8 ≤ bits ∧ bits ≤ 256) :
    parse ("int" ++ toString bits) = .ok (int bits) := by
  have spelled : "int".toList = ['i', 'n', 't'] := by simp
  exact parse_sized spelled (by simp [Text.isBlank]) (by simp [ofBaseName?, bitWidth?_toDigits width])

theorem parse_uint {bits : Nat} (width : 8 ∣ bits ∧ 8 ≤ bits ∧ bits ≤ 256) :
    parse ("uint" ++ toString bits) = .ok (uint bits) := by
  have spelled : "uint".toList = ['u', 'i', 'n', 't'] := by simp
  exact parse_sized spelled (by simp [Text.isBlank]) (by simp [ofBaseName?, bitWidth?_toDigits width])

end AbiType

namespace Abi

variable {bits : Nat} {j : Json} {data : Bytes}

theorem encodeParams_single {name : String} {type : AbiType}
    (named : AbiType.parse name = .ok type) :
    encodeParams [.str name, j] = encodeTuple [(type, j)] := by
  simp [encodeParams, checkShape, pairs, readType, Json.str?, named, bind, Except.bind, pure,
    Except.pure, Except.mapError]

theorem encodeAtom_int_eq_ok_iff : encodeAtom (.int bits) j = .ok data ↔ ∃ v,
    readSigned j = .ok v ∧ (bits < 128 → -2 ^ (bits - 1) ≤ v ∧ v < 2 ^ (bits - 1)) ∧
      data = Bytes.ofInt 32 v := by
  have half : ((Nat.pow 2 (bits - 1) : Nat) : Int) = 2 ^ (bits - 1) := by norm_cast
  simp only [encodeAtom, bind_eq_ok_iff, half]
  refine exists_congr fun v => and_congr_right fun _ => ?_
  split
  · rename_i outside
    simp only [reduceCtorEq, false_iff]
    exact fun h => outside.2 (h.1 outside.1)
  · rename_i inside
    simp only [pure, Except.pure, Except.ok.injEq]
    have narrow_range : bits < 128 → -2 ^ (bits - 1) ≤ v ∧ v < 2 ^ (bits - 1) :=
      fun narrow => by_contra fun outside => inside ⟨narrow, outside⟩
    exact ⟨fun h => ⟨narrow_range, h.symm⟩, fun h => h.2.symm⟩

/-- A value of one word stands alone in the head, so that its word is all there is. -/
theorem encodeTuple_single {type : AbiType} (static : type.isDynamic = false)
    (head : type.headSize = 32)
    (size : ∀ part, encodeValue type j = .ok part → part.length = 32) :
    encodeTuple [(type, j)] = encodeValue type j := by
  cases he : encodeValue type j with
  | error e =>
    simp [encodeTuple, he, head, fitsMemory, memoryLimit, nat64Max, bind, Except.bind]
  | ok part =>
    simp [encodeTuple, he, head, static, fitsMemory, memoryLimit, nat64Max, bind, Except.bind,
      pure, Except.pure, layout, headAndTail, size part he]

theorem encodeTuple_int : encodeTuple [(.int bits, j)] = .ok data ↔
    encodeAtom (.int bits) j = .ok data := by
  have size : ∀ part, encodeValue (.int bits) j = .ok part → part.length = 32 := by
    intro part h
    obtain ⟨v, _, _, hv⟩ := encodeAtom_int_eq_ok_iff.mp (mapError_eq_ok_iff.mp h)
    rw [hv, Bytes.length_ofInt]
  rw [encodeTuple_single rfl rfl size]
  exact mapError_eq_ok_iff

theorem encodeParams_int_eq_ok_iff (width : 8 ∣ bits ∧ 8 ≤ bits ∧ bits ≤ 256) :
    encodeParams [.str ("int" ++ toString bits), j] = .ok data ↔ ∃ v, readSigned j = .ok v ∧
      (bits < 128 → -2 ^ (bits - 1) ≤ v ∧ v < 2 ^ (bits - 1)) ∧ data = Bytes.ofInt 32 v := by
  rw [encodeParams_single (AbiType.parse_int width), encodeTuple_int, encodeAtom_int_eq_ok_iff]

theorem readSigned_str_eq_ok_iff {text : String} {v : Int} : readSigned (.str text) = .ok v ↔
    signedDecimal? text.toList = some v ∧ -2 ^ 127 ≤ v ∧ v < 2 ^ 127 := by
  have power : Nat.pow 2 127 = 2 ^ 127 := rfl
  have reads : readSigned (.str text) = .ok v ↔
      Text.readInt (Nat.pow 2 127) (Nat.pow 2 127 - 1) text.toList = .ok v := by
    simp only [readSigned]
    split
    · rename_i hr
      simp [hr]
    · rename_i hr
      simp [hr]
  rw [reads, readInt_eq_ok_iff, power]
  refine and_congr_right fun _ => ?_
  omega

/-- Decimal digits do not start with the marker of hexadecimal ones. -/
theorem signedDecimal?_of_marked (r : List Char) : signedDecimal? ('0' :: 'x' :: r) = none := by
  have marker : Text.digit? 'x' = none := rfl
  simp [signedDecimal?, decimal?, marker]

/-- How an integer can be written for a parameter. -/
inductive Form
  | number
  | decimal
  | hexadecimal
deriving DecidableEq, Repr

namespace Form

/-- The integer that a text writes in a form. -/
def integer? : Form → String → Option Int
  | number, text => jsonInteger? text.toList
  | decimal, text => signedDecimal? text.toList
  | hexadecimal, text =>
    match text.toList with
    | '0' :: 'x' :: r => (hexadecimal? (Text.utf8 (String.ofList r))).map Int.ofNat
    | _ => none

/-- What the encoder is given: a number as the parser reads it, other forms as texts. -/
def value? : Form → String → Option Json
  | number, text => Json.parse text
  | decimal, text | hexadecimal, text => some (.str text)

/-- Whether an integer so written is read for a signed type of any width. -/
def Reads : Form → String → Int → Prop
  | number, text, v => int64Min ≤ v ∧ v ≤ int64Max ∧ ¬(v = 0 ∧ text.toList.head? = some '-')
  | decimal, _, v => -2 ^ 127 ≤ v ∧ v < 2 ^ 127
  | hexadecimal, _, _ => False

theorem readSigned_eq_ok_iff {form : Form} {text : String} {v : Int}
    (written : form.integer? text = some v) :
    ∃ j, form.value? text = some j ∧ ∀ w, readSigned j = .ok w ↔ w = v ∧ form.Reads text v := by
  cases form with
  | number => exact readSigned_number written
  | decimal =>
    refine ⟨.str text, rfl, fun w => ?_⟩
    have decimal : signedDecimal? text.toList = some v := written
    rw [readSigned_str_eq_ok_iff, decimal]
    constructor
    · rintro ⟨⟨⟩, bounds⟩
      exact ⟨rfl, bounds⟩
    · rintro ⟨rfl, bounds⟩
      exact ⟨rfl, bounds⟩
  | hexadecimal =>
    refine ⟨.str text, rfl, fun w => ?_⟩
    simp only [integer?] at written
    split at written
    · rename_i r hr
      rw [readSigned_str_eq_ok_iff, hr, signedDecimal?_of_marked]
      simp [Reads]
    · cases written

end Form

theorem toNat_ofInt (v : Int) : (Bytes.toNat (Bytes.ofInt 32 v) : Int) = v % 2 ^ 256 := by
  have power : ((Nat.pow 256 32 : Nat) : Int) = 2 ^ 256 := by norm_num
  have nonneg : 0 ≤ v % 2 ^ 256 := Int.emod_nonneg v (by norm_num)
  rw [Bytes.ofInt, Bytes.toNat_ofNat, Int.natCast_emod, power, Int.toNat_of_nonneg nonneg,
    Int.emod_emod]

/-- The range of a signed type. -/
def Within (bits : Nat) (v : Int) : Prop :=
  -2 ^ (bits - 1) ≤ v ∧ v < 2 ^ (bits - 1)

/-- The widest integers that are read are in the range of any type of 128 bits. -/
theorem Form.Reads.within {form : Form} {text : String} {v : Int} (read : form.Reads text v)
    (narrow : bits < 128 → Within bits v) : Within bits v := by
  by_cases hb : bits < 128
  · exact narrow hb
  · have wide : (2 : Int) ^ 127 ≤ 2 ^ (bits - 1) := by
      exact_mod_cast Nat.pow_le_pow_right (by decide) (by omega : 127 ≤ bits - 1)
    have bounds : -2 ^ 127 ≤ v ∧ v < 2 ^ 127 := by
      cases form with
      | number =>
        obtain ⟨low, high, _⟩ := read
        simp only [int64Min, int64Max] at low high
        omega
      | decimal => exact read
      | hexadecimal => exact read.elim
    exact ⟨by omega, by omega⟩

/-- A signed type takes an integer just if it is in range and read in its form, and then
writes its two's complement. -/
theorem int_taken_iff {bits : Nat} (width : 8 ∣ bits ∧ 8 ≤ bits ∧ bits ≤ 256) {form : Form}
    {text : String} {v : Int} (written : form.integer? text = some v) :
    ∃ j, form.value? text = some j ∧
      ((∃ data, encodeParams [.str ("int" ++ toString bits), j] = .ok data) ↔
        Within bits v ∧ form.Reads text v) ∧
      ∀ data, encodeParams [.str ("int" ++ toString bits), j] = .ok data →
        data.length = 32 ∧ (Bytes.toNat data : Int) = v % 2 ^ 256 := by
  obtain ⟨j, hj, reads⟩ := Form.readSigned_eq_ok_iff written
  refine ⟨j, hj, ?_, fun data hd => ?_⟩
  · simp only [encodeParams_int_eq_ok_iff width, reads]
    constructor
    · rintro ⟨data, w, ⟨rfl, read⟩, narrow, _⟩
      exact ⟨read.within narrow, read⟩
    · rintro ⟨within, read⟩
      exact ⟨_, v, ⟨rfl, read⟩, fun _ => within, rfl⟩
  · obtain ⟨w, hw, _, hd⟩ := (encodeParams_int_eq_ok_iff width).mp hd
    obtain ⟨rfl, _⟩ := (reads w).mp hw
    rw [hd]
    exact ⟨Bytes.length_ofInt 32 w, toNat_ofInt w⟩

theorem int_taken_iff_lowest :
    ∃ j, Form.decimal.value? "-128" = some j ∧
      ((∃ data, encodeParams [.str ("int" ++ toString 8), j] = .ok data) ↔
        Within 8 (-128) ∧ Form.decimal.Reads "-128" (-128)) ∧
      ∀ data, encodeParams [.str ("int" ++ toString 8), j] = .ok data →
        data.length = 32 ∧ (Bytes.toNat data : Int) = -128 % 2 ^ 256 :=
  int_taken_iff (by decide) (by decide)

/-- The range alone does not decide: hexadecimal digits are read for no signed type. -/
theorem not_int_taken_by_range :
    ¬∀ (bits : Nat) (form : Form) (text : String) (v : Int) (j : Json),
      8 ∣ bits ∧ 8 ≤ bits ∧ bits ≤ 256 → form.integer? text = some v →
      form.value? text = some j →
      ((∃ data, encodeParams [.str ("int" ++ toString bits), j] = .ok data) ↔
        Within bits v) := by
  intro h
  have taken := (h 256 .hexadecimal "0x01" 1 _ (by decide) (by decide) rfl).mpr (by
    constructor
    · norm_num
    · norm_num)
  obtain ⟨data, hd⟩ := taken
  obtain ⟨v, hv, _⟩ := (encodeParams_int_eq_ok_iff (by decide)).mp hd
  rw [readSigned_str_eq_ok_iff] at hv
  have unread : signedDecimal? "0x01".toList = none := signedDecimal?_of_marked _
  rw [unread] at hv
  cases hv.1

end Abi

end TronCourier
