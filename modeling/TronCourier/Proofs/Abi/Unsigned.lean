import TronCourier.Proofs.Abi.Signed

/-! Unsigned integers as parameters. A literal in one of three forms is taken just if its number
is in the range of the type, however many digits it has, and nothing else is taken. -/

namespace TronCourier

namespace Text

theorem length_of_unhexOctets {text bs : Bytes} (h : unhexOctets text = .ok bs) :
    text.length = 2 * bs.length := by
  rw [unhexOctets] at h
  split at h
  · cases h
  · rw [← length_hexChars, ← (hexChars_of_readPairs h).2, List.length_map]

/-- Pairs of digits are read, whatever they are. -/
theorem exists_readPairs {text : Bytes} {ds : List Nat} (digits : text.mapM hexValue = some ds)
    (even : text.length % 2 = 0) (position : Nat) : ∃ bs, readPairs position text = .ok bs := by
  induction position, text using readPairs.induct generalizing ds with
  | case1 => exact ⟨[], rfl⟩
  | case2 => simp at even
  | case3 _ a b r ha => simp [ha] at digits
  | case4 _ a b r hb => simp [hb] at digits
  | case5 position a b r x y hy hx ih =>
    simp only [List.mapM_cons, hx, hy, Option.bind_eq_bind, Option.bind_some, Option.pure_def,
      Option.bind_eq_some_iff] at digits
    obtain ⟨_, ⟨rest, hrest, -⟩, -⟩ := digits
    obtain ⟨bs, hbs⟩ := ih hrest (by simp only [List.length_cons] at even; omega)
    exact ⟨UInt8.ofNat (x * 16 + y) :: bs, by simp [readPairs, hx, hy, hbs, bind, Except.bind,
      pure, Except.pure]⟩

end Text

namespace Abi

variable {bits v : Nat} {j : Json} {w data : Bytes} {cs : List Char}

/-- Digits are read to the end just if their number fits into a word. -/
theorem readDecimal_of_digits {ds : List Nat} (size : w.length = 32)
    (digits : cs.mapM Text.digit? = some ds) :
    readDecimal w cs =
      if ds.foldl (fun n d => n * 10 + d) (Bytes.toNat w) < 2 ^ 256 then
        .ok (word (ds.foldl (fun n d => n * 10 + d) (Bytes.toNat w)))
      else .error .outOfRange := by
  induction cs generalizing w ds with
  | nil =>
    obtain rfl : [] = ds := by simpa using digits
    rw [readDecimal_nil, List.foldl_nil, if_pos (toNat_lt_of_length size), word_toNat size]
  | cons c r ih =>
    simp only [List.mapM_cons, Option.bind_eq_bind, Option.bind_eq_some_iff, Option.pure_def,
      Option.some.injEq] at digits
    obtain ⟨d, hd, ds, hds, rfl⟩ := digits
    rw [readDecimal_cons_of_some size hd, List.foldl_cons]
    split
    · rename_i bound
      rw [ih (length_word _) hds, toNat_word bound]
    · -- more digits do not make the number smaller
      rename_i beyond
      have grows := le_foldl_digits (Bytes.toNat w * 10 + d) ds
      rw [if_neg (by omega)]

theorem readDecimal_of_decimal? (h : decimal? cs = some v) :
    readDecimal (Bytes.zeros 32) cs =
      if v < 2 ^ 256 then .ok (word v) else .error .outOfRange := by
  obtain ⟨_, ds, digits, rfl⟩ := decimal?_eq_some_iff.mp h
  rw [readDecimal_of_digits (Bytes.length_zeros 32) digits, Bytes.toNat_zeros]

theorem readHexNumber_eq_ok_iff {text : Bytes} :
    readHexNumber text = .ok w ↔
      text.length ≤ 64 ∧ w.length = 32 ∧ hexadecimal? text = some (Bytes.toNat w) := by
  constructor
  · intro h
    obtain ⟨size, value⟩ := hexadecimal?_eq_some h
    refine ⟨?_, size, value⟩
    rw [readHexNumber] at h
    split at h
    · cases h
    · rename_i bs hbs
      split at h
      · cases h
      · rename_i fits
        have length := Text.length_of_unhexOctets hbs
        split at length
        · rw [List.length_cons] at length
          omega
        · omega
  · rintro ⟨short, size, value⟩
    obtain ⟨padded, hpadded⟩ :
        ∃ t, (if text.length % 2 = 1 then 0x30 :: text else text) = t := ⟨_, rfl⟩
    have even : padded.length % 2 = 0 ∧ padded.length ≤ 64 := by
      rw [← hpadded]
      split
      · rw [List.length_cons]
        omega
      · omega
    have same : hexadecimal? padded = some (Bytes.toNat w) := by
      rw [← hpadded, ← value]
      split
      · exact hexadecimal?_zero_cons text
      · rfl
    obtain ⟨ds, digits, _⟩ := Option.map_eq_some_iff.mp same
    obtain ⟨bs, hbs⟩ := Text.exists_readPairs digits even.1 0
    have read : Text.unhexOctets padded = .ok bs := by
      rw [Text.unhexOctets, if_neg (by omega), hbs]
    have length := Text.length_of_unhexOctets read
    have number : Bytes.toNat bs = Bytes.toNat w :=
      Option.some.inj ((unhexOctets_eq_ok read).symm.trans same)
    have whole : (Bytes.zeros (32 - bs.length) ++ bs).length = 32 := by
      rw [List.length_append, Bytes.length_zeros]
      omega
    rw [readHexNumber, hpadded]
    simp only [read]
    rw [if_neg (by omega), ← word_toNat whole, Bytes.toNat_zeros_append, number, word_toNat size]

/-- The number that a literal of an unsigned type writes: an integer of 64 bits, decimal digits,
or at most 64 hexadecimal ones behind their marker. -/
def literal? : Json → Option Nat
  | .int n => if 0 ≤ n ∧ n < 2 ^ 64 then some n.toNat else none
  | .str s =>
    match s.toList with
    | '0' :: 'x' :: r =>
      let digits := Text.utf8 (String.ofList r)
      if digits.length ≤ 64 then hexadecimal? digits else none
    | cs => decimal? cs
  | _ => none

/-- What is read is the word of what is written, if there is a word that large. -/
theorem readUnsigned_eq_ok_iff :
    readUnsigned j = .ok w ↔ w.length = 32 ∧ literal? j = some (Bytes.toNat w) := by
  unfold readUnsigned literal?
  split
  · rename_i n
    have same : (0 ≤ n ∧ n ≤ nat64Max) ↔ 0 ≤ n ∧ n < 2 ^ 64 := by
      simp only [nat64Max]
      omega
    simp only [same]
    split
    · rename_i inside
      have small : n.toNat < 2 ^ 256 := by omega
      simp only [Except.ok.injEq, Option.some.injEq]
      constructor
      · rintro rfl
        exact ⟨length_word _, (toNat_word small).symm⟩
      · rintro ⟨size, value⟩
        rw [value, word_toNat size]
    · simp
  · simp
  · rename_i s
    simp only
    split
    · rename_i r hs
      simp only [hs, readHexNumber_eq_ok_iff]
      split
      · rename_i short
        simp [short]
      · rename_i long
        simp [long]
    · rename_i hs
      simp [hs, decimal?]
    · rename_i no_marker nonempty
      have written : ∀ {o}, (match s.toList with
          | '0' :: 'x' :: r =>
            if (Text.utf8 (String.ofList r)).length ≤ 64 then
              hexadecimal? (Text.utf8 (String.ofList r))
            else none
          | cs => decimal? cs) = o ↔ decimal? s.toList = o := by
        intro o
        split
        · rename_i r hs
          exact absurd hs (no_marker r)
        · rfl
      rw [written]
      constructor
      · intro h
        obtain ⟨size, ds, digits, value⟩ := readDecimal_eq_ok (Bytes.length_zeros 32) h
        rw [Bytes.toNat_zeros] at value
        exact ⟨size, decimal?_eq_some nonempty digits value⟩
      · rintro ⟨size, value⟩
        rw [readDecimal_of_decimal? value, if_pos (toNat_lt_of_length size), word_toNat size]
  · rename_i other
    cases j <;> simp_all

theorem encodeValue_uint_eq_ok_iff (wf : (AbiType.uint bits).WellFormed) :
    encodeValue (.uint bits) j = .ok data ↔
      ∃ v, literal? j = some v ∧ v < 2 ^ bits ∧ data.length = 32 ∧ Bytes.toNat data = v := by
  have atom : encodeValue (.uint bits) j = .ok data ↔ encodeAtom (.uint bits) j = .ok data :=
    mapError_eq_ok_iff
  simp only [atom, encodeAtom, bind_eq_ok_iff]
  constructor
  · rintro ⟨w, hw, h⟩
    obtain ⟨size, value⟩ := readUnsigned_eq_ok_iff.mp hw
    split at h
    · rename_i zeros
      obtain rfl : w = data := Except.ok.inj h
      exact ⟨_, value, (leading_zeros_iff wf size).mp zeros, size, rfl⟩
    · cases h
  · rintro ⟨v, value, bound, size, rfl⟩
    refine ⟨data, readUnsigned_eq_ok_iff.mpr ⟨size, value⟩, ?_⟩
    rw [if_pos ((leading_zeros_iff wf size).mpr bound)]
    rfl

theorem encodeParams_uint (width : 8 ∣ bits ∧ 8 ≤ bits ∧ bits ≤ 256) :
    encodeParams [.str ("uint" ++ toString bits), j] = encodeValue (.uint bits) j := by
  rw [encodeParams_single (AbiType.parse_uint width), encodeTuple_single rfl rfl]
  intro part h
  obtain ⟨_, _, _, size, _⟩ := (encodeValue_uint_eq_ok_iff width).mp h
  exact size

/-- An unsigned type takes a literal just if its number is in range, and then writes it as a
word. The digits fail just where their number outgrows a word. -/
theorem uint_taken_iff (width : 8 ∣ bits ∧ 8 ≤ bits ∧ bits ≤ 256) :
    (∀ j data, encodeValue (.uint bits) j = .ok data ↔
      ∃ v, literal? j = some v ∧ v < 2 ^ bits ∧ data.length = 32 ∧ Bytes.toNat data = v) ∧
    (∀ j, (∀ v, literal? j = some v → 2 ^ bits ≤ v) →
      ∃ cause, encodeValue (.uint bits) j = .error (.invalidValue (.uint bits) cause)) ∧
    (∀ j, encodeParams [.str ("uint" ++ toString bits), j] = encodeValue (.uint bits) j) ∧
    ∀ cs v, decimal? cs = some v →
      (readDecimal (Bytes.zeros 32) cs = .error .outOfRange ↔ 2 ^ 256 ≤ v) ∧
      ∀ w, readDecimal (Bytes.zeros 32) cs = .ok w ↔
        v < 2 ^ 256 ∧ w.length = 32 ∧ Bytes.toNat w = v := by
  refine ⟨fun j data => encodeValue_uint_eq_ok_iff width, fun j refused => ?_,
    fun j => encodeParams_uint width, fun cs v written => ?_⟩
  · cases atom : encodeAtom (.uint bits) j with
    | error cause => exact ⟨cause, by simp [encodeValue, atom, Except.mapError]⟩
    | ok data =>
      obtain ⟨v, value, bound, _⟩ := (encodeValue_uint_eq_ok_iff width).mp
        (mapError_eq_ok_iff.mpr atom)
      exact absurd bound (refused v value).not_gt
  · rw [readDecimal_of_decimal? written]
    split
    · rename_i fits
      refine ⟨by simpa using fits, fun w => ?_⟩
      simp only [Except.ok.injEq, fits, true_and]
      constructor
      · rintro rfl
        exact ⟨length_word v, toNat_word fits⟩
      · rintro ⟨size, rfl⟩
        exact word_toNat size
    · rename_i beyond
      exact ⟨by simpa using beyond, fun w => by simp only [reduceCtorEq, beyond, false_and]⟩

/-- Zeros may lead, and the first number beyond the range is refused. -/
theorem uint_taken_iff_octet :
    (8 ∣ 8 ∧ 8 ≤ 8 ∧ 8 ≤ 256) ∧
      (∃ data, encodeParams [.str ("uint" ++ toString 8), .str "00255"] = .ok data ∧
        data.length = 32 ∧ Bytes.toNat data = 255) ∧
      ∃ cause, encodeValue (.uint 8) (.str "0x100") = .error (.invalidValue (.uint 8) cause) := by
  have width : 8 ∣ 8 ∧ 8 ≤ 8 ∧ 8 ≤ 256 := by decide
  obtain ⟨taken, refused, named, _⟩ := uint_taken_iff width
  refine ⟨width, ⟨word 255, ?_, length_word 255, toNat_word (by norm_num)⟩, refused _ ?_⟩
  · rw [named, taken]
    have value : literal? (.str "00255") = some 255 := by decide
    exact ⟨255, value, by norm_num, length_word 255, toNat_word (by norm_num)⟩
  · have value : literal? (.str "0x100") = some 256 := by decide
    rw [value]
    rintro v ⟨⟩
    norm_num

end Abi

end TronCourier
