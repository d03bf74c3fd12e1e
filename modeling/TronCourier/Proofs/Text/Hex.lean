import TronCourier.Proofs.Except
import TronCourier.Text.Hex

/-! Hexadecimal text stands for its octets up to the case of its letters. What is written
is read back, and what is read is what would be written, in lower case. -/

namespace TronCourier.Text

theorem utf8_eq_flatMap (s : String) : utf8 s = s.toList.flatMap String.utf8EncodeChar := by
  have h : s.toByteArray = s.toList.utf8Encode := by
    rw [← String.toByteArray_ofList, String.ofList_toList]
  simp [utf8, h, List.utf8Encode]

theorem utf8EncodeChar_of_lt {c : Char} (h : c.toNat < 128) :
    String.utf8EncodeChar c = [UInt8.ofNat c.toNat] := by
  have hc : c.val.toNat ≤ 127 := by
    have : c.toNat = c.val.toNat := rfl
    omega
  simp only [String.utf8EncodeChar, if_pos hc]
  rfl

theorem le_of_mem_utf8EncodeChar {c : Char} (h : ¬ c.toNat < 128) {b : UInt8}
    (hb : b ∈ String.utf8EncodeChar c) : 128 ≤ b.toNat := by
  have hc : ¬ c.val.toNat ≤ 127 := by
    have : c.toNat = c.val.toNat := rfl
    omega
  simp only [String.utf8EncodeChar, if_neg hc] at hb
  split at hb
  · simp only [List.mem_cons, List.not_mem_nil, or_false] at hb
    rcases hb with rfl | rfl <;> simp only [UInt8.toNat_ofNat'] <;> omega
  · split at hb
    · simp only [List.mem_cons, List.not_mem_nil, or_false] at hb
      rcases hb with rfl | rfl | rfl <;> simp only [UInt8.toNat_ofNat'] <;> omega
    · simp only [List.mem_cons, List.not_mem_nil, or_false] at hb
      rcases hb with rfl | rfl | rfl | rfl <;> simp only [UInt8.toNat_ofNat'] <;> omega

theorem toNat_lt_of_flatMap {cs : List Char}
    (h : ∀ b ∈ cs.flatMap String.utf8EncodeChar, b.toNat < 128) {c : Char} (hc : c ∈ cs) :
    c.toNat < 128 := by
  by_contra hbeyond
  obtain ⟨b, hb⟩ := List.exists_mem_of_ne_nil _ (String.utf8EncodeChar_ne_nil (c := c))
  have := le_of_mem_utf8EncodeChar hbeyond hb
  have := h b (List.mem_flatMap.mpr ⟨c, hc, hb⟩)
  omega

theorem flatMap_utf8EncodeChar_of_lt {cs : List Char}
    (h : ∀ b ∈ cs.flatMap String.utf8EncodeChar, b.toNat < 128) :
    cs.flatMap String.utf8EncodeChar = cs.map fun c => UInt8.ofNat c.toNat := by
  rw [List.map_eq_flatMap]
  exact List.flatMap_congr fun c hc => utf8EncodeChar_of_lt (toNat_lt_of_flatMap h hc)

theorem utf8?_eq_some_iff {bs : Bytes} {s : String} : utf8? bs = some s ↔ bs = utf8 s := by
  constructor
  · intro h
    rw [utf8?, String.fromUTF8?] at h
    split at h
    · rw [← Option.some.inj h, utf8, String.fromUTF8]
    · cases h
  · rintro rfl
    exact utf8?_utf8 s

theorem utf8_injective {s s' : String} (h : utf8 s = utf8 s') : s = s' := by
  have read := utf8?_utf8 s
  rw [h, utf8?_utf8] at read
  exact (Option.some.inj read).symm

/-- A digit is the character of its value, once it is in lower case. -/
theorem toLower_of_hexValue {b : UInt8} {d : Nat} (h : hexValue b = some d) :
    d < 16 ∧ b.toNat < 128 ∧ (Char.ofNat b.toNat).toLower = hexDigit d := by
  have every : ∀ b : Fin 256, ∀ d, hexValue (UInt8.ofNat b) = some d →
      d < 16 ∧ b.val < 128 ∧ (Char.ofNat b).toLower = hexDigit d := by decide +kernel
  simpa using every ⟨b.toNat, b.toNat_lt⟩ d (by simpa using h)

theorem hexValue_hexDigit {d : Nat} (h : d < 16) :
    (hexDigit d).toNat < 128 ∧ hexValue (UInt8.ofNat (hexDigit d).toNat) = some d := by
  have every : ∀ d : Fin 16, (hexDigit d).toNat < 128 ∧
      hexValue (UInt8.ofNat (hexDigit d).toNat) = some d.val := by decide
  exact every ⟨d, h⟩

theorem length_hexChars (bs : Bytes) : (hexChars bs).length = 2 * bs.length := by
  induction bs with
  | nil => rfl
  | cons b bs ih =>
    simp only [hexChars, List.length_cons, ih]
    omega

theorem mem_hexChars {bs : Bytes} {c : Char} (h : c ∈ hexChars bs) : ∃ d < 16, c = hexDigit d := by
  induction bs with
  | nil => cases h
  | cons b bs ih =>
    have := b.toNat_lt
    rcases List.mem_cons.mp h with rfl | h
    · exact ⟨b.toNat / 16, by omega, rfl⟩
    · rcases List.mem_cons.mp h with rfl | h
      · exact ⟨b.toNat % 16, by omega, rfl⟩
      · exact ih h

/-- What is a digit in lower case is a digit of the same value. -/
theorem hexValue_of_toLower {c : Char} {d : Nat} (hd : d < 16) (h : c.toLower = hexDigit d) :
    c.toNat < 128 ∧ hexValue (UInt8.ofNat c.toNat) = some d := by
  have hascii : c.toNat < 128 := by
    by_contra hbeyond
    have hupper : ¬ c.isUpper = true := by
      intro hupper
      simp only [Char.isUpper, decide_eq_true_eq] at hupper
      exact hbeyond (lt_of_le_of_lt (UInt32.le_iff_toNat_le.mp hupper.2) (by decide))
    rw [Char.toLower_eq_of_not_isUpper hupper] at h
    exact hbeyond (h ▸ (hexValue_hexDigit hd).1)
  have every : ∀ n : Fin 128, ∀ d : Fin 16, (Char.ofNat n).toLower = hexDigit d →
      hexValue (UInt8.ofNat n) = some d.val := by decide +kernel
  exact ⟨hascii, every ⟨c.toNat, hascii⟩ ⟨d, hd⟩ (by simpa using h)⟩

def hexDigits : List Char :=
  ['0', '1', '2', '3', '4', '5', '6', '7', '8', '9', 'a', 'b', 'c', 'd', 'e', 'f',
    'A', 'B', 'C', 'D', 'E', 'F']

theorem mem_hexDigits_iff {c : Char} : c ∈ hexDigits ↔ ∃ d < 16, c.toLower = hexDigit d := by
  constructor
  · have every : hexDigits.map Char.toLower ⊆ (List.range 16).map hexDigit := by decide
    intro h
    obtain ⟨d, hd, hlower⟩ := List.mem_map.mp (every (List.mem_map_of_mem h))
    exact ⟨d, List.mem_range.mp hd, hlower.symm⟩
  · rintro ⟨d, hd, hlower⟩
    have every : ∀ n : Fin 128, ∀ d : Fin 16, (Char.ofNat n).toLower = hexDigit d →
        Char.ofNat n ∈ hexDigits := by decide +kernel
    obtain ⟨hascii, _⟩ := hexValue_of_toLower hd hlower
    simpa using every ⟨c.toNat, hascii⟩ ⟨d, hd⟩ (by simpa using hlower)

theorem hexChars_cons_ofNat {d d' : Nat} (hd : d < 16) (hd' : d' < 16) (bs : Bytes) :
    hexChars (UInt8.ofNat (d * 16 + d') :: bs) = hexDigit d :: hexDigit d' :: hexChars bs := by
  have octet : (UInt8.ofNat (d * 16 + d')).toNat = d * 16 + d' := by
    rw [UInt8.toNat_ofNat']
    omega
  rw [hexChars, octet, show (d * 16 + d') / 16 = d by omega, show (d * 16 + d') % 16 = d' by omega]

theorem exists_hexChars_iff {cs : List Char} :
    (∃ bs, cs.map Char.toLower = hexChars bs) ↔ Even cs.length ∧ ∀ c ∈ cs, c ∈ hexDigits := by
  constructor
  · rintro ⟨bs, h⟩
    refine ⟨⟨bs.length, ?_⟩, fun c hc => ?_⟩
    · rw [← List.length_map (f := Char.toLower), h, length_hexChars]
      omega
    · exact mem_hexDigits_iff.mpr (mem_hexChars (h ▸ List.mem_map_of_mem hc))
  · rintro ⟨heven, hdigits⟩
    -- Two digits make an octet, so the induction takes two characters at a time.
    induction cs using List.twoStepInduction with
    | nil => exact ⟨[], rfl⟩
    | singleton c => simp at heven
    | cons_cons c c' cs ih _ =>
      simp only [List.mem_cons, forall_eq_or_imp] at hdigits
      obtain ⟨hc, hc', hrest⟩ := hdigits
      obtain ⟨d, hd, hlower⟩ := mem_hexDigits_iff.mp hc
      obtain ⟨d', hd', hlower'⟩ := mem_hexDigits_iff.mp hc'
      obtain ⟨bs, hbs⟩ := ih (by simpa [Nat.even_add] using heven) hrest
      refine ⟨UInt8.ofNat (d * 16 + d') :: bs, ?_⟩
      rw [List.map_cons, List.map_cons, hlower, hlower', hbs, hexChars_cons_ofNat hd hd']

/-- Hexadecimal texts are the even numbers of digits, in any case. -/
theorem exists_hex_iff {s : String} :
    (∃ bs, s.toLower = hex bs) ↔ Even s.length ∧ ∀ c ∈ s.toList, c ∈ hexDigits := by
  rw [← String.length_toList, ← exists_hexChars_iff]
  simp [← String.toList_inj, String.toLower, hex]

theorem readPairs_of_toLower {cs : List Char} {bs : Bytes}
    (h : cs.map Char.toLower = hexChars bs) (position : Nat) :
    readPairs position (cs.map fun c => UInt8.ofNat c.toNat) = .ok bs := by
  induction bs generalizing cs position with
  | nil =>
    rw [hexChars, List.map_eq_nil_iff] at h
    rw [h]
    rfl
  | cons b bs ih =>
    have := b.toNat_lt
    obtain ⟨c, cs, rfl, hc, h⟩ := List.map_eq_cons_iff.mp h
    obtain ⟨d, cs, rfl, hd, h⟩ := List.map_eq_cons_iff.mp h
    have high := (hexValue_of_toLower (by omega) hc).2
    have low := (hexValue_of_toLower (by omega) hd).2
    have whole : UInt8.ofNat (b.toNat / 16 * 16 + b.toNat % 16) = b := by
      rw [show b.toNat / 16 * 16 + b.toNat % 16 = b.toNat by omega]
      simp
    simp only [List.map_cons, readPairs, high, low, ih h, whole]
    rfl

theorem unhex_of_toLower {s : String} {bs : Bytes} (h : s.toLower = hex bs) : unhex s = .ok bs := by
  have hchars : s.toList.map Char.toLower = hexChars bs := by
    rw [← String.toList_inj, hex, String.toList_ofList, String.toLower, String.toList_map] at h
    exact h
  have hascii : ∀ c ∈ s.toList, c.toNat < 128 := by
    intro c hc
    obtain ⟨d, hd, hlower⟩ := mem_hexChars (hchars ▸ List.mem_map_of_mem hc)
    exact (hexValue_of_toLower hd hlower).1
  have hoctets : utf8 s = s.toList.map fun c => UInt8.ofNat c.toNat := by
    rw [utf8_eq_flatMap, List.map_eq_flatMap]
    exact List.flatMap_congr fun c hc => utf8EncodeChar_of_lt (hascii c hc)
  have heven : (utf8 s).length % 2 ≠ 1 := by
    rw [hoctets, List.length_map, ← List.length_map (f := Char.toLower), hchars, length_hexChars]
    omega
  rw [unhex, unhexOctets, if_neg heven, hoctets]
  exact readPairs_of_toLower hchars 0

theorem map_hexChars {f : Char → Char} (h : ∀ d < 16, f (hexDigit d) = hexDigit d) (bs : Bytes) :
    (hexChars bs).map f = hexChars bs := by
  refine (List.map_congr_left fun c hc => ?_).trans (List.map_id _)
  obtain ⟨d, hd, rfl⟩ := mem_hexChars hc
  exact h d hd

theorem toLower_hex (bs : Bytes) : (hex bs).toLower = hex bs := by
  have every : ∀ d < 16, (hexDigit d).toLower = hexDigit d := by decide
  rw [← String.toList_inj, String.toLower, String.toList_map, hex, String.toList_ofList,
    map_hexChars every]

theorem unhex_hex (bs : Bytes) : unhex (hex bs) = .ok bs :=
  unhex_of_toLower (toLower_hex bs)

theorem hex_injective {bs bs' : Bytes} (h : hex bs = hex bs') : bs = bs' := by
  have read := unhex_hex bs
  rw [h, unhex_hex, Except.ok.injEq] at read
  exact read.symm

theorem hexChars_of_readPairs {position : Nat} {text bs : Bytes}
    (h : readPairs position text = .ok bs) :
    (∀ b ∈ text, b.toNat < 128) ∧ text.map (fun b => (Char.ofNat b.toNat).toLower) = hexChars bs := by
  induction position, text using readPairs.induct generalizing bs with
  | case1 =>
    cases h
    exact ⟨by simp, rfl⟩
  | case2 => cases h
  | case3 _ a b r ha => simp [readPairs, ha] at h
  | case4 _ a b r hb =>
    rw [readPairs] at h
    split at h <;> simp_all
  | case5 position a b r x y hy hx ih =>
    simp only [readPairs, hx, hy, bind_eq_ok_iff, pure, Except.pure, Except.ok.injEq] at h
    obtain ⟨bs, hr, rfl⟩ := h
    obtain ⟨ascii, hrest⟩ := ih hr
    obtain ⟨hx16, hx128, high⟩ := toLower_of_hexValue hx
    obtain ⟨hy16, hy128, low⟩ := toLower_of_hexValue hy
    refine ⟨?_, ?_⟩
    · simp only [List.mem_cons, forall_eq_or_imp]
      exact ⟨hx128, hy128, ascii⟩
    · rw [List.map_cons, List.map_cons, high, low, hrest, hexChars_cons_ofNat hx16 hy16]

theorem readPairs_of_unhex {s : String} {bs : Bytes} (h : unhex s = .ok bs) :
    readPairs 0 (utf8 s) = .ok bs := by
  rw [unhex, unhexOctets] at h
  split at h
  · cases h
  · exact h

theorem length_of_unhex {s : String} {bs : Bytes} (h : unhex s = .ok bs) :
    (utf8 s).length = 2 * bs.length := by
  have hchars := (hexChars_of_readPairs (readPairs_of_unhex h)).2
  rw [← length_hexChars, ← hchars, List.length_map]

/-- Texts of the same octets differ in the case of letters only. -/
theorem toLower_of_unhex {s : String} {bs : Bytes} (h : unhex s = .ok bs) :
    s.toLower = hex bs := by
  obtain ⟨ascii, hchars⟩ := hexChars_of_readPairs (readPairs_of_unhex h)
  rw [utf8_eq_flatMap] at ascii hchars
  rw [flatMap_utf8EncodeChar_of_lt ascii, List.map_map] at hchars
  have same : s.toList.map Char.toLower = hexChars bs := by
    rw [← hchars]
    refine List.map_congr_left fun c hc => ?_
    have := toNat_lt_of_flatMap ascii hc
    have octet : (UInt8.ofNat c.toNat).toNat = c.toNat := by
      rw [UInt8.toNat_ofNat']
      omega
    simp [octet]
  rw [hex, ← same, String.toLower, ← String.toList_map, String.ofList_toList]

theorem unhex_eq_ok_iff {s : String} {bs : Bytes} : unhex s = .ok bs ↔ s.toLower = hex bs :=
  ⟨toLower_of_unhex, unhex_of_toLower⟩

end TronCourier.Text
