import TronCourier.Hash.Base58
import TronCourier.Proofs.Text.Hex

/-! Base58 text stands for octets one to one. Both are digits of a number behind as many zeros
as there are in front, and going over from one base to another and back changes nothing. -/

namespace TronCourier

/-- The digits in base `c` of what has these digits in base `b`, both with the most significant
first. Zeros in front stay. -/
def rebase (b c : ℕ) (ds : List ℕ) : List ℕ :=
  ds.takeWhile (· == 0) ++ (Nat.digits c (Nat.ofDigits b ds.reverse)).reverse

section Rebase

variable {b c : ℕ} {ds : List ℕ}

theorem lt_of_mem_rebase (hc : 1 < c) {d : ℕ} (h : d ∈ rebase b c ds) : d < c := by
  rcases List.mem_append.mp h with h | h
  · have hd := List.mem_takeWhile_imp h
    simp only [beq_iff_eq] at hd
    omega
  · exact Nat.digits_lt_base hc (List.mem_reverse.mp h)

theorem reverse_digits_ofDigits (hb : 1 < b) (h : ∀ d ∈ ds, d < b) :
    (Nat.digits b (Nat.ofDigits b ds.reverse)).reverse = ds.dropWhile (· == 0) := by
  induction ds with
  | nil => simp
  | cons d ds ih =>
    by_cases hd : d = 0
    · subst hd
      rw [Nat.ofDigits_reverse_zero_cons, ih fun d hd => h d (List.mem_cons_of_mem _ hd)]
      rfl
    · have hlast (hne : (d :: ds).reverse ≠ []) : (d :: ds).reverse.getLast hne ≠ 0 := by
        rwa [List.getLast_reverse]
      rw [Nat.digits_ofDigits b hb _ (fun x hx => h x (List.mem_reverse.mp hx)) hlast,
        List.reverse_reverse, List.dropWhile_cons_of_neg (by simpa using hd)]

theorem takeWhile_reverse_digits (c n : ℕ) :
    (Nat.digits c n).reverse.takeWhile (· == 0) = [] := by
  by_cases hn : n = 0
  · simp [hn]
  · have hlast := Nat.getLast_digit_ne_zero c hn
    cases hds : (Nat.digits c n).reverse with
    | nil => rfl
    | cons d ds =>
      have hdigits : Nat.digits c n = ds.reverse ++ [d] := by
        rw [← List.reverse_reverse (Nat.digits c n), hds, List.reverse_cons]
      simp only [hdigits, List.getLast_append_singleton] at hlast
      exact List.takeWhile_cons_of_neg (by simpa using hlast)

theorem rebase_rebase (c : ℕ) (hb : 1 < b) (h : ∀ d ∈ ds, d < b) :
    rebase c b (rebase b c ds) = ds := by
  have hzeros : ∀ d ∈ ds.takeWhile (· == 0), (d == 0) = true := fun d hd =>
    List.mem_takeWhile_imp (p := fun d => d == 0) hd
  have hfront : (rebase b c ds).takeWhile (· == 0) = ds.takeWhile (· == 0) := by
    rw [rebase, List.takeWhile_append_of_pos hzeros, takeWhile_reverse_digits, List.append_nil]
  have hnumber : Nat.ofDigits c (rebase b c ds).reverse = Nat.ofDigits b ds.reverse := by
    have hreplicate := List.eq_replicate_of_mem fun d hd => beq_iff_eq.mp (hzeros d hd)
    rw [rebase, List.reverse_append, List.reverse_reverse, hreplicate, List.reverse_replicate,
      Nat.ofDigits_append_replicate_zero, Nat.ofDigits_digits]
  rw [rebase, hfront, hnumber, reverse_digits_ofDigits hb h, List.takeWhile_append_dropWhile]

/-- The most significant digit of a number, from where the number lies. -/
theorem getLast?_digits {k d n : ℕ} (hb : 1 < b) (hd : 0 < d) (hlt : d < b)
    (hlow : d * b ^ k ≤ n) (hhigh : n < (d + 1) * b ^ k) :
    (Nat.digits b n).getLast? = some d := by
  induction k generalizing n with
  | zero =>
    obtain rfl : n = d := by
      simp only [pow_zero, mul_one] at hlow hhigh
      omega
    rw [Nat.digits_of_lt b n (by omega) hlt]
    rfl
  | succ k ih =>
    have hpos : 0 < n := lt_of_lt_of_le (by positivity) hlow
    have hlow' : d * b ^ k ≤ n / b := by
      rw [Nat.le_div_iff_mul_le (by omega)]
      rwa [pow_succ, ← mul_assoc] at hlow
    have hhigh' : n / b < (d + 1) * b ^ k := by
      rw [Nat.div_lt_iff_lt_mul (by omega)]
      rwa [pow_succ, ← mul_assoc] at hhigh
    rw [Nat.digits_def' hb hpos, List.getLast?_cons, ih hlow' hhigh']
    rfl

end Rebase

namespace Bytes

theorem toNat_eq_ofDigits (bs : Bytes) :
    toNat bs = Nat.ofDigits 256 (bs.map UInt8.toNat).reverse := by
  rw [toNat, Nat.ofDigits_eq_foldr, List.foldr_reverse, List.foldl_map]
  simp only [Nat.cast_id, mul_comm, add_comm]

theorem minimal_eq_digits (n : ℕ) : minimal n = (Nat.digits 256 n).reverse.map UInt8.ofNat := by
  induction n using minimal.induct with
  | case1 => simp [minimal]
  | case2 n hn ih =>
    rw [minimal, if_neg hn, ih, Nat.digits_def' (by decide) (Nat.pos_of_ne_zero hn),
      List.reverse_cons, List.map_append]
    have hoctet : UInt8.ofNat n = UInt8.ofNat (n % 256) := by
      apply UInt8.toNat_inj.mp
      simp
    rw [hoctet]
    rfl

end Bytes

theorem length_sha256 (message : Bytes) : (sha256 message).length = 32 := by
  simp [sha256, Sha256.Working.words]

namespace Base58

variable {bs payload : Bytes} {s : String}

theorem digits_eq_digits (n : ℕ) : digits n = Nat.digits 58 n := by
  induction n using digits.induct with
  | case1 => simp [digits]
  | case2 n hn ih =>
    rw [digits, if_neg hn, ih, Nat.digits_def' (by decide) (Nat.pos_of_ne_zero hn)]

def octet (d : ℕ) : UInt8 :=
  UInt8.ofNat (symbol d).toNat

/-- A symbol is a character of one octet that stands for its digit. -/
theorem digitValue_octet {d : ℕ} (h : d < 58) : (symbol d).toNat < 128 ∧
    digitValue (octet d) = some d ∧ (octet d = 0x31 ↔ d = 0) := by
  have every : ∀ d : Fin 58, (symbol d).toNat < 128 ∧ digitValue (octet d) = some d.val ∧
      (octet d = 0x31 ↔ d.val = 0) := by decide +kernel
  exact every ⟨d, h⟩

theorem eq_octet_of_digitValue {b : UInt8} {d : ℕ} (h : digitValue b = some d) :
    d < 58 ∧ b = octet d := by
  obtain ⟨hlt, hd, -⟩ := List.idxOf?_eq_some_iff.mp h
  have hvalid : b.toNat.isValidChar := .inl (by have := b.toNat_lt; omega)
  refine ⟨hlt, ?_⟩
  rw [octet, symbol, List.getD_eq_getElem alphabet '1' hlt, hd, Char.toNat_ofNat, if_pos hvalid,
    UInt8.ofNat_toNat]

/-- The text of some digits. -/
def spell (ds : List ℕ) : String :=
  String.ofList (ds.map symbol)

theorem utf8_spell {ds : List ℕ} (h : ∀ d ∈ ds, d < 58) : Text.utf8 (spell ds) = ds.map octet := by
  rw [Text.utf8_eq_flatMap, spell, String.toList_ofList, List.flatMap_map, List.map_eq_flatMap]
  exact List.flatMap_congr fun d hd => Text.utf8EncodeChar_of_lt (digitValue_octet (h d hd)).1

/-- Just the texts of digits are read, onto a number that was read before. -/
theorem readDigits_eq_ok_iff {text : Bytes} {n position m : ℕ} :
    readDigits n position text = .ok m ↔ ∃ ds : List ℕ, (∀ d ∈ ds, d < 58) ∧
      text = ds.map octet ∧ m = ds.foldl (fun n d => n * 58 + d) n := by
  constructor
  · intro h
    induction text generalizing n position with
    | nil =>
      cases h
      exact ⟨[], by simp, rfl, rfl⟩
    | cons b text ih =>
      rw [readDigits] at h
      split at h
      · cases h
      · split at h
        · cases h
        · rename_i d hd
          obtain ⟨hlt, rfl⟩ := eq_octet_of_digitValue hd
          obtain ⟨ds, hds, rfl, hm⟩ := ih h
          exact ⟨d :: ds, List.forall_mem_cons.mpr ⟨hlt, hds⟩, rfl, hm⟩
  · rintro ⟨ds, hds, rfl, rfl⟩
    induction ds generalizing n position with
    | nil => rfl
    | cons d ds ih =>
      obtain ⟨hlt, hds⟩ := List.forall_mem_cons.mp hds
      obtain ⟨hascii, hvalue, -⟩ := digitValue_octet hlt
      have hlow : ¬ 127 < octet d := by
        rw [UInt8.lt_iff_toNat_lt, octet, UInt8.toNat_ofNat']
        show ¬ 127 < _
        omega
      rw [List.map_cons, readDigits, if_neg hlow, hvalue]
      exact ih hds

theorem encode_eq_spell (bs : Bytes) : encode bs = spell (rebase 256 58 (bs.map UInt8.toNat)) := by
  have hzero : (fun b : UInt8 => b == 0) = (· == 0) ∘ UInt8.toNat := by
    funext b
    simp [← UInt8.toNat_inj]
  have hones : (bs.takeWhile (· == 0)).map (fun _ => '1') =
      ((bs.map UInt8.toNat).takeWhile (· == 0)).map symbol := by
    rw [List.takeWhile_map, ← hzero, List.map_map]
    refine List.map_congr_left fun b hb => ?_
    have hb : b = 0 := by simpa using List.mem_takeWhile_imp (p := fun b => b == 0) hb
    subst hb
    rfl
  rw [encode, spell, rebase, hones, digits_eq_digits, Bytes.toNat_eq_ofDigits, List.map_append]

theorem foldl_eq_ofDigits (ds : List ℕ) :
    ds.foldl (fun n d => n * 58 + d) 0 = Nat.ofDigits 58 ds.reverse := by
  rw [Nat.ofDigits_eq_foldr, List.foldr_reverse]
  simp only [Nat.cast_id, mul_comm, add_comm]

theorem decode_eq_ok_iff_spell : decode s = .ok bs ↔ ∃ ds : List ℕ, (∀ d ∈ ds, d < 58) ∧
    s = spell ds ∧ bs = (rebase 58 256 ds).map UInt8.ofNat := by
  have hzeros {ds : List ℕ} (hds : ∀ d ∈ ds, d < 58) :
      ((ds.map octet).takeWhile (· == 0x31)).map (fun _ => (0 : UInt8)) =
        (ds.takeWhile (· == 0)).map UInt8.ofNat := by
    induction ds with
    | nil => rfl
    | cons d ds ih =>
      obtain ⟨hlt, hds⟩ := List.forall_mem_cons.mp hds
      by_cases hd : d = 0
      · have hone : octet d = 0x31 := (digitValue_octet hlt).2.2.mpr hd
        simp [hd ▸ hone, hd, ih hds]
      · have hone : ¬ octet d = 0x31 := fun h => hd ((digitValue_octet hlt).2.2.mp h)
        simp [hone, hd]
  have hread {ds : List ℕ} (hds : ∀ d ∈ ds, d < 58) :
      ((ds.map octet).takeWhile (· == 0x31)).map (fun _ => 0) ++
        Bytes.minimal (ds.foldl (fun n d => n * 58 + d) 0) =
      (rebase 58 256 ds).map UInt8.ofNat := by
    rw [hzeros hds, foldl_eq_ofDigits, Bytes.minimal_eq_digits, rebase, List.map_append]
  simp only [decode, bind_eq_ok_iff, readDigits_eq_ok_iff, pure, Except.pure, Except.ok.injEq]
  constructor
  · rintro ⟨n, ⟨ds, hds, htext, rfl⟩, rfl⟩
    refine ⟨ds, hds, ?_, htext ▸ hread hds⟩
    rw [← utf8_spell hds] at htext
    exact Text.utf8_injective htext
  · rintro ⟨ds, hds, rfl, rfl⟩
    refine ⟨_, ⟨ds, hds, utf8_spell hds, rfl⟩, ?_⟩
    rw [utf8_spell hds]
    exact hread hds

/-- Each octet string has one text, and what is read is the text of what it is read as. -/
theorem decode_eq_ok_iff : decode s = .ok bs ↔ s = encode bs := by
  rw [decode_eq_ok_iff_spell, encode_eq_spell]
  constructor
  · rintro ⟨ds, hds, rfl, rfl⟩
    have hoctets : ((rebase 58 256 ds).map UInt8.ofNat).map UInt8.toNat = rebase 58 256 ds := by
      rw [List.map_map]
      refine (List.map_congr_left fun d hd => ?_).trans (List.map_id _)
      exact Nat.mod_eq_of_lt (lt_of_mem_rebase (by decide) hd)
    rw [hoctets, rebase_rebase 256 (by decide) hds]
  · intro hs
    have hoctets : ∀ d ∈ bs.map UInt8.toNat, d < 256 := by
      intro d hd
      obtain ⟨b, -, rfl⟩ := List.mem_map.mp hd
      exact b.toNat_lt
    refine ⟨_, fun d hd => lt_of_mem_rebase (by decide) hd, hs, ?_⟩
    rw [rebase_rebase 58 (by decide) hoctets, List.map_map]
    exact ((List.map_congr_left fun b _ => UInt8.ofNat_toNat).trans (List.map_id _)).symm

theorem length_checksum (payload : Bytes) : (checksum payload).length = 4 := by
  rw [checksum, List.length_take, length_sha256]
  rfl

theorem decodeCheck_eq_ok_iff : decodeCheck s = .ok payload ↔ s = encodeCheck payload := by
  simp only [decodeCheck, bind_eq_ok_iff, decode_eq_ok_iff, encodeCheck]
  constructor
  · rintro ⟨bs, rfl, h⟩
    split at h
    · cases h
    · split at h
      · rename_i hsum
        cases h
        rw [hsum, List.take_append_drop]
      · cases h
  · rintro rfl
    have hlength : (payload ++ checksum payload).length - 4 = payload.length := by
      rw [List.length_append, length_checksum, Nat.add_sub_cancel]
    have hshort : ¬ (payload ++ checksum payload).length < 4 := by
      rw [List.length_append, length_checksum]
      omega
    refine ⟨_, rfl, ?_⟩
    rw [if_neg hshort]
    simp only [hlength, List.take_left, List.drop_left, if_true]

/-- Twenty-five octets that start with 0x41 have a number whose first digit is T. -/
theorem head?_encode {rest : Bytes} (h : rest.length = 24) :
    (encode (0x41 :: rest)).toList.head? = some 'T' := by
  have hrest : Nat.ofDigits 256 (rest.map UInt8.toNat).reverse < 256 ^ 24 := by
    have hlt := Nat.ofDigits_lt_base_pow_length (b := 256) (l := (rest.map UInt8.toNat).reverse)
      (by decide) ?_
    · rwa [List.length_reverse, List.length_map, h] at hlt
    · intro d hd
      obtain ⟨b, -, rfl⟩ := List.mem_map.mp (List.mem_reverse.mp hd)
      exact b.toNat_lt
  have hnumber : Nat.ofDigits 256 ((0x41 :: rest).map UInt8.toNat).reverse =
      Nat.ofDigits 256 (rest.map UInt8.toNat).reverse + 256 ^ 24 * 0x41 := by
    rw [List.map_cons, Nat.ofDigits_reverse_cons, List.length_map, h]
    rfl
  have hlast : (Nat.digits 58
      (Nat.ofDigits 256 ((0x41 :: rest).map UInt8.toNat).reverse)).getLast? = some 26 := by
    rw [hnumber]
    refine getLast?_digits (k := 33) (by decide) (by decide) (by decide) ?_ ?_
    · omega
    · omega
  have hfront : ((0x41 :: rest).map UInt8.toNat).takeWhile (· == 0) = [] := rfl
  rw [encode_eq_spell, spell, String.toList_ofList, rebase, hfront, List.nil_append,
    List.head?_map, List.head?_reverse, hlast]
  rfl

end Base58

end TronCourier
