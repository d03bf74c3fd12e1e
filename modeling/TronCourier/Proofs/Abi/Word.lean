import Mathlib
import TronCourier.Abi.Encode

/-! Words as numbers. The octets of a word are the digits of its number in base 256, and
multiplying it by ten octet by octet loses nothing: what does not fit is carried out. -/

namespace TronCourier

namespace Bytes

theorem foldl_eq_toNat (n : Nat) (bs : Bytes) :
    bs.foldl (fun n b => n * 256 + b.toNat) n = n * 256 ^ bs.length + toNat bs := by
  induction bs using List.reverseRecOn with
  | nil => simp [toNat]
  | append_singleton bs b ih =>
    rw [List.foldl_append, ih, toNat_append_singleton, List.length_append]
    simp only [List.foldl_cons, List.foldl_nil, List.length_cons, List.length_nil, pow_succ]
    ring

theorem toNat_append (bs bs' : Bytes) :
    toNat (bs ++ bs') = toNat bs * 256 ^ bs'.length + toNat bs' := by
  rw [toNat, List.foldl_append, foldl_eq_toNat]
  rfl

theorem toNat_cons (b : UInt8) (bs : Bytes) :
    toNat (b :: bs) = b.toNat * 256 ^ bs.length + toNat bs := by
  rw [← List.singleton_append, toNat_append]
  simp [toNat]

theorem toNat_lt (bs : Bytes) : toNat bs < 256 ^ bs.length := by
  induction bs using List.reverseRecOn with
  | nil => simp [toNat]
  | append_singleton bs b ih =>
    have := b.toNat_lt
    rw [toNat_append_singleton, List.length_append, List.length_singleton, pow_succ]
    omega

theorem ofNat_toNat (bs : Bytes) : ofNat bs.length (toNat bs) = bs := by
  induction bs using List.reverseRecOn with
  | nil => rfl
  | append_singleton bs b ih =>
    have := b.toNat_lt
    have front : (toNat bs * 256 + b.toNat) / 256 = toNat bs := by omega
    have last : UInt8.ofNat (toNat bs * 256 + b.toNat) = b := by
      apply UInt8.toNat_inj.mp
      rw [UInt8.toNat_ofNat']
      omega
    rw [toNat_append_singleton, List.length_append, List.length_singleton, ofNat, front, ih, last]

theorem length_zeros (n : Nat) : (zeros n).length = n :=
  List.length_replicate

theorem toNat_zeros (n : Nat) : toNat (zeros n) = 0 := by
  induction n with
  | zero => rfl
  | succ n ih => simpa [zeros, List.replicate_succ, toNat_cons] using ih

theorem toNat_zeros_append (n : Nat) (bs : Bytes) : toNat (zeros n ++ bs) = toNat bs := by
  rw [toNat_append, toNat_zeros, Nat.zero_mul, Nat.zero_add]

theorem toNat_eq_zero_iff (bs : Bytes) : toNat bs = 0 ↔ ∀ b ∈ bs, b = 0 := by
  induction bs with
  | nil => simp [toNat]
  | cons b bs ih =>
    have octet : b.toNat = 0 ↔ b = 0 := UInt8.toNat_inj (b := 0)
    simp [toNat_cons, ih, octet]

/-- As many zeros lead as the number leaves octets over. -/
theorem all_take_eq_zero_iff {bs : Bytes} {k : Nat} :
    (bs.take k).all (· == 0) ↔ toNat bs < 256 ^ (bs.length - k) := by
  have rest := toNat_lt (bs.drop k)
  rw [List.length_drop] at rest
  have split : toNat bs = toNat (bs.take k) * 256 ^ (bs.length - k) + toNat (bs.drop k) := by
    conv_lhs => rw [← List.take_append_drop k bs, toNat_append, List.length_drop]
  have zero : (bs.take k).all (· == 0) ↔ toNat (bs.take k) = 0 := by
    simp [toNat_eq_zero_iff]
  rw [zero, split]
  constructor
  · intro none
    rw [none]
    omega
  · intro small
    by_contra some
    have : 256 ^ (bs.length - k) ≤ toNat (bs.take k) * 256 ^ (bs.length - k) :=
      Nat.le_mul_of_pos_left _ (Nat.pos_of_ne_zero some)
    omega

end Bytes

namespace Abi

theorem length_word (n : Nat) : (word n).length = 32 :=
  Bytes.length_ofNat 32 n

theorem toNat_lt_of_length {w : Bytes} (size : w.length = 32) : Bytes.toNat w < 2 ^ 256 := by
  have bound := Bytes.toNat_lt w
  have power : 256 ^ 32 = 2 ^ 256 := by norm_num
  rwa [size, power] at bound

theorem toNat_word {n : Nat} (h : n < 2 ^ 256) : Bytes.toNat (word n) = n := by
  have power : Nat.pow 256 32 = 2 ^ 256 := by norm_num
  rw [word, Bytes.toNat_ofNat, power, Nat.mod_eq_of_lt h]

theorem word_toNat {w : Bytes} (h : w.length = 32) : word (Bytes.toNat w) = w := by
  rw [word, ← h, Bytes.ofNat_toNat]

/-- One octet of the product stays within 16 bits, and what it carries on is a digit. -/
theorem octet_timesTen {b : UInt8} {carry : UInt16} (h : carry.toNat ≤ 9) :
    (b.toUInt16 * 10 + carry).toUInt8.toNat + ((b.toUInt16 * 10 + carry) >>> 8).toNat * 256 =
        b.toNat * 10 + carry.toNat ∧
      ((b.toUInt16 * 10 + carry) >>> 8).toNat ≤ 9 := by
  have := b.toNat_lt
  have whole : (b.toUInt16 * 10 + carry).toNat = b.toNat * 10 + carry.toNat := by
    simp only [UInt16.toNat_add, UInt16.toNat_mul, UInt8.toNat_toUInt16, UInt16.toNat_ofNat]
    omega
  have low : (b.toUInt16 * 10 + carry).toUInt8.toNat = (b.toNat * 10 + carry.toNat) % 256 := by
    rw [UInt16.toNat_toUInt8, whole]
  have high : ((b.toUInt16 * 10 + carry) >>> 8).toNat = (b.toNat * 10 + carry.toNat) / 256 := by
    rw [UInt16.toNat_shiftRight, whole, Nat.shiftRight_eq_div_pow]
    rfl
  omega

@[simp] theorem length_timesTen (carry : UInt16) (w : Bytes) :
    (timesTen carry w).1.length = w.length := by
  induction w with
  | nil => rfl
  | cons b r ih => simp [timesTen, ih]

/-- The word and what it carries out make up the product. -/
theorem timesTen_eq {carry : UInt16} (h : carry.toNat ≤ 9) (w : Bytes) :
    Bytes.toNat (timesTen carry w).1 + (timesTen carry w).2.toNat * 256 ^ w.length =
        Bytes.toNat w * 10 + carry.toNat ∧
      (timesTen carry w).2.toNat ≤ 9 := by
  induction w with
  | nil => exact ⟨by simp [timesTen, Bytes.toNat], h⟩
  | cons b r ih =>
    obtain ⟨product, digit⟩ := ih
    obtain ⟨octet, next⟩ := octet_timesTen (b := b) digit
    refine ⟨?_, next⟩
    simp only [timesTen, Bytes.toNat_cons, length_timesTen, List.length_cons, pow_succ]
    generalize (b.toUInt16 * 10 + (timesTen carry r).2).toUInt8.toNat = low at octet ⊢
    generalize ((b.toUInt16 * 10 + (timesTen carry r).2) >>> 8).toNat = high at octet ⊢
    calc low * 256 ^ r.length + Bytes.toNat (timesTen carry r).1 + high * (256 ^ r.length * 256)
      _ = (low + high * 256) * 256 ^ r.length + Bytes.toNat (timesTen carry r).1 := by ring
      _ = b.toNat * 10 * 256 ^ r.length +
          (Bytes.toNat (timesTen carry r).1 + (timesTen carry r).2.toNat * 256 ^ r.length) := by
        rw [octet]
        ring
      _ = (b.toNat * 256 ^ r.length + Bytes.toNat r) * 10 + carry.toNat := by
        rw [product]
        ring

/-- The carry tells exactly whether the product has outgrown the word. -/
theorem timesTen_carry_eq_zero_iff {carry : UInt16} (h : carry.toNat ≤ 9) (w : Bytes) :
    (timesTen carry w).2 = 0 ↔ Bytes.toNat w * 10 + carry.toNat < 256 ^ w.length := by
  obtain ⟨product, _⟩ := timesTen_eq h w
  have bound := Bytes.toNat_lt (timesTen carry w).1
  rw [length_timesTen] at bound
  have none : (timesTen carry w).2 = 0 ↔ (timesTen carry w).2.toNat = 0 :=
    (UInt16.toNat_inj (b := 0)).symm
  rw [none, ← product]
  constructor
  · intro zero
    rw [zero]
    omega
  · intro fits
    by_contra carried
    have : 256 ^ w.length ≤ (timesTen carry w).2.toNat * 256 ^ w.length :=
      Nat.le_mul_of_pos_left _ (Nat.pos_of_ne_zero carried)
    omega

theorem digit?_le {c : Char} {d : Nat} (h : Text.digit? c = some d) : d ≤ 9 := by
  unfold Text.digit? at h
  split at h
  · rename_i range
    have high : c.toNat ≤ 57 := range.2
    cases h
    omega
  · cases h

theorem readDecimal_nil (w : Bytes) : readDecimal w [] = .ok w := rfl

theorem readDecimal_cons_of_none {w : Bytes} {c : Char} {cs : List Char}
    (h : Text.digit? c = none) : readDecimal w (c :: cs) = .error (.badDigit c) := by
  rw [readDecimal, h]

/-- One more digit makes the number ten times as large and adds the digit, or is too much. -/
theorem readDecimal_cons_of_some {w : Bytes} (size : w.length = 32) {c : Char} {cs : List Char}
    {d : Nat} (h : Text.digit? c = some d) :
    readDecimal w (c :: cs) =
      if Bytes.toNat w * 10 + d < 2 ^ 256 then readDecimal (word (Bytes.toNat w * 10 + d)) cs
      else .error .outOfRange := by
  have small := digit?_le h
  have digit : (UInt16.ofNat d).toNat = d := by
    rw [UInt16.toNat_ofNat']
    omega
  have power : 256 ^ w.length = 2 ^ 256 := by
    rw [size]
    norm_num
  have fits := timesTen_carry_eq_zero_iff (by omega : (UInt16.ofNat d).toNat ≤ 9) w
  obtain ⟨product, _⟩ := timesTen_eq (by omega : (UInt16.ofNat d).toNat ≤ 9) w
  rw [digit, power] at fits product
  rw [readDecimal, h]
  simp only [fits]
  split
  · rename_i below
    rw [fits.mpr below] at product
    have value : Bytes.toNat (timesTen (UInt16.ofNat d) w).1 = Bytes.toNat w * 10 + d := by
      simpa using product
    rw [← value, word_toNat (by rw [length_timesTen, size])]
  · rfl

end Abi

end TronCourier
