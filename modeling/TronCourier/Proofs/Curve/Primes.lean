import TronCourier.Curve.Secp256k1
import Mathlib.NumberTheory.LucasPrimality
import Mathlib.Data.List.Prime
import Mathlib.FieldTheory.Finite.Basic
import Mathlib.Tactic.NormNum.Prime

/-! Arithmetic modulo a number, and the proof that the number of residues of the field and the
order of the group are prime. -/

namespace TronCourier.Secp256k1

theorem cast_powMod (base exponent modulus : Nat) :
    (powMod base exponent modulus : ZMod modulus) = (base : ZMod modulus) ^ exponent := by
  induction exponent using Nat.strong_induction_on with
  | _ exponent ih =>
    rw [powMod]
    by_cases hzero : exponent = 0
    · rw [if_pos hzero, hzero, ZMod.natCast_mod, Nat.cast_one, pow_zero]
    · have half := ih (exponent / 2) (by omega)
      have hsquare : (base : ZMod modulus) ^ (exponent / 2) * base ^ (exponent / 2) =
          base ^ (2 * (exponent / 2)) := by
        rw [two_mul, pow_add]
      rw [if_neg hzero]
      by_cases hodd : exponent % 2 = 1
      · simp only [if_pos hodd, ZMod.natCast_mod, Nat.cast_mul, half, hsquare]
        rw [← pow_succ]
        congr 1
        omega
      · simp only [if_neg hodd, ZMod.natCast_mod, Nat.cast_mul, half, hsquare]
        congr 1
        omega

theorem powMod_lt {modulus : Nat} (h : 0 < modulus) (base exponent : Nat) :
    powMod base exponent modulus < modulus := by
  rw [powMod]
  split
  · exact Nat.mod_lt _ h
  · dsimp only
    split <;> exact Nat.mod_lt _ h

theorem powMod_eq_one_iff {modulus : Nat} (h : 1 < modulus) (base exponent : Nat) :
    powMod base exponent modulus = 1 ↔ (base : ZMod modulus) ^ exponent = 1 := by
  rw [← cast_powMod, ← Nat.cast_one (R := ZMod modulus), ZMod.natCast_eq_natCast_iff',
    Nat.mod_eq_of_lt (powMod_lt (by omega) base exponent), Nat.mod_eq_of_lt h]

theorem cast_subMod {modulus : Nat} (h : 0 < modulus) (a b : Nat) :
    (subMod a b modulus : ZMod modulus) = a - b := by
  rw [subMod, ZMod.natCast_mod, Nat.cast_add, Nat.cast_sub (Nat.mod_lt b h).le, ZMod.natCast_self,
    ZMod.natCast_mod, zero_sub, sub_eq_add_neg]

theorem cast_invMod {p : Nat} [Fact p.Prime] (hp : 2 < p) (a : Nat) :
    (invMod a p : ZMod p) = (a : ZMod p)⁻¹ := by
  rw [invMod, cast_powMod, ZMod.natCast_mod]
  by_cases ha : (a : ZMod p) = 0
  · rw [ha, zero_pow (by omega), inv_zero]
  · have hpow : (a : ZMod p) ^ (p - 2) * a = 1 := by
      rw [← pow_succ, show p - 2 + 1 = p - 1 by omega, ZMod.pow_card_sub_one_eq_one ha]
    exact eq_inv_of_mul_eq_one_left hpow

/-- A number with a base for Lucas's test, and the primes that divide its predecessor with
their exponents. -/
structure Lucas where
  number : Nat
  base : Nat
  factors : List (Nat × Nat)

/-- The test is passed, with primes that are known. -/
def Lucas.Passes (c : Lucas) (known : List Nat) : Prop :=
  1 < c.number ∧ (c.factors.map fun f => f.1 ^ f.2).prod = c.number - 1 ∧
    powMod c.base (c.number - 1) c.number = 1 ∧
    ∀ f ∈ c.factors, f.1 ∈ known ∧
      powMod c.base ((c.number - 1) / f.1) c.number ≠ 1

instance (c : Lucas) (known : List Nat) : Decidable (c.Passes known) :=
  inferInstanceAs (Decidable (_ ∧ _ ∧ _ ∧ _))

def smallPrimes : List Nat :=
  [2, 3, 5, 7, 11, 17, 29, 31, 41, 53, 59, 97, 109, 149, 293, 461, 631, 797, 971, 1373, 1627, 1871,
    2011, 2621, 2657, 4051, 4423, 5323, 7723, 9349, 13441, 16699, 20113, 24809, 28181, 41201,
    85831, 96557, 120233, 305873]

/-- Each of the numbers passes with the small primes and with those that are behind it. -/
def Certifies : List Lucas → Prop
  | [] => True
  | c :: rest => c.Passes (rest.map Lucas.number ++ smallPrimes) ∧ Certifies rest

instance decidableCertifies : (cs : List Lucas) → Decidable (Certifies cs)
  | [] => isTrue trivial
  | c :: rest =>
    have := decidableCertifies rest
    inferInstanceAs (Decidable (c.Passes (rest.map Lucas.number ++ smallPrimes) ∧ Certifies rest))

theorem prime_of_mem_smallPrimes : ∀ q ∈ smallPrimes, q.Prime := by
  norm_num [smallPrimes]

theorem Lucas.Passes.prime {c : Lucas} {known : List Nat} (h : c.Passes known)
    (hknown : ∀ q ∈ known, q.Prime) : c.number.Prime := by
  obtain ⟨hone, hprod, hbase, hfactors⟩ := h
  refine lucas_primality c.number c.base ((powMod_eq_one_iff hone _ _).mp hbase) ?_
  intro q hq hdvd
  rw [← hprod] at hdvd
  obtain ⟨power, hpower, hdvd⟩ := (Prime.dvd_prod_iff hq.prime).mp hdvd
  obtain ⟨f, hf, rfl⟩ := List.mem_map.mp hpower
  obtain ⟨hmem, hne⟩ := hfactors f hf
  have hsame : q = f.1 :=
    (Nat.prime_dvd_prime_iff_eq hq (hknown _ hmem)).mp (hq.dvd_of_dvd_pow hdvd)
  rw [hsame, ne_eq, ← powMod_eq_one_iff hone]
  exact hne

theorem Certifies.prime {cs : List Lucas} (h : Certifies cs) : ∀ c ∈ cs, c.number.Prime := by
  induction cs with
  | nil => exact nofun
  | cons c rest ih =>
    have hrest := ih h.2
    have hknown : ∀ q ∈ rest.map Lucas.number ++ smallPrimes, q.Prime := by
      intro q hq
      rcases List.mem_append.mp hq with hq | hq
      · obtain ⟨d, hd, rfl⟩ := List.mem_map.mp hq
        exact hrest d hd
      · exact prime_of_mem_smallPrimes q hq
    intro d hd
    rcases List.mem_cons.mp hd with rfl | hd
    · exact h.1.prime hknown
    · exact hrest d hd

def certificate : List Lucas := [
  ⟨field, 3, [(2, 1), (3, 1), (7, 1), (13441, 1),
    (205115282021455665897114700593932402728804164701536103180137503955397371, 1)]⟩,
  ⟨order, 7, [(2, 6), (3, 1), (149, 1), (631, 1), (107361793816595537, 1),
    (174723607534414371449, 1), (341948486974166000522343609283189, 1)]⟩,
  ⟨205115282021455665897114700593932402728804164701536103180137503955397371, 10,
    [(2, 1), (3, 1), (5, 1), (29, 2), (31, 1), (7723, 1), (132896956044521568488119, 1),
    (255515944373312847190720520512484175977, 1)]⟩,
  ⟨255515944373312847190720520512484175977, 3, [(2, 3), (7, 2), (11, 1), (1627, 1), (2657, 1),
    (4423, 1), (41201, 1), (96557, 1), (7240687, 1), (107590001, 1)]⟩,
  ⟨341948486974166000522343609283189, 2, [(2, 2), (3, 3), (109, 1),
    (29047611873442575647497758179, 1)]⟩,
  ⟨29047611873442575647497758179, 2, [(2, 1), (293, 1), (305873, 1), (545358713, 1),
    (297159362677, 1)]⟩,
  ⟨132896956044521568488119, 6, [(2, 1), (3, 1), (22149492674086928081353, 1)]⟩,
  ⟨22149492674086928081353, 5, [(2, 3), (3, 1), (5323, 1), (173378833005251801, 1)]⟩,
  ⟨174723607534414371449, 3, [(2, 3), (17, 1), (59, 1), (4051, 1), (120233, 1), (44706919, 1)]⟩,
  ⟨173378833005251801, 6, [(2, 3), (5, 2), (2621, 1), (24809, 1), (13331831, 1)]⟩,
  ⟨107361793816595537, 3, [(2, 4), (16699, 1), (85831, 1), (4681609, 1)]⟩,
  ⟨297159362677, 2, [(2, 2), (3, 2), (11, 1), (461, 1), (1627771, 1)]⟩,
  ⟨545358713, 5, [(2, 3), (41, 1), (59, 1), (28181, 1)]⟩,
  ⟨107590001, 3, [(2, 4), (5, 4), (7, 1), (29, 1), (53, 1)]⟩,
  ⟨44706919, 6, [(2, 1), (3, 1), (797, 1), (9349, 1)]⟩,
  ⟨13331831, 13, [(2, 1), (5, 1), (971, 1), (1373, 1)]⟩,
  ⟨7240687, 3, [(2, 1), (3, 1), (1206781, 1)]⟩,
  ⟨4681609, 23, [(2, 3), (3, 1), (97, 1), (2011, 1)]⟩,
  ⟨1627771, 3, [(2, 1), (3, 1), (5, 1), (29, 1), (1871, 1)]⟩,
  ⟨1206781, 10, [(2, 2), (3, 1), (5, 1), (20113, 1)]⟩]

theorem certifies_certificate : Certifies certificate := by
  decide +kernel

theorem prime_field : field.Prime :=
  certifies_certificate.prime _ List.mem_cons_self

theorem prime_order : order.Prime :=
  certifies_certificate.prime _ (List.mem_cons_of_mem _ List.mem_cons_self)

end TronCourier.Secp256k1
