import TronCourier.Proofs.Curve.Primes
import Mathlib.AlgebraicGeometry.EllipticCurve.Affine.Point
import Mathlib.Tactic.FieldSimp
import Mathlib.Tactic.LinearCombination

/-! The points that Jacobian coordinates stand for, and the group that they form. -/

namespace TronCourier.Secp256k1

abbrev Residue := ZMod field

instance : Fact field.Prime := ⟨prime_field⟩

theorem field_pos : 0 < field := by
  decide

theorem mod_field_eq_iff {m n : Nat} : m % field = n % field ↔ (m : Residue) = n :=
  (ZMod.natCast_eq_natCast_iff' m n field).symm

theorem mod_field_eq_val {n : Nat} {x : Residue} (h : (n : Residue) = x) : n % field = x.val := by
  rw [← h, ZMod.val_natCast]

def curve : WeierstrassCurve.Affine Residue :=
  { a₁ := 0, a₂ := 0, a₃ := 0, a₄ := 0, a₆ := 7 }

theorem two_ne_zero_residue : (2 : Residue) ≠ 0 := by
  have h : ((2 : Nat) : Residue) ≠ 0 := by
    rw [Ne, ZMod.natCast_eq_zero_iff]
    decide
  exact_mod_cast h

instance : curve.IsElliptic := by
  have h : ((21168 : Nat) : Residue) ≠ 0 := by
    rw [Ne, ZMod.natCast_eq_zero_iff]
    decide
  refine ⟨isUnit_iff_ne_zero.mpr fun hΔ => h ?_⟩
  simp only [WeierstrassCurve.Δ, WeierstrassCurve.b₂, WeierstrassCurve.b₄, WeierstrassCurve.b₆,
    WeierstrassCurve.b₈, curve] at hΔ
  push_cast
  linear_combination -hΔ

theorem negY_curve (x y : Residue) : curve.negY x y = -y := by
  simp [WeierstrassCurve.Affine.negY, curve]

theorem equation_curve_iff {x y : Residue} : curve.Equation x y ↔ y ^ 2 = x ^ 3 + 7 := by
  simp [WeierstrassCurve.Affine.equation_iff, curve]

section Law

open WeierstrassCurve.Affine (slope_of_X_ne slope_of_Y_ne addX addY negAddY)
open WeierstrassCurve.Affine.Point (add_of_X_ne add_self_of_Y_ne)

variable {x y x₁ y₁ x₂ y₂ : Residue}

/-- A point is doubled by its tangent, of slope l. -/
theorem exists_tangent (h : curve.Nonsingular x y) (hy : y ≠ 0) :
    ∃ (l x' y' : Residue) (h' : curve.Nonsingular x' y'), l * (2 * y) = 3 * x ^ 2 ∧
      x' = l ^ 2 - 2 * x ∧ y' = l * (x - x') - y ∧
      WeierstrassCurve.Affine.Point.some x y h + .some x y h = .some x' y' h' := by
  have hne : y ≠ curve.negY x y := by
    rw [negY_curve]
    intro hneg
    have htwice : 2 * y = 0 := by linear_combination hneg
    exact hy ((mul_eq_zero.mp htwice).resolve_left two_ne_zero_residue)
  refine ⟨curve.slope x x y y, _, _, _, ?_, ?_, ?_, add_self_of_Y_ne hne⟩
  · rw [slope_of_Y_ne rfl hne, negY_curve, sub_neg_eq_add, ← two_mul,
      div_mul_cancel₀ _ (mul_ne_zero two_ne_zero_residue hy)]
    simp [curve]
  · simp [addX, curve]
    ring
  · rw [addY, negY_curve, negAddY]
    ring

/-- Two points are added by the line through them, of slope l. -/
theorem exists_chord (h₁ : curve.Nonsingular x₁ y₁) (h₂ : curve.Nonsingular x₂ y₂)
    (hx : x₁ ≠ x₂) :
    ∃ (l x' y' : Residue) (h' : curve.Nonsingular x' y'), l * (x₁ - x₂) = y₁ - y₂ ∧
      x' = l ^ 2 - x₁ - x₂ ∧ y' = l * (x₁ - x') - y₁ ∧
      WeierstrassCurve.Affine.Point.some x₁ y₁ h₁ + .some x₂ y₂ h₂ = .some x' y' h' := by
  refine ⟨curve.slope x₁ x₂ y₁ y₂, _, _, _, ?_, ?_, ?_, add_of_X_ne hx⟩
  · rw [slope_of_X_ne hx, div_mul_cancel₀ _ (sub_ne_zero.mpr hx)]
  · simp [addX, curve]
  · rw [addY, negY_curve, negAddY]
    ring

end Law

/-- Coordinates stand for a point. -/
inductive Point.Denotes (p : Point) : curve.Point → Prop
  | neutral (hz : p.z = 0) : Denotes p 0
  | affine {x y : Residue} (h : curve.Nonsingular x y) (hz : (p.z : Residue) ≠ 0)
      (hx : (p.x : Residue) = x * p.z ^ 2) (hy : (p.y : Residue) = y * p.z ^ 3) :
      Denotes p (.some x y h)

namespace Point

open WeierstrassCurve.Affine.Point (add_of_Y_eq)

variable {p q : Point} {P Q : curve.Point}

theorem z_ne_zero (h : (p.z : Residue) ≠ 0) : p.z ≠ 0 := by
  intro hz
  rw [hz, Nat.cast_zero] at h
  exact h rfl

theorem Denotes.double (h : p.Denotes P) : p.double.Denotes (P + P) := by
  cases h with
  | neutral hz =>
    rw [Point.double, if_pos (.inl hz), add_zero]
    exact .neutral rfl
  | @affine x y h hz hx hy =>
    by_cases hzero : y = 0
    · have hy : (p.y : Residue) = 0 := by rw [hy, hzero, zero_mul]
      rw [add_of_Y_eq rfl (by rw [negY_curve, hzero, neg_zero])]
      refine .neutral ?_
      rw [Point.double]
      split
      · rfl
      · have hz : ((2 * p.y * p.z : Nat) : Residue) = 0 := by
          push_cast
          rw [hy, mul_zero, zero_mul]
        exact (mod_field_eq_val hz).trans ZMod.val_zero
    · have hynat : p.y ≠ 0 := by
        intro hnat
        rw [hnat, Nat.cast_zero] at hy
        exact mul_ne_zero hzero (pow_ne_zero 3 hz) hy.symm
      obtain ⟨l, x', y', h', hl, hx', hy', hsum⟩ := exists_tangent h hzero
      rw [hsum, Point.double, if_neg (not_or.mpr ⟨z_ne_zero hz, hynat⟩)]
      refine .affine h' ?_ ?_ ?_
      · simp only [ZMod.natCast_mod, Nat.cast_mul, Nat.cast_ofNat, hy]
        have hy0 := mul_ne_zero hzero (pow_ne_zero 3 hz)
        exact mul_ne_zero (mul_ne_zero two_ne_zero_residue hy0) hz
      · simp only [ZMod.natCast_mod, Nat.cast_mul, Nat.cast_ofNat, cast_subMod field_pos, hx, hy]
        rw [hx']
        linear_combination (-(p.z : Residue) ^ 8) * (l * (2 * y) + 3 * x ^ 2) * hl
      · simp only [ZMod.natCast_mod, Nat.cast_mul, Nat.cast_ofNat, cast_subMod field_pos, hx, hy]
        rw [hy', hx']
        linear_combination (p.z : Residue) ^ 12 *
          (9 * x ^ 4 + 3 * x ^ 2 * (l * (2 * y)) + (l * (2 * y)) ^ 2 - 12 * x * y ^ 2) * hl

section Cross

variable {x₁ y₁ x₂ y₂ : Residue} (hz₁ : (p.z : Residue) ≠ 0) (hz₂ : (q.z : Residue) ≠ 0)

include hz₁ hz₂

theorem cross_x_iff (hx₁ : (p.x : Residue) = x₁ * p.z ^ 2) (hx₂ : (q.x : Residue) = x₂ * q.z ^ 2) :
    p.x * (q.z * q.z % field) % field = q.x * (p.z * p.z % field) % field ↔ x₁ = x₂ := by
  have hz : (p.z * q.z : Residue) ^ 2 ≠ 0 := pow_ne_zero 2 (mul_ne_zero hz₁ hz₂)
  rw [mod_field_eq_iff]
  push_cast [ZMod.natCast_mod]
  rw [hx₁, hx₂]
  refine ⟨fun h => mul_right_cancel₀ hz (by linear_combination h), ?_⟩
  rintro rfl
  ring

theorem cross_y_iff (hy₁ : (p.y : Residue) = y₁ * p.z ^ 3) (hy₂ : (q.y : Residue) = y₂ * q.z ^ 3) :
    p.y * (q.z * q.z % field) * q.z % field = q.y * (p.z * p.z % field) * p.z % field ↔
      y₁ = y₂ := by
  have hz : (p.z * q.z : Residue) ^ 3 ≠ 0 := pow_ne_zero 3 (mul_ne_zero hz₁ hz₂)
  rw [mod_field_eq_iff]
  push_cast [ZMod.natCast_mod]
  rw [hy₁, hy₂]
  refine ⟨fun h => mul_right_cancel₀ hz (by linear_combination h), ?_⟩
  rintro rfl
  ring

end Cross

theorem Denotes.add (hp : p.Denotes P) (hq : q.Denotes Q) : (p.add q).Denotes (P + Q) := by
  cases hp with
  | neutral hz =>
    rw [Point.add, if_pos hz, zero_add]
    exact hq
  | @affine x₁ y₁ h₁ hz₁ hx₁ hy₁ =>
    cases hq with
    | neutral hz =>
      rw [Point.add, if_neg (z_ne_zero hz₁), if_pos hz, add_zero]
      exact .affine h₁ hz₁ hx₁ hy₁
    | @affine x₂ y₂ h₂ hz₂ hx₂ hy₂ =>
      rw [Point.add, if_neg (z_ne_zero hz₁), if_neg (z_ne_zero hz₂)]
      simp only [cross_x_iff hz₁ hz₂ hx₁ hx₂, cross_y_iff hz₁ hz₂ hy₁ hy₂]
      by_cases hsame : x₁ = x₂
      · rw [if_pos hsame]
        split
        · rename_i hysame
          subst hsame hysame
          exact (Denotes.affine h₁ hz₁ hx₁ hy₁).double
        · rename_i hne
          have hneg := (WeierstrassCurve.Affine.Y_eq_of_X_eq h₁.1 h₂.1 hsame).resolve_left hne
          rw [add_of_Y_eq hsame hneg]
          exact .neutral rfl
      · rw [if_neg hsame]
        obtain ⟨l, x', y', h', hl, hx', hy', hsum⟩ := exists_chord h₁ h₂ hsame
        rw [hsum]
        refine .affine h' ?_ ?_ ?_
        · simp only [ZMod.natCast_mod, Nat.cast_mul, cast_subMod field_pos, hx₁, hx₂]
          have hz := mul_ne_zero (mul_ne_zero (sub_ne_zero.mpr (Ne.symm hsame))
            (pow_ne_zero 3 hz₁)) (pow_ne_zero 3 hz₂)
          exact fun hzero => hz (by linear_combination hzero)
        · simp only [ZMod.natCast_mod, Nat.cast_mul, Nat.cast_ofNat, cast_subMod field_pos, hx₁,
            hx₂, hy₁, hy₂]
          rw [hx']
          linear_combination
            (-(p.z * q.z : Residue) ^ 6) * (l * (x₁ - x₂) + (y₁ - y₂)) * hl
        · simp only [ZMod.natCast_mod, Nat.cast_mul, Nat.cast_ofNat, cast_subMod field_pos, hx₁,
            hx₂, hy₁, hy₂]
          rw [hy', hx']
          linear_combination (p.z * q.z : Residue) ^ 9 *
            ((2 * x₁ + x₂) * (x₂ - x₁) ^ 2 - ((y₂ - y₁) ^ 2 + (y₂ - y₁) * l * (x₂ - x₁) +
              l ^ 2 * (x₂ - x₁) ^ 2)) * hl

theorem Denotes.multiple (h : p.Denotes P) (n : Nat) : (p.multiple n).Denotes (n • P) := by
  induction n using Nat.strong_induction_on with
  | _ n ih =>
    rw [Point.multiple]
    by_cases hzero : n = 0
    · rw [if_pos hzero, hzero, zero_nsmul]
      exact .neutral rfl
    · have half := (ih (n / 2) (by omega)).double
      rw [← add_nsmul] at half
      rw [if_neg hzero]
      by_cases hodd : n % 2 = 1
      · have hn : n • P = (n / 2 + n / 2) • P + P := by
          rw [← succ_nsmul]
          congr 1
          omega
        simp only [if_pos hodd]
        rw [hn]
        exact half.add h
      · have hn : n / 2 + n / 2 = n := by omega
        simp only [if_neg hodd]
        rwa [hn] at half

theorem Denotes.eq_zero_iff (h : p.Denotes P) : P = 0 ↔ p.z = 0 := by
  cases h with
  | neutral hz => exact ⟨fun _ => hz, fun _ => rfl⟩
  | affine h hz hx hy =>
    exact ⟨fun hzero => absurd hzero (WeierstrassCurve.Affine.Point.some_ne_zero h),
      fun hzero => absurd hzero (z_ne_zero hz)⟩

theorem Denotes.affine?_some {x y : Residue} {h : curve.Nonsingular x y}
    (hp : p.Denotes (.some x y h)) : p.affine? = some (x.val, y.val) := by
  have hinv : (invMod p.z field : Residue) = (p.z : Residue)⁻¹ := cast_invMod (by decide) p.z
  cases hp with
  | affine _ hz hx hy =>
    rw [affine?, if_neg (z_ne_zero hz)]
    simp only [Option.some.injEq, Prod.mk.injEq]
    constructor
    · refine mod_field_eq_val ?_
      push_cast [ZMod.natCast_mod]
      rw [hinv, hx]
      field_simp
    · rw [mod_field_eq_val (x := y)]
      push_cast [ZMod.natCast_mod]
      rw [hinv, hy]
      field_simp

theorem Denotes.affine?_eq (hp : p.Denotes P) (hq : q.Denotes P) : p.affine? = q.affine? := by
  cases hp with
  | neutral hz =>
    rw [affine?, affine?, if_pos hz, if_pos (hq.eq_zero_iff.mp rfl)]
  | affine h hz hx hy => rw [(Denotes.affine h hz hx hy).affine?_some, hq.affine?_some]

end Point

/-! ### The group of the generator -/

theorem equation_generator :
    curve.Equation (Point.generator.x : Residue) (Point.generator.y : Residue) := by
  rw [equation_curve_iff]
  have h : ((Point.generator.y ^ 2 : Nat) : Residue) = (Point.generator.x ^ 3 + 7 : Nat) := by
    rw [ZMod.natCast_eq_natCast_iff']
    decide +kernel
  exact_mod_cast h

def base : curve.Point :=
  .mk equation_generator

theorem base_ne_zero : base ≠ 0 :=
  WeierstrassCurve.Affine.Point.some_ne_zero _

theorem denotes_base : Point.generator.Denotes base := by
  have hz : (Point.generator.z : Residue) = 1 := Nat.cast_one
  refine .affine _ ?_ ?_ ?_
  · rw [hz]
    exact one_ne_zero
  · rw [hz, one_pow, mul_one]
  · rw [hz, one_pow, mul_one]

theorem order_nsmul_base : order • base = 0 := by
  rw [(denotes_base.multiple order).eq_zero_iff]
  decide +kernel

instance : Fact order.Prime := ⟨prime_order⟩

theorem order_pos : 0 < order := by
  decide

abbrev Scalar := ZMod order

theorem zmultiplesHom_order : zmultiplesHom curve.Point base order = 0 := by
  rw [zmultiplesHom_apply, natCast_zsmul, order_nsmul_base]

/-- The multiples of the generator by the residues modulo the order. -/
noncomputable def scale : Scalar →+ curve.Point :=
  ZMod.lift order ⟨zmultiplesHom curve.Point base, zmultiplesHom_order⟩

theorem scale_natCast (n : Nat) : scale n = n • base := by
  have h := ZMod.lift_coe order ⟨zmultiplesHom curve.Point base, zmultiplesHom_order⟩ (n : Int)
  rw [Int.cast_natCast] at h
  rw [scale, h, zmultiplesHom_apply, natCast_zsmul]

theorem nsmul_scale (n : Nat) (c : Scalar) : n • scale c = scale (n * c) := by
  rw [← nsmul_eq_mul, map_nsmul]

theorem scale_eq_zero_iff {c : Scalar} : scale c = 0 ↔ c = 0 := by
  refine ⟨fun h => ?_, fun h => by rw [h, map_zero]⟩
  by_contra hc
  have hone := nsmul_scale c⁻¹.val c
  rw [ZMod.natCast_zmod_val, inv_mul_cancel₀ hc, h, nsmul_zero] at hone
  have hbase := scale_natCast 1
  rw [Nat.cast_one, ← hone, one_nsmul] at hbase
  exact base_ne_zero hbase.symm

theorem denotes_multiple (n : Nat) : (Point.generator.multiple n).Denotes (scale n) := by
  rw [scale_natCast]
  exact denotes_base.multiple n

theorem exists_scale_eq_some {c : Scalar} (hc : c ≠ 0) :
    ∃ (x y : Residue) (h : curve.Nonsingular x y), scale c = .some x y h ∧ y ≠ 0 := by
  cases hP : scale c with
  | zero => exact absurd (scale_eq_zero_iff.mp hP) hc
  | some x y h =>
    refine ⟨x, y, h, rfl, fun hy => hc ?_⟩
    -- A point without second coordinate is its own opposite, and the order is odd.
    have htwice : scale (2 * c) = 0 := by
      rw [two_mul, map_add, hP]
      exact WeierstrassCurve.Affine.Point.add_of_Y_eq rfl (by rw [negY_curve, hy, neg_zero])
    have htwo : ((2 : Nat) : Scalar) ≠ 0 := by
      rw [Ne, ZMod.natCast_eq_zero_iff]
      decide
    exact (mul_eq_zero.mp (scale_eq_zero_iff.mp htwice)).resolve_left (by exact_mod_cast htwo)

end TronCourier.Secp256k1
