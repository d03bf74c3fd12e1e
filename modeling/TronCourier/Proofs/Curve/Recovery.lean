import TronCourier.Curve.Signature
import TronCourier.Proofs.Curve.Group

/-! The public point that is recovered from a signature is that of the secret that signed. -/

namespace TronCourier.Secp256k1

open Point

variable {x y : Residue}

/-- A root of a square, by a power. -/
theorem sq_powMod {n : Nat} (h : (n : Residue) = y ^ 2) :
    (powMod n ((field + 1) / 4) field : Residue) ^ 2 = y ^ 2 := by
  rw [cast_powMod, h, ← pow_mul, ← pow_mul, show 2 * ((field + 1) / 4 * 2) = field + 1 by decide,
    pow_succ, ZMod.pow_card, sq]

theorem odd_val_neg_iff (hy : y ≠ 0) : (-y).val % 2 = 1 ↔ ¬ y.val % 2 = 1 := by
  have hlt := y.val_lt
  have hval := ZMod.neg_val y
  rw [if_neg hy] at hval
  have hodd : field % 2 = 1 := by decide
  omega

/-- The point that is asked for is found. -/
theorem exists_lift? {n : Nat} (hn : (n : Residue) = x) (h : curve.Nonsingular x y) (hy : y ≠ 0) :
    ∃ p, lift? n (y.val % 2 = 1) = some p ∧ p.Denotes (.some x y h) := by
  have hsquare : ((n * n * n + 7) % field : Nat) = (y ^ 2 : Residue) := by
    rw [equation_curve_iff.mp h.1]
    push_cast [ZMod.natCast_mod]
    rw [hn]
    ring
  have hroot := sq_powMod hsquare
  have hlt := powMod_lt field_pos ((n * n * n + 7) % field) ((field + 1) / 4)
  rw [lift?]
  dsimp only
  generalize powMod ((n * n * n + 7) % field) ((field + 1) / 4) field = root at hroot hlt
  have hmod : root * root % field = (n * n * n + 7) % field := by
    rw [mod_field_eq_iff, ← ZMod.natCast_mod (n * n * n + 7), hsquare, ← hroot]
    push_cast
    ring
  rw [if_pos hmod]
  refine ⟨_, rfl, .affine h ?_ ?_ ?_⟩
  · rw [Nat.cast_one]
    exact one_ne_zero
  · rw [hn, Nat.cast_one, one_pow, mul_one]
  · rw [Nat.cast_one, one_pow, mul_one]
    have hval : (root : Residue).val = root := ZMod.val_cast_of_lt hlt
    rcases sq_eq_sq_iff_eq_or_eq_neg.mp hroot with hr | hr
    · rw [hr] at hval
      rw [if_pos (by rw [hval, decide_eq_true_eq]), hr]
    · rw [hr] at hval
      have hodd := odd_val_neg_iff hy
      rw [if_neg (by rw [← hval, decide_eq_true_eq, hodd]; exact fun h => not_iff_self h.to_iff),
        Nat.cast_sub hlt.le, ZMod.natCast_self, hr, zero_sub, neg_neg]

theorem Point.Denotes.combination {q : Point} {c : Scalar} (hq : q.Denotes (scale c)) (u v : Nat) :
    ((generator.multiple u).add (q.multiple v)).Denotes (scale (u + v * c)) := by
  rw [map_add, ← nsmul_scale]
  exact (denotes_multiple u).add (hq.multiple v)

theorem cast_ne_zero_of_lt {n : Nat} (h : n ≠ 0) (hlt : n < order) : (n : Scalar) ≠ 0 := by
  rw [Ne, ZMod.natCast_eq_zero_iff]
  exact Nat.not_dvd_of_pos_of_lt (Nat.pos_of_ne_zero h) hlt

theorem cast_invMod_order (a : Nat) : (invMod a order : Scalar) = (a : Scalar)⁻¹ :=
  cast_invMod (by decide) a

/-- A signature by a secret on a number, with the multiple of the generator that it shows. -/
structure Signature.SignedBy (σ : Signature) (secret z : Nat) (c : Scalar) (x y : Residue) :
    Prop where
  point : ∃ h, scale c = .some x y h
  y_ne_zero : y ≠ 0
  r_eq : σ.r = x.val % order
  r_ne_zero : σ.r ≠ 0
  s_lt : σ.s < order
  s_ne_zero : σ.s ≠ 0
  odd : σ.odd = decide (y.val % 2 = 1)
  wrapped : σ.wrapped = decide (order ≤ x.val)
  equation : c * σ.s = z + σ.r * secret

namespace Signature.SignedBy

variable {σ : Signature} {secret z : Nat} {c : Scalar}

theorem r_lt (h : σ.SignedBy secret z c x y) : σ.r < order := by
  rw [h.r_eq]
  exact Nat.mod_lt _ order_pos

/-- The field is less than twice the order. -/
theorem first_eq (h : σ.SignedBy secret z c x y) :
    (if σ.wrapped then σ.r + order else σ.r) = x.val := by
  have hlt := x.val_lt
  have hfield : field < 2 * order := by decide
  rw [h.wrapped, h.r_eq]
  simp only [decide_eq_true_eq]
  split
  · rename_i hreaches
    rw [Nat.mod_eq_sub_mod hreaches, Nat.mod_eq_of_lt (by omega)]
    omega
  · exact Nat.mod_eq_of_lt (by omega)

theorem combined (h : σ.SignedBy secret z c x y) :
    (subMod 0 (z * invMod σ.r order) order : Scalar) + (σ.s * invMod σ.r order % order : Nat) * c =
      secret := by
  have hr : (σ.r : Scalar) ≠ 0 := cast_ne_zero_of_lt h.r_ne_zero h.r_lt
  have hequation := h.equation
  rw [cast_subMod order_pos, ZMod.natCast_mod]
  push_cast
  rw [cast_invMod_order]
  field_simp
  linear_combination hequation

theorem recover {digest : Bytes} (h : σ.SignedBy secret (Bytes.toNat digest % order) c x y) :
    ∃ p, recover σ digest = some p ∧ p.Denotes (scale secret) := by
  obtain ⟨hxy, hpoint⟩ := h.point
  obtain ⟨nonce, hlift, hnonce⟩ := exists_lift? (ZMod.natCast_zmod_val x) hxy h.y_ne_zero
  rw [← hpoint] at hnonce
  have hguard : ¬ (field ≤ x.val ∨ σ.r = 0 ∨ σ.s = 0) :=
    not_or.mpr ⟨not_le.mpr x.val_lt, not_or.mpr ⟨h.r_ne_zero, h.s_ne_zero⟩⟩
  rw [Secp256k1.recover]
  simp only [h.first_eq, if_neg hguard, h.odd, hlift, Option.bind_eq_bind, Option.bind_some]
  refine ⟨_, rfl, ?_⟩
  rw [← h.combined]
  exact hnonce.combination _ _

/-- The other one of the two values that sign alike goes with the opposite point. -/
theorem opposite (h : σ.SignedBy secret z c x y) :
    SignedBy { σ with s := order - σ.s, odd := !σ.odd } secret z (-c) x (-y) where
  point := by
    obtain ⟨hxy, hpoint⟩ := h.point
    have hneg : curve.Nonsingular x (-y) := by
      rw [← negY_curve x y]
      exact (WeierstrassCurve.Affine.nonsingular_neg ..).mpr hxy
    refine ⟨hneg, ?_⟩
    rw [map_neg, hpoint, WeierstrassCurve.Affine.Point.neg_some]
    simp only [negY_curve]
  y_ne_zero := neg_ne_zero.mpr h.y_ne_zero
  r_eq := h.r_eq
  r_ne_zero := h.r_ne_zero
  s_lt := Nat.sub_lt order_pos (Nat.pos_of_ne_zero h.s_ne_zero)
  s_ne_zero := Nat.sub_ne_zero_of_lt h.s_lt
  odd := by simp only [h.odd, odd_val_neg_iff h.y_ne_zero, decide_not]
  wrapped := h.wrapped
  equation := by
    rw [Nat.cast_sub h.s_lt.le, ZMod.natCast_self]
    linear_combination h.equation

end Signature.SignedBy

theorem exists_signedBy {secret k z : Nat} {σ : Signature} (hk : (k : Scalar) ≠ 0)
    (h : signWith secret k z = some σ) : ∃ c x y, σ.SignedBy secret z c x y := by
  obtain ⟨x, y, hxy, hpoint, hy⟩ := exists_scale_eq_some hk
  have hdenotes := denotes_multiple k
  rw [hpoint] at hdenotes
  rw [signWith, hdenotes.affine?_some] at h
  simp only [Option.bind_eq_bind, Option.bind_some, Option.pure_def] at h
  have hlt := Nat.mod_lt (invMod k order * (z + x.val % order * secret)) order_pos
  have hequation : (k : Scalar) * (invMod k order * (z + x.val % order * secret) % order : Nat) =
      z + (x.val % order : Nat) * secret := by
    rw [ZMod.natCast_mod]
    push_cast
    rw [cast_invMod_order, mul_inv_cancel_left₀ hk]
  generalize invMod k order * (z + x.val % order * secret) % order = s at h hlt hequation
  split at h
  · cases h
  · rename_i hne
    obtain ⟨hr, hs⟩ := not_or.mp hne
    have plain : Signature.SignedBy ⟨x.val % order, s, y.val % 2 = 1, order ≤ x.val⟩
        secret z k x y := ⟨⟨hxy, hpoint⟩, hy, rfl, hr, hlt, hs, rfl, rfl, hequation⟩
    cases h
    by_cases hhigh : order / 2 < s
    · simp only [hhigh, decide_true, if_true, Bool.bne_true]
      exact ⟨_, _, _, plain.opposite⟩
    · simp only [hhigh, decide_false, Bool.false_eq_true, if_false, Bool.bne_false]
      exact ⟨_, _, _, plain⟩

theorem nonce_range {tries k : Nat} {g : Generator} (h : nonce tries g = some k) :
    0 < k ∧ k < order := by
  induction tries generalizing g with
  | zero => cases h
  | succ tries ih =>
    simp only [nonce] at h
    split at h
    · rename_i hk
      cases h
      exact hk
    · exact ih h

/-- Whoever has the signature and the digest finds the public point of the secret. -/
theorem recover_sign {secret : Nat} {digest : Bytes} {σ : Signature}
    (h : sign secret digest = some σ) :
    σ.r < order ∧ σ.s < order ∧ ∃ p, recover σ digest = some p ∧
      publicOctets? p = publicOctets? (publicPoint secret) := by
  simp only [sign, Option.bind_eq_bind, Option.bind_eq_some_iff] at h
  obtain ⟨k, hnonce, hsign⟩ := h
  obtain ⟨hpos, hlt⟩ := nonce_range hnonce
  obtain ⟨c, x, y, hsigned⟩ := exists_signedBy (cast_ne_zero_of_lt hpos.ne' hlt) hsign
  obtain ⟨p, hrecover, hdenotes⟩ := hsigned.recover
  refine ⟨hsigned.r_lt, hsigned.s_lt, p, hrecover, ?_⟩
  rw [publicOctets?, hdenotes.affine?_eq (denotes_multiple secret)]
  rfl

theorem exists_publicOctets {secret : Nat} (hpos : secret ≠ 0) (hlt : secret < order) :
    ∃ octets, publicOctets? (publicPoint secret) = some octets := by
  obtain ⟨x, y, h, hpoint, -⟩ := exists_scale_eq_some (cast_ne_zero_of_lt hpos hlt)
  have hdenotes := denotes_multiple secret
  rw [hpoint] at hdenotes
  exact ⟨_, by rw [publicOctets?, publicPoint, hdenotes.affine?_some, Option.map_some]⟩

namespace Signature

variable {σ : Signature}

theorem length_encode (σ : Signature) : σ.encode.length = 65 := by
  simp [encode]

theorem recoveryId_tells : ∀ wrapped odd : Bool,
    let id : UInt8 := (if wrapped then 2 else 0) + (if odd then 1 else 0)
    id < 4 ∧ decide (id % 2 = 1) = odd ∧ decide (2 ≤ id) = wrapped := by
  decide

theorem decode?_encode (hr : σ.r < order) (hs : σ.s < order) : decode? σ.encode = some σ := by
  have hbound : order < Nat.pow 256 32 := by decide
  have hid : σ.encode.drop 64 = [(if σ.wrapped then 2 else 0) + (if σ.odd then 1 else 0)] :=
    List.drop_left' (by simp)
  have htake : σ.encode.take 32 = Bytes.ofNat 32 σ.r := by
    rw [encode, List.append_assoc]
    exact List.take_left' (by simp)
  have hmiddle : (σ.encode.drop 32).take 32 = Bytes.ofNat 32 σ.s := by
    rw [encode, List.append_assoc, List.drop_left' (by simp)]
    exact List.take_left' (by simp)
  obtain ⟨hfour, hodd, hwrapped⟩ := recoveryId_tells σ.wrapped σ.odd
  rw [decode?, hid]
  simp only [if_pos hfour, hodd, hwrapped, htake, hmiddle, Bytes.toNat_ofNat,
    Nat.mod_eq_of_lt (hr.trans hbound), Nat.mod_eq_of_lt (hs.trans hbound)]

end Signature

end TronCourier.Secp256k1
