import TronCourier.Keystore
import TronCourier.Proofs.Curve.Recovery
import TronCourier.Proofs.Except

/-! Keystores hold each key under the account that it signs for. -/

namespace TronCourier.Keystore

variable {ks ks' : Keystore} {octets : Bytes} {secret : Nat} {a : Address} {text : String}
  {keys : List Bytes}

theorem readSecret_eq_ok_iff : readSecret octets = .ok secret ↔
    octets.length = 32 ∧ secret = Bytes.toNat octets ∧ secret ≠ 0 ∧ secret < Secp256k1.order := by
  unfold readSecret
  split
  · simp [*]
  · rename_i hlength
    dsimp only
    split
    · rename_i hrange
      refine ⟨nofun, ?_⟩
      rintro ⟨-, rfl, hzero, hlt⟩
      exact absurd hrange (not_or.mpr ⟨hzero, not_le.mpr hlt⟩)
    · rename_i hrange
      obtain ⟨hzero, hlt⟩ := not_or.mp hrange
      rw [Except.ok.injEq]
      refine ⟨?_, fun h => h.2.1.symm⟩
      rintro rfl
      exact ⟨not_not.mp hlength, rfl, hzero, not_le.mp hlt⟩

theorem exists_accountOf (h : readSecret octets = .ok secret) : ∃ a, accountOf secret = some a := by
  obtain ⟨-, -, hzero, hlt⟩ := readSecret_eq_ok_iff.mp h
  obtain ⟨point, hpoint⟩ := Secp256k1.exists_publicOctets hzero hlt
  exact ⟨_, by rw [accountOf, hpoint, Option.map_some]⟩

/-- The account that a key signs for. -/
def KeyOf (octets : Bytes) (a : Address) : Prop :=
  ∃ secret, readSecret octets = .ok secret ∧ accountOf secret = some a

/-- The keystore after a key was added, which is as it was if the key is refused. -/
def offer (ks : Keystore) (octets : Bytes) : Keystore :=
  match ks.add octets with
  | .ok (ks', _) => ks'
  | .error _ => ks

def offers (ks : Keystore) (keys : List Bytes) : Keystore :=
  keys.foldl offer ks

/-- The key that a text is for, unless the text is blank. -/
def hexOctets? (text : String) : Option Bytes :=
  if (Text.trim text).isEmpty then none
  else (Text.unhex (Address.withoutMarker (Text.trim text))).toOption

theorem add_of_readSecret (h : readSecret octets = .ok secret) (ha : accountOf secret = some a) :
    ks.add octets = .ok (⟨(a, secret) :: ks.keys.filter fun k => k.1 ≠ a⟩, a) := by
  simp [add, h, ha, Except.mapError, bind, Except.bind, pure, Except.pure]

theorem add_of_error {e : KeyError} (h : readSecret octets = .error e) :
    ks.add octets = .error (.invalidKey e) := by
  simp [add, h, Except.mapError, bind, Except.bind]

theorem offer_of_add {r : Keystore × Address} (h : ks.add octets = .ok r) :
    ks.offer octets = r.1 := by
  rw [offer, h]

theorem offer_of_readSecret (h : readSecret octets = .ok secret) (ha : accountOf secret = some a) :
    ks.offer octets = ⟨(a, secret) :: ks.keys.filter fun k => k.1 ≠ a⟩ :=
  offer_of_add (add_of_readSecret h ha)

theorem offer_of_error {e : KeyError} (h : readSecret octets = .error e) :
    ks.offer octets = ks := by
  rw [offer, add_of_error h]

theorem not_keyOf_of_error {e : KeyError} (h : readSecret octets = .error e) (a : Address) :
    ¬ KeyOf octets a := by
  rintro ⟨secret, hsecret, -⟩
  rw [h] at hsecret
  cases hsecret

theorem keyOf_iff_of_readSecret {b : Address} (h : readSecret octets = .ok secret)
    (ha : accountOf secret = some a) : KeyOf octets b ↔ b = a := by
  constructor
  · rintro ⟨other, hother, hb⟩
    rw [h] at hother
    cases hother
    rw [ha, Option.some.injEq] at hb
    exact hb.symm
  · rintro rfl
    exact ⟨secret, h, ha⟩

/-- What goes with the keys of an account is that account alone. -/
theorem mem_accounts_filter_ne {b : Address} :
    b ∈ accounts ⟨ks.keys.filter fun k => k.1 ≠ a⟩ ↔ b ∈ ks.accounts ∧ b ≠ a := by
  simp only [accounts, List.mem_map, List.mem_filter, decide_eq_true_eq]
  constructor
  · rintro ⟨k, ⟨hk, hne⟩, rfl⟩
    exact ⟨⟨k, hk, rfl⟩, hne⟩
  · rintro ⟨⟨k, hk, rfl⟩, hne⟩
    exact ⟨k, ⟨hk, hne⟩, rfl⟩

/-- Every key is under its own account, once, and the accounts are those of some keys. -/
structure Files (ks : Keystore) (keys : List Bytes) : Prop where
  own : ∀ k ∈ ks.keys, accountOf k.2 = some k.1
  nodup : ks.accounts.Nodup
  accounts : ∀ a, a ∈ ks.accounts ↔ ∃ octets ∈ keys, KeyOf octets a

theorem files_empty : empty.Files [] where
  own := nofun
  nodup := List.nodup_nil
  accounts _ := ⟨nofun, nofun⟩

theorem Files.offer_refused {e : KeyError} (h : ks.Files keys)
    (hread : readSecret octets = .error e) : ks.Files (keys ++ [octets]) where
  own := h.own
  nodup := h.nodup
  accounts a := by
    simp only [List.mem_append, List.mem_singleton, or_and_right, exists_or, exists_eq_left,
      h.accounts, or_iff_left (not_keyOf_of_error hread a)]

theorem Files.offer_accepted (h : ks.Files keys) (hread : readSecret octets = .ok secret)
    (ha : accountOf secret = some a) :
    Files ⟨(a, secret) :: ks.keys.filter fun k => k.1 ≠ a⟩ (keys ++ [octets]) where
  own k hk := by
    rcases List.mem_cons.mp hk with rfl | hk
    · exact ha
    · exact h.own k (List.mem_filter.mp hk).1
  nodup := by
    refine List.nodup_cons.mpr ⟨fun hin => (mem_accounts_filter_ne.mp hin).2 rfl, ?_⟩
    exact h.nodup.sublist (List.filter_sublist.map _)
  accounts b := by
    have hcons : b ∈ Keystore.accounts ⟨(a, secret) :: ks.keys.filter fun k => k.1 ≠ a⟩ ↔
        b = a ∨ b ∈ Keystore.accounts ⟨ks.keys.filter fun k => k.1 ≠ a⟩ := List.mem_cons
    simp only [hcons, mem_accounts_filter_ne, List.mem_append, List.mem_singleton, or_and_right,
      exists_or, exists_eq_left, ← h.accounts, keyOf_iff_of_readSecret hread ha]
    tauto

theorem Files.offer (h : ks.Files keys) (octets : Bytes) :
    (ks.offer octets).Files (keys ++ [octets]) := by
  cases hread : readSecret octets with
  | error e =>
    rw [offer_of_error hread]
    exact h.offer_refused hread
  | ok secret =>
    obtain ⟨a, ha⟩ := exists_accountOf hread
    rw [offer_of_readSecret hread ha]
    exact h.offer_accepted hread ha

theorem Files.offers (h : ks.Files keys) (more : List Bytes) :
    (ks.offers more).Files (keys ++ more) := by
  induction more generalizing ks keys with
  | nil => rwa [List.append_nil]
  | cons octets more ih =>
    have h := ih (h.offer octets)
    rwa [List.append_assoc] at h

/-! ### Keys in hexadecimal -/

theorem addHex_eq_ok (h : ks.addHex text = .ok ks') :
    ks' = ks.offers (hexOctets? text).toList := by
  unfold addHex at h
  rw [hexOctets?]
  dsimp only at h
  split at h
  · rename_i hblank
    cases h
    rw [if_pos hblank]
    rfl
  · rename_i hblank
    obtain ⟨octets, hhex, h⟩ := bind_eq_ok_iff.mp h
    obtain ⟨r, hadd, h⟩ := bind_eq_ok_iff.mp h
    cases h
    rw [if_neg hblank, mapError_eq_ok_iff.mp hhex]
    exact (offer_of_add hadd).symm

theorem foldlM_addHex_eq_ok {texts : List String} (h : texts.foldlM addHex ks = .ok ks') :
    ks' = ks.offers (texts.filterMap hexOctets?) := by
  induction texts generalizing ks with
  | nil =>
    cases h
    rfl
  | cons text texts ih =>
    rw [List.foldlM_cons] at h
    obtain ⟨next, hnext, h⟩ := bind_eq_ok_iff.mp h
    have hkeys : (text :: texts).filterMap hexOctets? =
        (hexOctets? text).toList ++ texts.filterMap hexOctets? := by
      cases hoctets : hexOctets? text with
      | none => rw [List.filterMap_cons_none hoctets, Option.toList_none, List.nil_append]
      | some octets =>
        rw [List.filterMap_cons_some hoctets, Option.toList_some, List.singleton_append]
    rw [hkeys, ih h, addHex_eq_ok hnext]
    exact List.foldl_append.symm

theorem files_ofHexKeys {texts : List String} (h : ofHexKeys texts = .ok ks) (added : List Bytes) :
    (ks.offers added).Files (texts.filterMap hexOctets? ++ added) := by
  rw [foldlM_addHex_eq_ok h]
  exact (files_empty.offers _).offers added

/-! ### Signatures -/

theorem mem_of_secret? (h : ks.secret? a = some secret) : (a, secret) ∈ ks.keys := by
  obtain ⟨before, after, hkeys, -⟩ := List.lookup_eq_some_iff.mp h
  rw [hkeys]
  simp

theorem exists_secret?_iff : (∃ secret, ks.secret? a = some secret) ↔ a ∈ ks.accounts := by
  constructor
  · rintro ⟨secret, h⟩
    exact List.mem_map_of_mem (mem_of_secret? h)
  · intro h
    cases hsecret : ks.secret? a with
    | some secret => exact ⟨secret, rfl⟩
    | none =>
      obtain ⟨k, hk, rfl⟩ := List.mem_map.mp h
      exact absurd (List.lookup_eq_none_iff.mp hsecret k hk) (by simp)

theorem sign_of_not_mem (h : a ∉ ks.accounts) (digest : Option Bytes) :
    ks.sign a digest = .error (.unknownAddress a) := by
  have hnone : ks.secret? a = none := Option.eq_none_iff_forall_ne_some.mpr fun secret hsecret =>
    h (exists_secret?_iff.mp ⟨secret, hsecret⟩)
  rw [sign, hnone]

theorem sign_none_of_secret? (h : ks.secret? a = some secret) : ks.sign a none = .ok [] := by
  rw [sign, h]

theorem sign_none_eq_ok_iff : (∃ sig, ks.sign a none = .ok sig) ↔ a ∈ ks.accounts := by
  constructor
  · rintro ⟨sig, hsig⟩
    by_contra ha
    rw [sign_of_not_mem ha] at hsig
    cases hsig
  · intro ha
    obtain ⟨secret, hsecret⟩ := exists_secret?_iff.mpr ha
    exact ⟨[], sign_none_of_secret? hsecret⟩

theorem sign_ne_unknownAddress_iff {digest : Bytes} :
    (∀ b, ks.sign a (some digest) ≠ .error (.unknownAddress b)) ↔ a ∈ ks.accounts := by
  constructor
  · intro hsign
    by_contra ha
    exact hsign a (sign_of_not_mem ha _)
  · intro ha b hsign
    obtain ⟨secret, hsecret⟩ := exists_secret?_iff.mpr ha
    simp only [sign, hsecret] at hsign
    split at hsign
    · cases hsign
    · split at hsign
      · exact absurd hsign nofun
      · cases hsign

theorem sign_eq_ok_iff {digest sig : Bytes} : ks.sign a (some digest) = .ok sig ↔
    digest.length = 32 ∧ ∃ secret σ, ks.secret? a = some secret ∧
      Secp256k1.sign secret digest = some σ ∧ σ.encode = sig := by
  unfold sign
  split
  · rename_i hnone
    simp [hnone]
  · rename_i secret hsecret
    simp only [hsecret, Option.some.injEq, exists_and_left, exists_eq_left']
    split
    · rename_i hlength
      simp [hlength]
    · rename_i hlength
      split
      · rename_i σ hσ
        simp [not_not.mp hlength, hσ]
      · rename_i hσ
        simp [hσ]

/-- The accounts of a keystore are those of the keys that it was made of or that were added, the
refused ones left out. An account is one of them just if a signature without a digest succeeds,
and just if a digest is not refused for want of a key. A signature tells the account that it was
asked for. -/
theorem signature_of_account {texts : List String} (h : ofHexKeys texts = .ok ks)
    (added : List Bytes) :
    (ks.offers added).accounts.Nodup ∧
    (∀ octets ∈ texts.filterMap hexOctets? ++ added, ∀ secret, readSecret octets = .ok secret →
      ∃ a ∈ (ks.offers added).accounts, accountOf secret = some a) ∧
    ∀ a, (a ∈ (ks.offers added).accounts ↔
        ∃ octets ∈ texts.filterMap hexOctets? ++ added, KeyOf octets a) ∧
      ((∃ sig, (ks.offers added).sign a none = .ok sig) ↔
        a ∈ (ks.offers added).accounts) ∧
      (∀ digest : Bytes, digest.length = 32 →
        ((∀ b, (ks.offers added).sign a (some digest) ≠ .error (.unknownAddress b)) ↔
          a ∈ (ks.offers added).accounts)) ∧
      ∀ digest sig, (ks.offers added).sign a (some digest) = .ok sig → sig.length = 65 ∧
        ∃ σ p, Secp256k1.Signature.decode? sig = some σ ∧
          Secp256k1.recover σ digest = some p ∧
          (Secp256k1.publicOctets? p).map Address.ofPublicOctets = some a := by
  have files := files_ofHexKeys h added
  refine ⟨files.nodup, fun octets hoctets secret hsecret => ?_, fun a => ⟨files.accounts a,
    sign_none_eq_ok_iff, fun _ _ => sign_ne_unknownAddress_iff, fun digest sig hsig => ?_⟩⟩
  · obtain ⟨a, ha⟩ := exists_accountOf hsecret
    exact ⟨a, (files.accounts a).mpr ⟨octets, hoctets, secret, hsecret, ha⟩, ha⟩
  · obtain ⟨-, secret, σ, hsecret, hσ, hencode⟩ := sign_eq_ok_iff.mp hsig
    obtain ⟨hr, hs, p, hrecover, hpublic⟩ := Secp256k1.recover_sign hσ
    rw [← hencode]
    refine ⟨σ.length_encode, σ, p, Secp256k1.Signature.decode?_encode hr hs, hrecover, ?_⟩
    rw [hpublic]
    exact files.own _ (mem_of_secret? hsecret)

/-- The least key, given in hexadecimal behind a blank text, and once more behind no key. -/
theorem signature_of_account_one :
    let texts := ["", " 0x0000000000000000000000000000000000000000000000000000000000000001"]
    let digest : Bytes := List.replicate 32 7
    ∃ ks a sig, ofHexKeys texts = .ok ks ∧ accountOf 1 = some a ∧
      a ∈ (ks.offers [[], Bytes.ofNat 32 1]).accounts ∧
      (ks.offers [[], Bytes.ofNat 32 1]).sign a (some digest) = .ok sig ∧ sig.length = 65 ∧
      ∃ σ p, Secp256k1.Signature.decode? sig = some σ ∧ Secp256k1.recover σ digest = some p ∧
        (Secp256k1.publicOctets? p).map Address.ofPublicOctets = some a := by
  intro texts digest
  have hone : readSecret (Bytes.ofNat 32 1) = .ok 1 := by decide +kernel
  have hshort : readSecret [] = .error (.length 0) := rfl
  have htexts : texts.filterMap hexOctets? = [Bytes.ofNat 32 1] := by decide +kernel
  have hok : (ofHexKeys texts).isOk = true := by decide +kernel
  have hsome : (Secp256k1.sign 1 digest).isSome = true := by decide +kernel
  obtain ⟨a, ha⟩ := exists_accountOf hone
  obtain ⟨σ, hσ⟩ := Option.isSome_iff_exists.mp hsome
  cases hks : ofHexKeys texts with
  | error e =>
    rw [hks] at hok
    cases hok
  | ok ks =>
    have hkeys : ks.offers [[], Bytes.ofNat 32 1] = ⟨[(a, 1)]⟩ := by
      rw [foldlM_addHex_eq_ok hks, htexts]
      simp [offers, offer_of_error hshort, offer_of_readSecret hone ha, empty]
    have hsign : (ks.offers [[], Bytes.ofNat 32 1]).sign a (some digest) = .ok σ.encode := by
      refine sign_eq_ok_iff.mpr ⟨rfl, 1, σ, ?_, hσ, rfl⟩
      rw [hkeys]
      exact List.lookup_cons_self
    obtain ⟨-, accounts, tells⟩ := signature_of_account hks [[], Bytes.ofNat 32 1]
    obtain ⟨b, hb, haccount⟩ := accounts (Bytes.ofNat 32 1) (by simp) 1 hone
    obtain rfl : a = b := Option.some.inj (ha.symm.trans haccount)
    obtain ⟨-, -, -, recovers⟩ := tells a
    exact ⟨ks, a, σ.encode, rfl, ha, hb, hsign, recovers digest _ hsign⟩

end TronCourier.Keystore
