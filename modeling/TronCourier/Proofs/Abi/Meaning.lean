import Mathlib
import TronCourier.Proofs.Abi.Word
import TronCourier.Proofs.Except

/-! What parameters say. A JSON value of a type denotes octets, a truth value, an
integer, a text or a list of these, and the encoder takes only values that denote one. -/

namespace TronCourier

namespace AbiType

/-- The sizes that a name can give to its base type. -/
def WellFormed : AbiType → Prop
  | uint bits | int bits => 8 ∣ bits ∧ 8 ≤ bits ∧ bits ≤ 256
  | fixedBytes count => 1 ≤ count ∧ count ≤ 32
  | array item | fixedArray item _ => item.WellFormed
  | address | bool | bytes | string => True

theorem bounds_of_bitWidth? {cs : List Char} {bits : Nat} (h : bitWidth? cs = some bits) :
    8 ∣ bits ∧ 8 ≤ bits ∧ bits ≤ 256 := by
  simp only [bitWidth?, Option.filter_eq_some_iff, Bool.and_eq_true, beq_iff_eq,
    decide_eq_true_eq] at h
  exact ⟨Nat.dvd_of_mod_eq_zero h.2.1.1, h.2.1.2, h.2.2⟩

theorem bounds_of_byteWidth? {cs : List Char} {count : Nat} (h : byteWidth? cs = some count) :
    1 ≤ count ∧ count ≤ 32 := by
  simpa [byteWidth?, Option.filter_eq_some_iff] using (Option.filter_eq_some_iff.mp h).2

theorem ofBaseName?_wellFormed {cs : List Char} {type : AbiType}
    (h : ofBaseName? cs = some type) : type.WellFormed := by
  unfold ofBaseName? at h
  split at h
  · split at h
    · cases h
      exact ⟨by decide, by decide, by decide⟩
    · obtain ⟨bits, hb, rfl⟩ := Option.map_eq_some_iff.mp h
      exact bounds_of_bitWidth? hb
  · split at h
    · cases h
      exact ⟨by decide, by decide, by decide⟩
    · obtain ⟨bits, hb, rfl⟩ := Option.map_eq_some_iff.mp h
      exact bounds_of_bitWidth? hb
  · split at h
    · cases h
      trivial
    · obtain ⟨count, hc, rfl⟩ := Option.map_eq_some_iff.mp h
      exact bounds_of_byteWidth? hc
  · split at h
    · cases h
      trivial
    · split at h
      · cases h
        trivial
      · split at h
        · cases h
          trivial
        · simp at h

theorem parseChars_eq_ok {cs : List Char} {type : AbiType} (h : parseChars cs = .ok type) :
    ofBaseName? (Text.trimChars cs) = some type ∨
      ∃ inner item, inner.length < cs.length ∧ parseChars inner = .ok item ∧
        (type = array item ∨ ∃ count, type = fixedArray item count) := by
  rw [parseChars] at h
  split at h
  · rename_i inner size hs
    obtain ⟨item, hi, h⟩ := bind_eq_ok_iff.mp h
    have shorter := (length_lt_of_splitSuffix? hs).trans_le (length_trimChars_le cs)
    refine .inr ⟨inner, item, shorter, hi, ?_⟩
    split at h
    · cases h
      exact .inl rfl
    · split at h
      · cases h
        exact .inr ⟨_, rfl⟩
      · cases h
  · cases h
  · split at h
    · rename_i base hb
      cases h
      exact .inl hb
    · cases h

theorem parseChars_array {cs inner : List Char} {item : AbiType}
    (split : splitSuffix? (Text.trimChars cs) = some (inner, some []))
    (hi : parseChars inner = .ok item) : parseChars cs = .ok (array item) := by
  rw [parseChars]
  split
  · rename_i hs
    cases split.symm.trans hs
    rw [hi]
    rfl
  all_goals simp_all

theorem parseChars_fixedArray {cs inner size : List Char} {item : AbiType} {count : Nat}
    (split : splitSuffix? (Text.trimChars cs) = some (inner, some size))
    (sized : size ≠ [] ∧ count? size = some count)
    (hi : parseChars inner = .ok item) : parseChars cs = .ok (fixedArray item count) := by
  rw [parseChars]
  split
  · rename_i hs
    cases split.symm.trans hs
    simp [hi, sized]
  all_goals simp_all

theorem parseChars_wellFormed {cs : List Char} {type : AbiType}
    (h : parseChars cs = .ok type) : type.WellFormed := by
  induction hn : cs.length using Nat.strong_induction_on generalizing cs type with
  | _ n ih =>
    obtain hb | ⟨inner, item, hl, hi, rfl | ⟨count, rfl⟩⟩ := parseChars_eq_ok h
    · exact ofBaseName?_wellFormed hb
    · have wf : item.WellFormed := ih inner.length (hn ▸ hl) hi rfl
      exact wf
    · have wf : item.WellFormed := ih inner.length (hn ▸ hl) hi rfl
      exact wf

theorem parse_wellFormed {s : String} {type : AbiType} (h : parse s = .ok type) :
    type.WellFormed :=
  parseChars_wellFormed h

end AbiType

namespace Abi

inductive Value
  | octets (bs : Bytes)
  | flag (b : Bool)
  | number (n : Int)
  | text (s : String)
  | items (vs : List Value)
deriving Repr

/-- The number that digits write, the most significant first. -/
def positional (base : Nat) (digits : List Nat) : Nat :=
  Nat.ofDigits base digits.reverse

def decimal? (cs : List Char) : Option Nat :=
  if cs.isEmpty then none else (cs.mapM Text.digit?).map (positional 10)

def hexadecimal? (text : Bytes) : Option Nat :=
  (text.mapM Text.hexValue).map (positional 16)

def natural? : Json → Option Nat
  | .int n => if 0 ≤ n then some n.toNat else none
  | .str s =>
    match s.toList with
    | '0' :: 'x' :: r => hexadecimal? (Text.utf8 (String.ofList r))
    | cs => decimal? cs
  | _ => none

def signedDecimal? : List Char → Option Int
  | '-' :: r => (decimal? r).map fun n : Nat => -(n : Int)
  | '+' :: r => (decimal? r).map Int.ofNat
  | cs => (decimal? cs).map Int.ofNat

def integer? : Json → Option Int
  | .int n => some n
  | .str s => signedDecimal? s.toList
  | _ => none

def truth? : Json → Option Bool
  | .bool b => some b
  | .str "true" => some true
  | .str "false" => some false
  | _ => none

def octets? : Json → Option Bytes
  | .str s => (Text.unhex (Address.withoutMarker s)).toOption
  | _ => none

def account? : Json → Option Address
  | .str s => (Address.parse s).toOption
  | _ => none

/-- What a JSON value of a type denotes. -/
def denoted? : AbiType → Json → Option Value
  | .address, j => (account? j).map fun a => .octets a.hash
  | .bool, j => (truth? j).map .flag
  | .uint _, j => (natural? j).map fun n : Nat => .number n
  | .int _, j => (integer? j).map .number
  | .fixedBytes _, j | .bytes, j => (octets? j).map .octets
  | .string, .str s => some (.text s)
  | .array item, .arr js | .fixedArray item _, .arr js => (js.mapM (denoted? item)).map .items
  | .string, _ | .array _, _ | .fixedArray _ _, _ => none

/-- The values that parameters denote, each with the type that its name stands for. -/
inductive Denotes : List Json → List AbiType → List Value → Prop
  | nil : Denotes [] [] []
  | cons {name : String} {j : Json} {type : AbiType} {v : Value} {params : List Json}
      {types : List AbiType} {vs : List Value} (named : AbiType.parse name = .ok type)
      (denoted : denoted? type j = some v) (rest : Denotes params types vs) :
      Denotes (.str name :: j :: params) (type :: types) (v :: vs)

theorem positional_eq_foldl (base : Nat) (digits : List Nat) :
    positional base digits = digits.foldl (fun n d => n * base + d) 0 := by
  rw [positional, Nat.ofDigits_eq_foldr, List.foldr_reverse]
  simp only [Nat.cast_id, add_comm, mul_comm]

theorem readDecimal_eq_ok {w w' : Bytes} (size : w.length = 32) {cs : List Char}
    (h : readDecimal w cs = .ok w') :
    w'.length = 32 ∧ ∃ ds, cs.mapM Text.digit? = some ds ∧
      ds.foldl (fun n d => n * 10 + d) (Bytes.toNat w) = Bytes.toNat w' := by
  induction cs generalizing w with
  | nil =>
    cases h
    exact ⟨size, [], rfl, rfl⟩
  | cons c r ih =>
    cases hd : Text.digit? c with
    | none =>
      rw [readDecimal_cons_of_none hd] at h
      cases h
    | some d =>
      rw [readDecimal_cons_of_some size hd] at h
      split at h
      · rename_i bound
        obtain ⟨size', ds, hds, value⟩ := ih (length_word _) h
        rw [toNat_word bound] at value
        exact ⟨size', d :: ds, by simp [hd, hds], value⟩
      · cases h

theorem readDigits_eq_ok {limit n m : Nat} {overflow : Text.IntegerError} {cs : List Char}
    (h : Text.readDigits limit overflow n cs = .ok m) :
    (∃ ds, cs.mapM Text.digit? = some ds ∧ ds.foldl (fun n d => n * 10 + d) n = m) ∧
      (n ≤ limit → m ≤ limit) := by
  induction cs generalizing n with
  | nil =>
    obtain rfl : n = m := by simpa [Text.readDigits] using h
    exact ⟨⟨[], rfl, rfl⟩, id⟩
  | cons c r ih =>
    rw [Text.readDigits] at h
    split at h
    · cases h
    · rename_i d hd
      simp only at h
      split at h
      · cases h
      · rename_i below
        obtain ⟨⟨ds, hds, hm⟩, bound⟩ := ih h
        exact ⟨⟨d :: ds, by simp [hd, hds], hm⟩, fun _ => bound (Nat.le_of_not_lt below)⟩

theorem decimal?_eq_some {cs : List Char} {ds : List Nat} {n : Nat} (hne : cs ≠ [])
    (h : cs.mapM Text.digit? = some ds) (hn : ds.foldl (fun n d => n * 10 + d) 0 = n) :
    decimal? cs = some n := by
  simp [decimal?, hne, h, positional_eq_foldl, hn]

theorem hexValue_lt {octet : UInt8} {d : Nat} (h : Text.hexValue octet = some d) : d < 16 := by
  unfold Text.hexValue at h
  simp only [Bool.and_eq_true, decide_eq_true_eq] at h
  grind

theorem readPairs_eq_ok {position : Nat} {text bs : Bytes}
    (h : Text.readPairs position text = .ok bs) :
    ∃ ds, text.mapM Text.hexValue = some ds ∧
      ∀ n, bs.foldl (fun n b => n * 256 + b.toNat) n = ds.foldl (fun n d => n * 16 + d) n := by
  induction position, text using Text.readPairs.induct generalizing bs with
  | case1 =>
    cases h
    exact ⟨[], rfl, fun n => rfl⟩
  | case2 => cases h
  | case3 _ a b r ha => simp [Text.readPairs, ha] at h
  | case4 _ a b r hb =>
    rw [Text.readPairs] at h
    split at h <;> simp_all
  | case5 position a b r x y hy hx ih =>
    simp only [Text.readPairs, hx, hy, bind_eq_ok_iff, pure, Except.pure, Except.ok.injEq] at h
    obtain ⟨bs, hr, rfl⟩ := h
    obtain ⟨ds, hds, hfold⟩ := ih hr
    refine ⟨x :: y :: ds, by simp [hx, hy, hds], fun n => ?_⟩
    have octet : (UInt8.ofNat (x * 16 + y)).toNat = x * 16 + y := by
      have := hexValue_lt hx
      have := hexValue_lt hy
      exact UInt8.toNat_ofNat_of_lt' (by simp only [UInt8.size]; omega)
    simp only [List.foldl_cons, octet]
    rw [hfold]
    congr 1
    omega

theorem unhexOctets_eq_ok {text bs : Bytes} (h : Text.unhexOctets text = .ok bs) :
    hexadecimal? text = some (Bytes.toNat bs) := by
  rw [Text.unhexOctets] at h
  split at h
  · cases h
  · obtain ⟨ds, hds, hfold⟩ := readPairs_eq_ok h
    rw [hexadecimal?, hds, Option.map_some, positional_eq_foldl, Bytes.toNat, hfold]

theorem hexadecimal?_zero_cons (text : Bytes) :
    hexadecimal? (0x30 :: text) = hexadecimal? text := by
  have zero : Text.hexValue 0x30 = some 0 := rfl
  simp only [hexadecimal?, List.mapM_cons, zero, Option.bind_eq_bind, Option.bind_some,
    Option.pure_def]
  cases text.mapM Text.hexValue with
  | none => rfl
  | some ds => simp [positional_eq_foldl]

theorem hexadecimal?_eq_some {text w : Bytes} (h : readHexNumber text = .ok w) :
    w.length = 32 ∧ hexadecimal? text = some (Bytes.toNat w) := by
  have padded : hexadecimal? (if text.length % 2 = 1 then 0x30 :: text else text) =
      hexadecimal? text := by
    split
    · exact hexadecimal?_zero_cons text
    · rfl
  rw [readHexNumber] at h
  split at h
  · cases h
  · rename_i bs hbs
    split at h
    · cases h
    · cases h
      refine ⟨by rw [List.length_append, Bytes.length_zeros]; omega, ?_⟩
      rw [← padded, Bytes.toNat_zeros_append]
      exact unhexOctets_eq_ok hbs

theorem natural?_eq_some {j : Json} {w : Bytes} (h : readUnsigned j = .ok w) :
    w.length = 32 ∧ natural? j = some (Bytes.toNat w) := by
  unfold readUnsigned at h
  split at h
  · rename_i i
    split at h
    · rename_i hi
      obtain rfl : word i.toNat = w := Except.ok.inj h
      have small : i.toNat < 2 ^ 256 := by
        simp only [nat64Max] at hi
        omega
      exact ⟨length_word _, by rw [natural?, if_pos hi.1, toNat_word small]⟩
    · cases h
  · cases h
  · rename_i s
    unfold natural?
    simp only
    split at h
    · rename_i r hs
      simp only [hs]
      exact hexadecimal?_eq_some h
    · cases h
    · rename_i no_marker nonempty
      obtain ⟨size, ds, hds, value⟩ := readDecimal_eq_ok (Bytes.length_zeros 32) h
      refine ⟨size, ?_⟩
      split
      · rename_i r hs
        exact absurd hs (no_marker r)
      · exact decimal?_eq_some nonempty hds (by rw [← value, Bytes.toNat_zeros])
  · cases h

theorem decimal?_of_readDigits {limit n : Nat} {overflow : Text.IntegerError} {cs : List Char}
    (hne : cs ≠ []) (h : Text.readDigits limit overflow 0 cs = .ok n) :
    decimal? cs = some n ∧ n ≤ limit := by
  obtain ⟨⟨ds, hds, hn⟩, bound⟩ := readDigits_eq_ok h
  exact ⟨decimal?_eq_some hne hds hn, bound (Nat.zero_le _)⟩

theorem signedDecimal?_of_readNat {limit n : Nat} {cs : List Char}
    (no_minus : ∀ r, cs ≠ '-' :: r) (h : Text.readNat limit cs = .ok n) :
    signedDecimal? cs = some (n : Int) ∧ n ≤ limit := by
  unfold Text.readNat at h
  split at h
  · cases h
  · cases h
  · rename_i r bare
    obtain ⟨hd, bound⟩ := decimal?_of_readDigits (fun e => bare (by rw [e])) h
    exact ⟨by simp [signedDecimal?, hd], bound⟩
  · rename_i nonempty _ no_plus
    obtain ⟨hd, bound⟩ := decimal?_of_readDigits nonempty h
    refine ⟨?_, bound⟩
    unfold signedDecimal?
    split
    · exact absurd rfl (no_minus _)
    · exact absurd rfl (no_plus _)
    · rw [hd]
      rfl

theorem signedDecimal?_eq_some {cs : List Char} {n : Int}
    (h : Text.readInt (Nat.pow 2 127) (Nat.pow 2 127 - 1) cs = .ok n) :
    signedDecimal? cs = some n ∧ -2 ^ 127 ≤ n ∧ n < 2 ^ 127 := by
  have power : Nat.pow 2 127 = 2 ^ 127 := rfl
  unfold Text.readInt at h
  split at h
  · cases h
  · rename_i r bare
    obtain ⟨_, hb, rfl⟩ := map_eq_ok_iff.mp h
    obtain ⟨m, hm, hc⟩ := bind_eq_ok_iff.mp hb
    cases hc
    obtain ⟨hd, bound⟩ := decimal?_of_readDigits (fun e => bare (by rw [e])) hm
    exact ⟨by simp [signedDecimal?, hd], by omega, by omega⟩
  · rename_i no_minus
    obtain ⟨m, hm, rfl⟩ := map_eq_ok_iff.mp h
    obtain ⟨hd, bound⟩ := signedDecimal?_of_readNat no_minus hm
    rw [Int.ofNat_eq_natCast]
    exact ⟨hd, by omega, by omega⟩

theorem integer?_eq_some {j : Json} {n : Int} (h : readSigned j = .ok n) :
    integer? j = some n ∧ -2 ^ 127 ≤ n ∧ n < 2 ^ 127 := by
  unfold readSigned at h
  split at h
  · rename_i i
    split at h
    · rename_i hi
      cases h
      simp only [int64Min, int64Max] at hi
      exact ⟨rfl, by omega, by omega⟩
    · cases h
  · cases h
  · rename_i s
    split at h
    · rename_i m hm
      cases h
      simp only [integer?]
      exact signedDecimal?_eq_some hm
    · cases h
  · cases h

theorem truth?_eq_some {j : Json} {b : Bool} (h : readBool j = .ok b) : truth? j = some b := by
  unfold readBool at h
  split at h
  · cases h
    rfl
  · split at h
    · rename_i hs
      cases h
      rw [hs]
      rfl
    · split at h
      · rename_i hs
        cases h
        rw [hs]
        rfl
      · cases h
  · cases h

theorem octets?_eq_some {j : Json} {bs : Bytes} (h : readBytes j = .ok bs) :
    octets? j = some bs := by
  unfold readBytes at h
  split at h
  · split at h
    · rename_i hb
      cases h
      simp [octets?, hb, Except.toOption]
    · cases h
  · cases h

/-- How a value that is no array stands in octets. -/
inductive Written : AbiType → Value → Bytes → Prop
  | address (a : Address) : Written .address (.octets a.hash) (Bytes.zeros 12 ++ a.hash)
  | bool (b : Bool) : Written .bool (.flag b) (word (if b then 1 else 0))
  | uint {bits n : Nat} (bound : (AbiType.uint bits).WellFormed → n < 2 ^ bits) :
      Written (.uint bits) (.number n) (word n)
  | int {bits : Nat} {n : Int} (low : -2 ^ (bits - 1) ≤ n) (high : n < 2 ^ (bits - 1)) :
      Written (.int bits) (.number n) (Bytes.ofInt 32 n)
  | fixedBytes (bs : Bytes) :
      Written (.fixedBytes bs.length) (.octets bs) (bs ++ filler bs.length)
  | bytes (bs : Bytes) : Written .bytes (.octets bs) (lengthPrefixed bs)
  | string (s : String) : Written .string (.text s) (lengthPrefixed (Text.utf8 s))

/-- The octets that a type leaves free are those that its numbers do not reach. -/
theorem leading_zeros_iff {bits : Nat} (wf : (AbiType.uint bits).WellFormed) {w : Bytes}
    (size : w.length = 32) :
    (w.take ((256 - bits) / 8)).all (· == 0) ↔ Bytes.toNat w < 2 ^ bits := by
  obtain ⟨⟨k, rfl⟩, _, high⟩ := wf
  have free : 32 - (256 - 8 * k) / 8 = k := by omega
  have power : 256 ^ k = 2 ^ (8 * k) := by
    rw [pow_mul]
    norm_num
  rw [Bytes.all_take_eq_zero_iff, size, free, power]

theorem encodeAtom_written {type : AbiType} {j : Json} {data : Bytes}
    (h : encodeAtom type j = .ok data) : ∃ v, denoted? type j = some v ∧ Written type v data := by
  cases type with
  | address =>
    cases j with
    | str s =>
      simp only [encodeAtom, Json.str?] at h
      split at h
      · rename_i a ha
        cases h
        exact ⟨_, by simp [denoted?, account?, ha, Except.toOption], .address a⟩
      · cases h
    | _ => cases h
  | bool =>
    obtain ⟨b, hb, rfl⟩ := map_eq_ok_iff.mp h
    exact ⟨_, by rw [denoted?, truth?_eq_some hb, Option.map_some], .bool b⟩
  | uint bits =>
    obtain ⟨w, hw, h⟩ := bind_eq_ok_iff.mp h
    obtain ⟨size, value⟩ := natural?_eq_some hw
    split at h
    · rename_i zeros
      obtain rfl : w = data := Except.ok.inj h
      refine ⟨_, by rw [denoted?, value, Option.map_some], ?_⟩
      have written : Written (.uint bits) (.number (Bytes.toNat w)) (word (Bytes.toNat w)) :=
        .uint fun wf => (leading_zeros_iff wf size).mp zeros
      rwa [word_toNat size] at written
    · cases h
  | int bits =>
    obtain ⟨n, hn, h⟩ := bind_eq_ok_iff.mp h
    obtain ⟨hd, low, high⟩ := integer?_eq_some hn
    simp only at h
    split at h
    · cases h
    · rename_i hr
      obtain rfl : Bytes.ofInt 32 n = data := Except.ok.inj h
      refine ⟨_, by rw [denoted?, hd, Option.map_some], ?_⟩
      by_cases hb : bits < 128
      · have half : ((Nat.pow 2 (bits - 1) : Nat) : Int) = 2 ^ (bits - 1) := by norm_cast
        rw [half] at hr
        exact .int (by omega) (by omega)
      · -- sixteen octets are read at most
        have wide : (2 : Int) ^ 127 ≤ 2 ^ (bits - 1) := by
          exact_mod_cast Nat.pow_le_pow_right (by decide) (by omega : 127 ≤ bits - 1)
        exact .int (by omega) (by omega)
  | fixedBytes count =>
    obtain ⟨bs, hb, h⟩ := bind_eq_ok_iff.mp h
    split at h
    · rename_i hl
      obtain rfl : bs ++ filler bs.length = data := Except.ok.inj h
      subst hl
      exact ⟨_, by rw [denoted?, octets?_eq_some hb, Option.map_some], .fixedBytes bs⟩
    · cases h
  | bytes =>
    obtain ⟨bs, hb, rfl⟩ := map_eq_ok_iff.mp h
    exact ⟨_, by rw [denoted?, octets?_eq_some hb, Option.map_some], .bytes bs⟩
  | string =>
    cases j with
    | str s =>
      obtain rfl : lengthPrefixed (Text.utf8 s) = data := Except.ok.inj h
      exact ⟨_, rfl, .string s⟩
    | _ => cases h
  | array item => cases h
  | fixedArray item count => cases h

end Abi

end TronCourier
