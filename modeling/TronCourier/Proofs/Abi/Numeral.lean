import TronCourier.Json.Parser
import TronCourier.Proofs.Abi.Meaning

/-! Integers in texts. The readers of decimal digits take those in range and no others,
and a JSON number without point and exponent stays an integer if it fits into 64 bits. -/

namespace TronCourier

namespace Abi

variable {limit below above n : Nat} {cs : List Char}

theorem le_foldl_digits (n : Nat) (ds : List Nat) :
    n ≤ ds.foldl (fun n d => n * 10 + d) n := by
  induction ds generalizing n with
  | nil => exact Nat.le_refl n
  | cons d ds ih =>
    have rest := ih (n * 10 + d)
    simp only [List.foldl_cons]
    omega

theorem readDigits_of_le {overflow : Text.IntegerError} {ds : List Nat}
    (digits : cs.mapM Text.digit? = some ds)
    (bound : ds.foldl (fun n d => n * 10 + d) n ≤ limit) :
    Text.readDigits limit overflow n cs = .ok (ds.foldl (fun n d => n * 10 + d) n) := by
  induction cs generalizing n ds with
  | nil =>
    obtain rfl : [] = ds := by simpa using digits
    rfl
  | cons c r ih =>
    simp only [List.mapM_cons, Option.bind_eq_bind, Option.bind_eq_some_iff, Option.pure_def,
      Option.some.injEq] at digits
    obtain ⟨d, hd, ds, hds, rfl⟩ := digits
    have next : n * 10 + d ≤ limit := (le_foldl_digits _ ds).trans bound
    simp only [Text.readDigits, hd, if_neg next.not_gt]
    exact ih hds bound

theorem decimal?_eq_some_iff :
    decimal? cs = some n ↔ cs ≠ [] ∧ ∃ ds, cs.mapM Text.digit? = some ds ∧
      ds.foldl (fun n d => n * 10 + d) 0 = n := by
  simp [decimal?, positional_eq_foldl]

theorem readDigits_zero_eq_ok_iff {overflow : Text.IntegerError} (hne : cs ≠ []) :
    Text.readDigits limit overflow 0 cs = .ok n ↔ decimal? cs = some n ∧ n ≤ limit := by
  constructor
  · exact decimal?_of_readDigits hne
  · rintro ⟨hd, bound⟩
    obtain ⟨_, ds, hds, rfl⟩ := decimal?_eq_some_iff.mp hd
    exact readDigits_of_le hds bound

theorem readNat_eq_ok_iff :
    Text.readNat limit cs = .ok n ↔
      (∀ r, cs ≠ '-' :: r) ∧ signedDecimal? cs = some (n : Int) ∧ n ≤ limit := by
  constructor
  · intro h
    have no_minus : ∀ r, cs ≠ '-' :: r := by
      rintro r rfl
      simp [Text.readNat, Text.readDigits, Text.digit?] at h
    exact ⟨no_minus, signedDecimal?_of_readNat no_minus h⟩
  · rintro ⟨no_minus, written, bound⟩
    unfold signedDecimal? at written
    split at written
    · exact absurd rfl (no_minus _)
    · rename_i r
      obtain ⟨m, hm, hn⟩ := Option.map_eq_some_iff.mp written
      obtain rfl : m = n := Int.ofNat.inj hn
      cases r with
      | nil => cases hm
      | cons c r => exact (readDigits_zero_eq_ok_iff (List.cons_ne_nil c r)).mpr ⟨hm, bound⟩
    · rename_i no_plus
      obtain ⟨m, hm, hn⟩ := Option.map_eq_some_iff.mp written
      obtain rfl : m = n := Int.ofNat.inj hn
      have nonempty : cs ≠ [] := (decimal?_eq_some_iff.mp hm).1
      have plain : Text.readNat limit cs = Text.readDigits limit .tooLarge 0 cs := by
        unfold Text.readNat
        split
        · exact absurd rfl nonempty
        · exact absurd rfl (no_plus _)
        · exact absurd rfl (no_plus _)
        · rfl
      rw [plain]
      exact (readDigits_zero_eq_ok_iff nonempty).mpr ⟨hm, bound⟩

theorem readInt_eq_ok_iff {v : Int} :
    Text.readInt below above cs = .ok v ↔
      signedDecimal? cs = some v ∧ -(below : Int) ≤ v ∧ v ≤ above := by
  unfold Text.readInt
  split
  · simp [signedDecimal?, decimal?]
  · rename_i r bare
    have nonempty : r ≠ [] := fun e => bare (by rw [e])
    simp only [map_eq_ok_iff, bind_eq_ok_iff, readDigits_zero_eq_ok_iff nonempty, signedDecimal?,
      Option.map_eq_some_iff, pure, Except.pure, Except.ok.injEq]
    constructor
    · rintro ⟨_, ⟨m, ⟨hm, bound⟩, rfl⟩, rfl⟩
      exact ⟨⟨m, hm, rfl⟩, by omega, by omega⟩
    · rintro ⟨⟨m, hm, rfl⟩, low, _⟩
      exact ⟨m, ⟨m, ⟨hm, by omega⟩, rfl⟩, rfl⟩
  · rename_i bare no_minus
    simp only [map_eq_ok_iff, readNat_eq_ok_iff]
    constructor
    · rintro ⟨m, ⟨_, hm, bound⟩, rfl⟩
      exact ⟨hm, by simp, by simpa using bound⟩
    · rintro ⟨hm, _, bound⟩
      have minus : ∀ r, cs ≠ '-' :: r := fun r e => no_minus r e
      obtain ⟨m, rfl⟩ : ∃ m : Nat, v = m := by
        unfold signedDecimal? at hm
        split at hm
        · exact absurd rfl (minus _)
        · obtain ⟨m, _, rfl⟩ := Option.map_eq_some_iff.mp hm
          exact ⟨m, rfl⟩
        · obtain ⟨m, _, rfl⟩ := Option.map_eq_some_iff.mp hm
          exact ⟨m, rfl⟩
      exact ⟨m, ⟨minus, hm, by omega⟩, rfl⟩

theorem digit?_of_isDigit {c : Char} (h : c.isDigit = true) :
    Text.digit? c = some (c.toNat - '0'.toNat) := by
  simp only [Char.isDigit, ge_iff_le, Bool.and_eq_true, decide_eq_true_eq] at h
  exact if_pos h

theorem mapM_digit?_of_isDigit (h : ∀ c ∈ cs, c.isDigit = true) :
    ∃ ds, cs.mapM Text.digit? = some ds ∧
      ds.foldl (fun n d => n * 10 + d) n = Nat.ofDigitChars 10 cs n := by
  induction cs generalizing n with
  | nil => exact ⟨[], rfl, rfl⟩
  | cons c r ih =>
    obtain ⟨first, others⟩ := List.forall_mem_cons.mp h
    obtain ⟨ds, hds, value⟩ := ih (n := n * 10 + (c.toNat - '0'.toNat)) others
    refine ⟨(c.toNat - '0'.toNat) :: ds, by simp [digit?_of_isDigit first, hds], ?_⟩
    rw [List.foldl_cons, value, Nat.ofDigitChars_cons, Nat.mul_comm]

theorem isDigit_of_mem_toDigits {c : Char} (h : c ∈ Nat.toDigits 10 n) : c.isDigit = true :=
  Nat.isDigit_of_mem_toDigits (by decide) (by decide) h

theorem decimal?_toDigits (n : Nat) : decimal? (Nat.toDigits 10 n) = some n := by
  have digits : ∀ c ∈ Nat.toDigits 10 n, c.isDigit = true := fun _ => isDigit_of_mem_toDigits
  obtain ⟨ds, hds, value⟩ := mapM_digit?_of_isDigit (n := 0) digits
  rw [Nat.ofDigitChars_ten_toDigits] at value
  exact decimal?_eq_some_iff.mpr ⟨Nat.toDigits_ne_nil, ds, hds, value⟩

theorem signedDecimal?_of_isDigit (h : ∀ c ∈ cs, c.isDigit = true) :
    signedDecimal? cs = (decimal? cs).map Int.ofNat := by
  unfold signedDecimal?
  split
  · exact absurd (h _ List.mem_cons_self) (by decide)
  · exact absurd (h _ List.mem_cons_self) (by decide)
  · rfl

/-- A number is read from its own decimal digits. -/
theorem readNat_toDigits (h : n ≤ limit) :
    Text.readNat limit (Nat.toDigits 10 n) = .ok n := by
  refine readNat_eq_ok_iff.mpr ⟨?_, ?_, h⟩
  · intro r hr
    exact absurd (isDigit_of_mem_toDigits (hr ▸ List.mem_cons_self : '-' ∈ _)) (by decide)
  · rw [signedDecimal?_of_isDigit fun _ => isDigit_of_mem_toDigits, decimal?_toDigits]
    rfl

/-- The digits of a JSON number, of which the first is a zero only if it is the last. -/
def jsonDigits? (cs : List Char) : Option Nat :=
  if 1 < cs.length ∧ cs.head? = some '0' then none else decimal? cs

def jsonInteger? : List Char → Option Int
  | '-' :: r => (jsonDigits? r).map fun n : Nat => -(n : Int)
  | cs => (jsonDigits? cs).map Int.ofNat

theorem isSome_digit? {ds : List Nat} (digits : cs.mapM Text.digit? = some ds) :
    ∀ c ∈ cs, (Text.digit? c).isSome = true := by
  induction cs generalizing ds with
  | nil => simp
  | cons c r ih =>
    simp only [List.mapM_cons, Option.bind_eq_bind, Option.bind_eq_some_iff] at digits
    obtain ⟨d, hd, ds, hds, _⟩ := digits
    simp only [List.forall_mem_cons, hd, Option.isSome_some, true_and]
    exact ih hds

theorem spanDigits_of_digits {ds : List Nat} (digits : cs.mapM Text.digit? = some ds) :
    Text.spanDigits cs = (cs, []) := by
  have all := isSome_digit? digits
  rw [Text.spanDigits, List.span_eq_takeWhile_dropWhile, List.takeWhile_eq_self_iff.mpr all,
    List.dropWhile_eq_nil_iff.mpr all]

/-- Digits are passed over just if the number does not fit into 64 bits. -/
theorem takeSignificand_digits {ds : List Nat} (taken : Nat)
    (digits : cs.mapM Text.digit? = some ds) :
    (ds.foldl (fun n d => n * 10 + d) n ≤ nat64Max ∧
      Json.Parser.takeSignificand n taken cs =
        (ds.foldl (fun n d => n * 10 + d) n, taken + cs.length, 0)) ∨
    (nat64Max < ds.foldl (fun n d => n * 10 + d) n ∧
      (n ≤ nat64Max → 0 < (Json.Parser.takeSignificand n taken cs).2.2)) := by
  induction cs generalizing n taken ds with
  | nil =>
    obtain rfl : [] = ds := by simpa using digits
    obtain large | small := Nat.lt_or_ge nat64Max n
    · exact .inr ⟨large, fun small => absurd large small.not_gt⟩
    · exact .inl ⟨small, rfl⟩
  | cons c r ih =>
    simp only [List.mapM_cons, Option.bind_eq_bind, Option.bind_eq_some_iff, Option.pure_def,
      Option.some.injEq] at digits
    obtain ⟨d, hd, ds, hds, rfl⟩ := digits
    simp only [Json.Parser.takeSignificand, hd, Option.getD_some, List.foldl_cons,
      List.length_cons]
    obtain large | next := Nat.lt_or_ge nat64Max (n * 10 + d)
    · refine .inr ⟨large.trans_le (le_foldl_digits _ ds), fun _ => ?_⟩
      rw [if_neg large.not_ge]
      exact Nat.succ_pos _
    · rw [if_pos next, ← Nat.add_assoc, Nat.add_right_comm]
      exact (ih (taken + 1) hds).imp_right fun h => ⟨h.1, fun _ => h.2 next⟩

/-- What a number becomes that is no integer of 64 bits. -/
def Rounded (j : Json) : Prop :=
  (∃ x, j = .real x) ∨ j = .beyond

theorem rounded_scale (negative : Bool) (significand : Nat) (exponent : Int) :
    Rounded (Json.Parser.scale negative significand exponent) := by
  have near (result : Nat) :
      Rounded (if result = Binary64.top then .beyond else .real ⟨negative, result⟩) := by
    split
    · exact .inr rfl
    · exact .inl ⟨_, rfl⟩
  have go (fuel magnitude : Nat) (e : Int) :
      Rounded (Json.Parser.scale.go negative fuel magnitude e) := by
    induction fuel generalizing magnitude e with
    | zero => exact .inl ⟨_, rfl⟩
    | succ fuel ih =>
      rw [Json.Parser.scale.go]
      split
      · exact near _
      · split
        · exact .inl ⟨_, rfl⟩
        · split
          · exact .inr rfl
          · exact ih _ _
  exact go 8 _ exponent

/-- The integers that are kept as such, by their sign. -/
def Kept (negative : Bool) (n : Nat) : Prop :=
  if negative then 0 < n ∧ n ≤ 2 ^ 63 else n ≤ nat64Max

theorem number_of_jsonDigits? (negative : Bool) (h : jsonDigits? cs = some n) :
    ∃ j, Json.Parser.number negative cs = some (j, []) ∧
      (Kept negative n ∧ j = .int (if negative then -(n : Int) else n) ∨
        ¬Kept negative n ∧ Rounded j) := by
  unfold jsonDigits? at h
  split at h
  · cases h
  rename_i no_zero
  obtain ⟨nonempty, ds, digits, rfl⟩ := decimal?_eq_some_iff.mp h
  have leads : (cs.isEmpty || decide (cs.length > 1) && cs.head? == some '0') = false := by
    simpa [nonempty] using no_zero
  obtain ⟨small, taken⟩ | ⟨large, passed⟩ := takeSignificand_digits (n := 0) 0 digits
  · rw [Nat.zero_add] at taken
    cases negative with
    | false =>
      refine ⟨_, ?_, .inl ⟨small, rfl⟩⟩
      simp [Json.Parser.number, spanDigits_of_digits digits, leads, taken]
    | true =>
      generalize ds.foldl (fun n d => n * 10 + d) 0 = n at *
      by_cases kept : Kept true n
      · refine ⟨_, ?_, .inl ⟨kept, rfl⟩⟩
        have inside : ¬(n = 0 ∨ 0x8000000000000000 < n) := by
          simp only [Kept, if_true] at kept
          omega
        simp [Json.Parser.number, spanDigits_of_digits digits, leads, taken, inside]
      · refine ⟨Json.Parser.scale true n 0, ?_, .inr ⟨kept, rounded_scale true n 0⟩⟩
        have outside : n = 0 ∨ 0x8000000000000000 < n := by
          simp only [Kept, if_true] at kept
          omega
        simp [Json.Parser.number, spanDigits_of_digits digits, leads, taken, outside]
  · have kept : ¬Kept negative (ds.foldl (fun n d => n * 10 + d) 0) := by
      simp only [Kept, nat64Max] at *
      split
      · omega
      · omega
    have some_passed := passed (Nat.zero_le _)
    obtain ⟨⟨m, taken, rest⟩, hs⟩ : ∃ s, Json.Parser.takeSignificand 0 0 cs = s := ⟨_, rfl⟩
    rw [hs] at some_passed
    refine ⟨Json.Parser.scale negative m rest, ?_, .inr ⟨kept, rounded_scale _ _ _⟩⟩
    simp [Json.Parser.number, spanDigits_of_digits digits, leads, hs, some_passed,
      Json.Parser.takeSignificand]

theorem readSigned_int_eq_ok_iff {v w : Int} :
    readSigned (.int v) = .ok w ↔ w = v ∧ int64Min ≤ v ∧ v ≤ int64Max := by
  rw [readSigned]
  split
  · rename_i inside
    simp [inside, eq_comm]
  · rename_i outside
    simp only [reduceCtorEq, false_iff]
    exact fun h => outside h.2

theorem readSigned_of_rounded {j : Json} (h : Rounded j) (v : Int) : readSigned j ≠ .ok v := by
  obtain ⟨x, rfl⟩ | rfl := h
  · simp [readSigned]
  · simp [readSigned]

theorem exists_digit_of_jsonDigits? (h : jsonDigits? cs = some n) :
    ∃ c r, cs = c :: r ∧ (Text.digit? c).isSome = true := by
  unfold jsonDigits? at h
  split at h
  · cases h
  · obtain ⟨nonempty, ds, digits, _⟩ := decimal?_eq_some_iff.mp h
    obtain ⟨c, r, rfl⟩ := List.exists_cons_of_ne_nil nonempty
    exact ⟨c, r, rfl, isSome_digit? digits c List.mem_cons_self⟩

theorem value_of_digit {c : Char} (hc : (Text.digit? c).isSome = true) (fuel depth : Nat)
    (r : List Char) :
    Json.Parser.value (fuel + 1) depth (c :: r) = Json.Parser.number false (c :: r) := by
  have no_space : Json.Parser.isSpace c = false := by
    by_contra hs
    simp only [Json.Parser.isSpace, Bool.not_eq_false, Bool.or_eq_true, decide_eq_true_eq] at hs
    obtain ((rfl | rfl) | rfl) | rfl := hs <;> simp [Text.digit?] at hc
  have stays : Json.Parser.skipSpace (c :: r) = c :: r := by
    simp [Json.Parser.skipSpace, no_space]
  rw [Json.Parser.value, stays]
  split
  case h_1 e => cases e
  case h_9 => rfl
  all_goals
    rename_i e
    cases e
    simp [Text.digit?] at hc

/-- A zero with a minus sign is no integer to the parser. -/
theorem readSigned_number {text : String} {v : Int} (h : jsonInteger? text.toList = some v) :
    ∃ j, Json.parse text = some j ∧ ∀ w, readSigned j = .ok w ↔
      w = v ∧ int64Min ≤ v ∧ v ≤ int64Max ∧ ¬(v = 0 ∧ text.toList.head? = some '-') := by
  unfold jsonInteger? at h
  split at h
  · rename_i r hr
    obtain ⟨n, hn, rfl⟩ := Option.map_eq_some_iff.mp h
    obtain ⟨j, hj, kept⟩ := number_of_jsonDigits? true hn
    refine ⟨j, ?_, fun w => ?_⟩
    · simp [Json.parse, hr, Json.Parser.value, Json.Parser.skipSpace, Json.Parser.isSpace, hj]
    · simp only [Kept, if_true] at kept
      simp only [hr, List.head?_cons, and_true]
      obtain ⟨kept, rfl⟩ | ⟨lost, rounded⟩ := kept
      · rw [readSigned_int_eq_ok_iff]
        have nonzero : -(n : Int) ≠ 0 := by omega
        simp only [nonzero, not_false_eq_true, and_true]
      · simp only [readSigned_of_rounded rounded, int64Min, int64Max, false_iff]
        omega
  · rename_i no_minus
    obtain ⟨n, hn, rfl⟩ := Option.map_eq_some_iff.mp h
    obtain ⟨j, hj, kept⟩ := number_of_jsonDigits? false hn
    obtain ⟨c, r, hr, hc⟩ := exists_digit_of_jsonDigits? hn
    refine ⟨j, ?_, fun w => ?_⟩
    · have whole : Json.Parser.value (text.toList.length + 1) 0 text.toList = some (j, []) := by
        rw [← hj, hr, value_of_digit hc]
      simp [Json.parse, whole, Json.Parser.skipSpace]
    · have bare : text.toList.head? ≠ some '-' := by
        rw [hr]
        rintro ⟨⟩
        exact no_minus r hr
      simp only [Kept, Bool.false_eq_true, if_false] at kept
      simp only [bare, and_false, not_false_eq_true, and_true]
      obtain ⟨kept, rfl⟩ | ⟨lost, rounded⟩ := kept
      · exact readSigned_int_eq_ok_iff
      · simp only [nat64Max] at lost
        simp only [readSigned_of_rounded rounded, int64Min, int64Max, false_iff,
          Int.ofNat_eq_natCast]
        omega

end Abi

end TronCourier
