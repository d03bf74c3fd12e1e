import TronCourier.Proofs.Manager.Idempotence

/-! The keys of messages. A key tells its message, and the retries as long as they can be
counted, so that a request is turned away as a duplicate only when a request with the same
message is on record. -/

namespace TronCourier

theorem dash_not_mem_toDigits (n : Nat) : '-' ∉ Nat.toDigits 10 n := fun h =>
  absurd (Nat.isDigit_of_mem_toDigits (by decide) (by decide) h) (by decide)

theorem eq_nil_of_separator {c : Char} {zs ds es : List Char} (hds : c ∉ ds)
    (h : c :: ds = zs ++ c :: es) : zs = [] := by
  cases zs with
  | nil => rfl
  | cons z zs =>
    rw [List.cons_append, List.cons.injEq] at h
    exact absurd (by simp [h.2]) hds

/-- The separator may be in the text before it, but not in what is behind it. -/
theorem append_separator_inj {c : Char} {xs ys ds es : List Char} (hds : c ∉ ds) (hes : c ∉ es)
    (h : xs ++ c :: ds = ys ++ c :: es) : xs = ys ∧ ds = es := by
  have hxs : xs = ys := by
    rcases List.append_eq_append_iff.mp h with ⟨zs, hys, hzs⟩ | ⟨zs, hxs, hzs⟩
    · rw [hys, eq_nil_of_separator hds hzs, List.append_nil]
    · rw [hxs, eq_nil_of_separator hes hzs, List.append_nil]
  rw [hxs, List.append_cancel_left_eq, List.cons.injEq] at h
  exact ⟨hxs, h.2⟩

theorem toList_idempotencyKey (message : String) (retries : Nat) :
    (idempotencyKey message retries).toList =
      message.toList ++ '-' :: Nat.toDigits 10 (min (retries + 1) nat32Max) := by
  have digits (n : Nat) : (toString n).toList = Nat.toDigits 10 n := String.toList_ofList
  rw [idempotencyKey, String.toList_append, String.toList_append, digits, List.append_assoc]
  rfl

theorem idempotencyKey_eq_iff {message message' : String} {retries retries' : Nat} :
    idempotencyKey message retries = idempotencyKey message' retries' ↔
      message = message' ∧
        (retries = retries' ∨ nat32Max - 1 ≤ retries ∧ nat32Max - 1 ≤ retries') := by
  have hmax : 0 < nat32Max := by decide
  constructor
  · intro h
    have hlist := congrArg String.toList h
    rw [toList_idempotencyKey, toList_idempotencyKey] at hlist
    obtain ⟨hmessage, hdigits⟩ :=
      append_separator_inj (dash_not_mem_toDigits _) (dash_not_mem_toDigits _) hlist
    have hcount : min (retries + 1) nat32Max = min (retries' + 1) nat32Max := by
      rw [← Nat.ofDigitChars_ten_toDigits (n := min (retries + 1) nat32Max), hdigits,
        Nat.ofDigitChars_ten_toDigits]
    exact ⟨String.toList_inj.mp hmessage, by omega⟩
  · rintro ⟨rfl, hretries⟩
    have hcount : min (retries + 1) nat32Max = min (retries' + 1) nat32Max := by omega
    rw [idempotencyKey, hcount, idempotencyKey]

/-- The key of a transaction, if it has one, tells the message that it is about. -/
def Tx.KeyTells (tx : Tx) : Prop :=
  ∀ key, tx.key = some key → ∃ message retries,
    tx.about.bind Meta.soleMessage? = some message ∧ key = idempotencyKey message retries

namespace Submission

def sender : Submission → Address
  | .probing r | .checking r _ => r.sender
  | .reserving tx | .admitting tx | .delivering tx => tx.sender

/-- The one message that a request is about. -/
def message? : Submission → Option String
  | .probing r | .checking r _ => r.about.bind Meta.soleMessage?
  | .reserving tx | .admitting tx | .delivering tx => tx.about.bind Meta.soleMessage?

def KeyTells : Submission → Prop
  | .probing _ => True
  | .checking r message => r.about.bind Meta.soleMessage? = some message
  | .reserving tx | .admitting tx | .delivering tx => tx.KeyTells

end Submission

theorem Store.held_of_duplicateKey {s : Store} {tx : Tx} {key : String}
    (h : s.addPending tx = .error (.duplicateKey key)) :
    tx.key = some key ∧ ∃ id, s.keys.get? key = some id := by
  unfold addPending at h
  split at h
  · cases h
  · split at h
    · cases h
    · rename_i other hkey
      split at h
      · rename_i hheld
        cases h
        exact ⟨hkey, Option.isSome_iff_exists.mp hheld⟩
      · cases h

namespace Submission

open Manager

variable {m : Manager} {q q' : Submission} {key : String}

theorem KeyTells.proceed (h : q.KeyTells) (fresh : String) (answer : q.Answer)
    (hq : (m.proceed fresh q answer).2 = .waiting q') : q'.KeyTells := by
  cases q with
  | probing r =>
    rcases answer with e | signature
    · cases hq
    · simp only [Manager.proceed, prepare] at hq
      split at hq
      · rename_i message hsole
        split at hq
        · cases hq
          exact hsole
        · cases hq
          rintro key ⟨⟩
      · cases hq
        rintro key ⟨⟩
  | checking r message =>
    rcases answer with e | retries
    · cases hq
    · simp only [Manager.proceed, prepare] at hq
      split at hq
      · cases hq
      · cases hq
        rintro key ⟨⟩
        exact ⟨message, retries, h, rfl⟩
  | reserving tx =>
    have hq : (m.reserve tx).2 = .waiting q' := hq
    rcases m.reserve_eq tx with hp | hp | hp <;> rw [hp] at hq <;> cases hq
    exact h
  | admitting tx =>
    have hq : (m.takeIn tx).2 = .waiting q' := hq
    unfold takeIn at hq
    split at hq
    · cases hq
    · cases hq
    · cases hq
      exact h
  | delivering tx => cases hq

/-- A request is a duplicate when its key is on record, at the answer about its message or when
it is to be taken in. The key tells its message. -/
theorem KeyTells.duplicate (h : q.KeyTells) (fresh : String) (answer : q.Answer)
    (hq : (m.proceed fresh q answer).2 = .rejected (.duplicateSubmission key)) :
    (∃ message retries, q.message? = some message ∧ key = idempotencyKey message retries) ∧
      ∃ id, (m.store q.sender).keys.get? key = some id := by
  cases q with
  | probing r =>
    rcases answer with e | signature
    · cases hq
    · simp only [Manager.proceed, prepare] at hq
      split at hq
      · split at hq
        · cases hq
        · cases hq
      · cases hq
  | checking r message =>
    rcases answer with e | retries
    · cases hq
    · simp only [Manager.proceed, prepare] at hq
      split at hq
      · rename_i hheld
        cases hq
        exact ⟨⟨message, retries, h, rfl⟩, Option.isSome_iff_exists.mp hheld⟩
      · cases hq
  | reserving tx =>
    have hq : (m.reserve tx).2 = .rejected (.duplicateSubmission key) := hq
    rcases m.reserve_eq tx with hp | hp | hp <;> rw [hp] at hq <;> cases hq
  | admitting tx =>
    have hq : (m.takeIn tx).2 = .rejected (.duplicateSubmission key) := hq
    unfold takeIn at hq
    split at hq
    · rename_i other hstore
      cases hq
      obtain ⟨hkey, hheld⟩ := Store.held_of_duplicateKey hstore
      exact ⟨h key hkey, hheld⟩
    · cases hq
    · cases hq
  | delivering tx => cases hq

end Submission

namespace System

open Manager

variable {s₀ s s' : System} {act : Act} {acts earlier later : List Act} {tx : Tx}

theorem Step.entering {q : Submission} {answer : q.Answer} {fresh : String}
    (hs : Step s (.proceed q answer fresh) s') : q ∈ s.submissions := by
  cases hs with
  | part hm => cases hm
  | proceed hc answer fresh => exact mem_submissions.mpr (mem_calls hc)

theorem Step.keyTells (h : ∀ q ∈ s.submissions, q.KeyTells) (hs : Step s act s') :
    ∀ q ∈ s'.submissions, q.KeyTells := by
  intro q hq
  rcases hs.submission_cases with
    ⟨before, after, p, answer, fresh, rfl, hc, rfl⟩ | ⟨r, rfl, rfl⟩ | ⟨hsame, -⟩
  · rcases mem_calls_or_waiting hc (mem_submissions.mp hq) with hq | ⟨p', hp, hq⟩
    · exact h q (mem_submissions.mpr hq)
    · cases hq
      exact (h p (mem_submissions.mpr (mem_calls hc))).proceed fresh answer hp
  · rcases List.mem_append.mp (mem_submissions.mp hq) with hq | hq
    · exact h q (mem_submissions.mpr hq)
    · cases List.mem_singleton.mp hq
      trivial
  · rw [hsame] at hq
    exact h q hq

theorem Run.keyTells (h₀ : s₀.calls = []) (hr : Run s₀ acts s) :
    ∀ q ∈ s.submissions, q.KeyTells := by
  refine hr.induct (P := fun s => ∀ q ∈ s.submissions, q.KeyTells) ?_ Step.keyTells
  rw [submissions, h₀]
  rintro q ⟨⟩

/-- What is on record came in as a request whose key told its message. -/
theorem Tenure.keyTells (h₀ : s₀.calls = []) (h : Tenure s₀ tx earlier later s) :
    tx.KeyTells := by
  induction h with
  | admitted hr hnew hs hin hacts => exact hr.keyTells h₀ _ hs.entering
  | next h hs hin ih => exact ih

/-- Two keys are the same just if their messages are and their retries are, or are both too many
to be counted on. A request that is turned away as a duplicate is so for the sake of one that
the same sender has on record, and that came in with the same key and about the same message. -/
theorem duplicates_share_message :
    (∀ message message' retries retries',
      idempotencyKey message retries = idempotencyKey message' retries' ↔
        message = message' ∧
          (retries = retries' ∨ 2 ^ 32 - 2 ≤ retries ∧ 2 ^ 32 - 2 ≤ retries')) ∧
    ∀ settings on m now acts s, ofSettings settings on = .ok m →
      Run { manager := m, now } acts s → ∀ q ∈ s.submissions, ∀ answer fresh key,
      (s.manager.proceed fresh q answer).2 = .rejected (.duplicateSubmission key) →
      ∃ message tx earlier later, q.message? = some message ∧
        Tenure { manager := m, now } tx earlier later s ∧ tx.sender = q.sender ∧
        tx.key = some key ∧ tx.about.bind Meta.soleMessage? = some message := by
  refine ⟨fun message message' retries retries' => idempotencyKey_eq_iff, ?_⟩
  intro settings on m now acts s hm hr q hq answer fresh key hdup
  have hg₀ := guarded_initial hm now
  obtain ⟨⟨message, retries, hmessage, rfl⟩, id, hheld⟩ :=
    (hr.keyTells rfl q hq).duplicate fresh answer hdup
  obtain ⟨e, he, hkey⟩ :=
    (((hr.guarded hg₀).consistent q.sender).keys_iff _ id).mp hheld
  have hnone : ¬ m.Tracks q.sender id := by
    rintro ⟨e, he⟩
    rw [store_initial hm] at he
    cases he
  obtain ⟨tx, earlier, later, hsender, hid, -, ht⟩ := hr.tenure hnone ⟨e, he⟩
  obtain ⟨e', he', hsame⟩ := ht.entry
  rw [hsender, hid, he, Option.some.injEq] at he'
  rw [← he', hkey] at hsame
  obtain ⟨message', retries', hsole, hkeys⟩ := ht.keyTells rfl _ hsame.symm
  obtain ⟨rfl, -⟩ := idempotencyKey_eq_iff.mp hkeys
  exact ⟨message, tx, earlier, later, hmessage, ht, hsender, hsame.symm, hsole⟩

/-- A request comes in about the message m, and one more about m is turned away for its sake.
Behind the message m-1 the key would have been another. -/
theorem duplicates_share_message_checkedSample :
    idempotencyKey "m-1" 1 ≠ idempotencyKey "m" 1 ∧ ∃ m acts s, ofSettings {} true = .ok m ∧
      Run { manager := m, now := 0 } acts s ∧ .checking checkedSample "m" ∈ s.submissions ∧
      (s.manager.proceed "" (.checking checkedSample "m") (.ok 0)).2 =
        .rejected (.duplicateSubmission (idempotencyKey "m" 0)) ∧
      ∃ tx earlier later, Tenure { manager := m, now := 0 } tx earlier later s ∧
        tx.sender = checkedSample.sender ∧ tx.about.bind Meta.soleMessage? = some "m" := by
  obtain ⟨same, share⟩ := duplicates_share_message
  refine ⟨fun h => absurd ((same _ _ _ _).mp h).1 (by decide), ?_⟩
  have hm : ofSettings {} true =
      .ok { settings := {}, checksMessages := true, estimator := .ofSettings {} } := by
    rw [ofSettings, Settings.validate, fault?_default]
  have habout : checkedSample.about.bind Meta.soleMessage? = some "m" := rfl
  have hstart : Run
    { manager := { settings := {}, checksMessages := true, estimator := .ofSettings {} }, now := 0 }
    [] _ := .start
  obtain ⟨accounts, metrics, events, t, ht, hstore, hfirst⟩ :=
    hstart.checkedRequest rfl habout rfl [] 0 rfl rfl rfl "" rfl rfl
  have hsecond := hfirst.probe rfl habout rfl [] ""
  have hdup (m : Manager) (hm : m.accounts = accounts.ensure checkedSample.sender) :
      (m.proceed "" (.checking checkedSample "m") (.ok 0)).2 =
        .rejected (.duplicateSubmission (idempotencyKey "m" 0)) := by
    have hheld : (m.store checkedSample.sender).keys.get? (idempotencyKey "m" 0) =
        some (checkedSample.id.getD "") := by
      rw [Manager.store, hm, Accounts.store_ensure, hstore, Function.update_self]
      exact Store.keys_addPending ht rfl
    rw [proceed_checking_held hheld]
  obtain ⟨message, tx, earlier, later, hmessage, htenure, hsender, -, hsole⟩ :=
    share {} true _ 0 _ _ hm hsecond _ (mem_submissions.mpr (List.mem_singleton_self _))
      (.ok 0) "" _ (hdup _ rfl)
  cases hmessage
  exact ⟨_, _, _, hm, hsecond, mem_submissions.mpr (List.mem_singleton_self _), hdup _ rfl, tx,
    earlier, later, htenure, hsender, hsole⟩

end System

end TronCourier
