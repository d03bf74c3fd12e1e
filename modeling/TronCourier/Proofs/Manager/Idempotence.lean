import TronCourier.Proofs.Manager.Passage
import TronCourier.Proofs.Manager.Tenure
import TronCourier.Proofs.Store.Rows

/-! Requests that come more than once. As long as a store holds the key of one request, no
other request with that key gets further than to a place in the queue, which it gives back. -/

namespace TronCourier

/-- Whether a call holds a place in the queue. -/
def Call.hasPlace : Call → Bool
  | .entering (.admitting _) | .entering (.delivering _) => true
  | _ => false

/-- Whether an act brings a request under a key of a sender to its good end. -/
def Act.accepts (a : Address) (key : String) : Act → Bool
  | .proceed (.delivering tx) _ _ => tx.sender = a ∧ tx.key = some key
  | _ => false

/-- How many of some transactions a sender has under a key. -/
def bearing (copies : List Tx) (a : Address) (key : String) : Nat :=
  copies.countP fun tx => tx.sender = a ∧ tx.key = some key

variable {a : Address} {key : String} {tx : Tx} {copies : List Tx}

theorem bearing_append (l₁ l₂ : List Tx) (a : Address) (key : String) :
    bearing (l₁ ++ l₂) a key = bearing l₁ a key + bearing l₂ a key :=
  List.countP_append

theorem bearing_eq_zero_iff : bearing copies a key = 0 ↔
    ∀ tx ∈ copies, ¬ (tx.sender = a ∧ tx.key = some key) := by
  simp only [bearing, List.countP_eq_zero, decide_eq_true_eq]

theorem bearing_singleton (hkey : tx.key = some key) : bearing [tx] tx.sender key = 1 := by
  simp [bearing, hkey]

theorem countP_accepts (a : Address) (key : String) (q : Submission) (answer : q.Answer)
    (fresh : String) :
    [Act.proceed q answer fresh].countP (Act.accepts a key) = bearing q.tx?.toList a key := by
  cases q with
  | delivering tx => simp [bearing, Submission.tx?, List.countP_singleton, Act.accepts]
  | probing r | checking r message | reserving tx | admitting tx => rfl

theorem countP_accepts_eq_zero {act : Act} (h : act.submission? = none) (a : Address)
    (key : String) : [act].countP (Act.accepts a key) = 0 := by
  cases act with
  | proceed => cases h
  | pass | submit | answered | informed | silent => rfl

open Manager in
theorem PartStep.promised_eq {m m' : Manager} {now : Nat} {act : Act}
    (hs : PartStep m now act m') : m'.promised = m.promised := by
  rcases hs.owner_cases with
    hm | ⟨a, answer, -, -, rfl⟩ | ⟨p, due, -, -, -, rfl⟩ | ⟨-, _, _, _, _, _, rfl⟩ |
    ⟨-, _, _, _, rfl⟩
  · obtain ⟨tx, rest, metrics, -, -, rfl⟩ := take?_eq_some hm
    rfl
  · obtain ⟨x, stores, ⟨⟨_, _, _, _, hm⟩, -⟩⟩ := m.answered_leaves now a answer
    rw [hm]
  · rfl
  · rfl
  · rfl

namespace Manager

variable {m : Manager} {r : Request} {message id : String} {retries : Nat}

theorem proceed_checking_held
    (hheld : (m.store r.sender).keys.get? (idempotencyKey message retries) = some id)
    (fresh : String) : m.proceed fresh (.checking r message) (.ok retries) =
      (m, .rejected (.duplicateSubmission (idempotencyKey message retries))) := by
  simp [proceed, Table.contains, hheld]

theorem reserve_eq (m : Manager) (tx : Tx) :
    m.reserve tx = (m, .rejected .closed) ∨
    m.reserve tx = (m, .rejected (.queueFull m.settings.queueCapacity)) ∨
    m.reserve tx = ({ m with promised := m.promised + 1 }, .waiting (.admitting tx)) := by
  unfold reserve
  split
  · exact .inl rfl
  · split
    · exact .inr (.inl rfl)
    · exact .inr (.inr rfl)

/-- A request takes a place to be admitted, and gives it back or uses it. -/
theorem promised_proceed (fresh : String) {q : Submission} (answer : q.Answer) {n : Nat}
    (h : m.promised = n + if (Call.entering q).hasPlace then 1 else 0) :
    (m.proceed fresh q answer).1.promised =
      n + (m.proceed fresh q answer).2.calls.countP Call.hasPlace := by
  cases q with
  | probing r =>
    have h : m.promised = n := h
    rcases answer with e | signature
    · exact h
    · simp only [proceed, prepare]
      split
      · split
        · exact h
        · exact h
      · exact h
  | checking r message =>
    have h : m.promised = n := h
    rcases answer with e | retries
    · exact h
    · simp only [proceed, prepare]
      split
      · exact h
      · exact h
  | reserving tx =>
    have h : m.promised = n := h
    show (m.reserve tx).1.promised = n + (m.reserve tx).2.calls.countP Call.hasPlace
    rcases m.reserve_eq tx with hp | hp | hp
    · rw [hp]
      exact h
    · rw [hp]
      exact h
    · rw [hp]
      exact congrArg (· + 1) h
  | admitting tx =>
    have h : m.promised = n + 1 := h
    have hback : m.promised - 1 = n := by omega
    show (m.takeIn tx).1.promised = n + (m.takeIn tx).2.calls.countP Call.hasPlace
    unfold takeIn
    split
    · exact hback
    · exact hback
    · exact h
  | delivering tx =>
    have h : m.promised = n + 1 := h
    show m.promised - 1 = n
    omega

theorem takeIn_held (hkey : tx.key = some key)
    (hheld : (m.store tx.sender).keys.get? key = some id) :
    m.takeIn tx = (m.release, .rejected (.duplicateSubmission key)) ∨
      m.takeIn tx = (m.release, .rejected (.store (.duplicateId tx.id))) := by
  unfold takeIn Store.addPending
  by_cases hid : (m.store tx.sender).entries.contains tx.id = true
  · rw [if_pos hid]
    exact .inr rfl
  · have hcontains : (m.store tx.sender).keys.contains key = true := by
      simp [Table.contains, hheld]
    simp only [if_neg hid, hkey, if_pos hcontains]
    exact .inl trivial

theorem proceed_accepted {q : Submission} {answer : q.Answer} {fresh : String}
    (h : (m.proceed fresh q answer).2 = .accepted id) : ∃ tx, q = .delivering tx ∧ tx.id = id := by
  cases q with
  | probing r =>
    rcases answer with e | signature
    · cases h
    · simp only [proceed, prepare] at h
      split at h
      · split at h <;> cases h
      · cases h
  | checking r message =>
    rcases answer with e | retries
    · cases h
    · simp only [proceed, prepare] at h
      split at h <;> cases h
  | reserving tx =>
    have h : (m.reserve tx).2 = .accepted id := h
    rcases m.reserve_eq tx with hp | hp | hp
    · rw [hp] at h
      cases h
    · rw [hp] at h
      cases h
    · rw [hp] at h
      cases h
  | admitting tx =>
    have h : (m.takeIn tx).2 = .accepted id := h
    unfold takeIn at h
    split at h <;> cases h
  | delivering tx =>
    cases h
    exact ⟨tx, rfl, rfl⟩

/-- What becomes of requests under a key that another holds. They get no further than to a
place in the queue, which they give back. -/
structure Barred (m : Manager) (a : Address) (key : String) : Prop where
  checking : ∀ r message retries fresh, r.sender = a → idempotencyKey message retries = key →
    m.proceed fresh (.checking r message) (.ok retries) =
      (m, .rejected (.duplicateSubmission key))
  reserving : ∀ tx fresh, tx.sender = a → tx.key = some key →
    m.proceed fresh (.reserving tx) () = (m, .rejected .closed) ∨
    m.proceed fresh (.reserving tx) () =
      (m, .rejected (.queueFull m.settings.queueCapacity)) ∨
    m.proceed fresh (.reserving tx) () =
      ({ m with promised := m.promised + 1 }, .waiting (.admitting tx))
  admitting : ∀ tx fresh, tx.sender = a → tx.key = some key →
    m.proceed fresh (.admitting tx) () = (m.release, .rejected (.duplicateSubmission key)) ∨
    m.proceed fresh (.admitting tx) () =
      (m.release, .rejected (.store (.duplicateId tx.id)))

/-- Before it is in the store a request has no effect on stores, queue and counters. -/
theorem queueLeaves_proceed {q : Submission} (hdelivering : ∀ tx, q ≠ .delivering tx)
    (hadmitting : ∀ tx t, q = .admitting tx → (m.store tx.sender).addPending tx ≠ .ok t)
    (answer : q.Answer) (fresh : String) : m.QueueLeaves (m.proceed fresh q answer).1 := by
  rcases m.proceed_cases fresh q answer with ⟨tx, t, hq, ht, -⟩ | ⟨tx, hq, -⟩ | ⟨-, hm, -⟩
  · exact absurd ht (hadmitting tx t hq)
  · exact absurd hq (hdelivering tx)
  · exact hm

theorem barred_of_held (hheld : (m.store a).keys.get? key = some id) : m.Barred a key where
  checking := by
    rintro r message retries fresh rfl rfl
    exact proceed_checking_held hheld fresh
  reserving tx _ _ _ := m.reserve_eq tx
  admitting := by
    rintro tx fresh rfl hkey
    exact takeIn_held hkey hheld

end Manager

namespace System

open Manager

variable {s₀ s s' : System} {act : Act} {acts earlier later : List Act} {id : String}

theorem bearing_calls (before after : List Call) (c : Call) (a : Address) (key : String) :
    bearing ((before ++ c :: after).filterMap Call.tx?) a key =
      bearing (before.filterMap Call.tx?) a key + bearing c.tx?.toList a key +
        bearing (after.filterMap Call.tx?) a key := by
  rw [filterMap_calls, bearing_append, bearing_append]

theorem bearing_progress {q : Submission} (answer : q.Answer) (fresh : String)
    (hheld : (s.manager.store a).keys.get? key = some id) :
    bearing ((s.manager.proceed fresh q answer).2.calls.filterMap Call.tx?) a key = 0 := by
  rcases s.manager.proceed_cases fresh q answer with
    ⟨tx, t, rfl, ht, hp, -, -⟩ | ⟨tx, rfl, hp⟩ | ⟨-, -, hnone⟩
  · rw [hp]
    refine bearing_eq_zero_iff.mpr fun tx' htx' => ?_
    obtain rfl : tx' = tx := List.mem_singleton.mp htx'
    rintro ⟨rfl, hkey⟩
    rw [(Store.addPending_eq_ok_iff.mp ht).2.1 key hkey] at hheld
    cases hheld
  · rw [hp]
    rfl
  · cases hp : (s.manager.proceed fresh q answer).2 with
    | waiting q' =>
      simp [Progress.calls, Call.tx?, hnone q' hp, bearing]
    | accepted id => rfl
    | rejected e => rfl

/-- While a key is held, its requests in the calls only become fewer, by those that are
accepted. -/
theorem Step.bearing_eq (hs : Step s act s')
    (hheld : (s.manager.store a).keys.get? key = some id) :
    bearing (s'.calls.filterMap Call.tx?) a key + [act].countP (Act.accepts a key) =
      bearing (s.calls.filterMap Call.tx?) a key := by
  rcases hs.submission_cases with
    ⟨before, after, q, answer, fresh, rfl, hc, rfl⟩ | ⟨r, rfl, rfl⟩ | ⟨hsame, hact, -⟩
  · have hprogress := bearing_progress answer fresh hheld
    rw [hc, bearing_calls, countP_accepts]
    simp only [List.filterMap_append, bearing_append, hprogress, Call.tx?]
    omega
  · rw [filterMap_rest rfl, List.append_nil]
    rfl
  · rw [filterMap_submissions, hsame, ← filterMap_submissions,
      countP_accepts_eq_zero hact, Nat.add_zero]

theorem Step.admitted {fresh : String} (hs : Step s (.proceed (.admitting tx) () fresh) s')
    (hnew : ¬ s.manager.Tracks tx.sender tx.id) (hin : s'.manager.Tracks tx.sender tx.id) :
    ∃ t, (s.manager.store tx.sender).addPending tx = .ok t ∧
      s'.manager.store = Function.update s.manager.store tx.sender t ∧
      ∀ a key, bearing (s'.calls.filterMap Call.tx?) a key =
        bearing (s.calls.filterMap Call.tx?) a key + bearing [tx] a key := by
  cases hs with
  | part hm => cases hm
  | proceed hc answer fresh =>
    rcases s.manager.takeIn_cases tx with ⟨t, ht, hp, hm⟩ | ⟨-, hm⟩
    · refine ⟨t, ht, hm.2, fun a key => ?_⟩
      have hcalls : (s.manager.proceed fresh (.admitting tx) ()).2.calls =
          [.entering (.delivering tx)] := congrArg Progress.calls hp
      rw [hc, bearing_calls]
      simp only [hcalls, List.filterMap_append, bearing_append]
      show _ + bearing [tx] a key + _ = _ + bearing [] a key + _ + _
      have hnone : bearing [] a key = 0 := rfl
      omega
    · -- nothing has changed in the stores, so that it was on record before
      refine absurd ?_ hnew
      obtain ⟨e, he⟩ := hin
      have hsame : (s.manager.takeIn tx).1.store = s.manager.store := hm.2
      exact ⟨e, hsame ▸ he⟩

theorem Guarded.holder (hg : s.Guarded) (htx : tx ∈ s.copies) (hkey : tx.key = some key) :
    (s.manager.store tx.sender).keys.get? key = some tx.id := by
  obtain ⟨e, he, -, hsame⟩ := hg.current htx
  exact ((hg.consistent tx.sender).keys_iff key tx.id).mpr ⟨e, he, hsame ▸ hkey⟩

theorem Tenure.entry (h : Tenure s₀ tx earlier later s) :
    ∃ e, (s.manager.store tx.sender).entries.get? tx.id = some e ∧ e.tx.key = tx.key := by
  induction h with
  | admitted hr hnew hs hin hacts =>
    obtain ⟨t, ht, hstore, -⟩ := hs.admitted hnew hin
    refine ⟨.ofTx tx, ?_, rfl⟩
    rw [hstore, Function.update_self]
    exact Store.get?_addPending ht
  | next h hs hin ih =>
    obtain ⟨e, he, hkey⟩ := ih
    obtain ⟨e', he'⟩ := hin
    exact ⟨e', he', (hs.key_eq he he').trans hkey⟩

theorem Tenure.holds_key (h : Tenure s₀ tx earlier later s) (hg : s₀.Guarded)
    (hkey : tx.key = some key) : (s.manager.store tx.sender).keys.get? key = some tx.id := by
  obtain ⟨e, he, hsame⟩ := h.entry
  have hc := (h.run.guarded hg).consistent tx.sender
  exact (hc.keys_iff key tx.id).mpr ⟨e, he, hsame.trans hkey⟩

/-- One request under the key is still to be accepted, or was accepted. -/
theorem Tenure.bearing_eq (h : Tenure s₀ tx earlier later s) (hg : s₀.Guarded)
    (hkey : tx.key = some key) :
    bearing (s.calls.filterMap Call.tx?) tx.sender key +
      later.countP (Act.accepts tx.sender key) = 1 := by
  induction h with
  | @admitted acts fresh s s' hr hnew hs hin hacts =>
    obtain ⟨t, ht, -, hcalls⟩ := hs.admitted hnew hin
    have hfree := (Store.addPending_eq_ok_iff.mp ht).2.1 key hkey
    -- a request that had come as far would have the key on record, and it was free
    have hnone : bearing (s.calls.filterMap Call.tx?) tx.sender key = 0 := by
      refine bearing_eq_zero_iff.mpr fun tx' htx' ⟨hsender, hkey'⟩ => ?_
      have hholder := (hr.guarded hg).holder (List.mem_append_left _ htx') hkey'
      rw [hsender, hfree] at hholder
      cases hholder
    rw [hcalls, hnone, bearing_singleton hkey]
    rfl
  | next h hs hin ih =>
    have hstep := hs.bearing_eq (h.holds_key hg hkey)
    rw [List.countP_append]
    omega

theorem Tenure.bearing_copies (h : Tenure s₀ tx earlier later s) (hg : s₀.Guarded)
    (hkey : tx.key = some key) : bearing s.copies tx.sender key ≤ 1 := by
  have hs := h.run.guarded hg
  have hheld := h.holds_key hg hkey
  -- whatever has the key is the transaction on record under it, and of that there is one copy
  have hsame : bearing s.copies tx.sender key ≤ held s.copies tx.sender tx.id := by
    refine List.countP_mono_left fun other hother hbears => ?_
    obtain ⟨hsender, hkey'⟩ := of_decide_eq_true hbears
    have hholder := hs.holder hother hkey'
    rw [hsender, hheld, Option.some.injEq] at hholder
    exact decide_eq_true ⟨hsender, hholder.symm⟩
  have hone := Bool.toNat_le ((s.manager.store tx.sender).isOpen tx.id)
  exact Nat.le_trans hsame (Nat.le_trans (hs.held_le tx.sender tx.id) hone)

theorem Step.key_free (hs : Step s act s') (hg : s.Guarded)
    (hheld : (s.manager.store a).keys.get? key = some id) (hout : ¬ s'.manager.Tracks a id) :
    (s'.manager.store a).keys.get? key = none := by
  by_contra hne
  obtain ⟨j, hj⟩ := Option.ne_none_iff_exists'.mp hne
  obtain ⟨e', he', hkey'⟩ := (((hs.guarded hg).consistent a).keys_iff key j).mp hj
  obtain ⟨e, he, hkey⟩ := ((hg.consistent a).keys_iff key id).mp hheld
  have hbefore : ∃ d, (s.manager.store a).entries.get? j = some d ∧ d.tx.key = some key := by
    cases hd : (s.manager.store a).entries.get? j with
    | some d => exact ⟨d, rfl, (hs.key_eq hd he').symm.trans hkey'⟩
    | none =>
      -- what is new on record was admitted, which needs a free key
      obtain ⟨tx, fresh, rfl, rfl, rfl, rfl⟩ := hs.admission hd he'
      have hnew : ¬ s.manager.Tracks tx.sender tx.id := fun ⟨d, hin⟩ =>
        nomatch hd.symm.trans hin
      obtain ⟨t, ht, -⟩ := hs.admitted hnew ⟨_, he'⟩
      rw [(Store.addPending_eq_ok_iff.mp ht).2.1 key hkey'] at hheld
      cases hheld
  obtain ⟨d, hd, hdkey⟩ := hbefore
  obtain rfl := (hg.consistent a).id_eq_of_key_eq he hd hkey hdkey
  exact hout ⟨e', he'⟩

/-- The places that are promised are those that calls hold. -/
def Placed (s : System) : Prop :=
  s.manager.promised = s.calls.countP Call.hasPlace

theorem countP_submissions (s : System) : s.calls.countP Call.hasPlace =
    s.submissions.countP fun q => (Call.entering q).hasPlace := by
  rw [submissions, List.countP_filterMap]
  refine List.countP_congr fun c _ => ?_
  cases c <;> simp [Call.submission?, Call.hasPlace]

theorem Step.placed (h : s.Placed) (hs : Step s act s') : s'.Placed := by
  unfold Placed at h ⊢
  rcases hs.submission_cases with
    ⟨before, after, q, answer, fresh, -, hc, rfl⟩ | ⟨r, -, rfl⟩ | ⟨hsame, -, hm⟩
  · rw [hc, List.countP_append, List.countP_cons] at h
    rw [List.countP_append, List.countP_append]
    have hplaces := promised_proceed fresh answer (q := q)
      (n := before.countP Call.hasPlace + after.countP Call.hasPlace) (by rw [h]; omega)
    show (s.manager.proceed fresh q answer).1.promised = _
    omega
  · rw [List.countP_append, ← h]
    rfl
  · rw [countP_submissions, hsame, ← countP_submissions, ← h]
    rcases hm with hm | ⟨w, hm⟩ | ⟨w, hm⟩ | ⟨_, _, _, _, hm⟩
    · exact hm.promised_eq
    · rw [hm]
      cases w <;> rfl
    · rw [hm]
      cases w <;> rfl
    · rw [hm]

section Key

variable {settings : Settings} {on : Bool} {m : Manager} {now : Nat}

theorem Run.checksMessages (hm : ofSettings settings on = .ok m)
    (hr : Run { manager := m, now } acts s) : s.manager.checksMessages = on := by
  obtain ⟨-, rfl⟩ := ofSettings_eq_ok hm
  exact hr.fixed.2

theorem Run.placed (hm : ofSettings settings on = .ok m)
    (hr : Run { manager := m, now } acts s) : s.Placed := by
  obtain ⟨-, rfl⟩ := ofSettings_eq_ok hm
  exact hr.induct (P := Placed) rfl fun h hs => hs.placed h

/-- A request whose message is new to the store can come in, and its transaction goes on
record with its key. -/
theorem Run.readmit (hchecks : s.manager.checksMessages = true) {r : Request}
    (hr : s.manager.submit r = .ok (.probing r)) {message : String}
    (hsole : r.about.bind Meta.soleMessage? = some message) (signature : Bytes) (retries : Nat)
    (hkey : (s.manager.store r.sender).keys.get? (idempotencyKey message retries) = none)
    (hopen : s.manager.queueOpen = true) (hroom : s.manager.hasRoom = true) (fresh : String)
    (hid : (s.manager.store r.sender).entries.get? (r.id.getD fresh) = none)
    (htx : tx = { Tx.ofRequest (r.id.getD fresh) r with
      key := some (idempotencyKey message retries) }) :
    ∃ s', Run s [.submit r, .proceed (.probing r) (.ok signature) fresh,
        .proceed (.checking r message) (.ok retries) fresh,
        .proceed (.reserving tx) () fresh, .proceed (.admitting tx) () fresh,
        .proceed (.delivering tx) () fresh] s' ∧
      s'.manager.queue = s.manager.queue ++ [tx] ∧
      (s'.manager.store tx.sender).entries.get? tx.id = some (.ofTx tx) ∧
      (s'.manager.store tx.sender).keys.get? (idempotencyKey message retries) = some tx.id := by
  have hstart : Run s [] s := .start
  obtain ⟨accounts, metrics, events, t, ht, hstore, h⟩ := hstart.checkedRequest hr hsole hchecks
    signature retries hkey hopen hroom fresh hid htx
  have hsender : r.sender = tx.sender := by
    rw [htx]
    rfl
  have hown : accounts.store tx.sender = t := by
    rw [hstore, hsender, Function.update_self]
  refine ⟨_, h, rfl, ?_, ?_⟩
  · show (accounts.store tx.sender).entries.get? tx.id = _
    rw [hown]
    exact Store.get?_addPending ht
  · show (accounts.store tx.sender).keys.get? _ = _
    rw [hown]
    exact Store.keys_addPending ht (by rw [htx])

/-- Requests of a sender with one message each of which the checker has told the same have one
key. From the time when one of them is taken in until it is evicted it holds the key. It is
the only one that is accepted in that time and of which there is anything to be sent, and what
others do leaves the stores, the queue and the counters as they are. Then the key is free, and
a request with it can come in again. -/
theorem one_accepted_per_key (hm : ofSettings settings true = .ok m)
    (hr : Run { manager := m, now } acts s) :
    (∀ q tx, .entering q ∈ s.calls → q.made? = some tx → tx.Made true acts) ∧
    (∀ q answer fresh id, (s.manager.proceed fresh q answer).2 = .accepted id →
      ∃ tx, q = .delivering tx ∧ tx.id = id) ∧
    (∀ q answer fresh, (∀ tx, q ≠ .delivering tx) →
      (∀ tx t, q = .admitting tx → (s.manager.store tx.sender).addPending tx ≠ .ok t) →
      s.manager.QueueLeaves (s.manager.proceed fresh q answer).1) ∧
    s.manager.promised = s.calls.countP Call.hasPlace ∧
    (∀ tx earlier later key, Tenure { manager := m, now } tx earlier later s →
      tx.key = some key →
      (s.manager.store tx.sender).keys.get? key = some tx.id ∧
      bearing (s.calls.filterMap Call.tx?) tx.sender key +
        later.countP (Act.accepts tx.sender key) = 1 ∧
      bearing s.copies tx.sender key ≤ 1 ∧
      (∀ other ∈ s.copies, other.sender = tx.sender → other.key = some key →
        other.id = tx.id) ∧
      s.manager.Barred tx.sender key ∧
      ∀ act s', Step s act s' → ¬ s'.manager.Tracks tx.sender tx.id →
        (s'.manager.store tx.sender).keys.get? key = none) ∧
    ∀ r message signature retries fresh tx,
      tx = { Tx.ofRequest (r.id.getD fresh) r with
        key := some (idempotencyKey message retries) } →
      s.manager.submit r = .ok (.probing r) →
      r.about.bind Meta.soleMessage? = some message →
      (s.manager.store r.sender).keys.get? (idempotencyKey message retries) = none →
      (s.manager.store r.sender).entries.get? (r.id.getD fresh) = none →
      s.manager.queueOpen = true → s.manager.hasRoom = true →
      ∃ s', Run s [.submit r, .proceed (.probing r) (.ok signature) fresh,
          .proceed (.checking r message) (.ok retries) fresh,
          .proceed (.reserving tx) () fresh, .proceed (.admitting tx) () fresh,
          .proceed (.delivering tx) () fresh] s' ∧
        s'.manager.queue = s.manager.queue ++ [tx] ∧
        (s'.manager.store tx.sender).entries.get? tx.id = some (.ofTx tx) ∧
        (s'.manager.store tx.sender).keys.get? (idempotencyKey message retries) =
          some tx.id := by
  have hchecks := hr.checksMessages hm
  have hg₀ := guarded_initial hm now
  have hg := hr.guarded hg₀
  refine ⟨fun q tx hq htx => ?_, fun q answer fresh id => proceed_accepted,
    fun q answer fresh hdelivering hadmitting =>
      queueLeaves_proceed hdelivering hadmitting answer fresh,
    hr.placed hm, fun tx earlier later key ht hkey => ?_, ?_⟩
  · have hmade := hr.allMade allMade_initial q hq
    rw [hchecks] at hmade
    exact hmade.tx htx
  · have hheld := ht.holds_key hg₀ hkey
    refine ⟨hheld, ht.bearing_eq hg₀ hkey, ht.bearing_copies hg₀ hkey,
      fun other hother hsender hkey' => ?_, barred_of_held hheld,
      fun act s' hs hout => hs.key_free hg hheld hout⟩
    have hholder := hg.holder hother hkey'
    rw [hsender, hheld, Option.some.injEq] at hholder
    exact hholder.symm
  · intro r message signature retries fresh tx htx hsubmit hsole hkey hid hopen hroom
    exact Run.readmit hchecks hsubmit hsole signature retries hkey hopen hroom fresh hid htx

/-- A request about one message. -/
def checkedSample : Request :=
  { sampleRequest with about := some ⟨some ["m"]⟩ }

/-- A request comes in when its message is new, and is turned away when it comes once more. -/
theorem one_accepted_per_key_checkedSample : ∃ m acts s, ofSettings {} true = .ok m ∧
    Run { manager := m, now := 0 } acts s ∧ s.manager.queue.length = 1 ∧
    (s.manager.store checkedSample.sender).keys.get? (idempotencyKey "m" 0) = some "t" ∧
    s.manager.proceed "" (.checking checkedSample "m") (.ok 0) =
      (s.manager, .rejected (.duplicateSubmission (idempotencyKey "m" 0))) := by
  have hm : ofSettings {} true =
      .ok { settings := {}, checksMessages := true, estimator := .ofSettings {} } := by
    rw [ofSettings, Settings.validate, fault?_default]
  have h₀ : Run { manager :=
    { settings := {}, checksMessages := true, estimator := .ofSettings {} }, now := 0 } [] _ :=
    .start
  obtain ⟨-, -, -, -, -, hagain⟩ := one_accepted_per_key hm h₀
  obtain ⟨s, h₁, hqueue, he, hheld⟩ :=
    hagain checkedSample "m" [] 0 "" _ rfl rfl rfl rfl rfl rfl rfl
  obtain ⟨tx, earlier, later, hsender, hid, -, ht⟩ :=
    h₁.tenure (by rintro ⟨e, hnone⟩; cases hnone) ⟨_, he⟩
  obtain ⟨e, he', hkey⟩ := ht.entry
  rw [hsender, hid, he, Option.some.injEq] at he'
  obtain rfl := he'
  obtain ⟨-, -, -, -, hholds, -⟩ := one_accepted_per_key hm h₁
  obtain ⟨-, -, -, -, hbarred, -⟩ := hholds tx earlier later _ ht hkey.symm
  refine ⟨_, _, s, hm, h₁, ?_, hheld, hbarred.checking checkedSample "m" 0 "" hsender.symm rfl⟩
  rw [hqueue]
  rfl

end Key

end System

end TronCourier
