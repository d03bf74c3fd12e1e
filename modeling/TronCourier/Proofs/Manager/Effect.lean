import Mathlib
import TronCourier.Manager.Broadcast
import TronCourier.Manager.Confirm
import TronCourier.Manager.Lifecycle
import TronCourier.Manager.Submission
import TronCourier.Proofs.Store.Operation

/-! What the operations of a manager do to its stores, and what they leave alone. -/

namespace TronCourier

namespace Accounts

theorem store_set (as : Accounts) (a : Address) (s : Store) :
    (as.set a s).store = Function.update as.store a s := by
  funext b
  by_cases h : a = b
  · subst h
    simp [store, set, Table.get?_insert]
  · simp [store, set, Table.get?_insert, h, Function.update_of_ne (Ne.symm h)]

theorem store_ensure (as : Accounts) (a : Address) : (as.ensure a).store = as.store := by
  funext b
  unfold ensure
  by_cases h : as.stores.contains a = true
  · rw [if_pos h]
  · rw [if_neg h]
    by_cases hb : a = b
    · subst hb
      simp only [Table.contains, Bool.not_eq_true, Option.isSome_eq_false_iff,
        Option.isNone_iff_eq_none] at h
      simp [store, Table.get?_insert, h]
    · simp [store, Table.get?_insert, hb]

/-- Stores that come of operations still do when one of them is replaced by such a store. -/
theorem exists_run_set {as : Accounts}
    (h : ∀ a, ∃ retention ops, as.store a = Store.empty.run retention ops) (b : Address)
    (retention : Nat) (ops : List Operation) (a : Address) :
    ∃ retention' ops', (as.set b (Store.empty.run retention ops)).store a =
      Store.empty.run retention' ops' := by
  rw [store_set]
  by_cases ha : a = b
  · subst ha
    exact ⟨retention, ops, Function.update_self ..⟩
  · rw [Function.update_of_ne ha]
    exact h a

theorem exists_run_empty (a : Address) :
    ∃ retention ops, empty.store a = Store.empty.run retention ops :=
  ⟨0, [], rfl⟩

end Accounts

/-- The transaction that a sender has at hand. -/
def Sender.tx? : Sender → Option Tx
  | .busy a => some a.tx
  | .asleep p _ => some p.tx
  | .absent | .idle | .stopped => none

/-- The transaction that a request has brought into a store, but not into the queue. -/
def Submission.tx? : Submission → Option Tx
  | .delivering tx => some tx
  | .probing _ | .checking _ _ | .reserving _ | .admitting _ => none

namespace Manager

/-- A manager whose parts are as they were, with these stores. -/
def Leaves (m m' : Manager) (stores : Address → Store) : Prop :=
  (∃ accounts metrics events,
    m' = { m with accounts := accounts, metrics := metrics, events := events }) ∧
  m'.store = stores

variable {m : Manager}

theorem store_setStore (m : Manager) (a : Address) (s : Store) :
    (m.setStore a s).store = Function.update m.store a s :=
  m.accounts.store_set a s

theorem store_ensure (m : Manager) (a : Address) :
    ({ m with accounts := m.accounts.ensure a } : Manager).store = m.store :=
  m.accounts.store_ensure a

theorem leaves_move (m : Manager) (a : Address) (id : String) (s : Store) :
    m.Leaves (m.move a id s) (Function.update m.store a s) := by
  unfold move
  split
  · exact ⟨⟨_, _, _, rfl⟩, m.store_setStore a s⟩
  · exact ⟨⟨_, _, _, rfl⟩, m.store_setStore a s⟩

theorem Leaves.count {m' : Manager} {stores : Address → Store} (h : m.Leaves m' stores)
    (change : Metrics → Metrics) : m.Leaves (m'.count change) stores := by
  obtain ⟨⟨accounts, metrics, events, rfl⟩, hs⟩ := h
  exact ⟨⟨_, _, _, rfl⟩, hs⟩

theorem Leaves.record {m' : Manager} {stores : Address → Store} (h : m.Leaves m' stores)
    (e : Event) : m.Leaves (m'.record e) stores := by
  obtain ⟨⟨accounts, metrics, events, rfl⟩, hs⟩ := h
  exact ⟨⟨_, _, _, rfl⟩, hs⟩

def storesAfter (m : Manager) (a : Address) (r : Except StoreError Store) : Address → Store :=
  Function.update m.store a ((m.store a).after r)

theorem storesAfter_ok {a : Address} {r : Except StoreError Store} {s : Store} (h : r = .ok s) :
    m.storesAfter a r = Function.update m.store a s := by
  rw [storesAfter, h]
  rfl

theorem storesAfter_error {a : Address} {r : Except StoreError Store} {e : StoreError}
    (h : r = .error e) : m.storesAfter a r = m.store := by
  rw [storesAfter, h]
  exact Function.update_eq_self a m.store

/-- What holds of the stores, and of them after a success, holds after the outcome. -/
theorem storesAfter_induction {P : (Address → Store) → Prop} {a : Address}
    {r : Except StoreError Store} (h : P m.store)
    (hr : ∀ s, r = .ok s → P (Function.update m.store a s)) : P (m.storesAfter a r) := by
  cases hs : r with
  | error e => rwa [storesAfter_error rfl]
  | ok s =>
    rw [storesAfter_ok rfl]
    exact hr s hs

theorem leaves_of_error {a : Address} {r : Except StoreError Store} {e : StoreError}
    (h : r = .error e) : m.Leaves m (m.storesAfter a r) :=
  ⟨⟨_, _, _, rfl⟩, (storesAfter_error h).symm⟩

theorem leaves_fail (m : Manager) (now : Nat) (a : Address) (id reason : String) :
    m.Leaves (m.fail now a id reason) (m.storesAfter a ((m.store a).markFatal id now)) := by
  unfold fail
  split
  · rename_i s hs
    rw [storesAfter_ok hs]
    exact ((m.leaves_move a id s).count _).record _
  · rename_i e he
    exact leaves_of_error he

theorem leaves_finalize (m : Manager) (now : Nat) (a : Address) (id : String) :
    m.Leaves (m.finalize now a id) (m.storesAfter a ((m.store a).markFinalized id now)) := by
  unfold finalize
  split
  · rename_i s hs
    rw [storesAfter_ok hs]
    exact (m.leaves_move a id s).count _
  · rename_i e he
    exact leaves_of_error he

theorem leaves_confirm (m : Manager) (a : Address) (id : String) (block : Int) :
    m.Leaves (m.confirm a id block) (m.storesAfter a ((m.store a).markConfirmed id block)) := by
  unfold confirm
  split
  · rename_i s hs
    rw [storesAfter_ok hs]
    exact (m.leaves_move a id s).count _
  · rename_i e he
    exact leaves_of_error he

theorem leaves_displace (m : Manager) (a : Address) (row : Settling) :
    m.Leaves (m.displace a row) (m.storesAfter a ((m.store a).markReorganized row.id)) := by
  unfold displace
  have hstore : (m.record (.displaced row.id row.hash row.block)).store = m.store := rfl
  simp only [hstore]
  split
  · rename_i s hs
    rw [storesAfter_ok hs]
    exact ((m.record _).leaves_move a row.id s).count _
  · rename_i e he
    rw [storesAfter_error he]
    exact ⟨⟨_, _, _, rfl⟩, rfl⟩

/-- A manager whose sender has become another, with these stores. -/
def SenderLeaves (m m' : Manager) (x : Sender) (stores : Address → Store) : Prop :=
  (∃ accounts estimator metrics events, m' = { m with
    sender := x, accounts := accounts, estimator := estimator, metrics := metrics,
    events := events }) ∧
  m'.store = stores

/-- The sender goes on with the transaction that it has at hand. -/
def SenderKeeps (m m' : Manager) (tx : Tx) : Prop :=
  ∃ x, m.SenderLeaves m' x m.store ∧ x.tx? = some tx

theorem Leaves.withSender {m' : Manager} {stores : Address → Store} (h : m.Leaves m' stores)
    (x : Sender) : m.SenderLeaves { m' with sender := x } x stores := by
  obtain ⟨⟨accounts, metrics, events, rfl⟩, hs⟩ := h
  exact ⟨⟨_, _, _, _, rfl⟩, hs⟩

theorem senderKeeps_busy (m : Manager) (e : Fee.Estimator) (a : Attempt) :
    m.SenderKeeps ({ m with estimator := e }.busy a) a.tx :=
  ⟨.busy a, ⟨⟨_, _, _, _, rfl⟩, rfl⟩, rfl⟩

theorem senderKeeps_abandon (m : Manager) (e : Fee.Estimator) (tx : Tx) (reason : String) :
    m.SenderKeeps ({ m with estimator := e }.abandon tx reason) tx :=
  m.senderKeeps_busy e (.failing tx reason)

theorem senderKeeps_priced (m : Manager) (e : Fee.Estimator) (now : Nat) (tx : Tx) (energy : Int) :
    m.SenderKeeps ({ m with estimator := e }.priced now tx energy) tx := by
  unfold priced
  split
  · exact m.senderKeeps_busy e _
  · exact m.senderKeeps_busy e _

theorem senderKeeps_attempt (m : Manager) (tx : Tx) : m.SenderKeeps (m.attempt tx) tx := by
  unfold attempt
  split
  · exact ⟨_, ⟨⟨_, _, _, _, rfl⟩, m.store_ensure tx.sender⟩, rfl⟩
  · refine ⟨_, ⟨⟨_, _, _, _, rfl⟩, m.store_ensure tx.sender⟩, ?_⟩
    split
    · rfl
    · rfl

theorem sent_cases (m : Manager) (p : Parcel) :
    m.SenderKeeps (m.sent p) p.tx ∨
      ∃ s, (m.store p.tx.sender).markBroadcasted p.signed.id p.signed.raw.expiration p.tx = .ok s ∧
        m.SenderLeaves (m.sent p) .idle (Function.update m.store p.tx.sender s) := by
  unfold sent
  split
  · exact .inl (m.senderKeeps_abandon m.estimator p.tx _)
  · rename_i s hs
    have hmove := m.leaves_move p.tx.sender p.tx.id s
    exact .inr ⟨s, hs, ((hmove.count _).record _).withSender .idle⟩

theorem judge_cases (m : Manager) (now : Nat) (p : Parcel) (v : Node.Verdict) :
    m.SenderKeeps (m.judge now p v) p.tx ∨
      ∃ s, (m.store p.tx.sender).markBroadcasted p.signed.id p.signed.raw.expiration p.tx = .ok s ∧
        m.SenderLeaves (m.judge now p v) .idle (Function.update m.store p.tx.sender s) := by
  unfold judge
  split
  · exact m.sent_cases p
  · split
    · exact .inl (m.senderKeeps_abandon m.estimator p.tx _)
    · split
      · exact .inl (m.senderKeeps_abandon m.estimator p.tx _)
      · exact .inl ⟨_, ⟨⟨_, _, _, _, rfl⟩, rfl⟩, rfl⟩

theorem answered_cases (m : Manager) (now : Nat) (a : Attempt) (answer : a.Answer) :
    m.SenderKeeps (m.answered now a answer) a.tx ∨
    (∃ p s, a = .sending p ∧
      (m.store p.tx.sender).markBroadcasted p.signed.id p.signed.raw.expiration p.tx = .ok s ∧
      m.SenderLeaves (m.answered now a answer) .idle (Function.update m.store p.tx.sender s)) ∨
    ∃ tx reason, a = .failing tx reason ∧ m.SenderLeaves (m.answered now a answer) .idle
      (m.storesAfter tx.sender ((m.store tx.sender).markFatal tx.id now)) := by
  cases a with
  | beginning tx => exact .inl (m.senderKeeps_attempt tx)
  | estimating tx call =>
    refine .inl ?_
    simp only [answered]
    split
    · exact m.senderKeeps_busy _ (.simulating tx call)
    · exact m.senderKeeps_priced _ now tx _
    · exact m.senderKeeps_abandon _ tx _
  | simulating tx call =>
    refine .inl ?_
    simp only [answered]
    split
    · exact m.senderKeeps_priced m.estimator now tx _
    · exact m.senderKeeps_abandon m.estimator tx _
  | pricing tx energy => exact .inl (m.senderKeeps_busy _ _)
  | referring tx feeLimit =>
    refine .inl ?_
    cases answer with
    | error e => exact m.senderKeeps_abandon m.estimator tx _
    | ok block =>
      simp only [answered]
      split
      · exact m.senderKeeps_abandon m.estimator tx _
      · exact m.senderKeeps_busy m.estimator _
  | signing tx feeLimit unsigned =>
    cases answer with
    | error e => exact .inl (m.senderKeeps_abandon m.estimator tx _)
    | ok signature => exact .inl (m.senderKeeps_busy m.estimator _)
  | sending p =>
    cases answer with
    | error e => exact .inl (m.senderKeeps_abandon m.estimator p.tx _)
    | ok verdict =>
      obtain hk | ⟨s, hs, hm⟩ := m.judge_cases now p verdict
      · exact .inl hk
      · exact .inr (.inl ⟨p, s, rfl, hs, hm⟩)
  | failing tx reason =>
    have hfail := m.leaves_fail now tx.sender tx.id reason
    exact .inr (.inr ⟨tx, reason, rfl, hfail.withSender .idle⟩)

theorem answered_leaves (m : Manager) (now : Nat) (a : Attempt) (answer : a.Answer) :
    ∃ x stores, m.SenderLeaves (m.answered now a answer) x stores := by
  rcases m.answered_cases now a answer with
    ⟨x, hm, -⟩ | ⟨p, s, -, -, hm⟩ | ⟨tx, reason, -, hm⟩
  · exact ⟨_, _, hm⟩
  · exact ⟨_, _, hm⟩
  · exact ⟨_, _, hm⟩

theorem submit_eq_ok {r : Request} {q : Submission} (h : m.submit r = .ok q) :
    q = .probing r := by
  unfold submit at h
  split at h
  · cases h
  · split at h
    · cases h
    · cases h
      rfl

/-- A manager in which places of the queue may have changed hands. -/
def QueueLeaves (m m' : Manager) : Prop :=
  (∃ accounts promised x, m' = { m with accounts := accounts, promised := promised, poller := x } ∧
    (x = m.poller ∨ x = m.poller.grant)) ∧
  m'.store = m.store

theorem queueLeaves_refl (m : Manager) : m.QueueLeaves m :=
  ⟨⟨_, _, _, rfl, .inl rfl⟩, rfl⟩

theorem queueLeaves_ensure (m : Manager) (a : Address) :
    m.QueueLeaves { m with accounts := m.accounts.ensure a } :=
  ⟨⟨_, _, _, rfl, .inl rfl⟩, m.store_ensure a⟩

theorem reserve_cases (m : Manager) (tx : Tx) :
    m.QueueLeaves (m.reserve tx).1 ∧
      ∀ q, (m.reserve tx).2 = .waiting q → q.tx? = none := by
  unfold reserve
  split
  · exact ⟨m.queueLeaves_refl, by simp⟩
  · split
    · exact ⟨m.queueLeaves_refl, by simp⟩
    · refine ⟨⟨⟨_, _, _, rfl, .inl rfl⟩, rfl⟩, fun q hq => ?_⟩
      cases hq
      rfl

theorem takeIn_cases (m : Manager) (tx : Tx) :
    (∃ s, (m.store tx.sender).addPending tx = .ok s ∧
      (m.takeIn tx).2 = .waiting (.delivering tx) ∧
      m.Leaves (m.takeIn tx).1 (Function.update m.store tx.sender s)) ∨
    (∃ e, (m.takeIn tx).2 = .rejected e) ∧ m.QueueLeaves (m.takeIn tx).1 := by
  have hrelease : m.QueueLeaves m.release := ⟨⟨_, _, _, rfl, .inr rfl⟩, rfl⟩
  unfold takeIn
  split
  · exact .inr ⟨⟨_, rfl⟩, hrelease⟩
  · exact .inr ⟨⟨_, rfl⟩, hrelease⟩
  · rename_i s hs
    exact .inl ⟨s, hs, rfl, ⟨_, _, _, rfl⟩, m.store_setStore tx.sender s⟩

/-- A request goes into its store, from there into the queue, or has no hold on a
transaction yet. -/
theorem proceed_cases (m : Manager) (fresh : String) (q : Submission) (answer : q.Answer) :
    (∃ tx s, q = .admitting tx ∧ (m.store tx.sender).addPending tx = .ok s ∧
      (m.proceed fresh q answer).2 = .waiting (.delivering tx) ∧
      m.Leaves (m.proceed fresh q answer).1 (Function.update m.store tx.sender s)) ∨
    (∃ tx, q = .delivering tx ∧ m.proceed fresh q answer = m.deliver tx) ∨
    q.tx? = none ∧ m.QueueLeaves (m.proceed fresh q answer).1 ∧
      ∀ q', (m.proceed fresh q answer).2 = .waiting q' → q'.tx? = none := by
  cases q with
  | probing r =>
    refine .inr (.inr ⟨rfl, ?_⟩)
    rcases answer with e | signature
    · exact ⟨m.queueLeaves_refl, by simp [proceed]⟩
    · have hensure := m.queueLeaves_ensure r.sender
      simp only [proceed, prepare]
      split
      · split
        · exact ⟨hensure, fun q' hq => by cases hq; rfl⟩
        · exact ⟨hensure, fun q' hq => by cases hq; rfl⟩
      · exact ⟨hensure, fun q' hq => by cases hq; rfl⟩
  | checking r message =>
    refine .inr (.inr ⟨rfl, ?_⟩)
    rcases answer with e | retries
    · exact ⟨m.queueLeaves_refl, by simp [proceed]⟩
    · simp only [proceed, prepare]
      split
      · exact ⟨m.queueLeaves_refl, by simp⟩
      · exact ⟨m.queueLeaves_refl, fun q' hq => by cases hq; rfl⟩
  | reserving tx => exact .inr (.inr ⟨rfl, m.reserve_cases tx⟩)
  | admitting tx =>
    rcases m.takeIn_cases tx with ⟨s, hs, hq, hm⟩ | ⟨⟨e, he⟩, hm⟩
    · exact .inl ⟨tx, s, rfl, hs, hq, hm⟩
    · refine .inr (.inr ⟨rfl, hm, fun q' hq => ?_⟩)
      have : (m.takeIn tx).2 = .waiting q' := hq
      rw [he] at this
      cases this
  | delivering tx => exact .inr (.inl ⟨tx, rfl, rfl⟩)

theorem take?_eq_some {m' : Manager} (h : m.take? = some m') : ∃ tx rest metrics,
    m.sender = .idle ∧ m.queue = tx :: rest ∧ m' = { m with
      queue := rest, poller := m.poller.grant, metrics := metrics,
      sender := .busy (.beginning tx) } := by
  unfold take? at h
  split at h
  · rename_i tx rest hsender hqueue
    cases h
    exact ⟨tx, rest, _, hsender, hqueue, rfl⟩
  · cases h

theorem store_sweep (m : Manager) (begun : Nat) (a : Address) (later : List Address)
    (evicted : Nat) : (m.sweep begun a later evicted).store = Function.update m.store a
      ((m.store a).reap (m.settings.retentionSecs * 1000) begun).1 :=
  m.store_setStore a _

theorem begin_eq_ok_iff {m' : Manager} :
    m.begin = .ok m' ↔ m.lifecycle = .idle ∧ m' = { m with lifecycle := .running } := by
  unfold begin
  cases hl : m.lifecycle with
  | idle => simp [eq_comm]
  | running => simp
  | closed => simp

theorem takeOutlet_eq_ok_iff {m' : Manager} :
    m.takeOutlet = .ok m' ↔ m.outletFree = true ∧ m' = { m with outletFree := false } := by
  unfold takeOutlet
  by_cases hf : m.outletFree = true
  · rw [if_pos hf, Except.ok.injEq]
    exact ⟨fun h => ⟨hf, h.symm⟩, fun h => h.2.symm⟩
  · rw [if_neg hf]
    simp [hf]

end Manager

end TronCourier
