import TronCourier.Proofs.Manager.Finality
import TronCourier.Proofs.Manager.Outlook

/-! A pass does the same in whatever order it comes by the senders and their transactions, and
what it makes of a transaction depends on nothing but its entry and what is heard of it. -/

namespace TronCourier

open Relation

theorem Accounts.awaitingCount_eq {as : Accounts} (h : as.Distinct) :
    as.awaitingCount = (as.stores.keys.map fun a => (as.store a).awaiting.length).sum := by
  have hrows : as.stores.keys.map (fun a => (as.store a).awaiting.length) =
      as.stores.rows.map fun row => row.2.awaiting.length := by
    rw [Table.keys, List.map_map]
    refine List.map_congr_left fun row hrow => ?_
    rw [Function.comp_apply, store_of_mem h hrow]
  rw [hrows, List.sum_eq_foldl, List.foldl_map, awaitingCount]

theorem Store.Consistent.length_awaiting_eq {s s' : Store} (h : s.Consistent)
    (h' : s'.Consistent) (hagree : ∀ id, s.Agree s' id) :
    s'.awaiting.length = s.awaiting.length := by
  have hmem := List.perm_ext_iff_of_nodup h'.nodup_awaiting h.nodup_awaiting
  refine (hmem.mpr fun id => ?_).length_eq
  rw [h'.awaiting_iff, h.awaiting_iff, (hagree id).stage?_eq]

namespace Manager

variable {m m' m'' m₁ : Manager} {w : Surroundings Unit} {now : Nat}
  {accounts : List Address} {log : List ((Address × String) × Deed)}

def requeues (w : Surroundings Unit) (m : Manager) : List Tx :=
  ((m.dues w).map Prod.snd).filterMap Deed.tx?

theorem onPass_beginPass (hstores : ∀ a, ∃ retention ops, m.store a = Store.empty.run retention ops)
    (hkeys : m.accounts.Distinct) (hrest : m.poller = .resting)
    (hall : accounts.Perm m.accounts.stores.keys) : OnPass w (m.beginPass accounts) where
  isUnderWay := trivial
  nodup := hall.nodup_iff.mpr hkeys
  known _ ha := hall.mem_iff.mp ha
  dated _ hpass := by cases hpass
  upToDate := (upToDate_of_start (by rw [hrest]; rfl) hstores).of_none rfl rfl rfl
  watches := watches_of_none rfl
  failed htx := by cases htx

theorem outlook_beginPass (hall : accounts.Perm m.accounts.stores.keys) (a : Address)
    (id : String) : (m.beginPass accounts).outlook w a id =
      ((m.store a).entries.get? id).map fun e => e.policy m.settings (w.tidings? e) := by
  show ((m.store a).entries.get? id).map _ = _
  cases he : (m.store a).entries.get? id with
  | none => rfl
  | some e =>
    have ha : a ∈ accounts :=
      hall.mem_iff.mpr (List.mem_map_of_mem (Accounts.mem_rows_of_entry he))
    have herrand : (m.beginPass accounts).poller.errand a id = .all := if_pos ha
    rw [Option.map_some, Option.map_some, herrand]
    cases w.tidings? e with
    | none => rfl
    | some r => rfl

theorem outlook_surveyed (hend : m.poller = .surveying []) (a : Address) (id : String) :
    m.outlook w a id = ((m.store a).entries.get? id).map fun e => ⟨e, []⟩ := by
  have herrand : m.poller.errand a id = .nothing := by
    rw [hend]
    rfl
  rw [outlook, herrand]
  refine congrArg (Option.map · _) (funext fun e => ?_)
  cases w.tidings? e with
  | none => rfl
  | some r => rfl

section Begun

variable (hkeys : m.accounts.Distinct) (hc : ∀ a, (m.store a).Consistent)
  (hall : accounts.Perm m.accounts.stores.keys)
  (h : (m.beginPass accounts).Advances w now m₁ log)

include hkeys hc hall h

/-- What is due is what is done and what is still ahead. -/
theorem Advances.deedsOf_dues (a : Address) (id : String) : deedsOf (m.dues w) (a, id) =
    deedsOf log (a, id) ++ (m₁.outlook w a id).elim [] Fate.deeds := by
  have hlook := (outlook_beginPass hall a id).symm.trans (h.outlook_eq a id)
  rw [Manager.deedsOf_dues hkeys hc]
  cases he : (m.store a).entries.get? id with
  | none =>
    have hnone : (m₁.store a).entries.get? id = none := h.get?_eq_none_iff.mpr he
    rw [h.recorded a id he, outlook_eq_none_iff.mpr hnone]
    rfl
  | some e =>
    rw [he, Option.map_some] at hlook
    obtain ⟨f, hf, hfate⟩ := Option.map_eq_some_iff.mp hlook.symm
    simp only [hf, ← hfate]
    rfl

theorem Advances.roomy (hon : OnPass w m₁) (hrest : m.poller = .resting)
    (hopen : m.queueOpen = true)
    (hroom : m.queueLength + (m.requeues w).length ≤ m.settings.queueCapacity) : m₁.Roomy := by
  intro tx rest pass hp
  refine ⟨h.queueOpen_eq.trans hopen, ?_⟩
  have hbefore : m₁.poller.errand =
      pass.errand (Function.update (awaitingHere rest) tx.id (.requeue tx)) := by rw [hp]; rfl
  obtain ⟨e, hash, hserves, -⟩ :=
    hon.serves_failed (by rw [hp]; rfl) (by rw [hp]; rfl) (by rw [hp]; rfl) hbefore
  have hlook : m₁.outlook w pass.account tx.id = some ⟨e, [.requeued tx]⟩ := by
    rw [outlook, hserves.get?_eq, hbefore]
    simp [Pass.errand, Errand.fate, Errand.fateBy, Surroundings.tidings?, hserves.currentHash_eq]
  -- the transaction at hand is due besides all that is done
  have hsub : (log ++ [((pass.account, tx.id), Deed.requeued tx)]).Subperm (m.dues w) := by
    refine subperm_of_deedsOf ?_
    rintro ⟨a, id⟩
    rw [h.deedsOf_dues hkeys hc hall, deedsOf_append]
    refine List.Sublist.append_left ?_ _
    by_cases hk : (pass.account, tx.id) = (a, id)
    · cases hk
      rw [hlook]
      simp [deedsOf]
    · simp [deedsOf, hk]
  have hcount := hsub.countP_le fun x => x.2.tx?.isSome
  have hlength (l : List ((Address × String) × Deed)) :
      ((l.map Prod.snd).filterMap Deed.tx?).length = l.countP fun x => x.2.tx?.isSome := by
    rw [List.length_filterMap_eq_countP, List.countP_map]
    rfl
  rw [List.countP_append, List.countP_singleton] at hcount
  rw [requeues, hlength] at hroom
  have hqueue : m₁.queueLength = m.queueLength + log.countP fun x => x.2.tx?.isSome := by
    have hadded : m₁.queue = m.queue ++ (log.map Prod.snd).filterMap Deed.tx? := h.queue_eq
    have hpromised : m₁.promised = m.promised := h.promised_eq
    simp only [queueLength, hp, hrest, hpromised, hadded, List.length_append, hlength]
    omega
  have hsettings : m₁.settings = m.settings := h.settings_eq
  have hone : (Deed.requeued tx).tx?.isSome = true := rfl
  rw [if_pos hone] at hcount
  rw [hasRoom, hqueue, hsettings, decide_eq_true_eq]
  omega

end Begun

theorem OnPass.next (h : OnPass w m) (now : Nat) :
    m.poller = .surveying [] ∨ ∃ m', PollStep w now m m' := by
  cases hp : m.poller with
  | surveying accounts =>
    cases accounts with
    | nil => exact .inl rfl
    | cons a later => exact .inr ⟨_, .survey hp (List.Perm.refl _)⟩
  | collecting pass => exact .inr ⟨_, .collect hp (List.Perm.refl _)⟩
  | asking q => exact .inr ⟨_, .informed hp⟩
  | failed tx reason next rest pass => exact .inr ⟨_, .afterFailure hp⟩
  | requeuing tx rest pass => exact .inr ⟨_, .requeue hp⟩
  | absent | resting | blocked | granted | refused | stopped =>
    have := h.isUnderWay
    rw [hp] at this
    cases this

section Run

variable (hstores : ∀ a, ∃ retention ops, m.store a = Store.empty.run retention ops)
  (hkeys : m.accounts.Distinct) (hrest : m.poller = .resting) (hopen : m.queueOpen = true)
  (hroom : m.queueLength + (m.requeues w).length ≤ m.settings.queueCapacity)
  (hall : accounts.Perm m.accounts.stores.keys)

include hstores hkeys hrest hopen hroom hall

/-- A pass that has begun does what is due, one thing after another. -/
theorem advances_of_begun (hr : ReflTransGen (PollStep w now) (m.beginPass accounts) m₁) :
    OnPass w m₁ ∧ m₁.Roomy ∧ ∃ log, (m.beginPass accounts).Advances w now m₁ log := by
  have hc : ∀ a, (m.store a).Consistent := by
    intro a
    obtain ⟨retention, ops, hstore⟩ := hstores a
    rw [hstore]
    exact Store.consistent_empty.run retention ops
  -- there is room for what comes next, since all that is done is due and no more
  induction hr with
  | refl =>
    have hon := onPass_beginPass (w := w) hstores hkeys hrest hall
    have h : (m.beginPass accounts).Advances w now (m.beginPass accounts) [] := advances_refl _
    exact ⟨hon, h.roomy hkeys hc hall hon hrest hopen hroom, _, h⟩
  | tail _ hs ih =>
    obtain ⟨hon, hroomy, log, h⟩ := ih
    obtain ⟨done, hnext⟩ := hon.advances hs hroomy
    have hon' := hon.step hs hroomy hnext.keys_eq
    have h' := h.trans hnext
    exact ⟨hon', h'.roomy hkeys hc hall hon' hrest hopen hroom, _, h'⟩

theorem pass_ends (hr : ReflTransGen (PollStep w now) (m.beginPass accounts) m₁) :
    ∃ m₂, ReflTransGen (PollStep w now) m₁ m₂ ∧ m₂.poller = .surveying [] := by
  -- by induction on what is ahead of the poller
  induction hahead : m₁.poller.ahead using WellFoundedLT.induction generalizing m₁ with
  | ind n ih =>
    obtain ⟨hon, hroomy, -⟩ := advances_of_begun hstores hkeys hrest hopen hroom hall hr
    obtain hend | ⟨m₂, hs⟩ := hon.next now
    · exact ⟨m₁, .refl, hend⟩
    · have hlt := (hs.leads hroomy).ahead_lt
      rw [hahead] at hlt
      obtain ⟨m₃, hr', hend⟩ := ih _ hlt (hr.tail hs) rfl
      exact ⟨m₃, hr'.head hs, hend⟩

end Run

/-- A manager after a whole pass, as the policy has it. -/
structure Passed (w : Surroundings Unit) (now : Nat) (m m' : Manager) : Prop where
  consistent : ∀ a, (m'.store a).Consistent
  keys_eq : m'.accounts.stores.keys = m.accounts.stores.keys
  entries_eq : ∀ a id, (m'.store a).entries.get? id =
    ((m.store a).entries.get? id).map fun e => (e.policy m.settings (w.tidings? e)).entry
  finished : ∀ a id, (m'.store a).finished.get? id = (m.store a).finished.get? id ∨
    (m.store a).finished.get? id = none ∧ (m'.store a).finished.get? id = some now
  log : ∃ log, List.Perm log (m.dues w) ∧
    m'.metrics = { (log.map Prod.snd).foldl Metrics.after m.metrics with
      unconfirmed := m'.accounts.awaitingCount } ∧
    m'.queue = m.queue ++ (log.map Prod.snd).filterMap Deed.tx?

theorem passed_of_passes
    (hstores : ∀ a, ∃ retention ops, m.store a = Store.empty.run retention ops)
    (hkeys : m.accounts.Distinct) (hopen : m.queueOpen = true)
    (hroom : m.queueLength + (m.requeues w).length ≤ m.settings.queueCapacity)
    (hp : m.Passes w now m') : m.Passed w now m' := by
  obtain ⟨hrest, accounts, m₁, hall, hr, hend, rfl⟩ := hp
  obtain ⟨hon, -, log, h⟩ := advances_of_begun hstores hkeys hrest hopen hroom hall hr
  refine ⟨hon.upToDate.consistent, h.keys_eq, fun a id => ?_, h.finished, log,
    perm_of_deedsOf ?_, ?_, h.queue_eq⟩
  · have hlook := congrArg (Option.map Fate.entry)
      ((outlook_beginPass hall a id).symm.trans (h.outlook_eq a id))
    rw [outlook_surveyed hend, Option.map_map, Option.map_map, Option.map_map] at hlook
    exact (hlook.trans Option.map_id').symm
  · rintro ⟨a, id⟩
    have hc := (onPass_beginPass (w := w) hstores hkeys hrest hall).upToDate.consistent
    rw [h.deedsOf_dues hkeys hc hall, outlook_surveyed hend]
    cases (m₁.store a).entries.get? id with
    | none => exact (List.append_nil _).symm
    | some e => exact (List.append_nil _).symm
  · exact congrArg (fun c => { c with unconfirmed := m₁.accounts.awaitingCount }) h.metrics_eq

/-- What is over stays over, and what came to its end in the pass did so now. -/
theorem Passed.finished_eq (h : m.Passed w now m') (a : Address) (id : String) :
    (m'.store a).finished.get? id = if (m'.store a).finished.contains id = true then
      some (((m.store a).finished.get? id).getD now) else none := by
  rcases h.finished a id with hsame | ⟨hnone, hnow⟩
  · rw [Table.contains, hsame]
    cases (m.store a).finished.get? id with
    | none => rfl
    | some t => rfl
  · rw [Table.contains, hnow, hnone]
    rfl

theorem Passed.agree (h : m.Passed w now m') (h' : m.Passed w now m'') (a : Address)
    (id : String) : (m'.store a).Agree (m''.store a) id := by
  have hentry : (m''.store a).entries.get? id = (m'.store a).entries.get? id :=
    (h'.entries_eq a id).trans (h.entries_eq a id).symm
  refine (h.consistent a).agree (h'.consistent a) hentry ?_
  have hcontains : (m''.store a).finished.contains id = true ↔
      (m'.store a).finished.contains id = true := by
    rw [(h'.consistent a).finished_iff, (h.consistent a).finished_iff, Store.stage?, hentry,
      Store.stage?]
  rw [h'.finished_eq, h.finished_eq]
  simp only [hcontains]

theorem Passed.metrics_eq (h : m.Passed w now m') :
    m'.metrics = { ((m.dues w).map Prod.snd).foldl Metrics.after m.metrics with
      unconfirmed := m'.accounts.awaitingCount } := by
  obtain ⟨log, hperm, hmetrics, -⟩ := h.log
  rw [hmetrics, (hperm.map Prod.snd).foldl_eq]

theorem Passed.awaitingCount_eq (h : m.Passed w now m') (h' : m.Passed w now m'')
    (hkeys : m.accounts.Distinct) :
    m''.accounts.awaitingCount = m'.accounts.awaitingCount := by
  have hdistinct {m' : Manager} (h : m.Passed w now m') : m'.accounts.Distinct := by
    rw [Accounts.Distinct, h.keys_eq]
    exact hkeys
  rw [Accounts.awaitingCount_eq (hdistinct h), Accounts.awaitingCount_eq (hdistinct h'), h.keys_eq,
    h'.keys_eq]
  refine congrArg List.sum (List.map_congr_left fun a _ => ?_)
  exact (h.consistent a).length_awaiting_eq (h'.consistent a) (h.agree h' a)

theorem Passed.queue_eq (h : m.Passed w now m') :
    ∃ again, m'.queue = m.queue ++ again ∧ again.Perm (m.requeues w) := by
  obtain ⟨log, hperm, -, hqueue⟩ := h.log
  exact ⟨_, hqueue, (hperm.map Prod.snd).filterMap _⟩

/-- What cannot be asked about is left as it was, and nothing is done for it. -/
theorem Passed.left (h : m.Passed w now m') (hkeys : m.accounts.Distinct)
    (hc : ∀ a, (m.store a).Consistent) {a : Address} {id : String} {e : Entry}
    (he : (m.store a).entries.get? id = some e)
    (hunheard : e.Unheard (w.tidings? e)) :
    (m.store a).Agree (m'.store a) id ∧ deedsOf (m.dues w) (a, id) = [] := by
  have hpolicy : e.policy m.settings (w.tidings? e) = ⟨e, []⟩ := hunheard.policy_eq
  have hentry : (m'.store a).entries.get? id = (m.store a).entries.get? id := by
    rw [h.entries_eq, he, Option.map_some, hpolicy]
  refine ⟨(hc a).agree (h.consistent a) hentry ?_, ?_⟩
  · rcases h.finished a id with hsame | ⟨hnone, hnow⟩
    · exact hsame
    · -- what came to its end in the pass would have changed its stage
      have hend : (m.store a).finished.contains id = true := by
        rw [(hc a).finished_iff, Store.stage?, ← hentry, ← Store.stage?,
          ← (h.consistent a).finished_iff, Table.contains, hnow]
        rfl
      rw [Table.contains, hnone] at hend
      cases hend
  · rw [deedsOf_dues hkeys hc, he]
    simp only [hpolicy]

/-- A pass that has the manager to itself, with answers and clocks that stay as they are and room
in the queue for all that it puts there, comes to its end in whatever order it goes. It makes of
each entry what its policy is, which depends on the entry, on what is heard of its hash and on
the time of the ledger alone. So the stores and the counts are the same after every pass, and the
same transactions are in the queue, each as often. What cannot be asked about is left alone. -/
theorem passes_in_any_order (w : Surroundings Unit) (now : Nat)
    (hstores : ∀ a, ∃ retention ops, m.store a = Store.empty.run retention ops)
    (hkeys : m.accounts.Distinct) (hrest : m.poller = .resting) (hopen : m.queueOpen = true)
    (hroom : m.queueLength + (m.requeues w).length ≤ m.settings.queueCapacity) :
    (∀ accounts m₁, accounts.Perm m.accounts.stores.keys →
      ReflTransGen (PollStep w now) (m.beginPass accounts) m₁ →
      ∃ m₂, ReflTransGen (PollStep w now) m₁ m₂ ∧ m.Passes w now m₂.endPass) ∧
    (∀ m', m.Passes w now m' →
      (∀ a id, (m'.store a).entries.get? id = ((m.store a).entries.get? id).map fun e =>
        (e.policy m.settings (w.tidings? e)).entry) ∧
      m'.metrics = { ((m.dues w).map Prod.snd).foldl Metrics.after m.metrics with
        unconfirmed := m'.accounts.awaitingCount } ∧
      ∃ again, m'.queue = m.queue ++ again ∧ again.Perm (m.requeues w)) ∧
    (∀ m' m'', m.Passes w now m' → m.Passes w now m'' →
      m''.accounts.stores.keys = m'.accounts.stores.keys ∧
      (∀ a id, (m'.store a).Agree (m''.store a) id) ∧ m''.metrics = m'.metrics ∧
      m''.queue.Perm m'.queue) ∧
    ∀ m' a id e, m.Passes w now m' → (m.store a).entries.get? id = some e →
      e.Unheard (w.tidings? e) →
      (m.store a).Agree (m'.store a) id ∧ deedsOf (m.dues w) (a, id) = [] := by
  have hpassed {m'} (hp : m.Passes w now m') : m.Passed w now m' :=
    passed_of_passes hstores hkeys hopen hroom hp
  refine ⟨fun accounts m₁ hall hr => ?_, fun m' hp => ?_, fun m' m'' hp hp' => ?_,
    fun m' a id e hp he hunheard => ?_⟩
  · obtain ⟨m₂, hr', hend⟩ := pass_ends hstores hkeys hrest hopen hroom hall hr
    exact ⟨m₂, hr', hrest, accounts, m₂, hall, hr.trans hr', hend, rfl⟩
  · have h := hpassed hp
    exact ⟨h.entries_eq, h.metrics_eq, h.queue_eq⟩
  · have h := hpassed hp
    have h' := hpassed hp'
    refine ⟨h'.keys_eq.trans h.keys_eq.symm, h.agree h', ?_, ?_⟩
    · rw [h.metrics_eq, h'.metrics_eq, h.awaitingCount_eq h' hkeys]
    · obtain ⟨again, hqueue, hperm⟩ := h.queue_eq
      obtain ⟨again', hqueue', hperm'⟩ := h'.queue_eq
      rw [hqueue, hqueue']
      exact (hperm'.trans hperm.symm).append_left m.queue
  · have hon := onPass_beginPass (w := w) hstores hkeys hrest (List.Perm.refl _)
    exact (hpassed hp).left hkeys hon.upToDate.consistent he hunheard

/-- A success is in the solid blocks, nothing is to be heard of another hash, a third attempt ran
out of energy, and no other one is known. The time of the ledger is 31. -/
def mixedLedger : Surroundings Unit where
  estimate _ := pure (.error .estimateUnsupported)
  dryRun _ := pure (.error .estimateUnsupported)
  prices := pure (.error .estimateUnsupported)
  block := pure (.ok { number := 9, id := "", timestamp := 31 })
  broadcast _ := pure (.error .estimateUnsupported)
  receipt hash _ := pure (
    if hash = "h" then .ok (some { id := "h", block := 7, code := some "SUCCESS" })
    else if hash = "i" then .error (.http "receipt" 503)
    else if hash = "j" then .ok (some { id := "j", block := 8, code := some "OUT_OF_ENERGY" })
    else .ok none)
  sign a _ := pure (.error (.unknownAddress a))
  retries _ := pure (.ok 0)

/-- The first of two senders has two confirmed transactions, the second one has two that wait for
their receipts. -/
def twoSenders : Manager where
  settings := {}
  estimator := .ofSettings {}
  poller := .resting
  accounts := (Accounts.empty.set sampleRequest.sender (Store.empty.run 0 [
      .addPending (.ofRequest "t" sampleRequest),
      .markBroadcasted "h" 30 (.ofRequest "t" sampleRequest), .markConfirmed "t" 7,
      .addPending (.ofRequest "u" sampleRequest),
      .markBroadcasted "i" 30 (.ofRequest "u" sampleRequest), .markConfirmed "u" 7])).set
    System.rivalSample.sender (Store.empty.run 0 [
      .addPending (.ofRequest "t" System.rivalSample),
      .markBroadcasted "j" 30 (.ofRequest "t" System.rivalSample),
      .addPending (.ofRequest "u" System.rivalSample),
      .markBroadcasted "k" 30 (.ofRequest "u" System.rivalSample)])

/-- Two passes go by the senders in opposite orders. Either one finalizes a transaction of the
first sender, leaves alone the one that it cannot ask about, and repeats both of the second. -/
theorem passes_in_any_order_twoSenders : ∃ m m',
    ReflTransGen (PollStep mixedLedger 0)
      (twoSenders.beginPass [sampleRequest.sender, System.rivalSample.sender]) m ∧
    ReflTransGen (PollStep mixedLedger 0)
      (twoSenders.beginPass [System.rivalSample.sender, sampleRequest.sender]) m' ∧
    twoSenders.Passes mixedLedger 0 m.endPass ∧ twoSenders.Passes mixedLedger 0 m'.endPass ∧
    (∃ acts, System.Run { manager := twoSenders, now := 0 } acts
      { manager := m.endPass, now := 0 }) ∧
    (∀ a id, (m.endPass.store a).Agree (m'.endPass.store a) id) ∧
    m'.endPass.metrics = m.endPass.metrics ∧ m'.endPass.queue.Perm m.endPass.queue ∧
    m.endPass.queue.length = 2 ∧
    (m.endPass.store sampleRequest.sender).stage? "t" = some .finalized ∧
    (twoSenders.store sampleRequest.sender).Agree (m.endPass.store sampleRequest.sender) "u" ∧
    (m.endPass.store System.rivalSample.sender).stage? "t" = some .errored ∧
    (m.endPass.store System.rivalSample.sender).stage? "u" = some .errored := by
  have hstores : ∀ a, ∃ retention ops, twoSenders.store a = Store.empty.run retention ops :=
    Accounts.exists_run_set (Accounts.exists_run_set Accounts.exists_run_empty _ _ _) _ _ _
  have hkeys : twoSenders.accounts.stores.keys =
      [sampleRequest.sender, System.rivalSample.sender] := by decide +kernel
  have hdistinct : twoSenders.accounts.Distinct := by
    rw [Accounts.Distinct, hkeys]
    decide
  have hroom : twoSenders.queueLength + (twoSenders.requeues mixedLedger).length ≤
      twoSenders.settings.queueCapacity := by decide +kernel
  obtain ⟨hends, hpolicy, hsame, hleft⟩ :=
    passes_in_any_order mixedLedger 0 hstores hdistinct rfl rfl hroom
  rw [hkeys] at hends
  obtain ⟨m, hr, hp⟩ := hends _ _ (.refl _) .refl
  obtain ⟨m', hr', hp'⟩ := hends _ _ (.swap ..) .refl
  obtain ⟨hentries, -, again, hqueue, hperm⟩ := hpolicy _ hp
  obtain ⟨-, hagree, hmetrics, hqueues⟩ := hsame _ _ hp hp'
  obtain ⟨e, he, hasks⟩ : ∃ e,
      (twoSenders.store sampleRequest.sender).entries.get? "u" = some e ∧
        e.Unheard (mixedLedger.tidings? e) := by
    refine ⟨_, rfl, fun heard hheard => ?_⟩
    cases hheard
    exact ⟨fun _ => ⟨_, rfl⟩, fun _ => ⟨_, rfl⟩⟩
  refine ⟨m, m', hr, hr', hp, hp', hp.run, hagree, hmetrics, hqueues, ?_, ?_,
    (hleft _ _ _ e hp he hasks).1, ?_, ?_⟩
  · rw [hqueue, List.length_append, hperm.length_eq]
    decide +kernel
  · rw [Store.stage?, hentries]
    decide +kernel
  · rw [Store.stage?, hentries]
    decide +kernel
  · rw [Store.stage?, hentries]
    decide +kernel

end Manager

end TronCourier
