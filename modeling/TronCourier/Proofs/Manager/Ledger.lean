import TronCourier.Proofs.Manager.Rejection
import TronCourier.Proofs.Store.Tally

/-! What is counted agrees with what is on record. Each step of a part posts one turn of one
transaction together with its count, or an eviction that is counted when the sweep is over. -/

namespace TronCourier

/-- The counts of transactions, without those of sends and without the levels. -/
def Metrics.lasting (c : Metrics) : Metrics :=
  { c with broadcast := 0, broadcastRetries := 0, queueDepth := 0, unconfirmed := 0 }

/-- Neither seen in a block nor at an end. -/
def Stage.isUnderWay : Stage → Bool
  | pending | broadcasted | errored => true
  | confirmed | finalized | fatallyErrored => false

theorem Stage.isUnderWay_of_isOpen {g : Stage} (h : g.isOpen = true) : g.isUnderWay = true := by
  cases g <;> first | rfl | cases h

theorem Stage.countP_of_isUnderWay {g : Stage} (h : g.isUnderWay = true) :
    [g].countP isTerminal = 0 ∧ [g].countP (fun g => g = .confirmed) = 0 := by
  cases g <;> first | exact ⟨rfl, rfl⟩ | cases h

theorem Store.isUnderWay_of_entry {s : Store} {id : String} {e : Entry}
    (he : s.entries.get? id = some e) (hopen : e.tx.stage.isOpen = true) :
    ∀ g, s.stage? id = some g → g.isUnderWay = true := by
  intro g hg
  rw [Store.stage?_of_entry he, Option.some.injEq] at hg
  exact hg ▸ Stage.isUnderWay_of_isOpen hopen

/-- What has been evicted in a sweep that is not over. -/
def Reaper.evicted : Reaper → Nat
  | .sweeping _ _ evicted => evicted
  | .absent | .resting | .stopped => 0

/-- What is on record, what was counted, and what is evicted but not counted yet. -/
structure Books where
  accounts : Accounts
  metrics : Metrics
  evicted : Nat

def Manager.books (m : Manager) : Books where
  accounts := m.accounts
  metrics := m.metrics
  evicted := m.reaper.evicted

namespace Books

variable {b b' : Books} {out into : List Stage} {change : Metrics → Metrics} {delivering : Nat}

/-- Transactions have come out of some stages and into others, with this change of the counts. -/
structure Posts (b b' : Books) (out into : List Stage) (change : Metrics → Metrics) : Prop where
  tally_eq : ∀ p, b'.accounts.tally p + out.countP p = b.accounts.tally p + into.countP p
  lasting_eq : b'.metrics.lasting = (change b.metrics).lasting
  evicted_eq : b'.evicted = b.evicted

/-- What a step of a part may post. -/
inductive Posted (b b' : Books) : Prop
  | nothing (h : b.Posts b' [] [] id)
  | underWay {g g' : Stage} (hg : g.isUnderWay = true) (hg' : g'.isUnderWay = true)
      (h : b.Posts b' [g] [g'] id)
  | repeated {g : Stage} (more : Nat) (hmore : more ≤ 1) (h : b.Posts b' [g] [g] fun c =>
      { c with retries := c.retries + 1, energyBumps := c.energyBumps + more })
  | ended {g : Stage} (hg : g.isUnderWay = true)
      (h : b.Posts b' [g] [.fatallyErrored] fun c => { c with fatal := c.fatal + 1 })
  | confirmed (h : b.Posts b' [.broadcasted] [.confirmed] fun c =>
      { c with confirmed := c.confirmed + 1 })
  | displaced (h : b.Posts b' [.confirmed] [.broadcasted] fun c =>
      { c with reorgs := c.reorgs + 1 })
  | finalized (h : b.Posts b' [.confirmed] [.finalized] fun c =>
      { c with finalized := c.finalized + 1 })
  | swept {accounts : Accounts} {stages : List Stage} (hend : ∀ g ∈ stages, g.isTerminal = true)
      (htally : ∀ p, accounts.tally p + stages.countP p = b.accounts.tally p)
      (h : b' = { b with accounts := accounts, evicted := b.evicted + stages.length })
  | reaped (h : b' = { b with
      metrics := { b.metrics with reaped := b.metrics.reaped + b.evicted }, evicted := 0 })

/-- The counts agree with what is on record. Requests that are still to be put into the queue
are not counted yet, nor is what a sweep that is not over has evicted. -/
structure Balanced (b : Books) (delivering : Nat) : Prop where
  enqueued_eq : b.metrics.enqueued + delivering =
    b.accounts.tally (fun _ => true) + b.metrics.reaped + b.evicted
  ended_eq : b.metrics.finalized + b.metrics.fatal =
    b.accounts.tally Stage.isTerminal + b.metrics.reaped + b.evicted
  confirmed_eq : b.metrics.confirmed =
    b.accounts.tally (fun g => g = .confirmed) + b.metrics.reorgs + b.metrics.finalized
  energyBumps_le : b.metrics.energyBumps ≤ b.metrics.retries

theorem Posted.same (haccounts : ∀ p, b'.accounts.tally p = b.accounts.tally p)
    (hmetrics : b'.metrics.lasting = b.metrics.lasting) (hevicted : b'.evicted = b.evicted) :
    b.Posted b' :=
  .nothing ⟨fun p => by rw [haccounts], hmetrics, hevicted⟩

theorem Posts.counts (h : b.Posts b' out into change) :
    b'.metrics.enqueued = (change b.metrics).enqueued ∧
    b'.metrics.confirmed = (change b.metrics).confirmed ∧
    b'.metrics.finalized = (change b.metrics).finalized ∧
    b'.metrics.retries = (change b.metrics).retries ∧
    b'.metrics.energyBumps = (change b.metrics).energyBumps ∧
    b'.metrics.reorgs = (change b.metrics).reorgs ∧
    b'.metrics.fatal = (change b.metrics).fatal ∧
    b'.metrics.reaped = (change b.metrics).reaped := by
  have := h.lasting_eq
  simp only [Metrics.lasting, Metrics.mk.injEq, true_and] at this
  grind

/-- A turn keeps the balance if its count goes along with it. -/
theorem Balanced.posts (h : b.Balanced delivering) (hp : b.Posts b' out into change)
    {delivering' : Nat}
    (hlength : (change b.metrics).enqueued + delivering' + out.length =
      b.metrics.enqueued + delivering + into.length)
    (hend : (change b.metrics).finalized + (change b.metrics).fatal +
        out.countP Stage.isTerminal =
      b.metrics.finalized + b.metrics.fatal + into.countP Stage.isTerminal)
    (hconfirmed : (change b.metrics).confirmed + b.metrics.reorgs + b.metrics.finalized +
        out.countP (fun g => g = .confirmed) =
      b.metrics.confirmed + (change b.metrics).reorgs + (change b.metrics).finalized +
        into.countP (fun g => g = .confirmed))
    (hbumps : (change b.metrics).energyBumps + b.metrics.retries ≤
      b.metrics.energyBumps + (change b.metrics).retries)
    (hreaped : (change b.metrics).reaped = b.metrics.reaped) : b'.Balanced delivering' := by
  obtain ⟨enqueued, confirmed, finalized, retries, energyBumps, reorgs, fatal, reaped⟩ := hp.counts
  obtain ⟨enqueued_eq, ended_eq, confirmed_eq, energyBumps_le⟩ := h
  have all := hp.tally_eq fun _ => true
  have ended := hp.tally_eq Stage.isTerminal
  have seen := hp.tally_eq fun g => g = .confirmed
  have evicted := hp.evicted_eq
  simp only [List.countP_true] at all
  exact ⟨by omega, by omega, by omega, by omega⟩

theorem Balanced.swept (h : b.Balanced delivering) {accounts : Accounts} {stages : List Stage}
    (hend : ∀ g ∈ stages, g.isTerminal = true)
    (htally : ∀ p, accounts.tally p + stages.countP p = b.accounts.tally p) :
    Balanced { b with accounts := accounts, evicted := b.evicted + stages.length }
      delivering := by
  obtain ⟨enqueued_eq, ended_eq, confirmed_eq, energyBumps_le⟩ := h
  have all := htally fun _ => true
  have ended := htally Stage.isTerminal
  have seen := htally fun g => g = .confirmed
  have hall : stages.countP Stage.isTerminal = stages.length := List.countP_eq_length.mpr hend
  have hnone : stages.countP (fun g => g = .confirmed) = 0 := by
    refine List.countP_eq_zero.mpr fun g hg hc => ?_
    have ht := hend g hg
    rw [of_decide_eq_true hc] at ht
    cases ht
  simp only [List.countP_true] at all
  exact ⟨by simp only; omega, by simp only; omega, by simp only; omega, energyBumps_le⟩

theorem Balanced.posted (h : b.Balanced delivering) (hp : b.Posted b') :
    b'.Balanced delivering := by
  cases hp with
  | nothing hp => exact h.posts hp rfl rfl rfl (Nat.le_refl _) rfl
  | underWay hg hg' hp =>
    obtain ⟨hend, hconfirmed⟩ := Stage.countP_of_isUnderWay hg
    obtain ⟨hend', hconfirmed'⟩ := Stage.countP_of_isUnderWay hg'
    exact h.posts hp rfl (by rw [hend, hend']; rfl) (by rw [hconfirmed, hconfirmed']; rfl)
      (Nat.le_refl _) rfl
  | repeated more hmore hp => exact h.posts hp rfl rfl rfl (by simp only; omega) rfl
  | ended hg hp =>
    obtain ⟨hend, hconfirmed⟩ := Stage.countP_of_isUnderWay hg
    exact h.posts hp rfl (by rw [hend]; rfl) (by rw [hconfirmed]; rfl) (Nat.le_refl _) rfl
  | confirmed hp => exact h.posts hp rfl rfl (by simp; omega) (Nat.le_refl _) rfl
  | displaced hp => exact h.posts hp rfl rfl (by simp; omega) (Nat.le_refl _) rfl
  | finalized hp =>
    exact h.posts hp rfl (by simp [Stage.isTerminal]; omega) (by simp; omega) (Nat.le_refl _) rfl
  | swept hend htally hb =>
    rw [hb]
    exact h.swept hend htally
  | reaped hb =>
    obtain ⟨enqueued_eq, ended_eq, confirmed_eq, energyBumps_le⟩ := h
    rw [hb]
    exact ⟨by simp only; omega, by simp only; omega, confirmed_eq, energyBumps_le⟩

end Books

namespace Manager

open Books

variable {m m' : Manager} {a : Address} {id : String} {s : Store} {e e' : Entry} {now : Nat}

theorem posted_same (m : Manager) : m.books.Posted m.books :=
  .same (fun _ => rfl) rfl rfl

/-- A transaction comes out of its stage in a store into another, and this is counted. -/
theorem posts_set (h : s.entries = (m.store a).entries.insert id e')
    (change : Metrics → Metrics) :
    m.books.Posts { m.books with accounts := m.accounts.set a s, metrics := change m.metrics }
      ((m.store a).stage? id).toList [e'.tx.stage] change := by
  refine ⟨fun p => ?_, rfl, rfl⟩
  have hset := m.accounts.tally_set a s p
  have hturn := Store.tally_insert h p
  rw [← store] at hset
  simp only [books]
  omega

theorem posts_turn (he : (m.store a).entries.get? id = some e)
    (h : s.entries = (m.store a).entries.insert id e') (change : Metrics → Metrics) :
    m.books.Posts ((m.move a id s).count change).books [e.tx.stage] [e'.tx.stage] change := by
  have hbooks : ((m.move a id s).count change).books =
      { m.books with accounts := m.accounts.set a s, metrics := change m.metrics } := by
    unfold move
    split <;> rfl
  have hset := posts_set h change
  rwa [Store.stage?_of_entry he, ← hbooks] at hset

theorem posted_fail (hstage : ∀ g, (m.store a).stage? id = some g → g.isUnderWay = true)
    (now : Nat) (reason : String) : m.books.Posted (m.fail now a id reason).books := by
  unfold fail
  split
  · rename_i s hs
    obtain ⟨e, he, -, hs⟩ := Store.finish_eq_ok_iff.mp hs
    have hentries : s.entries =
        (m.store a).entries.insert id (e.withStage .fatallyErrored) := by rw [hs]; rfl
    have hturn := posts_turn he hentries fun c => { c with fatal := c.fatal + 1 }
    exact .ended (hstage _ (Store.stage?_of_entry he)) hturn
  · exact m.posted_same

theorem posted_finalize (now : Nat) (a : Address) (id : String) :
    m.books.Posted (m.finalize now a id).books := by
  unfold finalize
  split
  · rename_i s hs
    obtain ⟨e, he, hg, hs⟩ := Store.finish_eq_ok_iff.mp hs
    have hentries : s.entries =
        (m.store a).entries.insert id (e.withStage .finalized) := by rw [hs]; rfl
    have hturn := posts_turn he hentries fun c => { c with finalized := c.finalized + 1 }
    rw [Stage.canMoveTo_finalized_iff.mp hg] at hturn
    exact .finalized hturn
  · exact m.posted_same

theorem posted_confirm (a : Address) (id : String) (block : Int) :
    m.books.Posted (m.confirm a id block).books := by
  unfold confirm
  split
  · rename_i s hs
    obtain ⟨e, he, hg, hs⟩ := Store.markConfirmed_eq_ok_iff.mp hs
    have hentries : s.entries =
        (m.store a).entries.insert id (e.confirmedIn block) := by rw [hs]; rfl
    have hturn := posts_turn he hentries fun c => { c with confirmed := c.confirmed + 1 }
    rw [hg] at hturn
    exact .confirmed hturn
  · exact m.posted_same

theorem posted_displace (a : Address) (row : Settling) :
    m.books.Posted (m.displace a row).books := by
  unfold displace
  have hstore : (m.record (.displaced row.id row.hash row.block)).store = m.store := rfl
  simp only [hstore]
  split
  · rename_i s hs
    obtain ⟨e, he, hg, hs⟩ := Store.markReorganized_eq_ok_iff.mp hs
    have hentries : s.entries =
        (m.store a).entries.insert row.id e.displaced := by rw [hs]; rfl
    have hturn := posts_turn (m := m.record (.displaced row.id row.hash row.block)) he hentries
      fun c => { c with reorgs := c.reorgs + 1 }
    rw [hg] at hturn
    exact .displaced hturn
  · exact m.posted_same

theorem posted_failAttempt (entry : Awaiting) (rest : List Awaiting) (pass : Pass)
    (reason : String) (next : Option RetryKind) :
    m.books.Posted (m.failAttempt entry rest pass reason next).books := by
  unfold failAttempt
  split
  · exact m.posted_same
  · rename_i s tx hs
    obtain ⟨e, he, hg, hs, -⟩ := Store.markErrored_eq_ok_iff.mp hs
    have hentries : s.entries =
        (m.store pass.account).entries.insert entry.id (e.withStage .errored) := by rw [hs]; rfl
    have hturn := posts_turn he hentries fun c => c
    have hunder : e.tx.stage.isUnderWay = true := by
      obtain hg | hg := hg <;> rw [hg] <;> rfl
    exact .underWay hunder rfl hturn

theorem posted_withoutReceipt (t : Int) (entry : Awaiting) (rest : List Awaiting) (pass : Pass) :
    m.books.Posted (m.withoutReceipt t entry rest pass).books := by
  unfold withoutReceipt
  split
  · exact posted_failAttempt entry rest pass _ _
  · exact m.posted_same

theorem posted_withReceipt (r : Node.Receipt) (entry : Awaiting) (rest : List Awaiting)
    (pass : Pass) : m.books.Posted (m.withReceipt r entry rest pass).books := by
  unfold withReceipt
  cases Outcome.ofReceipt m.settings.resultCodes r with
  | success => exact posted_confirm pass.account entry.id r.block
  | outOfEnergy | outOfTime | fatal | unknown => exact posted_failAttempt entry rest pass _ _

theorem posted_informed (now : Nat) (q : Inquiry) (answer : q.Answer) :
    m.books.Posted (m.informed now q answer).books := by
  cases q with
  | solid entry rest pass =>
    rcases answer with e | _ | r
    · exact m.posted_same
    · exact m.posted_same
    · simp only [informed]
      split
      · exact posted_finalize now pass.account entry.id
      · exact m.posted_same
  | tip entry rest pass =>
    rcases answer with e | _ | r
    · exact m.posted_same
    · exact posted_displace pass.account entry
    · simp only [informed]
      split
      · exact m.posted_same
      · exact posted_displace pass.account entry
  | receipt entry rest pass =>
    rcases answer with e | _ | r
    · exact m.posted_same
    · simp only [informed]
      split
      · exact posted_withoutReceipt _ entry rest pass
      · exact m.posted_same
    · exact posted_withReceipt r entry rest pass
  | clock entry rest pass =>
    rcases answer with e | block
    · exact m.posted_same
    · exact posted_withoutReceipt _ entry rest _

theorem posted_retry {tx : Tx} {kind : RetryKind} {pass : Pass}
    (hs : (m.store pass.account).recordCounters (tx.nextAttempt kind) = .ok s) (reason : String)
    (rest : List Awaiting) : m.books.Posted (m.retry tx reason kind rest pass).books := by
  obtain ⟨e, he, hstore⟩ := Store.recordCounters_eq_ok_iff.mp hs
  have hentries : s.entries =
      (m.store pass.account).entries.insert tx.id (e.withCounters (tx.nextAttempt kind)) := by
    rw [hstore]
    rfl
  let more := if kind = .moreEnergy then 1 else 0
  have hturn := posts_set hentries fun c =>
    { c with retries := c.retries + 1, energyBumps := c.energyBumps + more }
  have hbooks : (m.retry tx reason kind rest pass).books = { m.books with
      accounts := m.accounts.set pass.account s
      metrics := { m.metrics with
        retries := m.metrics.retries + 1, energyBumps := m.metrics.energyBumps + more } } := by
    cases kind with
    | moreEnergy =>
      have hstore : (m.count fun c => { c with energyBumps := c.energyBumps + 1 }).store
        pass.account = m.store pass.account := rfl
      simp only [retry, if_true, hstore, hs]
      rfl
    | plain | moreTime =>
      simp only [retry, reduceCtorEq, if_false, hs]
      rfl
  have hmore : more ≤ 1 := by
    simp only [more]
    split
    · exact Nat.le_refl 1
    · exact Nat.zero_le 1
  have hstage : (m.store pass.account).stage? tx.id = some e.tx.stage := Store.stage?_of_entry he
  rw [hstage] at hturn
  rw [hbooks]
  exact .repeated more hmore hturn

theorem posted_afterFailure {tx : Tx} {pass : Pass}
    (hstage : ∀ g, (m.store pass.account).stage? tx.id = some g → g.isUnderWay = true)
    (hcounters : ∀ kind, ∃ s, (m.store pass.account).recordCounters (tx.nextAttempt kind) = .ok s)
    (now : Nat) (reason : String) (next : Option RetryKind) (rest : List Awaiting) :
    m.books.Posted (m.afterFailure now tx reason next rest pass).books := by
  unfold afterFailure
  split
  · exact posted_fail hstage now _
  · rename_i kind
    split
    · exact posted_fail hstage now _
    · obtain ⟨s, hs⟩ := hcounters kind
      exact posted_retry hs reason rest

theorem posted_requeue (tx : Tx) (rest : List Awaiting) (pass : Pass) :
    m.books.Posted (m.requeue tx rest pass).books := by
  unfold requeue
  split
  · exact m.posted_same
  · split
    · exact m.posted_same
    · exact m.posted_same

theorem posted_priced (m : Manager) (e : Fee.Estimator) (now : Nat) (tx : Tx) (energy : Int) :
    m.books.Posted ({ m with estimator := e }.priced now tx energy).books := by
  unfold priced
  split
  · exact m.posted_same
  · exact m.posted_same

theorem posted_attempt (tx : Tx) : m.books.Posted (m.attempt tx).books := by
  unfold attempt
  split
  · exact .same (m.accounts.tally_ensure tx.sender) rfl rfl
  · exact .same (m.accounts.tally_ensure tx.sender) rfl rfl

theorem posted_sent (p : Parcel) : m.books.Posted (m.sent p).books := by
  unfold sent
  split
  · exact m.posted_same
  · rename_i s hs
    obtain ⟨-, e, he, hg, hs⟩ := Store.markBroadcasted_eq_ok_iff.mp hs
    have hentries : s.entries = (m.store p.tx.sender).entries.insert p.tx.id
        (e.sentAs p.signed.id p.signed.raw.expiration p.tx) := by rw [hs]; rfl
    obtain ⟨htally, hlasting, hevicted⟩ := posts_turn he hentries fun c =>
      { c with broadcast := c.broadcast + 1 }
    have hunder : e.tx.stage.isUnderWay = true := by
      obtain hg | hg := hg <;> rw [hg] <;> rfl
    exact .underWay hunder rfl ⟨htally, hlasting, hevicted⟩

theorem posted_judge (now : Nat) (p : Parcel) (v : Node.Verdict) :
    m.books.Posted (m.judge now p v).books := by
  unfold judge
  split
  · exact posted_sent p
  · split
    · exact m.posted_same
    · split
      · exact m.posted_same
      · exact .same (fun _ => rfl) rfl rfl

theorem posted_answered {a : Attempt}
    (hstage : ∀ g, (m.store a.tx.sender).stage? a.tx.id = some g → g.isUnderWay = true)
    (now : Nat) (answer : a.Answer) : m.books.Posted (m.answered now a answer).books := by
  cases a with
  | beginning tx => exact posted_attempt tx
  | estimating tx call =>
    simp only [answered]
    split
    · exact m.posted_same
    · exact m.posted_priced _ now tx _
    · exact m.posted_same
  | simulating tx call =>
    simp only [answered]
    split
    · exact m.posted_priced m.estimator now tx _
    · exact m.posted_same
  | pricing tx energy => exact m.posted_same
  | referring tx feeLimit =>
    cases answer with
    | error e => exact m.posted_same
    | ok block =>
      simp only [answered]
      split
      · exact m.posted_same
      · exact m.posted_same
  | signing tx feeLimit unsigned =>
    cases answer with
    | error e => exact m.posted_same
    | ok signature => exact m.posted_same
  | sending p =>
    cases answer with
    | error e => exact m.posted_same
    | ok verdict => exact posted_judge now p verdict
  | failing tx reason => exact posted_fail hstage now reason

theorem posted_sweep (hc : ∀ a, (m.store a).Consistent) {begun evicted : Nat} {a : Address}
    {later : List Address} (hr : m.reaper = .sweeping begun (a :: later) evicted) :
    m.books.Posted (m.sweep begun a later evicted).books := by
  obtain ⟨stages, hlength, hend, htally⟩ :=
    (hc a).tally_reap (m.settings.retentionSecs * 1000) begun
  have hbooks : (m.sweep begun a later evicted).books = { m.books with
      accounts := (m.sweep begun a later evicted).accounts
      evicted := m.books.evicted + stages.length } := by
    rw [hlength]
    simp only [books, hr]
    rfl
  refine .swept hend (fun p => ?_) hbooks
  have hset := m.accounts.tally_set a
    ((m.store a).reap (m.settings.retentionSecs * 1000) begun).1 p
  have hreap := htally p
  have haccounts : (m.sweep begun a later evicted).accounts =
      m.accounts.set a ((m.store a).reap (m.settings.retentionSecs * 1000) begun).1 := rfl
  rw [haccounts]
  rw [← store] at hset
  simp only [books]
  omega

theorem posts_takeIn (tx : Tx) : m.books.Posts (m.takeIn tx).1.books []
    (((m.takeIn tx).2.calls.filterMap Call.tx?).map fun _ => .pending) fun c => c := by
  unfold takeIn
  split
  · exact ⟨fun p => rfl, rfl, rfl⟩
  · exact ⟨fun p => rfl, rfl, rfl⟩
  · rename_i s hs
    obtain ⟨hnew, -, rfl⟩ := Store.addPending_eq_ok_iff.mp hs
    have hset := posts_set (s := { m.store tx.sender with
      keys := (m.store tx.sender).keysWith tx }.setEntry tx.id (.ofTx tx)) rfl fun c => c
    rwa [Store.stage?_eq_none_iff.mpr hnew] at hset

theorem posts_reserve (tx : Tx) : m.books.Posts (m.reserve tx).1.books []
    (((m.reserve tx).2.calls.filterMap Call.tx?).map fun _ => .pending) fun c => c := by
  unfold reserve
  split
  · exact ⟨fun p => rfl, rfl, rfl⟩
  · split
    · exact ⟨fun p => rfl, rfl, rfl⟩
    · exact ⟨fun p => rfl, rfl, rfl⟩

/-- What comes into a store has still to be put into the queue. Then it is counted. -/
theorem posts_proceed (m : Manager) (fresh : String) (q : Submission) (answer : q.Answer) :
    m.books.Posts (m.proceed fresh q answer).1.books []
      (((m.proceed fresh q answer).2.calls.filterMap Call.tx?).map fun _ => .pending)
      fun c => { c with enqueued := c.enqueued + q.tx?.toList.length } := by
  cases q with
  | probing r =>
    rcases answer with e | signature
    · exact ⟨fun p => rfl, rfl, rfl⟩
    · have hensure := m.accounts.tally_ensure r.sender
      simp only [proceed]
      split
      · split
        · exact ⟨hensure, rfl, rfl⟩
        · exact ⟨hensure, rfl, rfl⟩
      · exact ⟨hensure, rfl, rfl⟩
  | checking r message =>
    rcases answer with e | retries
    · exact ⟨fun p => rfl, rfl, rfl⟩
    · simp only [proceed]
      split
      · exact ⟨fun p => rfl, rfl, rfl⟩
      · exact ⟨fun p => rfl, rfl, rfl⟩
  | reserving tx => exact posts_reserve tx
  | admitting tx => exact posts_takeIn tx
  | delivering tx => exact ⟨fun p => rfl, rfl, rfl⟩

end Manager

namespace System

open Manager Books

variable {s₀ s s' : System} {act : Act} {acts : List Act}

theorem Guarded.isUnderWay_poller (hg : s.Guarded) {tx : Tx}
    (htx : s.manager.poller.tx? = some tx) {pass : Pass}
    (hpass : s.manager.poller.pass? = some pass) :
    ∀ g, (s.manager.store pass.account).stage? tx.id = some g → g.isUnderWay = true := by
  obtain ⟨hsender, copies, hguards⟩ := hg.poller_guards htx hpass
  obtain ⟨e, he, hopen, -⟩ := hguards.of_cons
  rw [hsender] at he
  exact Store.isUnderWay_of_entry he hopen

theorem Guarded.posted (hg : s.Guarded) {m' : Manager} (hm : PartStep s.manager s.now act m') :
    s.manager.books.Posted m'.books := by
  cases hm with
  | take hm =>
    unfold Manager.take? at hm
    split at hm
    · cases hm
      exact .same (fun _ => rfl) rfl rfl
    · cases hm
  | @answered a ha answer =>
    have htx : s.manager.sender.tx? = some a.tx := by rw [ha]; rfl
    obtain ⟨e, he, hopen⟩ := hg.at_sender htx
    exact posted_answered (Store.isUnderWay_of_entry he hopen) s.now answer
  | wake | beginPass | collect | usePlace => exact s.manager.posted_same
  | survey => exact s.manager.posted_same
  | endPass => exact .same (fun _ => rfl) rfl rfl
  | informed hq answer => exact posted_informed s.now _ answer
  | @afterFailure tx reason next rest pass hp =>
    have htx : s.manager.poller.tx? = some tx := by rw [hp]; rfl
    have hpass : s.manager.poller.pass? = some pass := by rw [hp]; rfl
    refine posted_afterFailure (hg.isUnderWay_poller htx hpass) (fun kind => ?_) s.now _ _ _
    obtain ⟨hsender, copies, hguards⟩ := hg.poller_guards htx hpass
    obtain ⟨t, ht, -⟩ := hguards.recordCounters (tx.nextAttempt kind) rfl rfl rfl
    exact ⟨t, hsender ▸ ht⟩
  | requeue => exact posted_requeue _ _ _
  | @withoutPlace tx rest pass hp =>
    have htx : s.manager.poller.tx? = some tx := by rw [hp]; rfl
    have hpass : s.manager.poller.pass? = some pass := by rw [hp]; rfl
    exact posted_fail (hg.isUnderWay_poller htx hpass) s.now _
  | beginSweep hr =>
    refine .same (fun _ => rfl) rfl ?_
    simp only [books, hr]
    rfl
  | sweep hr => exact posted_sweep hg.consistent hr
  | endSweep hr =>
    refine .reaped ?_
    simp only [books, hr]
    rfl

/-- The counts agree with what is on record, whatever is still going on. -/
def Balanced (s : System) : Prop :=
  s.manager.books.Balanced (s.calls.filterMap Call.tx?).length

theorem Balanced.of_books (h : s.Balanced) (hbooks : s'.manager.books = s.manager.books)
    (hcalls : s'.calls.filterMap Call.tx? = s.calls.filterMap Call.tx?) : s'.Balanced := by
  rwa [Balanced, hbooks, hcalls]

theorem Balanced.proceed (h : s.Balanced) {before after : List Call} {q : Submission}
    (hc : s.calls = before ++ .entering q :: after) (answer : q.Answer) (fresh : String) :
    Balanced { s with
      manager := (s.manager.proceed fresh q answer).1
      calls := before ++ (s.manager.proceed fresh q answer).2.calls ++ after } := by
  have hcalls : s.calls.filterMap Call.tx? =
      before.filterMap Call.tx? ++ q.tx?.toList ++ after.filterMap Call.tx? := by
    rw [hc]
    exact filterMap_calls before after (.entering q)
  have hpending (p : Stage → Bool) (hp : p .pending = false) (new : List Tx) :
      (new.map fun _ => Stage.pending).countP p = 0 := by
    simp [List.countP_eq_zero, hp]
  rw [Balanced, hcalls] at h
  refine Books.Balanced.posts h (s.manager.posts_proceed fresh q answer) ?_ ?_ ?_
    (Nat.le_refl _) rfl
  · simp only [List.filterMap_append, List.length_append, List.length_map, List.length_nil]
    omega
  · rw [hpending _ rfl, List.countP_nil]
  · rw [hpending _ rfl, List.countP_nil]

theorem Step.balanced (h : s.Balanced) (hg : s.Guarded) (hs : Step s act s') : s'.Balanced := by
  cases hs with
  | part hm => exact Books.Balanced.posted h (hg.posted hm)
  | pass => exact h
  | submit hq =>
    refine h.of_books rfl ?_
    rw [submit_eq_ok hq, filterMap_rest rfl, List.append_nil]
  | proceed hc answer fresh => exact h.proceed hc answer fresh
  | begin hm =>
    obtain ⟨-, rfl⟩ := begin_eq_ok_iff.mp hm
    refine h.of_books rfl ?_
    rw [filterMap_rest rfl, List.append_nil]
  | shut =>
    refine h.of_books rfl ?_
    rw [filterMap_rest rfl, List.append_nil]
  | takeOutlet hc hm =>
    obtain ⟨-, rfl⟩ := takeOutlet_eq_ok_iff.mp hm
    refine h.of_books rfl ?_
    rw [hc, filterMap_rest rfl, filterMap_rest rfl]
  | @spawn before after w parts hc =>
    refine h.of_books ?_ (by rw [hc, filterMap_rest rfl, filterMap_rest rfl])
    cases w with
    | sender | poller => rfl
    | reaper =>
      -- nothing was evicted before the reaper was set going
      have habsent : s.manager.isAbsent .reaper :=
        hg.launched.absent .reaper (by simp [unlaunched, hc, Call.parts])
      have hreaper : s.manager.reaper = .absent := habsent
      simp only [books, hreaper]
      rfl
  | tell hc | gather hc =>
    refine h.of_books rfl ?_
    rw [hc, filterMap_rest rfl, filterMap_rest rfl]
  | register hc | withoutOutlet hc | join hc =>
    refine h.of_books rfl ?_
    rw [hc, filterMap_rest rfl]
  | @halt w hw hlistens =>
    refine h.of_books ?_ rfl
    cases w with
    | sender | poller => rfl
    | reaper =>
      -- the reaper does not hear in the middle of a sweep that it is to stop
      have hreaper : s.manager.reaper = .resting := by simpa [listens] using hlistens
      simp only [books, hreaper]
      rfl

theorem balanced_initial {settings : Settings} {checks : Bool} {m : Manager}
    (hm : ofSettings settings checks = .ok m) (now : Nat) : Balanced { manager := m, now } := by
  obtain ⟨-, rfl⟩ := ofSettings_eq_ok hm
  exact ⟨rfl, rfl, rfl, Nat.le_refl 0⟩

theorem Run.balanced (hr : Run s₀ acts s) (hg : s₀.Guarded) (h : s₀.Balanced) : s.Balanced := by
  induction hr with
  | start => exact h
  | next hr hs ih => exact hs.balanced ih (hr.guarded hg)

/-- No request has its transaction in a store but not in the queue, and no sweep is going on. -/
structure IsQuiet (s : System) : Prop where
  delivering : ∀ q ∈ s.submissions, q.tx? = none
  sweeping : ∀ begun later evicted, s.manager.reaper ≠ .sweeping begun later evicted

/-- Whatever a manager has gone through, what it counted tells what it has on record, how much
of that has come to its end, and how much is confirmed. -/
theorem counts_account {settings : Settings} {checks : Bool} {m : Manager} {now : Nat}
    (hm : ofSettings settings checks = .ok m) (hr : Run { manager := m, now } acts s)
    (hquiet : s.IsQuiet) :
    let counts := s.manager.metrics
    let tracked := s.manager.accounts.tracked
    counts.enqueued = tracked.length + counts.reaped ∧
    counts.finalized + counts.fatal =
      tracked.countP (fun tx => tx.stage.isTerminal) + counts.reaped ∧
    (counts.confirmed - counts.reorgs - counts.finalized : Int) =
      tracked.countP (fun tx => tx.stage = .confirmed) ∧
    counts.energyBumps ≤ counts.retries := by
  obtain ⟨enqueued_eq, ended_eq, confirmed_eq, energyBumps_le⟩ :=
    hr.balanced (guarded_initial hm now) (balanced_initial hm now)
  have hnone : s.calls.filterMap Call.tx? = [] := by
    rw [filterMap_submissions, List.filterMap_eq_nil_iff]
    exact hquiet.delivering
  have hevicted : s.manager.reaper.evicted = 0 := by
    cases hreaper : s.manager.reaper with
    | sweeping begun later evicted => exact (hquiet.sweeping _ _ _ hreaper).elim
    | absent | resting | stopped => rfl
  simp only [books, Accounts.tally_eq_countP, List.countP_true, hnone, hevicted,
    List.length_nil] at enqueued_eq ended_eq confirmed_eq energyBumps_le
  exact ⟨by omega, by omega, by omega, energyBumps_le⟩

/-- One transaction was confirmed and is so still. -/
theorem counts_account_oneSample : ∃ m acts s, ofSettings {} false = .ok m ∧
    Run { manager := m, now := 0 } acts s ∧ s.IsQuiet ∧
    (s.manager.store sampleRequest.sender).stage? "t" = some .confirmed ∧
    0 < s.manager.metrics.enqueued ∧
    s.manager.metrics.reorgs + s.manager.metrics.finalized < s.manager.metrics.confirmed := by
  obtain ⟨m, acts, s, hash, expiration, hm, hr, -, hs⟩ := run_oneConfirmed
  have hquiet : s.IsQuiet := ⟨by simp [hs.submissions], by simp [hs.reaper]⟩
  obtain ⟨e, he, hstage⟩ : ∃ e, (s.manager.store sampleRequest.sender).entries.get? "t" = some e ∧
      e.tx.stage = .confirmed := by
    rw [hs.store]
    exact ⟨_, rfl, rfl⟩
  obtain ⟨enqueued_eq, -, confirmed_eq, -⟩ := counts_account hm hr hquiet
  have hc := (hr.guarded (guarded_initial hm 0)).consistent sampleRequest.sender
  have hmem : e.tx ∈ s.manager.accounts.tracked := Accounts.mem_tracked hc.nodup_entries he
  have hsome : 0 < s.manager.accounts.tracked.length := List.length_pos_of_mem hmem
  have hone : 0 < s.manager.accounts.tracked.countP fun tx => tx.stage = .confirmed :=
    List.countP_pos_iff.mpr ⟨e.tx, hmem, by simp [hstage]⟩
  exact ⟨m, acts, s, hm, hr, hquiet, (Store.stage?_of_entry he).trans (congrArg some hstage),
    by omega, by omega⟩

end System

end TronCourier
