import TronCourier.Proofs.Manager.Custody
import TronCourier.Proofs.Manager.Intake

/-! The counters of a transaction keep to the limits. Each attempt that was sent has left
one hash, and attempts with more energy or more time are not counted beyond the others. -/

namespace TronCourier

/-- The transaction whose failed attempt is still to be followed by another or by the end. -/
def Poller.failed? : Poller → Option Tx
  | .failed tx _ _ _ _ => some tx
  | .absent | .resting | .surveying _ | .collecting _ | .asking _ | .requeuing _ _ _
  | .blocked _ _ _ | .granted _ _ _ | .refused _ _ _ | .stopped => none

/-- Whether it is this transaction of a sender. -/
def Names (failed : Option Tx) (a : Address) (id : String) : Prop :=
  ∃ tx, failed = some tx ∧ tx.sender = a ∧ tx.id = id

structure Entry.Budgeted (e : Entry) (settings : Settings) (failed : Prop) : Prop where
  attempt_pos : 1 ≤ e.tx.attempt
  attempt_le : e.tx.attempt ≤ settings.maxAttempts
  outOfTime_le : e.tx.outOfTime ≤ settings.maxOutOfTime
  retries_lt : e.tx.energyBumps + e.tx.outOfTime < e.tx.attempt
  hashes_le : e.hashes.length ≤ e.tx.attempt
  sent : e.tx.stage = .broadcasted ∨ e.tx.stage = .confirmed ∨ e.tx.stage = .finalized →
    e.hashes.length = e.tx.attempt
  recorded : e.tx.stage.isOpen = true → failed → e.hashes.length = e.tx.attempt
  waiting : e.tx.stage.isOpen = true → ¬ failed → e.hashes.length + 1 = e.tx.attempt

def Budgeted (settings : Settings) (stores : Address → Store) (failed : Option Tx) : Prop :=
  ∀ a id e, (stores a).entries.get? id = some e → e.Budgeted settings (Names failed a id)

variable {settings : Settings} {stores : Address → Store} {failed failed' : Option Tx}
  {tx : Tx} {a : Address} {id : String} {s : Store} {e : Entry}

theorem not_names_none (a : Address) (id : String) : ¬ Names none a id :=
  fun ⟨_, h, _⟩ => nomatch h

theorem names_some_iff : Names (some tx) a id ↔ tx.sender = a ∧ tx.id = id := by
  simp [Names]

theorem names_other (hsender : tx.sender = a) (hid : tx.id = id) {b : Address} {j : String}
    (hj : ¬ (a = b ∧ id = j)) : Names none b j ↔ Names (some tx) b j := by
  refine ⟨fun hnone => absurd hnone (not_names_none b j), fun hsome => ?_⟩
  obtain ⟨rfl, rfl⟩ := names_some_iff.mp hsome
  exact absurd ⟨hsender.symm, hid.symm⟩ hj

namespace Budgeted

theorem replace (h : Budgeted settings stores failed) (id : String) (e' : Entry)
    (hentries : s.entries = (stores a).entries.insert id e')
    (hself : e'.Budgeted settings (Names failed' a id))
    (hother : ∀ b j, ¬ (a = b ∧ id = j) → (Names failed' b j ↔ Names failed b j)) :
    Budgeted settings (Function.update stores a s) failed' := by
  intro b j d hd
  by_cases hj : a = b ∧ id = j
  · obtain ⟨rfl, rfl⟩ := hj
    rw [Function.update_self, hentries, Table.get?_insert, if_pos rfl, Option.some.injEq] at hd
    exact hd ▸ hself
  · have hsame : (stores b).entries.get? j = some d := by
      by_cases hb : b = a
      · subst hb
        rw [Function.update_self, hentries, Table.get?_insert,
          if_neg fun hid => hj ⟨rfl, hid⟩] at hd
        exact hd
      · rwa [Function.update_of_ne hb] at hd
    rw [hother b j hj]
    exact h b j d hsame

theorem replaceSame (h : Budgeted settings stores failed) (e' : Entry)
    (hentries : s.entries = (stores a).entries.insert id e')
    (hself : e'.Budgeted settings (Names failed a id)) :
    Budgeted settings (Function.update stores a s) failed :=
  h.replace id e' hentries hself fun _ _ _ => Iff.rfl

theorem addPending (h : Budgeted settings stores failed) (hlimit : 1 ≤ settings.maxAttempts)
    (hattempt : tx.attempt = 1) (hbumps : tx.energyBumps = 0) (htime : tx.outOfTime = 0)
    (hnot : ¬ Names failed tx.sender tx.id) (hs : (stores tx.sender).addPending tx = .ok s) :
    Budgeted settings (Function.update stores tx.sender s) failed := by
  obtain ⟨-, -, rfl⟩ := Store.addPending_eq_ok_iff.mp hs
  refine h.replaceSame (.ofTx tx) rfl ?_
  constructor <;> simp [Entry.ofTx, hattempt, hbumps, htime, hlimit, Stage.isOpen, hnot]

theorem markBroadcasted (h : Budgeted settings stores failed) {hash : String} {expiration : Int}
    (he : (stores tx.sender).entries.get? tx.id = some e) (hopen : e.tx.stage.isOpen = true)
    (hcount : tx.SameCounters e.tx) (hnot : ¬ Names failed tx.sender tx.id)
    (hs : (stores tx.sender).markBroadcasted hash expiration tx = .ok s) :
    Budgeted settings (Function.update stores tx.sender s) failed := by
  obtain ⟨-, d, hd, -, rfl⟩ := Store.markBroadcasted_eq_ok_iff.mp hs
  obtain rfl : e = d := Option.some.inj (he.symm.trans hd)
  obtain ⟨hattempt, hbumps, htime⟩ := hcount
  have hb := h _ _ _ he
  have hhashes : (e.hashes ++ [hash]).length = tx.attempt := by
    rw [List.length_append, List.length_singleton, hattempt]
    exact hb.waiting hopen hnot
  refine h.replaceSame (e.sentAs hash expiration tx) rfl ?_
  refine ⟨hattempt ▸ hb.attempt_pos, hattempt ▸ hb.attempt_le, htime ▸ hb.outOfTime_le, ?_,
    Nat.le_of_eq hhashes, fun _ => hhashes, nofun, nofun⟩
  show tx.energyBumps + tx.outOfTime < tx.attempt
  rw [hattempt, hbumps, htime]
  exact hb.retries_lt

theorem moved (h : Budgeted settings stores failed) (he : (stores a).entries.get? id = some e)
    (e' : Entry) (hhashes : e'.hashes = e.hashes) (htx : e'.tx = { e.tx with stage := e'.tx.stage })
    (hclosed : e'.tx.stage.isOpen = false)
    (hsent : e'.tx.stage ≠ .fatallyErrored → e.hashes.length = e.tx.attempt)
    (hentries : s.entries = (stores a).entries.insert id e')
    (hother : ∀ b j, ¬ (a = b ∧ id = j) → (Names failed' b j ↔ Names failed b j)) :
    Budgeted settings (Function.update stores a s) failed' := by
  have hb := h _ _ _ he
  have hattempt : e'.tx.attempt = e.tx.attempt := by rw [htx]
  have hbumps : e'.tx.energyBumps = e.tx.energyBumps := by rw [htx]
  have htime : e'.tx.outOfTime = e.tx.outOfTime := by rw [htx]
  refine h.replace id e' hentries ⟨?_, ?_, ?_, ?_, ?_, fun hg => ?_, ?_, ?_⟩ hother
  · rw [hattempt]
    exact hb.attempt_pos
  · rw [hattempt]
    exact hb.attempt_le
  · rw [htime]
    exact hb.outOfTime_le
  · rw [hattempt, hbumps, htime]
    exact hb.retries_lt
  · rw [hattempt, hhashes]
    exact hb.hashes_le
  · rw [hattempt, hhashes]
    refine hsent fun hfatal => ?_
    rw [hfatal] at hg
    simp at hg
  · rw [hclosed]
    nofun
  · rw [hclosed]
    nofun

theorem markConfirmed (h : Budgeted settings stores failed) {block : Int}
    (hs : (stores a).markConfirmed id block = .ok s) :
    Budgeted settings (Function.update stores a s) failed := by
  obtain ⟨e, he, hg, rfl⟩ := Store.markConfirmed_eq_ok_iff.mp hs
  have hsent := (h _ _ _ he).sent (.inl hg)
  exact h.moved he (e.confirmedIn block) rfl rfl rfl (fun _ => hsent) rfl fun _ _ _ => Iff.rfl

theorem markReorganized (h : Budgeted settings stores failed)
    (hs : (stores a).markReorganized id = .ok s) :
    Budgeted settings (Function.update stores a s) failed := by
  obtain ⟨e, he, hg, rfl⟩ := Store.markReorganized_eq_ok_iff.mp hs
  have hsent := (h _ _ _ he).sent (.inr (.inl hg))
  exact h.moved he e.displaced rfl rfl rfl (fun _ => hsent) rfl fun _ _ _ => Iff.rfl

theorem markFinalized (h : Budgeted settings stores failed) {now : Nat}
    (hs : (stores a).markFinalized id now = .ok s) :
    Budgeted settings (Function.update stores a s) failed := by
  obtain ⟨e, he, hmove, rfl⟩ := Store.finish_eq_ok_iff.mp hs
  have hsent := (h _ _ _ he).sent (.inr (.inl (Stage.canMoveTo_finalized_iff.mp hmove)))
  exact h.moved he (e.withStage .finalized) rfl rfl rfl (fun _ => hsent) rfl fun _ _ _ => Iff.rfl

theorem markFatal (h : Budgeted settings stores failed) {now : Nat}
    (hs : (stores a).markFatal id now = .ok s)
    (hother : ∀ b j, ¬ (a = b ∧ id = j) → (Names failed' b j ↔ Names failed b j)) :
    Budgeted settings (Function.update stores a s) failed' := by
  obtain ⟨e, he, -, rfl⟩ := Store.finish_eq_ok_iff.mp hs
  exact h.moved he (e.withStage .fatallyErrored) rfl rfl rfl (fun hg => absurd rfl hg) rfl
    hother

/-- The attempt that the poller has found to have failed left a hash. -/
theorem markErrored (h : Budgeted settings stores none)
    (he : (stores a).entries.get? id = some e) (hg : e.tx.stage = .broadcasted)
    (hid : e.tx.id = id) (hsender : e.tx.sender = a)
    (hs : (stores a).markErrored id = .ok (s, tx)) :
    Budgeted settings (Function.update stores a s) (some tx) := by
  obtain ⟨d, hd, -, rfl, rfl⟩ := Store.markErrored_eq_ok_iff.mp hs
  obtain rfl : e = d := Option.some.inj (he.symm.trans hd)
  have hb := h _ _ _ he
  have hsent := hb.sent (.inl hg)
  refine h.replace id (e.withStage .errored) rfl ?_ fun b j hj => ?_
  · refine ⟨hb.attempt_pos, hb.attempt_le, hb.outOfTime_le, hb.retries_lt, hb.hashes_le, ?_,
      fun _ _ => hsent, fun _ hnot => ?_⟩
    · simp [Entry.withStage]
    · exact absurd ⟨_, rfl, hsender, hid⟩ hnot
  · have hfailed : (e.withStage .errored).tx.sender = a := hsender
    exact (names_other hfailed hid hj).symm

/-- The next attempt stays within the limits and has no hash yet. -/
theorem recordCounters (h : Budgeted settings stores (some tx)) {kind : RetryKind}
    (he : (stores tx.sender).entries.get? tx.id = some e) (hopen : e.tx.stage.isOpen = true)
    (hcount : tx.SameCounters e.tx) (hattempt : tx.attempt < settings.maxAttempts)
    (htime : kind = .moreTime → tx.outOfTime < settings.maxOutOfTime)
    (hs : (stores tx.sender).recordCounters (tx.nextAttempt kind) = .ok s) :
    Budgeted settings (Function.update stores tx.sender s) none := by
  obtain ⟨d, hd, rfl⟩ := Store.recordCounters_eq_ok_iff.mp hs
  obtain rfl : e = d := Option.some.inj (he.symm.trans hd)
  have hb := h _ _ _ he
  have hself : Names (some tx) tx.sender tx.id := names_some_iff.mpr ⟨rfl, rfl⟩
  have hhashes := hb.recorded hopen hself
  obtain ⟨hattempts, hbumps, htimes⟩ := hcount
  have hretries := hb.retries_lt
  refine h.replace tx.id (e.withCounters (tx.nextAttempt kind)) rfl
    ⟨?_, ?_, ?_, ?_, ?_, fun hg => ?_, fun _ hsome => ?_, fun _ _ => ?_⟩
    fun b j hj => names_other rfl rfl hj
  · show 1 ≤ tx.attempt + 1
    omega
  · show tx.attempt + 1 ≤ settings.maxAttempts
    exact hattempt
  · show (tx.nextAttempt kind).outOfTime ≤ settings.maxOutOfTime
    simp only [Tx.nextAttempt]
    split
    · rename_i hkind
      exact htime hkind
    · rw [htimes]
      exact hb.outOfTime_le
  · show (tx.nextAttempt kind).energyBumps + (tx.nextAttempt kind).outOfTime < tx.attempt + 1
    cases kind <;> simp only [Tx.nextAttempt] <;> simp <;> omega
  · show e.hashes.length ≤ tx.attempt + 1
    omega
  · have hclosed : e.tx.stage.isOpen = false := by
      have hg : e.tx.stage = .broadcasted ∨ e.tx.stage = .confirmed ∨ e.tx.stage = .finalized := hg
      rcases hg with hg | hg | hg <;> rw [hg] <;> rfl
    rw [hclosed] at hopen
    cases hopen
  · exact absurd hsome (not_names_none _ _)
  · show e.hashes.length + 1 = tx.attempt + 1
    omega

theorem reap (h : Budgeted settings stores failed) (a : Address) (retention now : Nat) :
    Budgeted settings (Function.update stores a ((stores a).reap retention now).1) failed := by
  intro b j d hd
  refine h b j d ?_
  by_cases hb : b = a
  · subst hb
    rw [Function.update_self, Store.get?_reap] at hd
    by_cases hj : j ∈ (stores b).expired retention now
    · rw [if_pos hj] at hd
      cases hd
    · rwa [if_neg hj] at hd
  · rwa [Function.update_of_ne hb] at hd

end Budgeted

namespace Poller

theorem tx?_of_failed? {p : Poller} (h : p.failed? = some tx) : p.tx? = some tx := by
  cases p with
  | failed tx reason next rest pass => exact h
  | _ => cases h

theorem failed?_afterAwaiting (pass : Pass) (rest : List Awaiting) :
    (afterAwaiting pass rest).failed? = none := by
  cases rest with
  | nil => rfl
  | cons e rest => rfl

theorem failed?_afterSettling (pass : Pass) (rest : List Settling) :
    (afterSettling pass rest).failed? = none := by
  cases rest with
  | nil => rfl
  | cons e rest => rfl

theorem failed?_grant (p : Poller) : p.grant.failed? = p.failed? := by
  cases p with
  | blocked tx rest pass => rfl
  | _ => rfl

theorem failed?_refuse (p : Poller) : p.refuse.failed? = p.failed? := by
  cases p with
  | blocked tx rest pass => rfl
  | _ => rfl

end Poller

namespace Manager

/-- The counters of all transactions keep to the limits of the manager. -/
def Budgeted (m : Manager) : Prop :=
  TronCourier.Budgeted m.settings m.store m.poller.failed?

variable {m m' : Manager} {c : List Tx}

/-- What the sender has at hand waits to be sent, and the poller does not hold it. -/
theorem Custody.of_sender (h : m.Custody c) (htx : m.sender.tx? = some tx) :
    ∃ e, (m.store tx.sender).entries.get? tx.id = some e ∧ e.tx.stage.isOpen = true ∧
      tx.SameCounters e.tx ∧ ¬ Names m.poller.failed? tx.sender tx.id := by
  have hg := h.guards
  rw [copies, htx] at hg
  obtain ⟨e, he, hopen, hcount, hrest⟩ := (hg.perm (perm_sender ..)).of_cons
  refine ⟨e, he, hopen, hcount, ?_⟩
  rintro ⟨other, hother, hsender, hid⟩
  have hmem : other ∈ c ++ (m.queue ++ [] ++ m.poller.tx?.toList) := by
    simp [Poller.tx?_of_failed? hother]
  have hheld := held_pos hmem
  rw [hsender, hid] at hheld
  omega

theorem Custody.of_poller (h : m.Custody c) (htx : m.poller.tx? = some tx) :
    ∃ e, (m.store tx.sender).entries.get? tx.id = some e ∧ e.tx.stage.isOpen = true ∧
      tx.SameCounters e.tx := by
  obtain ⟨e, he, hopen, hcount, -⟩ := (h.guards_poller htx).of_cons
  exact ⟨e, he, hopen, hcount⟩

/-- The poller holds nothing that no store has. -/
theorem Custody.not_names (h : m.Custody c) {a : Address} {id : String}
    (hnone : (m.store a).entries.get? id = none) : ¬ Names m.poller.failed? a id := by
  rintro ⟨tx, htx, rfl, rfl⟩
  obtain ⟨e, he, -⟩ := h.of_poller (Poller.tx?_of_failed? htx)
  rw [hnone] at he
  cases he

theorem budgeted_of_senderLeaves {x : Sender} (hm : m.SenderLeaves m' x stores)
    (h : TronCourier.Budgeted m.settings stores m.poller.failed?) : m'.Budgeted := by
  obtain ⟨⟨accounts, estimator, metrics, events, rfl⟩, rfl⟩ := hm
  exact h

theorem budgeted_of_pollerLeaves {x : Poller} (hm : m.PollerLeaves m' x stores)
    (h : TronCourier.Budgeted m.settings stores x.failed?) : m'.Budgeted := by
  obtain ⟨⟨accounts, metrics, events, rfl⟩, rfl⟩ := hm
  exact h

theorem Budgeted.idle (h : m.Budgeted) {x : Poller} (hp : m.poller.failed? = none)
    (hx : x.failed? = none) (hm : m.PollerLeaves m' x m.store) : m'.Budgeted := by
  refine budgeted_of_pollerLeaves hm ?_
  rw [Budgeted, hp] at h
  rwa [hx]

theorem Budgeted.answered (h : m.Budgeted) (hc : m.Custody c) (now : Nat) {a : Attempt}
    (ha : m.sender = .busy a) (answer : a.Answer) : (m.answered now a answer).Budgeted := by
  have htx : m.sender.tx? = some a.tx := by rw [ha]; rfl
  obtain ⟨e, he, hopen, hcount, hnot⟩ := hc.of_sender htx
  rcases m.answered_cases now a answer with
    ⟨x, hm, -⟩ | ⟨p, s, rfl, hs, hm⟩ | ⟨tx, reason, rfl, hm⟩
  · exact budgeted_of_senderLeaves hm h
  · exact budgeted_of_senderLeaves hm
      (TronCourier.Budgeted.markBroadcasted h he hopen hcount hnot hs)
  · refine budgeted_of_senderLeaves hm (storesAfter_induction
      (P := (TronCourier.Budgeted m.settings · m.poller.failed?)) h fun s hs => ?_)
    exact TronCourier.Budgeted.markFatal h hs fun _ _ _ => Iff.rfl

theorem Budgeted.informed (h : m.Budgeted) (hc : m.Custody c) (hu : m.UpToDate) (now : Nat)
    {q : Inquiry} (hq : m.poller = .asking q) (answer : q.Answer) :
    (m.informed now q answer).Budgeted := by
  have hb : TronCourier.Budgeted m.settings m.store none := by
    have := h
    rwa [Budgeted, hq] at this
  obtain ⟨x, stores, hm, hx⟩ := m.heard_informed now q answer
  cases hx with
  | finalized hblock =>
    refine budgeted_of_pollerLeaves hm ?_
    rw [Poller.failed?_afterSettling]
    exact storesAfter_induction (P := (TronCourier.Budgeted m.settings · none)) hb
      fun _ hs => hb.markFinalized hs
  | displaced answer =>
    refine budgeted_of_pollerLeaves hm ?_
    rw [Poller.failed?_afterSettling]
    exact storesAfter_induction (P := (TronCourier.Budgeted m.settings · none)) hb
      fun _ hs => hb.markReorganized hs
  | confirmed ho =>
    refine budgeted_of_pollerLeaves hm ?_
    rw [Poller.failed?_afterAwaiting]
    exact storesAfter_induction (P := (TronCourier.Budgeted m.settings · none)) hb
      fun _ hs => hb.markConfirmed hs
  | unsettled answer => exact budgeted_of_pollerLeaves hm hb
  | undated hclock => exact budgeted_of_pollerLeaves hm hb
  | stillSettling answer hrest =>
    refine budgeted_of_pollerLeaves hm ?_
    rwa [Poller.failed?_afterSettling]
  | stillAwaiting answer hrest =>
    refine budgeted_of_pollerLeaves hm ?_
    rwa [Poller.failed?_afterAwaiting]
  | @failed q answer entry rest hawaiting s tx hs reason next =>
    have hrows : m.poller.awaiting = some ((q.passAfter answer).account, entry :: rest) := by
      rw [hq]
      exact Poller.awaiting_asking hawaiting answer
    obtain ⟨e, he, hstage, -⟩ := hu.awaits hrows entry List.mem_cons_self
    have hid : e.tx.id = entry.id := (hc.guards.consistent _).id_eq he
    exact budgeted_of_pollerLeaves hm
      (hb.markErrored he hstage hid (hc.guards.sender_eq he) hs)

theorem Budgeted.fail (h : m.Budgeted) (now : Nat) (reason : String) {rest : List Awaiting}
    {pass : Pass} (hfailed : ∀ b j, ¬ (pass.account = b ∧ tx.id = j) →
      (Names none b j ↔ Names m.poller.failed? b j))
    (hfound : ∃ s, (m.store pass.account).markFatal tx.id now = .ok s) :
    ((m.fail now pass.account tx.id reason).afterAwaiting rest pass).Budgeted := by
  obtain ⟨s, hs⟩ := hfound
  have hm := (m.leaves_fail now pass.account tx.id reason).withPoller (.afterAwaiting pass rest)
  rw [storesAfter_ok hs] at hm
  refine budgeted_of_pollerLeaves hm ?_
  rw [Poller.failed?_afterAwaiting]
  exact TronCourier.Budgeted.markFatal h hs hfailed

theorem Budgeted.afterFailure (h : m.Budgeted) (hc : m.Custody c) (now : Nat) {reason : String}
    {next : Option RetryKind} {rest : List Awaiting} {pass : Pass}
    (hp : m.poller = .failed tx reason next rest pass) :
    (m.afterFailure now tx reason next rest pass).Budgeted := by
  have htx : m.poller.tx? = some tx := by rw [hp]; rfl
  have hsender : tx.sender = pass.account := hc.account htx (by rw [hp]; rfl)
  have hfound : ∃ s, (m.store pass.account).markFatal tx.id now = .ok s := by
    obtain ⟨s, hs, -⟩ := (hc.guards_poller htx).markFatal now
    exact ⟨s, hsender ▸ hs⟩
  have hfailed : ∀ b j, ¬ (pass.account = b ∧ tx.id = j) →
      (Names none b j ↔ Names m.poller.failed? b j) := by
    intro b j hj
    rw [hp]
    exact names_other hsender rfl hj
  unfold Manager.afterFailure
  split
  · exact h.fail now _ hfailed hfound
  · rename_i kind
    split
    · exact h.fail now _ hfailed hfound
    · rename_i hceiling
      obtain ⟨hattempt, htime⟩ := ceiling?_eq_none_iff.mp hceiling
      obtain ⟨e, he, hopen, hcount⟩ := hc.of_poller htx
      have hb : TronCourier.Budgeted m.settings m.store (some tx) := by
        have := h
        rwa [Budgeted, hp] at this
      rcases m.retry_cases tx reason kind rest pass with ⟨s, hs, hm⟩ | ⟨e', hs, -⟩
      · rw [← hsender] at hs hm
        exact budgeted_of_pollerLeaves hm (hb.recordCounters he hopen hcount hattempt htime hs)
      · have hok : (m.store tx.sender).recordCounters (tx.nextAttempt kind) = .ok _ :=
          Store.recordCounters_eq_ok_iff.mpr ⟨e, he, rfl⟩
        rw [← hsender, hok] at hs
        cases hs

theorem Budgeted.usePlace (h : m.Budgeted) (hp : m.poller.failed? = none) (tx : Tx)
    (rest : List Awaiting) (pass : Pass) : (m.usePlace tx rest pass).Budgeted := by
  show TronCourier.Budgeted m.settings m.store (Poller.afterAwaiting pass rest).failed?
  rw [Poller.failed?_afterAwaiting]
  rwa [Budgeted, hp] at h

theorem Budgeted.proceed (h : m.Budgeted) (hc : m.Custody c) (hlimit : 1 ≤ m.settings.maxAttempts)
    {checks : Bool} {acts : List Act} (fresh : String) {q : Submission} (hq : q.Made checks acts)
    (answer : q.Answer) : (m.proceed fresh q answer).1.Budgeted := by
  rcases m.proceed_cases fresh q answer with
    ⟨tx, s, rfl, hs, -, ⟨accounts, metrics, events, hm⟩, hstore⟩ | ⟨tx, rfl, hm⟩ |
    ⟨-, ⟨⟨accounts, promised, x, hm, hx⟩, hstore⟩, -⟩
  · obtain ⟨r, id, key, rfl, -⟩ := hq
    have hnone := (Store.addPending_eq_ok_iff.mp hs).1
    have hb := TronCourier.Budgeted.addPending h hlimit rfl rfl rfl (hc.not_names hnone) hs
    rw [Budgeted, hstore, hm]
    exact hb
  · rw [hm]
    exact h
  · have hfailed : x.failed? = m.poller.failed? := by
      rcases hx with rfl | rfl
      · rfl
      · exact m.poller.failed?_grant
    rw [Budgeted, hstore, hm]
    show TronCourier.Budgeted m.settings m.store x.failed?
    rw [hfailed]
    exact h

end Manager

open Manager

theorem PartStep.budgeted {m m' : Manager} {now : Nat} {act : Act} {c : List Tx}
    (h : m.Budgeted) (hc : m.Custody c) (hu : m.UpToDate) (hs : PartStep m now act m') :
    m'.Budgeted := by
  cases hs with
  | take hm =>
    obtain ⟨tx, rest, metrics, -, -, rfl⟩ := take?_eq_some hm
    show TronCourier.Budgeted m.settings m.store m.poller.grant.failed?
    rw [m.poller.failed?_grant]
    exact h
  | answered ha answer => exact h.answered hc now ha answer
  | wake ha hdue => exact h
  | beginPass hp hall => exact h.idle (by rw [hp]; rfl) rfl (m.pollerLeaves_same _)
  | survey hp hall =>
    exact h.idle (by rw [hp]; rfl) (Poller.failed?_afterSettling _ _) (m.pollerLeaves_same _)
  | collect hp hall =>
    exact h.idle (by rw [hp]; rfl) (Poller.failed?_afterAwaiting _ _) (m.pollerLeaves_same _)
  | endPass hp => exact h.idle (by rw [hp]; rfl) rfl ⟨⟨_, _, _, rfl⟩, rfl⟩
  | informed hp answer => exact h.informed hc hu now hp answer
  | afterFailure hp => exact h.afterFailure hc now hp
  | @requeue tx rest pass hp =>
    rcases m.requeue_cases tx rest pass with hm | ⟨x, hx, hm⟩
    · rw [hm]
      exact h.usePlace (by rw [hp]; rfl) tx rest pass
    · rw [hm]
      refine h.idle (by rw [hp]; rfl) ?_ (m.pollerLeaves_same x)
      rcases hx with rfl | rfl <;> rfl
  | usePlace hp => exact h.usePlace (by rw [hp]; rfl) _ _ _
  | @withoutPlace tx rest pass hp =>
    have htx : m.poller.tx? = some tx := by rw [hp]; rfl
    have hsender : tx.sender = pass.account := hc.account htx (by rw [hp]; rfl)
    obtain ⟨s, hs, -⟩ := (hc.guards_poller htx).markFatal now
    refine h.fail now _ (fun _ _ _ => ?_) ⟨s, hsender ▸ hs⟩
    rw [hp]
    rfl
  | beginSweep hr hall => exact h
  | sweep hr =>
    rw [Manager.Budgeted, store_sweep]
    exact TronCourier.Budgeted.reap h _ _ _
  | endSweep hr => exact h

namespace System

variable {s s' : System} {act : Act} {acts : List Act}

theorem Step.budgeted (h : s.manager.Budgeted) (hg : s.Guarded) (hm : s.AllMade acts)
    (hlimit : 1 ≤ s.manager.settings.maxAttempts) (hs : Step s act s') : s'.manager.Budgeted := by
  obtain ⟨dropped, hc, -⟩ := hg.custody
  cases hs with
  | part hp => exact hp.budgeted h hc hg.upToDate
  | proceed hcalls answer fresh =>
    exact h.proceed hc hlimit fresh (hm _ (mem_calls hcalls)) answer
  | begin hb =>
    obtain ⟨-, rfl⟩ := begin_eq_ok_iff.mp hb
    exact h
  | takeOutlet _ hb =>
    obtain ⟨-, rfl⟩ := takeOutlet_eq_ok_iff.mp hb
    exact h
  | @spawn before after v parts hcalls =>
    have hv : s.manager.isAbsent v :=
      hg.launched.absent v (by simp [unlaunched, hcalls, Call.parts])
    cases v with
    | sender => exact h
    | poller =>
      have hnone : s.manager.poller.failed? = none := by
        rw [show s.manager.poller = .absent from hv]
        rfl
      exact h.idle hnone rfl (s.manager.pollerLeaves_same .resting)
    | reaper => exact h
  | @halt v hv hlistens =>
    cases v with
    | sender =>
      show TronCourier.Budgeted s.manager.settings s.manager.store s.manager.poller.refuse.failed?
      rw [Poller.failed?_refuse]
      exact h
    | poller =>
      -- a failure that is on record is followed up before the poller stops
      have hnone : s.manager.poller.failed? = none := by
        cases hp : s.manager.poller with
        | failed => simp [listens, hp] at hlistens
        | _ => rfl
      exact h.idle hnone rfl (s.manager.pollerLeaves_same .stopped)
    | reaper => exact h
  | pass | submit | withoutOutlet | register | shut | tell | gather | join => exact h

section Initial

variable {checks : Bool} {m : Manager} {now : Nat}

theorem maxAttempts_pos (h : settings.fault? = none) : 1 ≤ settings.maxAttempts := by
  unfold Settings.fault? at h
  grind

theorem Run.budgeted (hm : ofSettings settings checks = .ok m)
    (hr : Run { manager := m, now } acts s) : s.manager.Budgeted := by
  have hg := guarded_initial hm now
  have hstore := store_initial hm
  obtain ⟨hf, rfl⟩ := ofSettings_eq_ok hm
  induction hr with
  | start =>
    intro a id e he
    rw [hstore] at he
    cases he
  | next hr hs ih =>
    refine hs.budgeted ih (hr.guarded hg) (hr.allMade allMade_initial) ?_
    rw [hr.settings]
    exact maxAttempts_pos hf

end Initial

end System

end TronCourier
