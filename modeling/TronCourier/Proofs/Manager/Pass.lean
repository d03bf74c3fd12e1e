import TronCourier.Proofs.Manager.Policy
import TronCourier.Proofs.Manager.Rejection

/-! A pass that the poller makes while it has the manager to itself and each question has one
answer. What it knows stays true, and each step brings it nearer to its end. -/

namespace TronCourier

open Relation

/-- A step of the poller in a pass. Nobody gives it a place in the queue that it waits for. -/
inductive Manager.PollStep (w : Surroundings Unit) (now : Nat) (m : Manager) : Manager → Prop
  | survey {a : Address} {later : List Address} (h : m.poller = .surveying (a :: later))
      {rows : List Settling} (hall : rows.Perm (m.store a).settlingRows) :
      PollStep w now m (m.afterSettling rows { account := a, later })
  | collect {pass : Pass} (h : m.poller = .collecting pass) {rows : List Awaiting}
      (hall : rows.Perm (m.store pass.account).awaitingRows) :
      PollStep w now m (m.afterAwaiting rows pass)
  | informed {q : Inquiry} (h : m.poller = .asking q) :
      PollStep w now m (m.informed now q (q.ask w ()).1)
  | afterFailure {tx : Tx} {reason : String} {next : Option RetryKind} {rest : List Awaiting}
      {pass : Pass} (h : m.poller = .failed tx reason next rest pass) :
      PollStep w now m (m.afterFailure now tx reason next rest pass)
  | requeue {tx : Tx} {rest : List Awaiting} {pass : Pass}
      (h : m.poller = .requeuing tx rest pass) : PollStep w now m (m.requeue tx rest pass)

/-- A whole pass, in one of the orders in which it may come by what there is to look at. -/
def Manager.Passes (w : Surroundings Unit) (now : Nat) (m m' : Manager) : Prop :=
  m.poller = .resting ∧ ∃ accounts m₁, accounts.Perm m.accounts.stores.keys ∧
    ReflTransGen (PollStep w now) (m.beginPass accounts) m₁ ∧
    m₁.poller = .surveying [] ∧ m' = m₁.endPass

theorem Manager.PollStep.part {w : Surroundings Unit} {m m' : Manager} {now : Nat}
    (hs : PollStep w now m m') : ∃ act, PartStep m now act m' := by
  cases hs with
  | survey h hall => exact ⟨_, .survey h hall⟩
  | collect h hall => exact ⟨_, .collect h hall⟩
  | informed h => exact ⟨_, .informed h _⟩
  | afterFailure h => exact ⟨_, .afterFailure h⟩
  | requeue h => exact ⟨_, .requeue h⟩

/-- A pass is a stretch of a run in which nobody else takes a step. -/
theorem Manager.Passes.run {w : Surroundings Unit} {m m' : Manager} {now : Nat}
    (h : m.Passes w now m') :
    ∃ acts, System.Run { manager := m, now } acts { manager := m', now } := by
  obtain ⟨hrest, accounts, m₁, hall, hr, hend, rfl⟩ := h
  have hbegun := System.Run.start.next (.part (s := { manager := m, now }) (.beginPass hrest hall))
  have hrun {m₁ : Manager} (hr : ReflTransGen (PollStep w now) (m.beginPass accounts) m₁) :
      ∃ acts, System.Run { manager := m, now } acts { manager := m₁, now } := by
    induction hr with
    | refl => exact ⟨_, hbegun⟩
    | tail _ hs ih =>
      obtain ⟨acts, hacts⟩ := ih
      obtain ⟨act, hs⟩ := hs.part
      exact ⟨_, hacts.next (.part hs)⟩
  obtain ⟨acts, hacts⟩ := hrun hr
  exact ⟨_, hacts.next (.part (.endPass hend))⟩

namespace Poller

/-- The senders whose stores a pass has not left behind. -/
def accounts : Poller → List Address
  | .surveying later => later
  | p => match p.pass? with
    | some pass => pass.account :: pass.later
    | none => []

/-- How much of a pass is still ahead: the stores, what there is to do in this one, and the
rows, each with what there is to do for it. -/
def ahead : Poller → ℕ ×ₗ ℕ ×ₗ ℕ
  | .surveying later => toLex (later.length, toLex (0, 0))
  | .asking (.solid _ rest pass) =>
    toLex (pass.later.length, toLex (3, 4 * rest.length + 2))
  | .asking (.tip _ rest pass) => toLex (pass.later.length, toLex (3, 4 * rest.length + 1))
  | .collecting pass => toLex (pass.later.length, toLex (2, 0))
  | .asking (.receipt _ rest pass) =>
    toLex (pass.later.length, toLex (1, 4 * rest.length + 4))
  | .asking (.clock _ rest pass) => toLex (pass.later.length, toLex (1, 4 * rest.length + 3))
  | .failed _ _ _ rest pass => toLex (pass.later.length, toLex (1, 4 * rest.length + 2))
  | .requeuing _ rest pass => toLex (pass.later.length, toLex (1, 4 * rest.length + 1))
  | .absent | .resting | .blocked _ _ _ | .granted _ _ _ | .refused _ _ _ | .stopped =>
    toLex (0, toLex (0, 0))

/-- Whether the poller is in a pass and does not wait for a place in the queue. -/
def IsUnderWay : Poller → Prop
  | .surveying _ | .collecting _ | .asking _ | .failed _ _ _ _ _ | .requeuing _ _ _ => True
  | .absent | .resting | .blocked _ _ _ | .granted _ _ _ | .refused _ _ _ | .stopped => False

inductive Leads (w : Surroundings Unit) : Poller → Poller → Prop
  | survey (a : Address) (later : List Address) (rows : List Settling) :
      Leads w (.surveying (a :: later)) (.afterSettling { account := a, later } rows)
  | collect (pass : Pass) (rows : List Awaiting) :
      Leads w (.collecting pass) (.afterAwaiting pass rows)
  | toTip (entry : Settling) (rest : List Settling) (pass : Pass) :
      Leads w (.asking (.solid entry rest pass)) (.asking (.tip entry rest pass))
  | settled {q : Inquiry} {entry : Settling} {rest : List Settling}
      (h : q.settling? = some (entry, rest)) :
      Leads w (.asking q) (.afterSettling (q.passAfter (q.ask w ()).1) rest)
  | toClock (entry : Awaiting) (rest : List Awaiting) (pass : Pass) :
      Leads w (.asking (.receipt entry rest pass)) (.asking (.clock entry rest pass))
  | failed {q : Inquiry} {entry : Awaiting} {rest : List Awaiting}
      (h : q.awaiting? = some (entry, rest)) (tx : Tx) (reason : String)
      (next : Option RetryKind) :
      Leads w (.asking q) (.failed tx reason next rest (q.passAfter (q.ask w ()).1))
  | answered {q : Inquiry} {entry : Awaiting} {rest : List Awaiting}
      (h : q.awaiting? = some (entry, rest)) :
      Leads w (.asking q) (.afterAwaiting (q.passAfter (q.ask w ()).1) rest)
  | ended (tx : Tx) (reason : String) (next : Option RetryKind) (rest : List Awaiting)
      (pass : Pass) : Leads w (.failed tx reason next rest pass) (.afterAwaiting pass rest)
  | repeated (tx tx' : Tx) (reason : String) (next : Option RetryKind) (rest : List Awaiting)
      (pass : Pass) : Leads w (.failed tx reason next rest pass) (.requeuing tx' rest pass)
  | requeued (tx : Tx) (rest : List Awaiting) (pass : Pass) :
      Leads w (.requeuing tx rest pass) (.afterAwaiting pass rest)

theorem isUnderWay_afterSettling (pass : Pass) (rest : List Settling) :
    (afterSettling pass rest).IsUnderWay := by
  cases rest with
  | nil => trivial
  | cons e rest => trivial

theorem isUnderWay_afterAwaiting (pass : Pass) (rest : List Awaiting) :
    (afterAwaiting pass rest).IsUnderWay := by
  cases rest with
  | nil => trivial
  | cons e rest => trivial

theorem accounts_afterSettling (pass : Pass) (rest : List Settling) :
    (afterSettling pass rest).accounts = pass.account :: pass.later := by
  cases rest with
  | nil => rfl
  | cons e rest => rfl

theorem accounts_afterAwaiting (pass : Pass) (rest : List Awaiting) :
    (afterAwaiting pass rest).accounts <:+ pass.account :: pass.later := by
  cases rest with
  | nil => exact List.suffix_cons _ _
  | cons e rest => exact List.suffix_rfl

theorem accounts_asking (q : Inquiry) (answer : q.Answer) :
    (asking q).accounts = (q.passAfter answer).account :: (q.passAfter answer).later := by
  cases q with
  | solid | tip | receipt => rfl
  | clock entry rest pass =>
    cases answer with
    | error e => rfl
    | ok block => rfl

theorem le_ahead_settling {q : Inquiry} {entry : Settling} {rest : List Settling}
    (h : q.settling? = some (entry, rest)) (answer : q.Answer) :
    toLex ((q.passAfter answer).later.length, toLex (3, 4 * rest.length + 1)) ≤
      (asking q).ahead := by
  cases q with
  | solid | tip =>
    cases h
    simp [ahead, Inquiry.passAfter, Prod.Lex.toLex_le_toLex]
  | receipt | clock => cases h

theorem le_ahead_awaiting {q : Inquiry} {entry : Awaiting} {rest : List Awaiting}
    (h : q.awaiting? = some (entry, rest)) (answer : q.Answer) :
    toLex ((q.passAfter answer).later.length, toLex (1, 4 * rest.length + 3)) ≤
      (asking q).ahead := by
  cases q with
  | solid | tip => cases h
  | receipt =>
    cases h
    simp [ahead, Inquiry.passAfter, Prod.Lex.toLex_le_toLex]
  | clock =>
    cases h
    cases answer with
    | error e => exact le_rfl
    | ok block => exact le_rfl

theorem ahead_afterSettling_lt (pass : Pass) (rest : List Settling) {n : ℕ}
    (h : 4 * rest.length < n) :
    (afterSettling pass rest).ahead < toLex (pass.later.length, toLex (3, n)) := by
  cases rest with
  | nil => simp [afterSettling, ahead, Prod.Lex.toLex_lt_toLex]
  | cons e rest =>
    simp [afterSettling, ahead, Prod.Lex.toLex_lt_toLex] at h ⊢
    omega

theorem ahead_afterAwaiting_lt (pass : Pass) (rest : List Awaiting) {n : ℕ}
    (h : 4 * rest.length < n) :
    (afterAwaiting pass rest).ahead < toLex (pass.later.length, toLex (1, n)) := by
  cases rest with
  | nil => simp [afterAwaiting, ahead, Prod.Lex.toLex_lt_toLex]
  | cons e rest =>
    simp [afterAwaiting, ahead, Prod.Lex.toLex_lt_toLex] at h ⊢
    omega

variable {w : Surroundings Unit} {p x : Poller}

theorem Leads.isUnderWay (h : Leads w p x) : x.IsUnderWay := by
  cases h with
  | survey | settled => exact isUnderWay_afterSettling _ _
  | collect | answered | ended | requeued => exact isUnderWay_afterAwaiting _ _
  | toTip | toClock | failed | repeated => trivial

theorem Leads.accounts (h : Leads w p x) : x.accounts <:+ p.accounts := by
  cases h with
  | survey a later rows => exact (accounts_afterSettling _ rows) ▸ List.suffix_rfl
  | collect pass rows => exact accounts_afterAwaiting pass rows
  | toTip | toClock | repeated => exact List.suffix_rfl
  | @settled q entry rest =>
    rw [accounts_afterSettling, accounts_asking q (q.ask w ()).1]
  | @failed q entry rest => exact (accounts_asking q (q.ask w ()).1).symm ▸ List.suffix_rfl
  | @answered q entry rest =>
    rw [accounts_asking q (q.ask w ()).1]
    exact accounts_afterAwaiting _ rest
  | ended _ _ _ rest pass => exact accounts_afterAwaiting pass rest
  | requeued _ rest pass => exact accounts_afterAwaiting pass rest

theorem Leads.ahead_lt (h : Leads w p x) : x.ahead < p.ahead := by
  cases h with
  | survey a later rows =>
    have hlater (b : ℕ ×ₗ ℕ) :
        toLex (later.length, b) < (surveying (a :: later)).ahead :=
      Prod.Lex.toLex_lt_toLex.mpr (.inl (by simp))
    cases rows with
    | nil => exact hlater _
    | cons row rows => exact hlater _
  | collect pass rows =>
    cases rows with
    | nil => simp [afterAwaiting, ahead, Prod.Lex.toLex_lt_toLex]
    | cons row rows => simp [afterAwaiting, ahead, Prod.Lex.toLex_lt_toLex]
  | toTip | toClock | repeated => simp [ahead, Prod.Lex.toLex_lt_toLex]
  | @settled q entry rest h =>
    exact (ahead_afterSettling_lt _ rest (by omega)).trans_le (le_ahead_settling h _)
  | @failed q entry rest h =>
    refine lt_of_lt_of_le ?_ (le_ahead_awaiting h (q.ask w ()).1)
    simp [ahead, Prod.Lex.toLex_lt_toLex]
  | @answered q entry rest h =>
    exact (ahead_afterAwaiting_lt _ rest (by omega)).trans_le (le_ahead_awaiting h _)
  | ended _ _ _ rest pass => exact ahead_afterAwaiting_lt pass rest (by omega)
  | requeued _ rest pass => exact ahead_afterAwaiting_lt pass rest (by omega)

end Poller

def Pass.Dated (pass : Pass) (w : Surroundings Unit) : Prop :=
  ∀ t, pass.clock = some t → ∃ block, (w.block ()).1 = .ok block ∧ block.timestamp = t

theorem Pass.Dated.passAfter {w : Surroundings Unit} {q : Inquiry}
    (h : ∀ pass, (Poller.asking q).pass? = some pass → pass.Dated w) :
    (q.passAfter (q.ask w ()).1).Dated w := by
  cases q with
  | solid _ _ pass | tip _ _ pass | receipt _ _ pass => exact h pass rfl
  | clock entry rest pass =>
    have hreply : (Inquiry.ask w (.clock entry rest pass) ()).1 = (w.block ()).1 := rfl
    rw [hreply]
    cases hblock : (w.block ()).1 with
    | error e => exact h pass rfl
    | ok block =>
      intro t ht
      exact ⟨block, hblock, Option.some.inj ht⟩

theorem Poller.Leads.dated {w : Surroundings Unit} {p x : Poller} (hx : Leads w p x)
    (h : ∀ pass, p.pass? = some pass → pass.Dated w) {pass : Pass} (hpass : x.pass? = some pass) :
    pass.Dated w := by
  cases hx with
  | survey a later rows =>
    obtain rfl := pass?_afterSettling hpass
    intro t ht
    cases ht
  | collect pass rows | ended _ _ _ _ pass | requeued _ _ pass =>
    obtain rfl := pass?_afterAwaiting hpass
    exact h _ rfl
  | toTip | toClock | repeated =>
    cases hpass
    exact h _ rfl
  | settled =>
    obtain rfl := pass?_afterSettling hpass
    exact .passAfter h
  | failed =>
    cases hpass
    exact .passAfter h
  | answered =>
    obtain rfl := pass?_afterAwaiting hpass
    exact .passAfter h

def Store.Failed (s : Store) (tx : Tx) : Prop :=
  ∃ e hash, s.entries.get? tx.id = some e ∧ e.tx = tx ∧ e.tx.stage = .errored ∧
    e.currentHash = some hash

namespace Manager

variable {m m' : Manager} {w : Surroundings Unit} {now : Nat}

theorem leads_informed (m : Manager) (now : Nat) {q : Inquiry} {answer : q.Answer}
    (h : (q.ask w ()).1 = answer) :
    Poller.Leads w (.asking q) (m.informed now q answer).poller := by
  obtain ⟨x, stores, ⟨⟨_, _, _, hm⟩, -⟩, hx⟩ := m.heard_informed now q answer
  rw [hm]
  cases hx with
  | finalized | displaced => exact .settled rfl
  | unsettled => exact .toTip _ _ _
  | stillSettling answer hq => exact h ▸ .settled hq
  | confirmed => exact .answered rfl
  | undated => exact .toClock _ _ _
  | failed answer hq hs reason next => exact h ▸ .failed hq _ reason next
  | stillAwaiting answer hq => exact h ▸ .answered hq

/-- There is room in the queue for what the poller is about to put there. -/
def Roomy (m : Manager) : Prop :=
  ∀ tx rest pass, m.poller = .requeuing tx rest pass → m.queueOpen = true ∧ m.hasRoom = true

theorem Roomy.requeue_eq (h : m.Roomy) {tx : Tx} {rest : List Awaiting} {pass : Pass}
    (hp : m.poller = .requeuing tx rest pass) :
    m.requeue tx rest pass = m.usePlace tx rest pass := by
  obtain ⟨hopen, hroom⟩ := h tx rest pass hp
  have hclosed : ¬ (!m.queueOpen) = true := by simp [hopen]
  rw [requeue, if_neg hclosed, if_pos hroom]
  rfl

theorem PollStep.leads (hs : PollStep w now m m') (hroom : m.Roomy) :
    Poller.Leads w m.poller m'.poller := by
  cases hs with
  | survey h =>
    rw [h]
    exact .survey _ _ _
  | collect h =>
    rw [h]
    exact .collect _ _
  | informed h =>
    rw [h]
    exact m.leads_informed now rfl
  | @afterFailure tx reason next rest pass h =>
    rw [h]
    rcases m.afterFailure_cases now tx reason next rest pass with
      ⟨⟨_, _, _, hm⟩, -⟩ | ⟨kind, ⟨_, -, ⟨_, _, _, hm⟩, -⟩ | ⟨_, -, ⟨_, _, _, hm⟩, -⟩⟩
    · exact hm ▸ .ended tx reason next rest pass
    · exact hm ▸ .repeated tx _ reason next rest pass
    · exact hm ▸ .ended tx reason next rest pass
  | @requeue tx rest pass h =>
    rw [hroom.requeue_eq h, h]
    exact .requeued tx rest pass

structure OnPass (w : Surroundings Unit) (m : Manager) : Prop where
  isUnderWay : m.poller.IsUnderWay
  nodup : m.poller.accounts.Nodup
  known : ∀ a ∈ m.poller.accounts, a ∈ m.accounts.stores.keys
  dated : ∀ pass, m.poller.pass? = some pass → pass.Dated w
  upToDate : m.UpToDate
  watches : m.Watches
  failed : ∀ {tx pass}, m.poller.tx? = some tx → m.poller.pass? = some pass →
    (m.store pass.account).Failed tx

theorem PollStep.upToDate (hs : PollStep w now m m') (h : m.UpToDate) : m'.UpToDate := by
  obtain ⟨act, hs⟩ := hs.part
  exact hs.upToDate h

theorem PollStep.watches (hs : PollStep w now m m') (h : m.Watches)
    (hc : ∀ a, (m.store a).Consistent) : m'.Watches := by
  cases hs with
  | survey hp hall => exact .survey hc hall
  | collect => exact watches_of_none (Poller.settling_afterAwaiting _ _)
  | informed hq => exact h.informed hc now hq _
  | afterFailure => exact m.watches_afterFailure now _ _ _ _ _
  | requeue => exact m.watches_requeue _ _ _

theorem UpToDate.failed_informed (h : m.UpToDate) {q : Inquiry} (hq : m.poller = .asking q)
    (answer : q.Answer) {tx : Tx} {pass : Pass}
    (htx : (m.informed now q answer).poller.tx? = some tx)
    (hpass : (m.informed now q answer).poller.pass? = some pass) :
    ((m.informed now q answer).store pass.account).Failed tx := by
  obtain ⟨x, stores, ⟨⟨_, _, _, hm⟩, hstore⟩, hx⟩ := m.heard_informed now q answer
  rw [hstore]
  rw [hm] at htx hpass
  cases hx with
  | finalized | displaced | stillSettling =>
    exact absurd ((Poller.tx?_afterSettling _ _).symm.trans htx) nofun
  | confirmed | stillAwaiting =>
    exact absurd ((Poller.tx?_afterAwaiting _ _).symm.trans htx) nofun
  | unsettled | undated => cases htx
  | @failed q answer entry rest hawaiting s tx hs reason next =>
    cases htx
    cases hpass
    have hrows : m.poller.awaiting = some ((q.passAfter answer).account, entry :: rest) := by
      rw [hq]
      exact Poller.awaiting_asking hawaiting answer
    obtain ⟨e, he, -, hrow⟩ := h.awaits hrows entry List.mem_cons_self
    obtain ⟨d, hd, -, rfl, rfl⟩ := Store.markErrored_eq_ok_iff.mp hs
    rw [he, Option.some.injEq] at hd
    subst hd
    have hhash := (Entry.awaiting?_eq_some_iff.mp hrow).2.1
    refine ⟨e.withStage .errored, entry.hash, ?_, rfl, rfl, hhash⟩
    have hid : e.tx.id = entry.id := (h.consistent _).id_eq he
    rw [Function.update_self, Entry.withStage, hid]
    exact (Table.get?_insert _ _ _ _).trans (if_pos rfl)

theorem OnPass.failed_step (h : OnPass w m) (hs : PollStep w now m m') (hroom : m.Roomy)
    {tx : Tx} {pass : Pass} (htx : m'.poller.tx? = some tx) (hpass : m'.poller.pass? = some pass) :
    (m'.store pass.account).Failed tx := by
  cases hs with
  | survey => exact absurd ((Poller.tx?_afterSettling _ _).symm.trans htx) nofun
  | collect => exact absurd ((Poller.tx?_afterAwaiting _ _).symm.trans htx) nofun
  | informed hq => exact h.upToDate.failed_informed hq _ htx hpass
  | @afterFailure tx' reason next rest pass' hp =>
    rcases m.afterFailure_cases now tx' reason next rest pass' with
      ⟨⟨_, _, _, hm⟩, -⟩ | ⟨kind, ⟨s, hs, ⟨_, _, _, hm⟩, hstore⟩ | ⟨_, -, ⟨_, _, _, hm⟩, -⟩⟩
    · rw [hm] at htx
      exact absurd ((Poller.tx?_afterAwaiting _ _).symm.trans htx) nofun
    · rw [hm] at htx hpass
      cases htx
      cases hpass
      have htx : m.poller.tx? = some tx' := by rw [hp]; rfl
      have hpass : m.poller.pass? = some pass := by rw [hp]; rfl
      obtain ⟨e, hash, he, rfl, hg, hhash⟩ := h.failed htx hpass
      obtain ⟨d, hd, rfl⟩ := Store.recordCounters_eq_ok_iff.mp hs
      rw [show (e.tx.nextAttempt kind).id = e.tx.id from rfl, he, Option.some.injEq] at hd
      subst hd
      refine ⟨e.withCounters (e.tx.nextAttempt kind), hash, ?_, rfl, hg, hhash⟩
      rw [hstore, Function.update_self]
      exact (Table.get?_insert _ _ _ _).trans (if_pos rfl)
    · rw [hm] at htx
      exact absurd ((Poller.tx?_afterAwaiting _ _).symm.trans htx) nofun
  | requeue hp =>
    rw [hroom.requeue_eq hp] at htx
    exact absurd ((Poller.tx?_afterAwaiting _ _).symm.trans htx) nofun

theorem OnPass.step (h : OnPass w m) (hs : PollStep w now m m') (hroom : m.Roomy)
    (hkeys : m'.accounts.stores.keys = m.accounts.stores.keys) : OnPass w m' where
  isUnderWay := (hs.leads hroom).isUnderWay
  nodup := h.nodup.sublist (hs.leads hroom).accounts.sublist
  known a ha := by
    rw [hkeys]
    exact h.known a ((hs.leads hroom).accounts.subset ha)
  dated _ hpass := (hs.leads hroom).dated h.dated hpass
  upToDate := hs.upToDate h.upToDate
  watches := hs.watches h.watches h.upToDate.consistent
  failed := h.failed_step hs hroom

end Manager

end TronCourier
