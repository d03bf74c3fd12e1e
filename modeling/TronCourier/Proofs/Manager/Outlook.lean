import TronCourier.Proofs.Manager.Deeds
import TronCourier.Proofs.Manager.Pass

/-! What is in store for each transaction in a pass stays the same from step to step: what a step
does for one of them, and changes in its entry, is no longer ahead. -/

namespace TronCourier

def listed (ids : List String) (each other : Errand) (id : String) : Errand :=
  if id ∈ ids then each else other

theorem update_listed {ids : List String} {id : String} (h : id ∉ ids) (each other : Errand) :
    Function.update (listed ids each other) id other = listed ids each other := by
  rw [Function.update_eq_self_iff, listed, if_neg h]

theorem listed_nil (each other : Errand) : listed [] each other = fun _ => other := by
  funext id
  exact if_neg List.not_mem_nil

theorem listed_cons (id : String) (ids : List String) (each other : Errand) :
    listed (id :: ids) each other = Function.update (listed ids each other) id each := by
  funext j
  by_cases hj : j = id
  · simp [listed, hj]
  · simp [listed, hj]

/-- The errands in a store whose confirmed transactions have not all been looked for. -/
def settlingHere (rest : List Settling) : String → Errand :=
  listed (rest.map Settling.id) .all .wait

/-- The errands in a store whose receipts have not all been asked for. -/
def awaitingHere (rest : List Awaiting) : String → Errand :=
  listed (rest.map Awaiting.id) .wait .nothing

/-- The errands of a pass: those for the store that it is at, and all that there is to do for
the stores that come later. -/
def Pass.errand (pass : Pass) (here : String → Errand) (a : Address) (id : String) : Errand :=
  if a = pass.account then here id else if a ∈ pass.later then .all else .nothing

/-- What is still to be done for the transactions of the senders. -/
def Poller.errand : Poller → Address → String → Errand
  | .surveying later => fun a _ => if a ∈ later then .all else .nothing
  | .asking (.solid entry rest pass) =>
    pass.errand (Function.update (settlingHere rest) entry.id .all)
  | .asking (.tip entry rest pass) =>
    pass.errand (Function.update (settlingHere rest) entry.id .tip)
  | .collecting pass => pass.errand fun _ => .wait
  | .asking (.receipt entry rest pass) =>
    pass.errand (Function.update (awaitingHere rest) entry.id .wait)
  | .asking (.clock entry rest pass) =>
    pass.errand (Function.update (awaitingHere rest) entry.id .date)
  | .failed tx _ next rest pass =>
    pass.errand (Function.update (awaitingHere rest) tx.id (.fail next))
  | .requeuing tx rest pass | .blocked tx rest pass | .granted tx rest pass
  | .refused tx rest pass =>
    pass.errand (Function.update (awaitingHere rest) tx.id (.requeue tx))
  | .absent | .resting | .stopped => fun _ _ => .nothing

namespace Poller

theorem errand_afterSettling (pass : Pass) (rest : List Settling) :
    (afterSettling pass rest).errand = pass.errand (settlingHere rest) := by
  rw [settlingHere]
  cases rest with
  | nil => rw [List.map_nil, listed_nil]; rfl
  | cons row rest => rw [List.map_cons, listed_cons]; rfl

theorem errand_afterAwaiting {pass : Pass} (h : pass.account ∉ pass.later)
    (rest : List Awaiting) :
    (afterAwaiting pass rest).errand = pass.errand (awaitingHere rest) := by
  rw [awaitingHere]
  cases rest with
  | nil =>
    rw [List.map_nil, listed_nil]
    funext a id
    by_cases ha : a = pass.account
    · subst ha
      simp [afterAwaiting, errand, Pass.errand, h]
    · simp [afterAwaiting, errand, Pass.errand, ha]
  | cons row rest => rw [List.map_cons, listed_cons]; rfl

end Poller

namespace Manager

variable {m m' m'' : Manager} {w : Surroundings Unit} {now : Nat}

/-- What is in store for a transaction in the rest of a pass. -/
def outlook (w : Surroundings Unit) (m : Manager) (a : Address) (id : String) : Option Fate :=
  ((m.store a).entries.get? id).map fun e =>
    (m.poller.errand a id).fate m.settings e (w.tidings? e)

/-- A pass has come so far as to have done what is in the log. -/
structure Advances (w : Surroundings Unit) (now : Nat) (m m' : Manager)
    (log : List ((Address × String) × Deed)) : Prop where
  settings_eq : m'.settings = m.settings
  queueOpen_eq : m'.queueOpen = m.queueOpen
  promised_eq : m'.promised = m.promised
  metrics_eq : m'.metrics = (log.map Prod.snd).foldl Metrics.after m.metrics
  queue_eq : m'.queue = m.queue ++ (log.map Prod.snd).filterMap Deed.tx?
  keys_eq : m'.accounts.stores.keys = m.accounts.stores.keys
  outlook_eq : ∀ a id, m.outlook w a id =
    (m'.outlook w a id).map (Fate.after (deedsOf log (a, id)))
  recorded : ∀ a id, (m.store a).entries.get? id = none → deedsOf log (a, id) = []
  finished : ∀ a id, (m'.store a).finished.get? id = (m.store a).finished.get? id ∨
    (m.store a).finished.get? id = none ∧ (m'.store a).finished.get? id = some now

theorem outlook_eq_none_iff {a : Address} {id : String} :
    m.outlook w a id = none ↔ (m.store a).entries.get? id = none :=
  Option.map_eq_none_iff

theorem Advances.get?_eq_none_iff {log : List ((Address × String) × Deed)}
    (h : Advances w now m m' log) {a : Address} {id : String} :
    (m'.store a).entries.get? id = none ↔ (m.store a).entries.get? id = none := by
  rw [← outlook_eq_none_iff (w := w), ← outlook_eq_none_iff (w := w), h.outlook_eq,
    Option.map_eq_none_iff]

theorem advances_refl (m : Manager) : Advances w now m m [] where
  settings_eq := rfl
  queueOpen_eq := rfl
  promised_eq := rfl
  metrics_eq := rfl
  queue_eq := (List.append_nil m.queue).symm
  keys_eq := rfl
  outlook_eq _ _ := Option.map_id'.symm
  recorded _ _ _ := rfl
  finished _ _ := .inl rfl

theorem Advances.trans {log log' : List ((Address × String) × Deed)}
    (h : Advances w now m m' log) (h' : Advances w now m' m'' log') :
    Advances w now m m'' (log ++ log') where
  settings_eq := h'.settings_eq.trans h.settings_eq
  queueOpen_eq := h'.queueOpen_eq.trans h.queueOpen_eq
  promised_eq := h'.promised_eq.trans h.promised_eq
  metrics_eq := by rw [h'.metrics_eq, h.metrics_eq, List.map_append, List.foldl_append]
  queue_eq := by
    rw [h'.queue_eq, h.queue_eq, List.map_append, List.filterMap_append, List.append_assoc]
  keys_eq := h'.keys_eq.trans h.keys_eq
  outlook_eq a id := by
    rw [h.outlook_eq, h'.outlook_eq, Option.map_map, deedsOf_append]
    exact congrArg (Option.map · _) (funext fun f => (Fate.after_append _ _ f).symm)
  recorded a id hnone := by
    rw [deedsOf_append, h.recorded a id hnone, h'.recorded a id (h.get?_eq_none_iff.mpr hnone)]
    rfl
  finished a id := by
    rcases h.finished a id with hsame | ⟨hnone, hnow⟩
    · rcases h'.finished a id with hsame' | ⟨hnone', hnow'⟩
      · exact .inl (hsame'.trans hsame)
      · exact .inr ⟨hsame ▸ hnone', hnow'⟩
    · rcases h'.finished a id with hsame' | ⟨hnone', -⟩
      · exact .inr ⟨hnone, hsame'.trans hnow⟩
      · rw [hnow] at hnone'
        cases hnone'

variable {x : Poller} {stores : Address → Store} {deeds : List Deed} {a : Address} {id : String}
  {s : Store}

/-- The poller is at one transaction of a pass, and has this errand for it. -/
structure Serves (m : Manager) (pass : Pass) (here : String → Errand) (id hash : String)
    (before : Errand) (e : Entry) : Prop where
  consistent : (m.store pass.account).Consistent
  known : pass.account ∈ m.accounts.stores.keys
  errand_eq : m.poller.errand = pass.errand (Function.update here id before)
  get?_eq : (m.store pass.account).entries.get? id = some e
  currentHash_eq : e.currentHash = some hash

section Serves

variable {pass : Pass} {here : String → Errand} {before after : Errand} {e e' : Entry}
  {hash : String} (h : m.Serves pass here id hash before e)

include h

/-- What a step does for the transaction is taken out of what is in store for it. -/
theorem Serves.advances (hm : m.Performs m' x (Function.update m.store pass.account s) deeds)
    (hafter : x.errand = pass.errand (Function.update here id after))
    (hs : ∀ j, s.entries.get? j = if id = j then some e' else (m.store pass.account).entries.get? j)
    (hhash : e'.currentHash = e.currentHash)
    (hfate : before.fateBy m.settings (w.tidings hash) e =
      (after.fateBy m.settings (w.tidings hash) e').after deeds)
    (hend : s.finished = (m.store pass.account).finished ∨ e.tx.stage.isTerminal = false ∧
      s.finished = (m.store pass.account).finished.insert id now) :
    m.Advances w now m' (deeds.map (Prod.mk (pass.account, id))) := by
  obtain ⟨⟨accounts, events, hm⟩, hstore, hkeys⟩ := hm
  have hdeeds : (deeds.map (Prod.mk (pass.account, id))).map Prod.snd = deeds := by
    rw [List.map_map]
    exact List.map_id _
  have hpoller : m'.poller = x := by rw [hm]
  have hsettings : m'.settings = m.settings := by rw [hm]
  have he := h.get?_eq
  refine ⟨hsettings, by rw [hm], by rw [hm], ?_, ?_, hkeys, fun a j => ?_, fun a j hnone => ?_,
    fun a j => ?_⟩
  · rw [hdeeds, hm]
  · rw [hdeeds, hm]
  · rw [outlook, outlook, hstore, hpoller, hsettings, h.errand_eq, hafter]
    by_cases ha : a = pass.account
    · subst ha
      rw [Function.update_self, hs]
      by_cases hj : j = id
      · -- the transaction itself
        subst hj
        simp only [he, if_pos, Option.map_some, deedsOf_map, Pass.errand, Function.update_self]
        simp only [Surroundings.tidings?, hhash, h.currentHash_eq, Option.map_some, Errand.fate,
          hfate]
      · -- another one of the same store, with the errand that it had
        rw [if_neg (Ne.symm hj), deedsOf_map_of_ne fun h => hj (Prod.mk.inj h).2.symm]
        simp only [Pass.errand, if_pos, Function.update_of_ne hj]
        exact Option.map_id'.symm
    · rw [Function.update_of_ne ha, deedsOf_map_of_ne fun h => ha (Prod.mk.inj h).1.symm]
      simp only [Pass.errand, if_neg ha]
      exact Option.map_id'.symm
  · refine deedsOf_map_of_ne (fun hk => ?_) _
    obtain ⟨rfl, rfl⟩ := Prod.mk.inj hk
    rw [he] at hnone
    cases hnone
  · rw [hstore]
    by_cases ha : a = pass.account
    · subst ha
      rw [Function.update_self]
      rcases hend with hsame | ⟨hg, hnow⟩
      · exact .inl (by rw [hsame])
      · rw [hnow, Table.get?_insert]
        by_cases hj : id = j
        · subst hj
          rw [if_pos rfl]
          refine .inr ⟨?_, rfl⟩
          by_contra hsome
          obtain ⟨g, hstage, hterminal⟩ :=
            (h.consistent.finished_iff id).mp (Option.isSome_iff_ne_none.mpr hsome)
          rw [Store.stage?_of_entry he, Option.some.injEq] at hstage
          rw [hstage, hterminal] at hg
          cases hg
        · exact .inl (if_neg hj)
    · exact .inl (by rw [Function.update_of_ne ha])

theorem Serves.get?_eq_ite (j : String) : (m.store pass.account).entries.get? j =
    if id = j then some e else (m.store pass.account).entries.get? j := by
  by_cases hj : id = j
  · rw [if_pos hj, ← hj, h.get?_eq]
  · rw [if_neg hj]

theorem Serves.advances_same (hm : m.Performs m' x m.store [])
    (hafter : x.errand = pass.errand (Function.update here id after))
    (hfate : before.fateBy m.settings (w.tidings hash) e =
      after.fateBy m.settings (w.tidings hash) e) : m.Advances w now m' [] := by
  rw [← Function.update_eq_self pass.account m.store] at hm
  exact h.advances hm hafter h.get?_eq_ite rfl hfate (.inl rfl)

end Serves

theorem errand_afterSettling (pass : Pass) {rest : List Settling}
    (h : id ∉ rest.map Settling.id) : (Poller.afterSettling pass rest).errand =
      pass.errand (Function.update (settlingHere rest) id .wait) := by
  rw [Poller.errand_afterSettling, settlingHere, update_listed h]

theorem errand_afterAwaiting {pass : Pass} {rest : List Awaiting}
    (hlater : pass.account ∉ pass.later) (h : id ∉ rest.map Awaiting.id) :
    (Poller.afterAwaiting pass rest).errand =
      pass.errand (Function.update (awaitingHere rest) id .nothing) := by
  rw [Poller.errand_afterAwaiting hlater, awaitingHere, update_listed h]

theorem OnPass.account (h : OnPass w m) {pass : Pass} (hpass : m.poller.pass? = some pass) :
    pass.account ∈ m.accounts.stores.keys ∧ pass.account ∉ pass.later := by
  have haccounts : m.poller.accounts = pass.account :: pass.later := by
    cases hp : m.poller with
    | surveying => rw [hp] at hpass; cases hpass
    | _ => rw [hp] at hpass; simp only [Poller.accounts, hpass]
  refine ⟨h.known _ ?_, (List.nodup_cons.mp (haccounts ▸ h.nodup)).1⟩
  rw [haccounts]
  exact List.mem_cons_self

theorem OnPass.serves_settling (h : OnPass w m) {pass : Pass} {entry : Settling}
    {rest : List Settling} {before : Errand}
    (hrows : m.poller.settling = some (pass.account, entry :: rest))
    (hpass : m.poller.pass? = some pass)
    (hbefore : m.poller.errand =
      pass.errand (Function.update (settlingHere rest) entry.id before)) :
    ∃ e, m.Serves pass (settlingHere rest) entry.id entry.hash before e ∧
      e.tx.stage = .confirmed ∧ e.confirmedBlock = some entry.block ∧
      entry.id ∉ rest.map Settling.id := by
  obtain ⟨e, he, hrow⟩ := h.watches.confirms hrows entry List.mem_cons_self
  obtain ⟨hg, -, hhash, hblock⟩ := Entry.settling?_eq_some_iff.mp hrow
  refine ⟨e, ⟨h.upToDate.consistent _, (h.account hpass).1, hbefore, he, hhash⟩, hg, hblock, ?_⟩
  exact (List.nodup_cons.mp (h.watches.nodup hrows)).1

theorem informed_solid {e : Entry} {entry : Settling} (hblock : e.confirmedBlock = some entry.block)
    (m : Manager) (now : Nat) (rest : List Settling) (pass : Pass)
    (receipt : Option Node.Receipt) : m.informed now (.solid entry rest pass) (.ok receipt) =
      if e.isIn receipt then (m.finalize now pass.account entry.id).afterSettling rest pass
      else { m with poller := .asking (.tip entry rest pass) } := by
  cases receipt with
  | none => rfl
  | some r => simp [informed, Entry.isIn, hblock, eq_comm]

theorem informed_tip {e : Entry} {entry : Settling} (hblock : e.confirmedBlock = some entry.block)
    (m : Manager) (now : Nat) (rest : List Settling) (pass : Pass)
    (receipt : Option Node.Receipt) : m.informed now (.tip entry rest pass) (.ok receipt) =
      if e.isIn receipt then m.afterSettling rest pass
      else (m.displace pass.account entry).afterSettling rest pass := by
  cases receipt with
  | none => rfl
  | some r => simp [informed, Entry.isIn, hblock, eq_comm]

theorem OnPass.advances_solid (h : OnPass w m) {entry : Settling} {rest : List Settling}
    {pass : Pass} (hp : m.poller = .asking (.solid entry rest pass)) : ∃ log, m.Advances w now
      (m.informed now (.solid entry rest pass) (w.tidings entry.hash).solid) log := by
  have hrows : m.poller.settling = some (pass.account, entry :: rest) := by rw [hp]; rfl
  have hbefore : m.poller.errand =
      pass.errand (Function.update (settlingHere rest) entry.id .all) := by rw [hp]; rfl
  obtain ⟨e, hserves, hg, hblock, hnot⟩ := h.serves_settling hrows (by rw [hp]; rfl) hbefore
  have hnext := errand_afterSettling pass hnot
  have hwait : e.byReceipt m.settings (w.tidings entry.hash) = ⟨e, []⟩ :=
    Entry.byReceipt_of_ne (by rw [hg]; decide)
  cases hsolid : (w.tidings entry.hash).solid with
  | error err =>
    refine ⟨_, hserves.advances_same (m.performs_same _) hnext ?_⟩
    simp only [Errand.fateBy, hwait, Entry.bySolid, if_pos hg, hsolid]
  | ok receipt =>
    rw [informed_solid hblock]
    by_cases hin : e.isIn receipt = true
    · rw [if_pos hin]
      have hs : (m.store pass.account).markFinalized entry.id now = .ok _ :=
        Store.finish_eq_ok_iff.mpr ⟨e, hserves.get?_eq, by rw [hg]; rfl, rfl⟩
      have hm := (performs_finalize hserves.known hs).withPoller (.afterSettling pass rest)
      refine ⟨_, hserves.advances hm hnext (Store.get?_setEntry _ _ _) rfl ?_
        (.inr ⟨by rw [hg]; rfl, rfl⟩)⟩
      have hfinal : (e.withStage .finalized).byReceipt m.settings (w.tidings entry.hash) =
          ⟨e.withStage .finalized, []⟩ := Entry.byReceipt_of_ne (by simp [Entry.withStage])
      simp only [Errand.fateBy, hfinal, Entry.bySolid, if_pos hg, hsolid, if_pos hin]
      rfl
    · rw [if_neg hin]
      have hasking : (Poller.asking (.tip entry rest pass)).errand =
          pass.errand (Function.update (settlingHere rest) entry.id .tip) := rfl
      refine ⟨_, hserves.advances_same (m.performs_same _) hasking ?_⟩
      simp only [Errand.fateBy, Entry.bySolid, if_pos hg, hsolid, if_neg hin]

theorem OnPass.advances_tip (h : OnPass w m) {entry : Settling} {rest : List Settling}
    {pass : Pass} (hp : m.poller = .asking (.tip entry rest pass)) : ∃ log, m.Advances w now
      (m.informed now (.tip entry rest pass) (w.tidings entry.hash).tip) log := by
  have hrows : m.poller.settling = some (pass.account, entry :: rest) := by rw [hp]; rfl
  have hbefore : m.poller.errand =
      pass.errand (Function.update (settlingHere rest) entry.id .tip) := by rw [hp]; rfl
  obtain ⟨e, hserves, hg, hblock, hnot⟩ := h.serves_settling hrows (by rw [hp]; rfl) hbefore
  have hnext := errand_afterSettling pass hnot
  have hwait : e.byReceipt m.settings (w.tidings entry.hash) = ⟨e, []⟩ :=
    Entry.byReceipt_of_ne (by rw [hg]; decide)
  cases htip : (w.tidings entry.hash).tip with
  | error err =>
    refine ⟨_, hserves.advances_same (m.performs_same _) hnext ?_⟩
    simp only [Errand.fateBy, hwait, Entry.byTip, htip]
  | ok receipt =>
    rw [informed_tip hblock]
    by_cases hin : e.isIn receipt = true
    · rw [if_pos hin]
      refine ⟨_, hserves.advances_same (m.performs_same _) hnext ?_⟩
      simp only [Errand.fateBy, hwait, Entry.byTip, htip, if_pos hin]
    · rw [if_neg hin]
      have hs := Store.markReorganized_eq_ok_iff.mpr ⟨e, hserves.get?_eq, hg, rfl⟩
      have hm := (performs_displace hserves.known hs).withPoller (.afterSettling pass rest)
      refine ⟨_, hserves.advances hm hnext (Store.get?_setEntry _ _ _) rfl ?_ (.inl rfl)⟩
      simp only [Errand.fateBy, Entry.byTip, htip, if_neg hin]

theorem OnPass.serves_awaiting (h : OnPass w m) (pass : Pass) {entry : Awaiting}
    {rest : List Awaiting} {before : Errand}
    (hrows : m.poller.awaiting = some (pass.account, entry :: rest))
    (hpass : pass.account ∈ m.accounts.stores.keys)
    (hbefore : m.poller.errand =
      pass.errand (Function.update (awaitingHere rest) entry.id before)) :
    ∃ e, m.Serves pass (awaitingHere rest) entry.id entry.hash before e ∧
      e.tx.stage = .broadcasted ∧ e.expiration = entry.expiration ∧
      entry.id ∉ rest.map Awaiting.id := by
  obtain ⟨e, he, hg, hrow⟩ := h.upToDate.awaits hrows entry List.mem_cons_self
  obtain ⟨-, hhash, hexpiration⟩ := Entry.awaiting?_eq_some_iff.mp hrow
  refine ⟨e, ⟨h.upToDate.consistent _, hpass, hbefore, he, hhash⟩, hg, hexpiration, ?_⟩
  exact (List.nodup_cons.mp (h.upToDate.nodup hrows)).1

section Awaiting

variable {pass : Pass} {entry : Awaiting} {rest : List Awaiting} {before : Errand} {e : Entry}
  (h : m.Serves pass (awaitingHere rest) entry.id entry.hash before e)

include h

theorem Serves.advances_failAttempt (hg : e.tx.stage = .broadcasted) (reason : String)
    {next : Option RetryKind} (hfate : before.fateBy m.settings (w.tidings entry.hash) e =
      e.ifFailed m.settings next) :
    m.Advances w now (m.failAttempt entry rest pass reason next) [] := by
  have hs := Store.markErrored_eq_ok_iff.mpr ⟨e, h.get?_eq, .inr hg, rfl, rfl⟩
  have hid : e.tx.id = entry.id := h.consistent.id_eq h.get?_eq
  have hfailed : (Poller.failed (e.withStage .errored).tx reason next rest pass).errand =
      pass.errand (Function.update (awaitingHere rest) entry.id (.fail next)) := by
    rw [← hid]
    rfl
  exact h.advances (performs_failAttempt h.known hs reason next) hfailed
    (Store.get?_setEntry _ _ _) rfl hfate (.inl rfl)

theorem Serves.advances_withoutReceipt (hg : e.tx.stage = .broadcasted)
    (hexpiration : e.expiration = entry.expiration) (hlater : pass.account ∉ pass.later)
    (hnot : entry.id ∉ rest.map Awaiting.id) {t : Int}
    (hfate : before.fateBy m.settings (w.tidings entry.hash) e =
      if e.expiration < t then e.ifFailed m.settings (some .plain) else ⟨e, []⟩) :
    m.Advances w now (m.withoutReceipt t entry rest pass) [] := by
  unfold withoutReceipt
  rw [hexpiration] at hfate
  split
  · rename_i ht
    rw [if_pos ht] at hfate
    exact h.advances_failAttempt hg _ hfate
  · rename_i ht
    rw [if_neg ht] at hfate
    exact h.advances_same (m.performs_same _) (errand_afterAwaiting hlater hnot) hfate

theorem Serves.advances_withReceipt (hg : e.tx.stage = .broadcasted)
    (hlater : pass.account ∉ pass.later) (hnot : entry.id ∉ rest.map Awaiting.id)
    {receipt : Node.Receipt} (hfate : before.fateBy m.settings (w.tidings entry.hash) e =
      e.byOutcome m.settings receipt) :
    ∃ log, m.Advances w now (m.withReceipt receipt entry rest pass) log := by
  unfold withReceipt
  rw [Entry.byOutcome] at hfate
  cases ho : Outcome.ofReceipt m.settings.resultCodes receipt with
  | success =>
    rw [ho] at hfate
    have hs : (m.store pass.account).markConfirmed entry.id receipt.block = .ok _ :=
      Store.markConfirmed_eq_ok_iff.mpr ⟨e, h.get?_eq, hg, rfl⟩
    have hm := (performs_confirm h.known hs).withPoller (.afterAwaiting pass rest)
    exact ⟨_, h.advances hm (errand_afterAwaiting hlater hnot) (Store.get?_setEntry _ _ _) rfl
      hfate (.inl rfl)⟩
  | outOfEnergy | outOfTime | fatal code | unknown code =>
    rw [ho] at hfate
    exact ⟨_, h.advances_failAttempt hg _ hfate⟩

end Awaiting

theorem OnPass.advances_receipt (h : OnPass w m) {entry : Awaiting} {rest : List Awaiting}
    {pass : Pass} (hp : m.poller = .asking (.receipt entry rest pass)) : ∃ log, m.Advances w now
      (m.informed now (.receipt entry rest pass) (w.tidings entry.hash).tip) log := by
  have hpass : m.poller.pass? = some pass := by rw [hp]; rfl
  obtain ⟨hknown, hlater⟩ := h.account hpass
  have hrows : m.poller.awaiting = some (pass.account, entry :: rest) := by rw [hp]; rfl
  have hbefore : m.poller.errand =
      pass.errand (Function.update (awaitingHere rest) entry.id .wait) := by rw [hp]; rfl
  obtain ⟨e, hserves, hg, hexpiration, hnot⟩ := h.serves_awaiting pass hrows hknown hbefore
  have hnext := errand_afterAwaiting hlater hnot
  cases htip : (w.tidings entry.hash).tip with
  | error err =>
    refine ⟨_, hserves.advances_same (m.performs_same _) hnext ?_⟩
    simp only [Errand.fateBy, Entry.byReceipt, if_pos hg, htip]
  | ok receipt =>
    cases receipt with
    | none =>
      have hfate : Errand.wait.fateBy m.settings (w.tidings entry.hash) e =
          e.byClock m.settings (w.tidings entry.hash) := by
        simp only [Errand.fateBy, Entry.byReceipt, if_pos hg, htip]
      cases hclock : pass.clock with
      | none =>
        simp only [informed, hclock]
        have hasking : (Poller.asking (.clock entry rest pass)).errand =
            pass.errand (Function.update (awaitingHere rest) entry.id .date) := rfl
        exact ⟨_, hserves.advances_same (m.performs_same _) hasking hfate⟩
      | some t =>
        simp only [informed, hclock]
        obtain ⟨block, hblock, rfl⟩ := h.dated pass hpass t hclock
        have hreply : (w.tidings entry.hash).clock = .ok block := hblock
        rw [Entry.byClock, hreply] at hfate
        exact ⟨_, hserves.advances_withoutReceipt hg hexpiration hlater hnot hfate⟩
    | some receipt =>
      refine hserves.advances_withReceipt hg hlater hnot ?_
      simp only [Errand.fateBy, Entry.byReceipt, if_pos hg, htip]

theorem OnPass.advances_clock (h : OnPass w m) {entry : Awaiting} {rest : List Awaiting}
    {pass : Pass} (hp : m.poller = .asking (.clock entry rest pass)) : ∃ log, m.Advances w now
      (m.informed now (.clock entry rest pass) (w.tidings entry.hash).clock) log := by
  have hpass : m.poller.pass? = some pass := by rw [hp]; rfl
  obtain ⟨hknown, hlater⟩ := h.account hpass
  -- the pass that has heard the time is another one, with the same errands
  have hrows : m.poller.awaiting = some (pass.account, entry :: rest) := by rw [hp]; rfl
  have hbefore (clock : Option Int) : m.poller.errand = { pass with clock }.errand
      (Function.update (awaitingHere rest) entry.id .date) := by rw [hp]; rfl
  cases hclock : (w.tidings entry.hash).clock with
  | error err =>
    obtain ⟨e, hserves, hg, -, hnot⟩ := h.serves_awaiting pass hrows hknown (hbefore pass.clock)
    refine ⟨_, hserves.advances_same (m.performs_same _) (errand_afterAwaiting hlater hnot) ?_⟩
    simp only [Errand.fateBy, Entry.byClock, hclock]
  | ok block =>
    obtain ⟨e, hserves, hg, hexpiration, hnot⟩ :=
      h.serves_awaiting { pass with clock := some block.timestamp } hrows hknown (hbefore _)
    refine ⟨_, hserves.advances_withoutReceipt hg hexpiration hlater hnot ?_⟩
    simp only [Errand.fateBy, Entry.byClock, hclock]

theorem OnPass.serves_failed (h : OnPass w m) {tx : Tx} {pass : Pass} {rest : List Awaiting}
    {before : Errand} (htx : m.poller.tx? = some tx) (hpass : m.poller.pass? = some pass)
    (hrows : m.poller.awaiting = some (pass.account, rest))
    (hbefore : m.poller.errand = pass.errand (Function.update (awaitingHere rest) tx.id before)) :
    ∃ e hash, m.Serves pass (awaitingHere rest) tx.id hash before e ∧ e.tx = tx ∧
      e.tx.stage = .errored ∧ tx.id ∉ rest.map Awaiting.id := by
  obtain ⟨e, hash, he, htx, hg, hhash⟩ := h.failed htx hpass
  refine ⟨e, hash, ⟨h.upToDate.consistent _, (h.account hpass).1, hbefore, he, hhash⟩, htx, hg,
    fun hmem => ?_⟩
  -- those that come after wait for a receipt
  obtain ⟨row, hrow, hid⟩ := List.mem_map.mp hmem
  obtain ⟨d, hd, hsent, -⟩ := h.upToDate.awaits hrows row hrow
  rw [hid, he, Option.some.injEq] at hd
  rw [← hd, hg] at hsent
  cases hsent

theorem ceiling?_eq_none_iff_not_isSpent {e : Entry} {kind : RetryKind} :
    m.ceiling? e.tx kind = none ↔ ¬ e.isSpent m.settings kind := by
  rw [ceiling?_eq_none_iff, Entry.isSpent, not_or, not_and, Nat.not_le, Nat.not_le]

theorem OnPass.advances_afterFailure (h : OnPass w m) {tx : Tx} {reason : String}
    {next : Option RetryKind} {rest : List Awaiting} {pass : Pass}
    (hp : m.poller = .failed tx reason next rest pass) :
    ∃ log, m.Advances w now (m.afterFailure now tx reason next rest pass) log := by
  have hpass : m.poller.pass? = some pass := by rw [hp]; rfl
  obtain ⟨hknown, hlater⟩ := h.account hpass
  have hbefore : m.poller.errand =
      pass.errand (Function.update (awaitingHere rest) tx.id (.fail next)) := by rw [hp]; rfl
  obtain ⟨e, hash, hserves, rfl, hg, hnot⟩ :=
    h.serves_failed (by rw [hp]; rfl) hpass (by rw [hp]; rfl) hbefore
  have hend (reason : String) (hfate : e.ifErrored m.settings next = e.ifEnded) : ∃ log,
      m.Advances w now ((m.fail now pass.account e.tx.id reason).afterAwaiting rest pass) log := by
    have hs : (m.store pass.account).markFatal e.tx.id now = .ok _ :=
      Store.finish_eq_ok_iff.mpr ⟨e, hserves.get?_eq, by rw [hg]; rfl, rfl⟩
    have hm := (performs_fail hknown hs reason).withPoller (.afterAwaiting pass rest)
    exact ⟨_, hserves.advances hm (errand_afterAwaiting hlater hnot)
      (Store.get?_setEntry _ _ _) rfl hfate (.inr ⟨by rw [hg]; rfl, rfl⟩)⟩
  unfold afterFailure
  cases next with
  | none => exact hend _ rfl
  | some kind =>
    cases hceiling : m.ceiling? e.tx kind with
    | some ceiling =>
      have hspent : e.isSpent m.settings kind := by
        by_contra hspent
        rw [ceiling?_eq_none_iff_not_isSpent.mpr hspent] at hceiling
        cases hceiling
      simp only [hceiling]
      exact hend _ (if_pos hspent)
    | none =>
      have hspent := ceiling?_eq_none_iff_not_isSpent.mp hceiling
      simp only [hceiling]
      have hs : (m.store pass.account).recordCounters (e.tx.nextAttempt kind) = .ok _ :=
        Store.recordCounters_eq_ok_iff.mpr ⟨e, hserves.get?_eq, rfl⟩
      have hrequeuing : (Poller.requeuing (e.tx.nextAttempt kind) rest pass).errand =
          pass.errand (Function.update (awaitingHere rest) e.tx.id
            (.requeue (e.tx.nextAttempt kind))) := rfl
      refine ⟨_, hserves.advances (performs_retry hknown hs reason) hrequeuing
        (Store.get?_setEntry _ _ _) rfl ?_ (.inl rfl)⟩
      simp only [Errand.fateBy, Entry.ifErrored, if_neg hspent, Entry.ifRepeated, Fate.after,
        List.append_assoc]
      rfl

theorem OnPass.advances_requeue (h : OnPass w m) (hroom : m.Roomy) {tx : Tx}
    {rest : List Awaiting} {pass : Pass} (hp : m.poller = .requeuing tx rest pass) :
    ∃ log, m.Advances w now (m.requeue tx rest pass) log := by
  have hpass : m.poller.pass? = some pass := by rw [hp]; rfl
  have hbefore : m.poller.errand =
      pass.errand (Function.update (awaitingHere rest) tx.id (.requeue tx)) := by rw [hp]; rfl
  obtain ⟨e, hash, hserves, -, -, hnot⟩ :=
    h.serves_failed (by rw [hp]; rfl) hpass (by rw [hp]; rfl) hbefore
  have hm := m.performs_usePlace tx rest pass
  rw [← Function.update_eq_self pass.account m.store] at hm
  rw [hroom.requeue_eq hp]
  exact ⟨_, hserves.advances hm (errand_afterAwaiting (h.account hpass).2 hnot)
    hserves.get?_eq_ite rfl rfl (.inl rfl)⟩

/-- A poller that has read some rows has the same in store for each transaction. -/
theorem advances_read (x : Poller) (h : ∀ a id e, (m.store a).entries.get? id = some e →
    ∀ tidings, (m.poller.errand a id).fate m.settings e tidings =
      (x.errand a id).fate m.settings e tidings) :
    m.Advances w now { m with poller := x } [] where
  settings_eq := rfl
  queueOpen_eq := rfl
  promised_eq := rfl
  metrics_eq := rfl
  queue_eq := (List.append_nil m.queue).symm
  keys_eq := rfl
  outlook_eq a id := by
    have hstore : ({ m with poller := x } : Manager).store = m.store := rfl
    rw [outlook, outlook, hstore]
    cases he : (m.store a).entries.get? id with
    | none => rfl
    | some e => simp only [Option.map_some, h a id e he]; rfl
  recorded _ _ _ := rfl
  finished _ _ := .inl rfl

theorem OnPass.advances_survey (h : OnPass w m) {a : Address} {later : List Address}
    (hp : m.poller = .surveying (a :: later)) {rows : List Settling}
    (hall : rows.Perm (m.store a).settlingRows) :
    m.Advances w now (m.afterSettling rows { account := a, later }) [] := by
  refine advances_read _ fun b id e he tidings => ?_
  rw [hp, Poller.errand_afterSettling]
  by_cases hb : b = a
  · subst hb
    by_cases hid : id ∈ rows.map Settling.id
    · simp [Poller.errand, Pass.errand, settlingHere, listed, hid]
    · -- what is not confirmed is not looked for in solid blocks
      have hg : e.tx.stage ≠ .confirmed := by
        intro hg
        obtain ⟨hash, block, -, -, hrow⟩ := (h.upToDate.consistent b).row_of_confirmed he hg
        exact hid (List.mem_map_of_mem (hall.mem_iff.mpr hrow))
      have hsame :
          Errand.all.fate m.settings e tidings = Errand.wait.fate m.settings e tidings := by
        cases tidings with
        | none => rfl
        | some r => exact if_neg hg
      simpa [Poller.errand, Pass.errand, settlingHere, listed, hid] using hsame
  · simp [Poller.errand, Pass.errand, hb]

theorem OnPass.advances_collect (h : OnPass w m) {pass : Pass} (hp : m.poller = .collecting pass)
    {rows : List Awaiting} (hall : rows.Perm (m.store pass.account).awaitingRows) :
    m.Advances w now (m.afterAwaiting rows pass) [] := by
  refine advances_read _ fun a id e he tidings => ?_
  rw [hp, Poller.errand_afterAwaiting (h.account (by rw [hp]; rfl)).2]
  by_cases ha : a = pass.account
  · subst ha
    by_cases hid : id ∈ rows.map Awaiting.id
    · simp [Poller.errand, Pass.errand, awaitingHere, listed, hid]
    · have hg : e.tx.stage ≠ .broadcasted := by
        intro hg
        obtain ⟨hash, -, hrow⟩ := (h.upToDate.consistent pass.account).row_of_broadcasted he hg
        exact hid (List.mem_map_of_mem (hall.mem_iff.mpr hrow))
      have hsame :
          Errand.wait.fate m.settings e tidings = Errand.nothing.fate m.settings e tidings := by
        cases tidings with
        | none => rfl
        | some r => exact Entry.byReceipt_of_ne hg
      simpa [Poller.errand, Pass.errand, awaitingHere, listed, hid] using hsame
  · simp [Poller.errand, Pass.errand, ha]

theorem OnPass.advances (h : OnPass w m) (hs : PollStep w now m m') (hroom : m.Roomy) :
    ∃ log, m.Advances w now m' log := by
  cases hs with
  | survey hp hall => exact ⟨_, h.advances_survey hp hall⟩
  | collect hp hall => exact ⟨_, h.advances_collect hp hall⟩
  | @informed q hq =>
    cases q with
    | solid entry rest pass => exact h.advances_solid hq
    | tip entry rest pass => exact h.advances_tip hq
    | receipt entry rest pass => exact h.advances_receipt hq
    | clock entry rest pass => exact h.advances_clock hq
  | afterFailure hp => exact h.advances_afterFailure hp
  | requeue hp => exact h.advances_requeue hroom hp

end Manager

end TronCourier
