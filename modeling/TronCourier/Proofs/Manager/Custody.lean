import TronCourier.Proofs.Manager.Agenda
import TronCourier.Proofs.Manager.Copies
import TronCourier.Proofs.Manager.Launch

/-! No transaction is lost and none is sent twice. As long as a manager is not closed,
each transaction that is to be sent is in the hands of exactly one of a request on its
way in, the queue, the sender and the poller, and no other transaction is in any. -/

namespace TronCourier

def Call.tx? : Call → Option Tx
  | .entering q => q.tx?
  | .takingOutlet | .spawning _ | .telling | .gathering | .joining _ => none

/-- The transactions in the queue and in the hands of the sender and the poller. -/
def Manager.copies (m : Manager) : List Tx :=
  m.queue ++ m.sender.tx?.toList ++ m.poller.tx?.toList

def System.copies (s : System) : List Tx :=
  s.calls.filterMap Call.tx? ++ s.manager.copies

namespace Manager

/-- Besides those that requests hold, each transaction that is to be sent has one copy.
What the poller holds belongs to the sender whose store it looks at. -/
structure Custody (m : Manager) (requested : List Tx) : Prop where
  guards : Guards m.store (requested ++ m.copies)
  account : ∀ {tx a rows}, m.poller.tx? = some tx → m.poller.awaiting = some (a, rows) →
    tx.sender = a

variable {m m' : Manager} {stores : Address → Store} {c : List Tx} {tx : Tx}

theorem custody_of_senderLeaves {x : Sender} (hm : m.SenderLeaves m' x stores)
    (hg : Guards stores (c ++ (m.queue ++ x.tx?.toList ++ m.poller.tx?.toList)))
    (h : m.Custody c) : m'.Custody c := by
  rcases hm with ⟨⟨accounts, estimator, metrics, events, rfl⟩, rfl⟩
  exact ⟨hg, h.account⟩

theorem custody_of_pollerLeaves {x : Poller} (hm : m.PollerLeaves m' x stores)
    (hg : Guards stores (c ++ (m.queue ++ m.sender.tx?.toList ++ x.tx?.toList)))
    (hx : ∀ {tx a rows}, x.tx? = some tx → x.awaiting = some (a, rows) → tx.sender = a) :
    m'.Custody c := by
  rcases hm with ⟨⟨accounts, metrics, events, rfl⟩, rfl⟩
  exact ⟨hg, hx⟩

theorem custody_of_none {x : Poller} (hm : m.PollerLeaves m' x stores) (hx : x.tx? = none)
    (hg : Guards stores (c ++ (m.queue ++ m.sender.tx?.toList ++ []))) : m'.Custody c := by
  refine custody_of_pollerLeaves hm ?_ fun htx => ?_
  · rwa [hx]
  · exact absurd (hx.symm.trans htx) nofun

theorem perm_sender (c q p : List Tx) (tx : Tx) :
    (c ++ (q ++ [tx] ++ p)).Perm (tx :: (c ++ (q ++ [] ++ p))) := by
  have h : ((c ++ q) ++ tx :: p).Perm (tx :: ((c ++ q) ++ p)) := List.perm_middle
  simpa only [List.append_assoc, List.append_nil, List.cons_append, List.nil_append] using h

theorem perm_poller (c q s : List Tx) (tx : Tx) :
    (c ++ (q ++ s ++ [tx])).Perm (tx :: (c ++ (q ++ s ++ []))) := by
  have h : ((c ++ q ++ s) ++ tx :: []).Perm (tx :: ((c ++ q ++ s) ++ [])) := List.perm_middle
  simpa only [List.append_assoc, List.append_nil, List.cons_append, List.nil_append] using h

theorem Custody.answered (h : m.Custody c) (now : Nat) {a : Attempt} (ha : m.sender = .busy a)
    (answer : a.Answer) : (m.answered now a answer).Custody c := by
  have hg : Guards m.store (c ++ (m.queue ++ [a.tx] ++ m.poller.tx?.toList)) := by
    have := h.guards
    rwa [copies, ha] at this
  rcases m.answered_cases now a answer with
    ⟨x, hm, hx⟩ | ⟨p, s, rfl, hs, hm⟩ | ⟨tx, reason, rfl, hm⟩
  · exact custody_of_senderLeaves hm (by rwa [hx]) h
  · exact custody_of_senderLeaves hm ((hg.perm (perm_sender ..)).markBroadcasted hs) h
  · obtain ⟨s, hs, hg⟩ := (hg.perm (perm_sender ..)).markFatal now
    rw [storesAfter_ok (show (m.store tx.sender).markFatal tx.id now = .ok s from hs)] at hm
    exact custody_of_senderLeaves hm hg h

theorem Custody.informed (h : m.Custody c) (hu : m.UpToDate) (now : Nat) {q : Inquiry}
    (hq : m.poller = .asking q) (answer : q.Answer) : (m.informed now q answer).Custody c := by
  have hg : Guards m.store (c ++ (m.queue ++ m.sender.tx?.toList ++ [])) := by
    have := h.guards
    rwa [copies, hq] at this
  obtain ⟨x, stores, hm, hx⟩ := m.heard_informed now q answer
  cases hx with
  | finalized hb =>
    exact custody_of_none hm (Poller.tx?_afterSettling _ _)
      (storesAfter_induction (P := (Guards · _)) hg fun _ hs => hg.markFinalized hs)
  | displaced answer =>
    exact custody_of_none hm (Poller.tx?_afterSettling _ _)
      (storesAfter_induction (P := (Guards · _)) hg fun _ hs => hg.markReorganized hs)
  | confirmed ho =>
    exact custody_of_none hm (Poller.tx?_afterAwaiting _ _)
      (storesAfter_induction (P := (Guards · _)) hg fun _ hs => hg.markConfirmed hs)
  | unsettled answer => exact custody_of_none hm rfl hg
  | undated hc => exact custody_of_none hm rfl hg
  | stillSettling answer hq => exact custody_of_none hm (Poller.tx?_afterSettling _ _) hg
  | stillAwaiting answer hq => exact custody_of_none hm (Poller.tx?_afterAwaiting _ _) hg
  | @failed q answer entry rest hawaiting s tx hs reason next =>
    have hrows : m.poller.awaiting = some ((q.passAfter answer).account, entry :: rest) := by
      rw [hq]
      exact Poller.awaiting_asking hawaiting answer
    obtain ⟨e, he, hstage, -⟩ := hu.awaits hrows entry List.mem_cons_self
    have hbroadcasted := Store.stage?_of_entry he
    rw [hstage] at hbroadcasted
    obtain ⟨hsender, hg⟩ := hg.markErrored hbroadcasted hs
    refine custody_of_pollerLeaves hm (hg.perm (perm_poller ..).symm) fun htx hrows => ?_
    cases htx
    cases hrows
    exact hsender

theorem Custody.guards_poller (h : m.Custody c) (htx : m.poller.tx? = some tx) :
    Guards m.store (tx :: (c ++ (m.queue ++ m.sender.tx?.toList ++ []))) := by
  have hg := h.guards
  rw [copies, htx] at hg
  exact hg.perm (perm_poller ..)

theorem Custody.afterFailure (h : m.Custody c) (now : Nat) {reason : String}
    {next : Option RetryKind} {rest : List Awaiting} {pass : Pass}
    (hp : m.poller = .failed tx reason next rest pass) :
    (m.afterFailure now tx reason next rest pass).Custody c := by
  have hg := h.guards_poller (by rw [hp]; rfl)
  have hsender : tx.sender = pass.account := h.account (by rw [hp]; rfl) (by rw [hp]; rfl)
  rcases m.afterFailure_cases now tx reason next rest pass with
    hm | ⟨kind, ⟨s, hs, hm⟩ | ⟨e, he, -⟩⟩
  · obtain ⟨s, hs, hg⟩ := hg.markFatal now
    rw [← hsender, storesAfter_ok hs] at hm
    exact custody_of_none hm (Poller.tx?_afterAwaiting pass rest) hg
  · obtain ⟨s', hs', hg⟩ := hg.recordCounters (tx.nextAttempt kind) rfl rfl rfl
    rw [← hsender] at hs hm
    rw [hs, Except.ok.injEq] at hs'
    subst hs'
    refine custody_of_pollerLeaves hm (hg.perm (perm_poller ..).symm) fun htx hrows => ?_
    cases htx
    cases hrows
    exact hsender
  · obtain ⟨s', hs', -⟩ := hg.recordCounters (tx.nextAttempt kind) rfl rfl rfl
    rw [← hsender, hs'] at he
    cases he

theorem Custody.withoutPlace (h : m.Custody c) (now : Nat) {rest : List Awaiting} {pass : Pass}
    (hp : m.poller = .refused tx rest pass) : (m.withoutPlace now tx rest pass).Custody c := by
  have hg := h.guards_poller (by rw [hp]; rfl)
  have hsender : tx.sender = pass.account := h.account (by rw [hp]; rfl) (by rw [hp]; rfl)
  obtain ⟨s, hs, hg⟩ := hg.markFatal now
  have hm := (m.leaves_fail now pass.account tx.id "broadcast queue closed").withPoller
    (.afterAwaiting pass rest)
  rw [← hsender, storesAfter_ok hs, hsender] at hm
  exact custody_of_none hm (Poller.tx?_afterAwaiting pass rest) (hsender ▸ hg)

/-- A copy goes from the poller into the queue. -/
theorem Custody.queued (h : m.Custody c) (htx : m.poller.tx? = some tx) {x : Poller}
    (hx : x.tx? = none) :
    ({ m with queue := m.queue ++ [tx], poller := x } : Manager).Custody c := by
  have hg := h.guards_poller htx
  refine ⟨hg.perm ?_, fun hsome => absurd (hx.symm.trans hsome) nofun⟩
  rw [copies, hx]
  have hmove := perm_sender c m.queue m.sender.tx?.toList tx
  simp only [List.append_assoc, List.append_nil, Option.toList_none] at hmove ⊢
  exact hmove.symm

theorem Custody.usePlace (h : m.Custody c) (htx : m.poller.tx? = some tx) (rest : List Awaiting)
    (pass : Pass) : (m.usePlace tx rest pass).Custody c :=
  h.queued htx (Poller.tx?_afterAwaiting pass rest)

theorem Custody.requeue (h : m.Custody c) {rest : List Awaiting} {pass : Pass}
    (hp : m.poller = .requeuing tx rest pass) : (m.requeue tx rest pass).Custody c := by
  rcases m.requeue_cases tx rest pass with hm | ⟨x, hx, hm⟩
  · rw [hm]
    exact h.usePlace (by rw [hp]; rfl) rest pass
  · have hsame : x.tx? = m.poller.tx? ∧ x.awaiting = m.poller.awaiting := by
      rw [hp]
      rcases hx with rfl | rfl
      · exact ⟨rfl, rfl⟩
      · exact ⟨rfl, rfl⟩
    rw [hm]
    refine ⟨?_, fun hsome hrows => h.account (hsame.1 ▸ hsome) (hsame.2 ▸ hrows)⟩
    have hg := h.guards
    rwa [copies, ← hsame.1] at hg

theorem Custody.take? (h : m.Custody c) (hm : m.take? = some m') : m'.Custody c := by
  obtain ⟨tx, rest, metrics, hs, hqueue, rfl⟩ := take?_eq_some hm
  have hg := h.guards
  have hgrant : m.poller.grant.tx? = m.poller.tx? := m.poller.tx?_grant
  refine ⟨?_, fun hsome hrows => ?_⟩
  · rw [copies, hs, hqueue] at hg
    show Guards m.store (c ++ (rest ++ [tx] ++ m.poller.grant.tx?.toList))
    rw [hgrant]
    refine hg.perm (List.Perm.append_left c (List.Perm.append_right _ ?_))
    have hmove : (rest ++ tx :: []).Perm (tx :: (rest ++ [])) := List.perm_middle
    rw [List.append_nil] at hmove
    simpa [Sender.tx?] using hmove.symm
  · exact h.account (hgrant ▸ hsome) (m.poller.awaiting_grant ▸ hrows)

theorem Custody.wake (h : m.Custody c) {p : Parcel} {due : Nat}
    (hs : m.sender = .asleep p due) : (m.wake p).Custody c := by
  refine ⟨?_, h.account⟩
  have hg := h.guards
  rwa [copies, hs] at hg

theorem Custody.idle (h : m.Custody c) {x : Poller} (hp : m.poller.tx? = none)
    (hx : x.tx? = none) (hm : m.PollerLeaves m' x m.store) : m'.Custody c := by
  refine custody_of_none hm hx ?_
  have hg := h.guards
  rwa [copies, hp] at hg

theorem Custody.sweep (h : m.Custody c) (begun : Nat) (a : Address) (later : List Address)
    (evicted : Nat) : (m.sweep begun a later evicted).Custody c := by
  refine ⟨?_, h.account⟩
  rw [store_sweep]
  exact h.guards.reap a _ begun

/-- What a part has at hand when it stops is dropped. -/
theorem Custody.halt (h : m.Custody c) (w : Worker) :
    ∃ dropped, (m.halt w).Custody (c ++ dropped) := by
  have hg := h.guards
  cases w with
  | sender =>
    have hsame : m.poller.refuse.tx? = m.poller.tx? ∧
        m.poller.refuse.awaiting = m.poller.awaiting :=
      ⟨m.poller.tx?_refuse, m.poller.awaiting_refuse⟩
    refine ⟨m.queue ++ m.sender.tx?.toList, ?_, fun htx hrows => ?_⟩
    · show Guards m.store (c ++ (m.queue ++ m.sender.tx?.toList) ++
        ([] ++ [] ++ m.poller.refuse.tx?.toList))
      rw [hsame.1]
      simpa only [copies, List.append_assoc, List.nil_append] using hg
    · exact h.account (hsame.1 ▸ htx) (hsame.2 ▸ hrows)
  | poller =>
    refine ⟨m.poller.tx?.toList, ?_, nofun⟩
    have hmove : (c ++ m.copies).Perm
        (c ++ (m.poller.tx?.toList ++ (m.queue ++ m.sender.tx?.toList))) :=
      List.Perm.append_left c List.perm_append_comm
    show Guards m.store (c ++ m.poller.tx?.toList ++ (m.queue ++ m.sender.tx?.toList ++ []))
    rw [List.append_nil, List.append_assoc]
    exact hg.perm hmove
  | reaper =>
    refine ⟨[], ?_, h.account⟩
    rw [List.append_nil]
    exact hg

theorem Custody.proceed {before after : List Tx} (fresh : String) (q : Submission)
    (answer : q.Answer) (h : m.Custody (before ++ q.tx?.toList ++ after)) :
    (m.proceed fresh q answer).1.Custody
      (before ++ (m.proceed fresh q answer).2.calls.filterMap Call.tx? ++ after) := by
  rcases m.proceed_cases fresh q answer with
    ⟨tx, s, rfl, hs, hp, ⟨accounts, metrics, events, hm⟩, hstore⟩ | ⟨tx, rfl, hm⟩ |
    ⟨hq, ⟨⟨accounts, promised, x, hm, hx⟩, hstore⟩, hnone⟩
  · have hg := h.guards.addPending hs
    have hmove : ((before ++ tx :: (after ++ m.copies))).Perm
        (tx :: (before ++ (after ++ m.copies))) := List.perm_middle
    refine ⟨?_, ?_⟩
    · rw [hstore, hp, hm]
      refine hg.perm ?_
      simpa [Submission.tx?, Progress.calls, Call.tx?, copies] using hmove.symm
    · rw [hm]
      exact h.account
  · rw [hm]
    refine ⟨h.guards.perm ?_, h.account⟩
    have hfrom : (before ++ tx :: (after ++ m.copies)).Perm
        (tx :: (before ++ (after ++ m.copies))) := List.perm_middle
    have hto : ((before ++ after ++ m.queue) ++
        tx :: (m.sender.tx?.toList ++ m.poller.tx?.toList)).Perm
        (tx :: ((before ++ after ++ m.queue) ++ (m.sender.tx?.toList ++ m.poller.tx?.toList))) :=
      List.perm_middle
    simp only [Submission.tx?, Option.toList_some, deliver, Progress.calls, List.filterMap_nil,
      count, copies, List.append_assoc, List.cons_append, List.nil_append] at hfrom hto ⊢
    exact hfrom.trans hto.symm
  · have hsame : x.tx? = m.poller.tx? ∧ x.awaiting = m.poller.awaiting := by
      rcases hx with rfl | rfl
      · exact ⟨rfl, rfl⟩
      · exact ⟨m.poller.tx?_grant, m.poller.awaiting_grant⟩
    have hcalls : (m.proceed fresh q answer).2.calls.filterMap Call.tx? = [] := by
      cases hp : (m.proceed fresh q answer).2 with
      | waiting q' => simp [Progress.calls, Call.tx?, hnone q' hp]
      | accepted id => rfl
      | rejected e => rfl
    rw [hcalls]
    rw [hq] at h
    refine ⟨?_, ?_⟩
    · rw [hstore, hm, copies]
      have hg := h.guards
      rw [copies] at hg
      rwa [← hsame.1] at hg
    · rw [hm]
      exact fun hsome hrows => h.account (hsame.1 ▸ hsome) (hsame.2 ▸ hrows)

end Manager

open Manager

theorem PartStep.custody {m m' : Manager} {now : Nat} {act : Act} {c : List Tx}
    (h : m.Custody c) (hu : m.UpToDate) (hs : PartStep m now act m') : m'.Custody c := by
  cases hs with
  | take hm => exact h.take? hm
  | answered ha answer => exact h.answered now ha answer
  | wake ha hdue => exact h.wake ha
  | beginPass hp hall => exact h.idle (by rw [hp]; rfl) rfl (m.pollerLeaves_same _)
  | survey hp hall =>
    exact h.idle (by rw [hp]; rfl) (Poller.tx?_afterSettling _ _) (m.pollerLeaves_same _)
  | collect hp hall =>
    exact h.idle (by rw [hp]; rfl) (Poller.tx?_afterAwaiting _ _) (m.pollerLeaves_same _)
  | endPass hp => exact h.idle (by rw [hp]; rfl) rfl ⟨⟨_, _, _, rfl⟩, rfl⟩
  | informed hp answer => exact h.informed hu now hp answer
  | afterFailure hp => exact h.afterFailure now hp
  | requeue hp => exact h.requeue hp
  | usePlace hp => exact h.usePlace (by rw [hp]; rfl) _ _
  | withoutPlace hp => exact h.withoutPlace now hp
  | beginSweep hr hall => exact ⟨h.guards, h.account⟩
  | sweep hr => exact h.sweep _ _ _ _
  | endSweep hr => exact ⟨h.guards, h.account⟩

namespace System

variable {s s' : System}

theorem filterMap_calls (before after : List Call) (c : Call) :
    (before ++ c :: after).filterMap Call.tx? =
      before.filterMap Call.tx? ++ c.tx?.toList ++ after.filterMap Call.tx? := by
  rw [List.filterMap_append, List.filterMap_cons, List.append_assoc]
  cases hc : c.tx? with
  | none => rfl
  | some tx => rfl

theorem filterMap_rest {before after : List Call} {c : Call} (hc : c.tx? = none) :
    (before ++ c :: after).filterMap Call.tx? = (before ++ after).filterMap Call.tx? := by
  rw [filterMap_calls, hc, List.filterMap_append]
  simp

theorem filterMap_submissions (s : System) :
    s.calls.filterMap Call.tx? = s.submissions.filterMap Submission.tx? := by
  rw [submissions, List.filterMap_filterMap]
  refine List.filterMap_congr fun c _ => ?_
  cases c <;> rfl

/-- A part that is only just set going has nothing in its hands. -/
theorem Launched.custody_spawn (hl : s.Launched) {before after : List Call} {v : Worker}
    {parts : List Worker} (hc : s.calls = before ++ .spawning (v :: parts) :: after)
    {c : List Tx} (h : s.manager.Custody c) : (s.manager.spawn v).Custody c := by
  have hv : s.manager.isAbsent v := hl.absent v (by simp [unlaunched, hc, Call.parts])
  have hg := h.guards
  cases v with
  | sender =>
    rw [Manager.copies, show s.manager.sender = .absent from hv] at hg
    exact ⟨hg, h.account⟩
  | poller =>
    rw [Manager.copies, show s.manager.poller = .absent from hv] at hg
    refine ⟨hg, ?_⟩
    intro tx a rows hpoller
    cases hpoller
  | reaper => exact ⟨hg, h.account⟩

/-- As long as nothing was dropped, requests and parts have all copies. What a part had
at hand is dropped when it stops, and with the sender the queue. -/
structure Guarded (s : System) : Prop where
  launched : s.Launched
  upToDate : s.manager.UpToDate
  custody : ∃ dropped, s.manager.Custody (s.calls.filterMap Call.tx? ++ dropped) ∧
    (s.manager.lifecycle ≠ .closed → dropped = [])

theorem Launched.custody_halt (hl : s.Launched) {v : Worker} (hv : v ∈ s.manager.halting)
    {dropped : List Tx} (h : s.manager.Custody (s.calls.filterMap Call.tx? ++ dropped)) :
    ∃ dropped, (s.manager.halt v).Custody (s.calls.filterMap Call.tx? ++ dropped) ∧
      ((s.manager.halt v).lifecycle ≠ .closed → dropped = []) := by
  have hclosed : s.manager.lifecycle = .closed := by
    by_contra hne
    rw [hl.unhalted hne] at hv
    cases hv
  obtain ⟨more, hmore⟩ := h.halt v
  refine ⟨dropped ++ more, by rwa [← List.append_assoc], fun hopen => ?_⟩
  cases v <;> exact absurd hclosed hopen

theorem Guarded.consistent (hg : s.Guarded) (a : Address) : (s.manager.store a).Consistent := by
  obtain ⟨dropped, hc, -⟩ := hg.custody
  exact hc.guards.consistent a

theorem Guarded.current (hg : s.Guarded) {tx : Tx} (h : tx ∈ s.copies) :
    ∃ e, (s.manager.store tx.sender).entries.get? tx.id = some e ∧ tx.SameCounters e.tx ∧
      tx.key = e.tx.key := by
  obtain ⟨dropped, hc, -⟩ := hg.custody
  refine hc.guards.current tx ?_
  rcases List.mem_append.mp h with h | h
  · exact List.mem_append_left _ (List.mem_append_left _ h)
  · exact List.mem_append_right _ h

theorem Guarded.held_le (hg : s.Guarded) (a : Address) (id : String) :
    held s.copies a id ≤ ((s.manager.store a).isOpen id).toNat := by
  obtain ⟨dropped, hc, -⟩ := hg.custody
  have hheld := hc.guards.held_eq a id
  rw [held_append, held_append] at hheld
  rw [copies, held_append]
  omega

theorem Step.guarded {act : Act} (h : s.Guarded) (hs : Step s act s') : s'.Guarded := by
  refine ⟨hs.launched h.launched, hs.upToDate h.upToDate, ?_⟩
  obtain ⟨dropped, hc, hnone⟩ := h.custody
  cases hs with
  | part hm =>
    have hw := hm.works
    exact ⟨dropped, hm.custody hc h.upToDate, fun hopen => hnone (hw.lifecycle ▸ hopen)⟩
  | pass hlater => exact ⟨dropped, hc, hnone⟩
  | submit hq =>
    refine ⟨dropped, ?_, hnone⟩
    rwa [submit_eq_ok hq, filterMap_rest rfl, List.append_nil]
  | @proceed before after q hcalls answer fresh =>
    have hw := s.manager.works_proceed fresh q answer
    refine ⟨dropped, ?_, fun hopen => hnone (hw.lifecycle ▸ hopen)⟩
    rw [hcalls, filterMap_calls, List.append_assoc] at hc
    simpa only [List.filterMap_append, List.append_assoc] using hc.proceed fresh q answer
  | begin hm =>
    obtain ⟨hidle, rfl⟩ := begin_eq_ok_iff.mp hm
    refine ⟨dropped, ?_, fun _ => hnone (hidle ▸ nofun)⟩
    rw [filterMap_rest rfl, List.append_nil]
    exact ⟨hc.guards, hc.account⟩
  | takeOutlet hcalls hm =>
    obtain ⟨-, rfl⟩ := takeOutlet_eq_ok_iff.mp hm
    rw [hcalls, filterMap_rest rfl] at hc
    refine ⟨dropped, ?_, hnone⟩
    rw [filterMap_rest rfl]
    exact ⟨hc.guards, hc.account⟩
  | @spawn before after v parts hcalls =>
    have hnew := h.launched.custody_spawn hcalls hc
    rw [hcalls, filterMap_rest rfl] at hnew
    refine ⟨dropped, ?_, fun hopen => hnone (by cases v <;> exact hopen)⟩
    rwa [filterMap_rest rfl]
  | register hcalls =>
    rw [hcalls, filterMap_rest rfl] at hc
    exact ⟨dropped, ⟨hc.guards, hc.account⟩, hnone⟩
  | withoutOutlet hcalls | join hcalls =>
    rw [hcalls, filterMap_rest rfl] at hc
    exact ⟨dropped, hc, hnone⟩
  | shut hne =>
    refine ⟨dropped, ?_, fun hopen => absurd rfl hopen⟩
    rw [filterMap_rest rfl, List.append_nil]
    exact ⟨hc.guards, hc.account⟩
  | tell hcalls | gather hcalls =>
    rw [hcalls, filterMap_rest rfl] at hc
    refine ⟨dropped, ?_, hnone⟩
    rw [filterMap_rest rfl]
    exact ⟨hc.guards, hc.account⟩
  | halt hv hlistens => exact h.launched.custody_halt hv hc

theorem Run.guarded {s₀ : System} {acts : List Act} (hr : Run s₀ acts s) (h : s₀.Guarded) :
    s.Guarded :=
  hr.induct h Step.guarded

theorem Run.custody {s₀ : System} {acts : List Act} (hr : Run s₀ acts s) (hl : s₀.Launched)
    (hu : s₀.manager.UpToDate) (hc : s₀.manager.Custody (s₀.calls.filterMap Call.tx?))
    (hopen : s.manager.lifecycle ≠ .closed) :
    s.manager.Custody (s.calls.filterMap Call.tx?) := by
  have h₀ : s₀.Guarded := ⟨hl, hu, [], by rwa [List.append_nil], fun _ => rfl⟩
  obtain ⟨dropped, hc, hnone⟩ := (hr.guarded h₀).custody
  rwa [hnone hopen, List.append_nil] at hc

section Initial

variable {settings : Settings} {checks : Bool} {m : Manager}

theorem ofSettings_eq_ok (h : ofSettings settings checks = .ok m) : settings.fault? = none ∧
    m = { settings, checksMessages := checks, estimator := .ofSettings settings } := by
  unfold ofSettings Settings.validate at h
  cases hf : settings.fault? with
  | some cause =>
    rw [hf] at h
    cases h
  | none =>
    rw [hf] at h
    cases h
    exact ⟨rfl, rfl⟩

theorem launched_initial (h : ofSettings settings checks = .ok m) (now : Nat) :
    Launched { manager := m, now } := by
  obtain ⟨-, rfl⟩ := ofSettings_eq_ok h
  refine ⟨show allWorkers.Nodup by decide, fun w _ => by cases w <;> rfl, fun _ => rfl, nofun⟩

theorem store_initial (h : ofSettings settings checks = .ok m) (a : Address) :
    m.store a = .empty := by
  obtain ⟨-, rfl⟩ := ofSettings_eq_ok h
  rfl

theorem upToDate_initial (h : ofSettings settings checks = .ok m) : m.UpToDate := by
  have hstore := store_initial h
  obtain ⟨-, rfl⟩ := ofSettings_eq_ok h
  exact upToDate_of_start rfl fun a => ⟨0, [], hstore a⟩

theorem custody_initial (h : ofSettings settings checks = .ok m) : m.Custody [] := by
  have hstore := store_initial h
  obtain ⟨-, rfl⟩ := ofSettings_eq_ok h
  exact ⟨⟨fun a => Store.consistent_empty, nofun, fun a id => rfl, nofun⟩, nofun⟩

theorem guarded_initial (h : ofSettings settings checks = .ok m) (now : Nat) :
    Guarded { manager := m, now } :=
  ⟨launched_initial h now, upToDate_initial h, [], custody_initial h, fun _ => rfl⟩

end Initial

/-- As long as a manager is not closed, whatever has happened to it, exactly one of a
request that has only to use its place in the queue, the queue, the sender and the poller
has a transaction that is to be sent, with the counters that are on record, and none of
them has any other. -/
theorem exactly_one_copy {settings : Settings} {checks : Bool} {m : Manager} {now : Nat}
    {acts : List Act} {s : System} (hm : ofSettings settings checks = .ok m)
    (hr : Run { manager := m, now } acts s) (hopen : s.manager.lifecycle ≠ .closed) :
    (∀ a id, held s.copies a id =
      if (s.manager.store a).stage? id = some .pending ∨
          (s.manager.store a).stage? id = some .errored then 1 else 0) ∧
    ∀ tx ∈ s.copies, ∃ e, (s.manager.store tx.sender).entries.get? tx.id = some e ∧
      tx.attempt = e.tx.attempt ∧ tx.energyBumps = e.tx.energyBumps ∧
      tx.outOfTime = e.tx.outOfTime := by
  have hc := hr.custody (launched_initial hm now) (upToDate_initial hm) (custody_initial hm) hopen
  refine ⟨fun a id => ?_, hc.guards.counters⟩
  have hheld : held s.copies a id = ((s.manager.store a).isOpen id).toNat := hc.guards.held_eq a id
  rw [hheld, Store.isOpen]
  cases hg : (s.manager.store a).stage? id with
  | none => simp
  | some g => cases g <;> simp [Stage.isOpen]

theorem fault?_default : Settings.fault? {} = none := by decide +kernel

theorem ofSettings_default :
    ofSettings {} false = .ok { settings := {}, estimator := .ofSettings {} } := by
  rw [ofSettings, Settings.validate, fault?_default]

/-- The store has taken in a request, which has still to use its place in the queue. -/
theorem exactly_one_copy_of_sampleRequest : ∃ m acts s, ofSettings {} false = .ok m ∧
    Run { manager := m, now := 0 } acts s ∧ s.manager.lifecycle ≠ .closed ∧
    (s.manager.store sampleRequest.sender).stage? "t" = some .pending ∧
    held s.copies sampleRequest.sender "t" = 1 := by
  have hm : ofSettings {} false = .ok { settings := {}, estimator := .ofSettings {} } := by
    rw [ofSettings, Settings.validate, fault?_default]
  have h₀ : Run { manager := { settings := {}, estimator := .ofSettings {} }, now := 0 } [] _ :=
    .start
  have h₁ := h₀.next (.submit (r := sampleRequest) (q := .probing sampleRequest) rfl)
  have h₂ := h₁.next (@Step.proceed _ [] [] (.probing sampleRequest) rfl (.ok []) "")
  have h₃ := h₂.next (@Step.proceed _ [] [] (.reserving _) rfl () "")
  have h₄ := h₃.next (@Step.proceed _ [] [] (.admitting _) rfl () "")
  have hone := exactly_one_copy hm h₄ (by decide)
  refine ⟨_, _, _, hm, h₄, by decide, rfl, ?_⟩
  rw [hone.1]
  rfl

end System

end TronCourier
