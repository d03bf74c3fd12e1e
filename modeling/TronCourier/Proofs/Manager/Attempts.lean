import TronCourier.Proofs.Manager.Rounds

/-! How often a transaction is taken up for an attempt. Each copy that still waits for its
attempt has a higher count than there were attempts before. -/

namespace TronCourier

/-- The transaction whose attempt the sender is about to begin. -/
def Sender.waiting? : Sender → Option Tx
  | .busy (.beginning tx) => some tx
  | _ => none

/-- The transaction that the poller brings back to the queue. -/
def Poller.requeued? : Poller → Option Tx
  | .requeuing tx _ _ | .blocked tx _ _ | .granted tx _ _ => some tx
  | _ => none

/-- The copies in a manager's hands whose attempt has not begun. -/
def Manager.unbegun (m : Manager) : List Tx :=
  m.queue ++ m.sender.waiting?.toList ++ m.poller.requeued?.toList

def System.unbegun (s : System) : List Tx :=
  s.calls.filterMap Call.tx? ++ s.manager.unbegun

/-- Whether an act begins an attempt to send a transaction. -/
def Act.begins (a : Address) (id : String) : Act → Bool
  | .answered (.beginning tx) _ => tx.sender = a ∧ tx.id = id
  | _ => false

variable {tx : Tx} {a : Address} {id : String}

theorem Act.begins_iff {act : Act} : act.begins a id = true ↔
    ∃ tx answer, act = .answered (.beginning tx) answer ∧ tx.sender = a ∧ tx.id = id := by
  constructor
  · intro h
    unfold begins at h
    split at h
    · rename_i tx answer
      exact ⟨tx, answer, rfl, of_decide_eq_true h⟩
    · cases h
  · rintro ⟨tx, answer, rfl, h⟩
    exact decide_eq_true h

namespace Poller

theorem tx?_of_requeued? {p : Poller} (h : p.requeued? = some tx) : p.tx? = some tx := by
  cases p <;> first | exact h | cases h

theorem requeued?_afterAwaiting (pass : Pass) (rest : List Awaiting) :
    (afterAwaiting pass rest).requeued? = none := by
  cases rest with
  | nil => rfl
  | cons e rest => rfl

theorem requeued?_afterSettling (pass : Pass) (rest : List Settling) :
    (afterSettling pass rest).requeued? = none := by
  cases rest with
  | nil => rfl
  | cons e rest => rfl

theorem requeued?_grant (p : Poller) : p.grant.requeued? = p.requeued? := by
  cases p with
  | blocked tx rest pass => rfl
  | _ => rfl

theorem requeued?_refuse (p : Poller) (h : p.refuse.requeued? = some tx) :
    p.requeued? = some tx := by
  cases p with
  | blocked tx rest pass | granted tx rest pass => cases h
  | _ => exact h

end Poller

theorem Sender.tx?_of_waiting? {x : Sender} (h : x.waiting? = some tx) : x.tx? = some tx := by
  cases x with
  | busy attempt => cases attempt <;> first | exact h | cases h
  | _ => cases h

namespace Manager

variable {m m' : Manager}

theorem waiting?_attempt (m : Manager) (tx : Tx) : (m.attempt tx).sender.waiting? = none := by
  unfold attempt
  split
  · rfl
  · show Sender.waiting? (.busy (if m.estimator.estimates then _ else _)) = none
    split <;> rfl

theorem waiting?_priced (m : Manager) (now : Nat) (tx : Tx) (energy : Int) :
    (m.priced now tx energy).sender.waiting? = none := by
  unfold priced
  split <;> rfl

theorem waiting?_judge (m : Manager) (now : Nat) (p : Parcel) (v : Node.Verdict) :
    (m.judge now p v).sender.waiting? = none := by
  unfold judge
  split
  · unfold sent
    split <;> rfl
  · split
    · rfl
    · split <;> rfl

theorem waiting?_answered (m : Manager) (now : Nat) (a : Attempt) (answer : a.Answer) :
    (m.answered now a answer).sender.waiting? = none := by
  cases a with
  | beginning tx => exact m.waiting?_attempt tx
  | estimating tx call =>
    simp only [answered]
    split
    · rfl
    · exact waiting?_priced ..
    · rfl
  | simulating tx call =>
    simp only [answered]
    split
    · exact waiting?_priced ..
    · rfl
  | pricing tx energy => rfl
  | referring tx feeLimit =>
    cases answer with
    | error e => rfl
    | ok block =>
      simp only [answered]
      split <;> rfl
  | signing tx feeLimit unsigned => cases answer <;> rfl
  | sending p =>
    cases answer with
    | error e => rfl
    | ok verdict => exact m.waiting?_judge now p verdict
  | failing tx reason => rfl

theorem unbegun_of_pollerLeaves {x : Poller} {stores : Address → Store}
    (hm : m.PollerLeaves m' x stores) (hx : x.requeued? = none) (h : tx ∈ m'.unbegun) :
    tx ∈ m.unbegun := by
  obtain ⟨⟨accounts, metrics, events, rfl⟩, -⟩ := hm
  simp only [unbegun, hx, Option.toList_none, List.append_nil] at h
  exact List.mem_append_left _ h

theorem unbegun_usePlace {tx' : Tx} (hp : m.poller.requeued? = some tx') (rest : List Awaiting)
    (pass : Pass) (h : tx ∈ (m.usePlace tx' rest pass).unbegun) : tx ∈ m.unbegun := by
  have hx : (m.usePlace tx' rest pass).poller.requeued? = none :=
    Poller.requeued?_afterAwaiting pass rest
  rw [unbegun, hx] at h
  simp only [unbegun, hp, usePlace, afterAwaiting, Option.toList_none, List.append_nil,
    Option.toList_some, List.mem_append, List.mem_singleton] at h ⊢
  tauto

theorem unbegun_answered {now : Nat} {a : Attempt} {answer : a.Answer}
    (h : tx ∈ (m.answered now a answer).unbegun) :
    tx ∈ m.queue ++ m.poller.requeued?.toList := by
  have hsender := m.waiting?_answered now a answer
  have hsame : (m.answered now a answer).queue = m.queue ∧
      (m.answered now a answer).poller = m.poller := by
    obtain ⟨x, stores, ⟨⟨_, _, _, _, hm⟩, -⟩⟩ := m.answered_leaves now a answer
    rw [hm]
    exact ⟨rfl, rfl⟩
  rw [unbegun, hsender, hsame.1, hsame.2] at h
  simpa using h

end Manager

open Manager in
/-- Copies whose attempt has not begun come from such copies, or are made of a failure. -/
theorem PartStep.unbegun {m m' : Manager} {now : Nat} {act : Act} (hs : PartStep m now act m')
    (h : tx ∈ m'.unbegun) : tx ∈ m.unbegun ∨
      ∃ old kind, m.poller.failed? = some old ∧ tx = old.nextAttempt kind := by
  cases hs with
  | take hm =>
    obtain ⟨tx', rest, metrics, hsender, hqueue, rfl⟩ := take?_eq_some hm
    refine .inl ?_
    simp only [Manager.unbegun, m.poller.requeued?_grant, Sender.waiting?, hsender, hqueue,
      Option.toList_some, Option.toList_none, List.mem_append, List.mem_cons, List.not_mem_nil,
      or_false] at h ⊢
    tauto
  | @answered a ha answer =>
    have hmem := unbegun_answered h
    simp only [Manager.unbegun, List.mem_append] at hmem ⊢
    tauto
  | @wake p due ha hdue =>
    have hsender : (m.wake p).sender.waiting? = none := rfl
    simp only [Manager.unbegun, hsender, ha] at h ⊢
    exact .inl h
  | beginPass hp hall => exact .inl (unbegun_of_pollerLeaves (m.pollerLeaves_same _) rfl h)
  | survey hp hall =>
    exact .inl (unbegun_of_pollerLeaves (m.pollerLeaves_same _)
      (Poller.requeued?_afterSettling _ _) h)
  | collect hp hall =>
    exact .inl (unbegun_of_pollerLeaves (m.pollerLeaves_same _)
      (Poller.requeued?_afterAwaiting _ _) h)
  | endPass hp =>
    have hm : m.PollerLeaves m.endPass .resting m.store := ⟨⟨_, _, _, rfl⟩, rfl⟩
    exact .inl (unbegun_of_pollerLeaves hm rfl h)
  | @informed q hp answer =>
    obtain ⟨x, stores, hm, hx⟩ := m.heard_informed now q answer
    refine .inl (unbegun_of_pollerLeaves hm ?_ h)
    cases hx with
    | finalized | displaced | stillSettling => exact Poller.requeued?_afterSettling _ _
    | confirmed | stillAwaiting => exact Poller.requeued?_afterAwaiting _ _
    | unsettled | undated | failed => rfl
  | @afterFailure old reason next rest pass hp =>
    rcases m.afterFailure_cases now old reason next rest pass with
      hm | ⟨kind, ⟨s, -, hm⟩ | ⟨e, -, hm⟩⟩
    · exact .inl (unbegun_of_pollerLeaves hm (Poller.requeued?_afterAwaiting _ _) h)
    · obtain ⟨⟨accounts, metrics, events, hm⟩, -⟩ := hm
      rw [hm] at h
      simp only [Manager.unbegun, Poller.requeued?, Option.toList_some, List.mem_append,
        List.mem_singleton] at h ⊢
      rcases h with h | rfl
      · exact .inl (.inl h)
      · exact .inr ⟨old, kind, by rw [hp]; rfl, rfl⟩
    · exact .inl (unbegun_of_pollerLeaves hm (Poller.requeued?_afterAwaiting _ _) h)
  | @requeue tx' rest pass hp =>
    refine .inl ?_
    rcases m.requeue_cases tx' rest pass with hm | ⟨x, hx, hm⟩
    · rw [hm] at h
      exact unbegun_usePlace (by rw [hp]; rfl) rest pass h
    · rw [hm] at h
      rcases hx with rfl | rfl
      · exact unbegun_of_pollerLeaves (m.pollerLeaves_same _) rfl h
      · simpa only [Manager.unbegun, Poller.requeued?, hp] using h
  | usePlace hp => exact .inl (unbegun_usePlace (by rw [hp]; rfl) _ _ h)
  | @withoutPlace tx rest pass hp =>
    have hm := (m.leaves_fail now pass.account tx.id "broadcast queue closed").withPoller
      (.afterAwaiting pass rest)
    exact .inl (unbegun_of_pollerLeaves hm (Poller.requeued?_afterAwaiting _ _) h)
  | beginSweep hr hall => exact .inl h
  | sweep hr => exact .inl h
  | endSweep hr => exact .inl h

theorem Manager.Custody.sender_eq_account {m : Manager} {c : List Tx} (h : m.Custody c)
    (htx : m.poller.tx? = some tx) {pass : Pass} (hpass : m.poller.pass? = some pass) :
    tx.sender = pass.account := by
  have hrows : ∃ rows, m.poller.awaiting = some (pass.account, rows) := by
    cases hp : m.poller with
    | failed | requeuing | blocked | granted | refused =>
      rw [hp] at hpass
      cases hpass
      exact ⟨_, rfl⟩
    | _ =>
      rw [hp] at htx
      cases htx
  obtain ⟨rows, hrows⟩ := hrows
  exact h.account htx hrows

namespace System

open Manager

variable {s₀ s s' : System} {act : Act} {acts earlier later : List Act} {n : Nat}

theorem mem_copies_of_unbegun (h : tx ∈ s.unbegun) : tx ∈ s.copies := by
  rcases List.mem_append.mp h with h | h
  · exact List.mem_append_left _ h
  refine List.mem_append_right _ ?_
  rcases List.mem_append.mp h with h | h
  · rcases List.mem_append.mp h with h | h
    · simp [Manager.copies, h]
    · simp [Manager.copies, Sender.tx?_of_waiting? (Option.mem_toList.mp h)]
  · simp [Manager.copies, Poller.tx?_of_requeued? (Option.mem_toList.mp h)]

theorem Guarded.counters (hg : s.Guarded) (h : tx ∈ s.copies) :
    ∃ e, (s.manager.store tx.sender).entries.get? tx.id = some e ∧ tx.SameCounters e.tx := by
  obtain ⟨e, he, hcount, -⟩ := hg.current h
  exact ⟨e, he, hcount⟩

theorem mem_unbegun_of_calls {before after : List Call} {c : Call} (h : tx ∈ s'.unbegun)
    (hc : s.calls = before ++ c :: after)
    (hcalls : s'.calls.filterMap Call.tx? = (before ++ after).filterMap Call.tx?)
    (hm : tx ∈ s'.manager.unbegun → tx ∈ s.manager.unbegun) : tx ∈ s.unbegun := by
  rw [unbegun, hcalls] at h
  rw [unbegun, hc, filterMap_calls]
  simp only [List.filterMap_append, List.mem_append] at h ⊢
  tauto

theorem unbegun_proceed {before after : List Call} {q : Submission}
    (hc : s.calls = before ++ .entering q :: after) (answer : q.Answer) (fresh : String)
    (h : tx ∈ unbegun { s with
      manager := (s.manager.proceed fresh q answer).1
      calls := before ++ (s.manager.proceed fresh q answer).2.calls ++ after }) :
    tx ∈ s.unbegun ∨ Act.proceed q answer fresh = .proceed (.admitting tx) () fresh ∧
      ¬ s.manager.Tracks tx.sender tx.id := by
  rcases s.manager.proceed_cases fresh q answer with
    ⟨tx', t, rfl, ht, hp, ⟨accounts, metrics, events, hm⟩, -⟩ | ⟨tx', rfl, hm⟩ |
    ⟨-, ⟨⟨accounts, promised, x, hm, hx⟩, -⟩, hnone⟩
  · rw [unbegun, hm, hp] at h
    rw [unbegun, hc]
    simp only [List.filterMap_append, Progress.calls, List.filterMap_cons, List.filterMap_nil,
      Call.tx?, Submission.tx?, List.mem_append, List.mem_singleton] at h ⊢
    rcases h with ((h | rfl) | h) | h
    · exact .inl (.inl (.inl h))
    · refine .inr ⟨rfl, ?_⟩
      rintro ⟨e, he⟩
      rw [(Store.addPending_eq_ok_iff.mp ht).1] at he
      cases he
    · exact .inl (.inl (.inr h))
    · exact .inl (.inr h)
  · rw [hm] at h
    rw [unbegun, hc]
    simp only [unbegun, Manager.unbegun, deliver, count, List.filterMap_append, Progress.calls,
      List.filterMap_cons, List.append_nil, Call.tx?, Submission.tx?, List.mem_append,
      List.mem_cons, List.not_mem_nil, or_false] at h ⊢
    tauto
  · have hcalls : (s.manager.proceed fresh q answer).2.calls.filterMap Call.tx? = [] := by
      cases hp : (s.manager.proceed fresh q answer).2 with
      | waiting q' => simp [Progress.calls, Call.tx?, hnone q' hp]
      | accepted id => rfl
      | rejected e => rfl
    have hsame : x.requeued? = s.manager.poller.requeued? := by
      rcases hx with rfl | rfl
      · rfl
      · exact Poller.requeued?_grant _
    refine .inl (mem_unbegun_of_calls h hc (by simp [hcalls]) fun h => ?_)
    rw [hm] at h
    simpa only [Manager.unbegun, hsame] using h

theorem unbegun_spawn {m : Manager} {w : Worker} (h : tx ∈ (m.spawn w).unbegun) :
    tx ∈ m.unbegun := by
  cases w with
  | sender =>
    have h : tx ∈ m.queue ++ [] ++ m.poller.requeued?.toList := h
    simp only [Manager.unbegun, List.append_nil, List.mem_append] at h ⊢
    tauto
  | poller =>
    have h : tx ∈ m.queue ++ m.sender.waiting?.toList ++ [] := h
    rw [List.append_nil] at h
    exact List.mem_append_left _ h
  | reaper => exact h

theorem unbegun_halt {m : Manager} {w : Worker} (h : tx ∈ (m.halt w).unbegun) :
    tx ∈ m.unbegun := by
  cases w with
  | sender =>
    have hx : tx ∈ m.poller.refuse.requeued?.toList := h
    have := Poller.requeued?_refuse _ (Option.mem_toList.mp hx)
    simp [Manager.unbegun, this]
  | poller =>
    have h : tx ∈ m.queue ++ m.sender.waiting?.toList ++ [] := h
    rw [List.append_nil] at h
    exact List.mem_append_left _ h
  | reaper => exact h

/-- Where a copy whose attempt has not begun comes from. -/
theorem Step.unbegun (hs : Step s act s') (h : tx ∈ s'.unbegun) :
    tx ∈ s.unbegun ∨
      (∃ old kind, s.manager.poller.failed? = some old ∧ tx = old.nextAttempt kind) ∨
      ∃ fresh, act = .proceed (.admitting tx) () fresh ∧
        ¬ s.manager.Tracks tx.sender tx.id := by
  rcases hs.submission_cases with
    ⟨before, after, q, answer, fresh, rfl, hc, rfl⟩ | ⟨r, -, rfl⟩ | ⟨hsame, -, hm⟩
  · rcases unbegun_proceed hc answer fresh h with h | h
    · exact .inl h
    · exact .inr (.inr ⟨fresh, h⟩)
  · rw [System.unbegun, filterMap_rest rfl, List.append_nil] at h
    exact .inl h
  · rw [System.unbegun, filterMap_submissions, hsame, ← filterMap_submissions] at h
    rcases List.mem_append.mp h with h | h
    · exact .inl (List.mem_append_left _ h)
    · rcases hm with hm | ⟨w, hm⟩ | ⟨w, hm⟩ | ⟨_, _, _, _, hm⟩
      · rcases hm.unbegun h with h | h
        · exact .inl (List.mem_append_right _ h)
        · exact .inr (.inl h)
      · exact .inl (List.mem_append_right _ (unbegun_spawn (hm ▸ h)))
      · exact .inl (List.mem_append_right _ (unbegun_halt (hm ▸ h)))
      · rw [hm] at h
        exact .inl (List.mem_append_right _ h)

theorem Step.attempt_le (hg : s.Guarded) (hs : Step s act s') {e e' : Entry}
    (he : (s.manager.store a).entries.get? id = some e)
    (he' : (s'.manager.store a).entries.get? id = some e') : e.tx.attempt ≤ e'.tx.attempt := by
  obtain ⟨dropped, hc, -⟩ := hg.custody
  rcases hs.get?_cases he' with hsame | ⟨op, ht, hturn⟩
  · rw [he, Option.some.injEq] at hsame
    exact Nat.le_of_eq (hsame ▸ rfl)
  · rw [he] at hturn
    cases hturn with
    | markConfirmed | markReorganized | markFinalized | markErrored | markFatal =>
      exact Nat.le_refl _
    | markBroadcasted hash expiration tx hg =>
      cases ht with
      | sent p answer =>
        have htx : s.manager.sender.tx? = some p.tx := by rw [hs.attempting]; rfl
        obtain ⟨d, hd, -, hcount, -⟩ := hc.of_sender htx
        rw [he, Option.some.injEq] at hd
        exact Nat.le_of_eq (hd ▸ hcount.1.symm)
    | recordCounters tx =>
      cases ht with
      | @repeated old hp pass hpass kind =>
        obtain ⟨d, hd, -, hcount⟩ := hc.of_poller hp
        rw [hc.sender_eq_account hp hpass] at hd
        have hd := he.symm.trans hd
        rw [Option.some.injEq] at hd
        show e.tx.attempt ≤ old.attempt + 1
        rw [hd, ← hcount.1]
        exact Nat.le_succ _

/-- That many attempts have begun. What is on record counts them, and whoever still waits for
an attempt has a higher count. -/
structure Begun (s : System) (a : Address) (id : String) (n : Nat) : Prop where
  recorded : ∀ e, (s.manager.store a).entries.get? id = some e → n ≤ e.tx.attempt
  unbegun : ∀ tx ∈ s.unbegun, tx.sender = a → tx.id = id → n < tx.attempt

theorem Begun.zero (hg : s.Guarded) (hb : s.manager.Budgeted) : s.Begun a id 0 := by
  refine ⟨fun e he => Nat.zero_le _, fun tx htx hsender hid => ?_⟩
  obtain ⟨e, he, hcount⟩ := hg.counters (mem_copies_of_unbegun htx)
  have hpos := (hb _ _ _ he).attempt_pos
  rw [hcount.1]
  exact hpos

/-- Who is about to begin an attempt has the only copy. -/
theorem not_waiting_twice (hg : s.Guarded) (h : s.manager.sender.waiting? = some tx) {tx' : Tx}
    (htx' : tx' ∈ s.calls.filterMap Call.tx? ++
      (s.manager.queue ++ s.manager.poller.requeued?.toList)) :
    ¬ (tx'.sender = tx.sender ∧ tx'.id = tx.id) := by
  rintro ⟨hsender, hid⟩
  obtain ⟨dropped, hc, -⟩ := hg.custody
  have hguards := hc.guards
  rw [Manager.copies, Sender.tx?_of_waiting? h] at hguards
  obtain ⟨-, -, -, -, hrest⟩ := (hguards.perm (perm_sender ..)).of_cons
  have hmem : tx' ∈ s.calls.filterMap Call.tx? ++ dropped ++
      (s.manager.queue ++ [] ++ s.manager.poller.tx?.toList) := by
    have hpoller : tx' ∈ s.manager.poller.requeued?.toList → tx' ∈ s.manager.poller.tx?.toList :=
      fun h => Option.mem_toList.mpr (Poller.tx?_of_requeued? (Option.mem_toList.mp h))
    simp only [List.append_nil, List.mem_append] at htx' ⊢
    tauto
  have hheld := held_pos hmem
  rw [hsender, hid, hrest] at hheld
  exact Nat.lt_irrefl 0 hheld

/-- An attempt begins: its copy waits no longer, and no other did. -/
theorem Begun.begin (h : s.Begun tx.sender tx.id n) (hg : s.Guarded)
    {answer : (Attempt.beginning tx).Answer} (hs : Step s (.answered (.beginning tx) answer) s') :
    s'.Begun tx.sender tx.id (n + 1) := by
  have hsender : s.manager.sender = .busy (.beginning tx) := hs.attempting
  have hwaiting : s.manager.sender.waiting? = some tx := by rw [hsender]; rfl
  refine ⟨fun e he => ?_, fun tx' htx' hsame hid => ?_⟩
  · have he : (s.manager.store tx.sender).entries.get? tx.id = some e := by
      rcases hs.get?_cases he with he | ⟨op, ht, -⟩
      · exact he
      · cases ht
    obtain ⟨dropped, hc, -⟩ := hg.custody
    obtain ⟨d, hd, -, hcount, -⟩ := hc.of_sender (Sender.tx?_of_waiting? hwaiting)
    rw [he, Option.some.injEq] at hd
    have hlt : n < tx.attempt := by
      refine h.unbegun tx ?_ rfl rfl
      simp [System.unbegun, Manager.unbegun, hwaiting]
    rw [hd, ← hcount.1]
    exact hlt
  · rw [hs.answered_eq] at htx'
    refine absurd ⟨hsame, hid⟩ (not_waiting_twice hg hwaiting ?_)
    rcases List.mem_append.mp htx' with htx' | htx'
    · exact List.mem_append_left _ htx'
    · exact List.mem_append_right _ (unbegun_answered htx')

theorem Begun.keep (h : s.Begun a id n) (hg : s.Guarded) (hs : Step s act s')
    (hin : s.manager.Tracks a id) : s'.Begun a id n := by
  obtain ⟨e, he⟩ := hin
  have hn := h.recorded e he
  refine ⟨fun e' he' => Nat.le_trans hn (hs.attempt_le hg he he'), fun tx htx hsender hid => ?_⟩
  rcases hs.unbegun htx with htx | ⟨old, kind, hold, rfl⟩ | ⟨fresh, -, hnew⟩
  · exact h.unbegun tx htx hsender hid
  · -- the failed attempt has the count on record, and the next one has a higher count
    obtain ⟨dropped, hc, -⟩ := hg.custody
    obtain ⟨d, hd, -, hcount⟩ := hc.of_poller (Poller.tx?_of_failed? hold)
    have hsender : old.sender = a := hsender
    have hid : old.id = id := hid
    rw [hsender, hid, he, Option.some.injEq] at hd
    show n < old.attempt + 1
    rw [hcount.1, ← hd]
    exact Nat.lt_succ_of_le hn
  · rw [hsender, hid] at hnew
    exact absurd ⟨e, he⟩ hnew

theorem Begun.next (h : s.Begun a id n) (hg : s.Guarded) (hs : Step s act s')
    (hin : s.manager.Tracks a id) :
    s'.Begun a id (n + [act].countP (Act.begins a id)) := by
  by_cases hb : act.begins a id = true
  · obtain ⟨tx, answer, rfl, rfl, rfl⟩ := Act.begins_iff.mp hb
    rw [List.countP_singleton, if_pos hb]
    exact h.begin hg hs
  · rw [List.countP_singleton, if_neg hb]
    exact h.keep hg hs hin

theorem held_eq_zero_of_closed (hg : s.Guarded)
    (hend : (s.manager.store a).isOpen id = false) : held s.copies a id = 0 := by
  have hheld := hg.held_le a id
  rw [hend] at hheld
  exact Nat.le_zero.mp hheld

/-- What is on record of a transaction, if anything, is its bad end. -/
def Ended (s : System) (a : Address) (id : String) : Prop :=
  ∀ e, (s.manager.store a).entries.get? id = some e → e.tx.stage = .fatallyErrored

theorem Ended.isOpen (h : s.Ended a id) : (s.manager.store a).isOpen id = false := by
  cases he : (s.manager.store a).entries.get? id with
  | none => exact Store.isOpen_of_none he
  | some e =>
    rw [Store.isOpen_of_entry he, h e he]
    rfl

theorem Step.ended (hs : Step s act s') (h : s.Ended a id)
    (hold : s'.manager.Tracks a id → s.manager.Tracks a id) : s'.Ended a id := by
  intro e' he'
  obtain ⟨e, he⟩ := hold ⟨e', he'⟩
  have hend := h e he
  rcases hs.get?_cases he' with hsame | ⟨op, -, hturn⟩
  · exact h e' hsame
  · rw [he] at hturn
    cases hturn with
    | markBroadcasted | markConfirmed | markReorganized | markFinalized | markErrored | markFatal =>
      simp_all [Stage.canMoveTo]
    | recordCounters tx => exact hend

theorem RunOf.ended (hr : RunOf (fun s s' => s'.manager.Tracks a id → s.manager.Tracks a id)
    s later s') (hg : s.Guarded) (h : s.Ended a id) : s'.Ended a id ∧
      ∀ attempt answer, Act.answered attempt answer ∈ later →
        ¬ (attempt.tx.sender = a ∧ attempt.tx.id = id) := by
  induction hr with
  | start => exact ⟨h, fun _ _ hmem => nomatch hmem⟩
  | @next acts act t t' hr hs hold ih =>
    obtain ⟨hended, hnone⟩ := ih
    refine ⟨hs.ended hended hold, fun attempt answer hmem hsame => ?_⟩
    rcases List.mem_append.mp hmem with hmem | hmem
    · exact hnone attempt answer hmem hsame
    · cases List.mem_singleton.mp hmem
      have hzero := held_eq_zero_of_closed (hr.run.guarded hg) hended.isOpen
      have hcopy : attempt.tx ∈ t.copies := by
        simp [copies, Manager.copies, hs.attempting, Sender.tx?]
      have hheld := held_pos hcopy
      rw [hsame.1, hsame.2, hzero] at hheld
      exact Nat.lt_irrefl 0 hheld

section Budget

variable {settings : Settings} {checks : Bool} {m : Manager} {now : Nat}

theorem Tenure.begun (hm : ofSettings settings checks = .ok m)
    (h : Tenure { manager := m, now } tx earlier later s) :
    s.Begun tx.sender tx.id (later.countP (Act.begins tx.sender tx.id)) := by
  have hg := guarded_initial hm now
  induction h with
  | @admitted acts fresh s s' hr hnew hs hin hacts =>
    have hr := hr.next hs
    exact .zero (hr.guarded hg) (hr.budgeted hm)
  | @next later act s s' h hs hin ih =>
    rw [List.countP_append]
    exact ih.next (h.run.guarded hg) hs h.tracks

/-- The attempts of a transaction that have begun, with the one that is about to begin, are
as many as its record counts, or fewer. -/
theorem Tenure.begins_le (hm : ofSettings settings checks = .ok m)
    (h : Tenure { manager := m, now } tx earlier later s) {e : Entry}
    (he : (s.manager.store tx.sender).entries.get? tx.id = some e) :
    later.countP (Act.begins tx.sender tx.id) +
      held s.manager.sender.waiting?.toList tx.sender tx.id ≤ e.tx.attempt := by
  have hbegun := h.begun hm
  cases hw : s.manager.sender.waiting? with
  | none => exact hbegun.recorded e he
  | some tx' =>
    by_cases hsame : tx'.sender = tx.sender ∧ tx'.id = tx.id
    · have hmem : tx' ∈ s.unbegun := by simp [System.unbegun, Manager.unbegun, hw]
      have hlt := hbegun.unbegun tx' hmem hsame.1 hsame.2
      obtain ⟨d, hd, hcount⟩ :=
        (h.run.guarded (guarded_initial hm now)).counters (mem_copies_of_unbegun hmem)
      rw [hsame.1, hsame.2, he, Option.some.injEq] at hd
      rw [hcount.1, ← hd] at hlt
      have hone : held [tx'] tx.sender tx.id = 1 := by simp [held, hsame]
      rw [Option.toList_some, hone]
      exact hlt
    · have hzero : held [tx'] tx.sender tx.id = 0 := by simpa [held] using hsame
      rw [Option.toList_some, hzero]
      exact hbegun.recorded e he

/-- The counters on record, and those of every copy, keep to the limits, and there are as many
hashes as attempts that were sent. No counter outgrows the 32 bits that the limit fits in. From
when a transaction is admitted, for as long as it is on record, no more attempts begin than the
limit allows. After a bad end nothing is sent under the same id until a new request brings it
in again. -/
theorem retry_budget {acts : List Act} (hm : ofSettings settings checks = .ok m)
    (hr : Run { manager := m, now } acts s) :
    (∀ a id e, (s.manager.store a).entries.get? id = some e →
      1 ≤ e.tx.attempt ∧ e.tx.attempt ≤ settings.maxAttempts ∧
      e.tx.outOfTime ≤ settings.maxOutOfTime ∧
      e.tx.energyBumps + e.tx.outOfTime ≤ e.tx.attempt - 1 ∧
      (e.tx.stage = .broadcasted ∨ e.tx.stage = .confirmed ∨ e.tx.stage = .finalized →
        e.hashes.length = e.tx.attempt) ∧
      e.hashes.length ≤ settings.maxAttempts) ∧
    (∀ tx ∈ s.copies, ∃ e, (s.manager.store tx.sender).entries.get? tx.id = some e ∧
      tx.SameCounters e.tx) ∧
    (∀ tx reason kind rest pass, s.manager.poller = .failed tx reason (some kind) rest pass →
      s.manager.ceiling? tx kind = none → settings.maxAttempts ≤ nat32Max →
      (tx.nextAttempt kind).attempt ≤ nat32Max ∧ (tx.nextAttempt kind).energyBumps ≤ nat32Max ∧
      (tx.nextAttempt kind).outOfTime ≤ nat32Max) ∧
    (∀ a id, s.manager.Tracks a id → ∃ tx earlier later, tx.sender = a ∧ tx.id = id ∧
      acts = earlier ++ later ∧ Tenure { manager := m, now } tx earlier later s) ∧
    (∀ tx earlier later, Tenure { manager := m, now } tx earlier later s →
      later.countP (Act.begins tx.sender tx.id) +
        held s.manager.sender.waiting?.toList tx.sender tx.id ≤ settings.maxAttempts) ∧
    ∀ a id later s', (s.manager.store a).stage? id = some .fatallyErrored →
      RunOf (fun s s' => s'.manager.Tracks a id → s.manager.Tracks a id) s later s' →
      held s'.copies a id = 0 ∧ ∀ attempt answer, Act.answered attempt answer ∈ later →
        ¬ (attempt.tx.sender = a ∧ attempt.tx.id = id) := by
  have hg := hr.guarded (guarded_initial hm now)
  have hsettings : s.manager.settings = settings := by
    rw [hr.settings, (ofSettings_eq_ok hm).2]
  have hb := hr.budgeted hm
  rw [Manager.Budgeted, hsettings] at hb
  refine ⟨fun a id e he => ?_, fun tx htx => hg.counters htx,
    fun tx reason kind rest pass hp hceiling hwidth => ?_, fun a id hin => ?_,
    fun tx earlier later ht => ?_, fun a id later s' hstage hlater => ?_⟩
  · have he := hb a id e he
    have hretries := he.retries_lt
    exact ⟨he.attempt_pos, he.attempt_le, he.outOfTime_le, by omega, he.sent,
      Nat.le_trans he.hashes_le he.attempt_le⟩
  · obtain ⟨dropped, hc, -⟩ := hg.custody
    obtain ⟨e, he, -, hattempt, hbumps, htime⟩ :=
      hc.of_poller (show s.manager.poller.tx? = some tx by rw [hp]; rfl)
    have hretries := (hb _ _ e he).retries_lt
    have hlimit := (Manager.ceiling?_eq_none_iff.mp hceiling).1
    rw [hsettings] at hlimit
    cases kind <;> simp [Tx.nextAttempt] <;> omega
  · refine hr.tenure ?_ hin
    rintro ⟨e, he⟩
    rw [store_initial hm] at he
    cases he
  · obtain ⟨e, he⟩ := ht.tracks
    exact Nat.le_trans (ht.begins_le hm he) (hb _ _ e he).attempt_le
  · have hended : s.Ended a id := fun e he => by
      have hsame := Store.stage?_of_entry he
      rw [hstage, Option.some.injEq] at hsame
      exact hsame.symm
    obtain ⟨hend, hnone⟩ := hlater.ended hg hended
    exact ⟨held_eq_zero_of_closed (hlater.run.guarded hg) hend.isOpen, hnone⟩

end Budget

section Sample

/-- The sample when its first attempt has failed. -/
def failedSample : Tx :=
  { Tx.ofRequest "t" sampleRequest with stage := .errored }

/-- The sample for its second attempt, after the first one ran out of energy. -/
def repeatedSample : Tx :=
  failedSample.nextAttempt .moreEnergy

theorem run_failedSample : ∃ m acts s hash expiration later, ofSettings {} false = .ok m ∧
    Run { manager := m, now := 0 } acts s ∧
    s.manager.poller = .failed failedSample Outcome.outOfEnergyCode (some .moreEnergy) []
      { account := sampleRequest.sender, later } ∧
    (∀ b ∈ later, b ≠ sampleRequest.sender) ∧ s.manager.sender = .idle ∧ s.manager.queue = [] ∧
    s.HasSample [.markBroadcasted hash expiration (.ofRequest "t" sampleRequest),
      .markErrored "t"] := by
  obtain ⟨m, acts, s, hash, expiration, later, hm, h, hasking, hlater, hidle, hqueue, hs⟩ :=
    run_oneAsking
  have ht : ∃ t, (s.manager.store sampleRequest.sender).markErrored "t" = .ok (t, failedSample) ∧
      Function.update s.manager.store sampleRequest.sender t = oneSample
        [.markBroadcasted hash expiration (.ofRequest "t" sampleRequest), .markErrored "t"] := by
    rw [hs.store]
    exact ⟨_, rfl, Function.update_idem ..⟩
  obtain ⟨t, ht, hfailed⟩ := ht
  have houtcome : Outcome.ofReceipt s.manager.settings.resultCodes
      { id := hash, block := 7, code := some "OUT_OF_ENERGY" } = .outOfEnergy := by
    rw [hs.settings]
    rfl
  obtain ⟨accounts, metrics, events, haccounts, h₁⟩ := h.outOfEnergy hasking houtcome ht
  exact ⟨m, _, _, hash, expiration, later, hm, h₁, rfl, hlater, hidle, hqueue,
    { hs with store := haccounts.trans hfailed }⟩

/-- The sample waits for its second attempt, and the pass is over. -/
theorem run_requeuedSample : ∃ m acts s hash expiration, ofSettings {} false = .ok m ∧
    Run { manager := m, now := 0 } acts s ∧ s.manager.poller = .resting ∧
    s.manager.sender = .idle ∧ s.manager.queue = [repeatedSample] ∧
    s.HasSample [.markBroadcasted hash expiration (.ofRequest "t" sampleRequest),
      .markErrored "t", .recordCounters repeatedSample] := by
  obtain ⟨m, acts, s, hash, expiration, later, hm, h, hfailed, hlater, hidle, hqueue, hs⟩ :=
    run_failedSample
  have hceiling : s.manager.ceiling? failedSample .moreEnergy = none := by
    rw [ceiling?_eq_none_iff, hs.settings]
    decide
  have hroom : s.manager.hasRoom = true := by
    rw [hasRoom, queueLength, hqueue, hs.promised, hfailed, hs.settings]
    rfl
  have ht : ∃ t, (s.manager.store sampleRequest.sender).recordCounters repeatedSample = .ok t ∧
      Function.update s.manager.store sampleRequest.sender t = oneSample
        [.markBroadcasted hash expiration (.ofRequest "t" sampleRequest), .markErrored "t",
          .recordCounters repeatedSample] := by
    rw [hs.store]
    exact ⟨_, rfl, Function.update_idem ..⟩
  obtain ⟨t, ht, hrepeated⟩ := ht
  obtain ⟨accounts, metrics, events, haccounts, h₁⟩ :=
    h.tryAgain hfailed hceiling ht hs.isOpen hroom
  rw [hrepeated] at haccounts
  have hothers (b : Address) (hb : b ∈ later) : accounts.store b = .empty := by
    rw [haccounts]
    exact Function.update_of_ne (hlater b hb) ..
  obtain ⟨acts, h₂⟩ := h₁.skip rfl hothers
  have hwaiting : s.manager.queue ++ [repeatedSample] = [repeatedSample] := by
    rw [hqueue]
    rfl
  exact ⟨m, _, _, hash, expiration, hm, h₂.next (.part (.endPass rfl)), rfl, hidle, hwaiting,
    { hs with store := haccounts }⟩

/-- The second attempt has no energy estimate, and the sample is ended. -/
theorem run_repeatedSample : ∃ m acts s hash expiration, ofSettings {} false = .ok m ∧
    Run { manager := m, now := 0 } acts s ∧ s.manager.poller = .resting ∧
    s.manager.store = oneSample [.markBroadcasted hash expiration (.ofRequest "t" sampleRequest),
      .markErrored "t", .recordCounters repeatedSample, .markFatal "t" 0] := by
  obtain ⟨m, acts, s, hash, expiration, hm, h, hrest, hidle, hqueue, hs⟩ := run_requeuedSample
  obtain ⟨call, hcall⟩ : ∃ call, Fee.simulated repeatedSample = .ok call := ⟨_, rfl⟩
  have hestimates : s.manager.estimator.estimates = true := by
    rw [hs.estimator]
    rfl
  obtain ⟨accounts, metrics, haccounts, h₁⟩ := h.estimating hidle hqueue hcall hestimates
  have hfail (m : Manager) (now : Nat) : ∃ reason,
      m.answered now (.estimating repeatedSample call) (.error (.http "estimate" 503)) =
        m.abandon repeatedSample reason :=
    ⟨_, rfl⟩
  obtain ⟨reason, hfail⟩ := hfail _ _
  have h₂ := h₁.answered rfl hfail
  have hend : ∃ t, (accounts.store sampleRequest.sender).markFatal "t" s.now = .ok t ∧
      Function.update accounts.store sampleRequest.sender t = oneSample
        [.markBroadcasted hash expiration (.ofRequest "t" sampleRequest), .markErrored "t",
          .recordCounters repeatedSample, .markFatal "t" 0] := by
    rw [haccounts, hs.store, hs.now]
    exact ⟨_, rfl, Function.update_idem ..⟩
  obtain ⟨t, ht, hend⟩ := hend
  obtain ⟨accounts', metrics', events, haccounts', h₃⟩ := h₂.fail rfl ht
  have hgrant : s.manager.poller.grant = .resting := by rw [hrest]; rfl
  exact ⟨m, _, _, hash, expiration, hm, h₃, hgrant, haccounts'.trans hend⟩

/-- The sample is repeated once, within the limit of five attempts. It is ended then, and stays
so in the pass that comes next. -/
theorem retry_budget_repeatedSample :
    (∃ m acts s reason kind rest pass, ofSettings {} false = .ok m ∧
      Run { manager := m, now := 0 } acts s ∧
      s.manager.poller = .failed failedSample reason (some kind) rest pass ∧
      (failedSample.nextAttempt kind).attempt ≤ nat32Max) ∧
    ∃ m earlier begun s e later s', ofSettings {} false = .ok m ∧
      Run { manager := m, now := 0 } (earlier ++ begun) s ∧
      begun.countP (Act.begins sampleRequest.sender "t") ≤ 5 ∧
      (s.manager.store sampleRequest.sender).entries.get? "t" = some e ∧
      e.tx.stage = .fatallyErrored ∧ e.tx.attempt = 2 ∧ e.tx.energyBumps + e.tx.outOfTime ≤ 1 ∧
      later ≠ [] ∧ Run s later s' ∧ held s'.copies sampleRequest.sender "t" = 0 := by
  constructor
  · obtain ⟨m, acts, s, hash, expiration, later, hm, hr, hfailed, -, -, -, hs⟩ := run_failedSample
    obtain ⟨-, -, hwidth, -⟩ := retry_budget hm hr
    have hceiling : s.manager.ceiling? failedSample .moreEnergy = none := by
      rw [ceiling?_eq_none_iff, hs.settings]
      decide
    have hnext := hwidth _ _ _ _ _ hfailed hceiling (by decide)
    exact ⟨m, acts, s, _, _, _, _, hm, hr, hfailed, hnext.1⟩
  · obtain ⟨m, acts, s, hash, expiration, hm, hr, hrest, hstore⟩ := run_repeatedSample
    obtain ⟨hrecorded, -, -, htenure, hbegun, hended⟩ := retry_budget hm hr
    obtain ⟨e, he, hstage, hattempt⟩ : ∃ e,
        (s.manager.store sampleRequest.sender).entries.get? "t" = some e ∧
          e.tx.stage = .fatallyErrored ∧ e.tx.attempt = 2 := by
      rw [hstore]
      exact ⟨_, rfl, rfl, rfl⟩
    obtain ⟨-, -, -, hbumps, -⟩ := hrecorded _ _ e he
    obtain ⟨tx, earlier, begun, hsender, hid, rfl, ht⟩ := htenure _ _ ⟨e, he⟩
    have hcount := hbegun tx earlier begun ht
    rw [hsender, hid] at hcount
    have hlater : RunOf (fun s s' => s'.manager.Tracks sampleRequest.sender "t" →
        s.manager.Tracks sampleRequest.sender "t") s ([] ++ [.silent]) _ :=
      RunOf.start.next (.part (.beginPass hrest (List.Perm.refl _))) id
    have hfatal := (Store.stage?_of_entry he).trans (congrArg some hstage)
    obtain ⟨hnone, -⟩ := hended _ _ _ _ hfatal hlater
    exact ⟨m, earlier, begun, s, e, _, _, hm, hr, le_of_add_le_left hcount, he, hstage, hattempt,
      by omega, by simp, hlater.run, hnone⟩

end Sample

end System

end TronCourier
