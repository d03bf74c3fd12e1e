import TronCourier.Proofs.Manager.Custody
import TronCourier.Proofs.Manager.Launch

/-! What is at work after a close. The call that closes the manager tells the parts to stop that
it finds at work, and waits for those that it finds registered. A start that is under way sets
parts going that it does not find. -/

namespace TronCourier

def Call.isStarting : Call → Bool
  | .takingOutlet | .spawning _ => true
  | .entering _ | .telling | .gathering | .joining _ => false

namespace Manager

variable {m m' : Manager} {now : Nat} {act : Act}

theorem isActive_grant (h : m'.poller = m.poller.grant) :
    m'.isActive .poller = m.isActive .poller := by
  simp only [isActive, h]
  cases m.poller <;> rfl

theorem isActive_refuse (h : m'.poller = m.poller.refuse) :
    m'.isActive .poller = m.isActive .poller := by
  simp only [isActive, h]
  cases m.poller <;> rfl

theorem isActive_afterSettling {pass : Pass} {rest : List Settling}
    (h : m.poller = .afterSettling pass rest) : m.isActive .poller = true := by
  simp only [isActive, h]
  cases rest <;> rfl

theorem isActive_afterAwaiting {pass : Pass} {rest : List Awaiting}
    (h : m.poller = .afterAwaiting pass rest) : m.isActive .poller = true := by
  simp only [isActive, h]
  cases rest <;> rfl

theorem isActive_of_tx? {tx : Tx} (h : m.sender.tx? = some tx) : m.isActive .sender = true := by
  unfold isActive
  cases hs : m.sender with
  | busy a => rfl
  | asleep p due => rfl
  | absent | idle | stopped => simp [hs, Sender.tx?] at h

theorem isActive_answered (a : Attempt) (answer : a.Answer) :
    (m.answered now a answer).isActive .sender = true := by
  rcases m.answered_cases now a answer with
    ⟨x, ⟨⟨_, _, _, _, hm⟩, -⟩, hx⟩ | ⟨p, s, -, -, ⟨_, _, _, _, hm⟩, -⟩ |
    ⟨tx, reason, -, ⟨_, _, _, _, hm⟩, -⟩
  · rw [hm]
    exact isActive_of_tx? hx
  · rw [hm]
    rfl
  · rw [hm]
    rfl

theorem isActive_informed (q : Inquiry) (answer : q.Answer) :
    (m.informed now q answer).isActive .poller = true := by
  obtain ⟨x, stores, ⟨⟨_, _, _, hm⟩, -⟩, hx⟩ := m.heard_informed now q answer
  rw [hm]
  cases hx with
  | finalized | displaced | stillSettling => exact isActive_afterSettling rfl
  | confirmed | stillAwaiting => exact isActive_afterAwaiting rfl
  | unsettled | undated | failed => rfl

theorem isActive_afterFailure (tx : Tx) (reason : String) (next : Option RetryKind)
    (rest : List Awaiting) (pass : Pass) :
    (m.afterFailure now tx reason next rest pass).isActive .poller = true := by
  rcases m.afterFailure_cases now tx reason next rest pass with
    ⟨⟨_, _, _, hm⟩, -⟩ | ⟨kind, ⟨s, -, ⟨_, _, _, hm⟩, -⟩ | ⟨e, -, ⟨_, _, _, hm⟩, -⟩⟩
  · rw [hm]
    exact isActive_afterAwaiting rfl
  · rw [hm]
    rfl
  · rw [hm]
    exact isActive_afterAwaiting rfl

theorem isActive_requeue (tx : Tx) (rest : List Awaiting) (pass : Pass) :
    (m.requeue tx rest pass).isActive .poller = true := by
  rcases m.requeue_cases tx rest pass with hm | ⟨x, rfl | rfl, hm⟩
  · rw [hm]
    exact isActive_afterAwaiting rfl
  · rw [hm]
    rfl
  · rw [hm]
    rfl

theorem isActive_proceed (fresh : String) (q : Submission) (answer : q.Answer) (w : Worker) :
    (m.proceed fresh q answer).1.isActive w = m.isActive w := by
  rcases m.proceed_cases fresh q answer with
    ⟨tx, s, -, -, -, ⟨_, _, _, hm⟩, -⟩ | ⟨tx, -, hm⟩ | ⟨-, ⟨⟨_, _, x, hm, hx⟩, -⟩, -⟩
  · rw [hm]
    cases w <;> rfl
  · rw [hm]
    cases w <;> rfl
  · rw [hm]
    cases w with
    | sender => rfl
    | reaper => rfl
    | poller =>
      rcases hx with rfl | hx
      · rfl
      · exact isActive_grant hx

theorem isActive_spawn (m : Manager) (v w : Worker) :
    (m.spawn v).isActive w = (decide (w = v) || m.isActive w) := by
  cases v <;> cases w <;> rfl

theorem isActive_halt (m : Manager) (v w : Worker) :
    (m.halt v).isActive w = (!decide (w = v) && m.isActive w) := by
  cases v <;> cases w <;> first | rfl | exact isActive_refuse rfl

theorem isActive_foldl_spawn (m : Manager) (parts : List Worker) (w : Worker) :
    (parts.foldl spawn m).isActive w = (decide (w ∈ parts) || m.isActive w) := by
  induction parts generalizing m with
  | nil => rfl
  | cons v parts ih =>
    rw [List.foldl_cons, ih, isActive_spawn]
    by_cases hwv : w = v
    · simp [hwv]
    · simp [hwv]

theorem halting_foldl_spawn (m : Manager) (parts : List Worker) :
    (parts.foldl spawn m).halting = m.halting := by
  induction parts generalizing m with
  | nil => rfl
  | cons v parts ih =>
    rw [List.foldl_cons, ih]
    cases v <;> rfl

theorem isActive_of_isAbsent {w : Worker} (h : m.isAbsent w) : m.isActive w = false := by
  cases w <;> simp only [isAbsent] at h <;> simp only [isActive, h]

theorem close_eq (hopen : m.lifecycle ≠ .closed) (hworkers : m.workers = []) :
    m.close = { { m with lifecycle := .closed }.tellToStop with workers := [] } := by
  rw [close, if_neg hopen]
  show { m.workers.foldl halt _ with workers := [] } = _
  rw [hworkers]
  rfl

end Manager

open Manager

/-- A part at work stays at work in its own steps, and no other part is set going. -/
theorem PartStep.isActive_eq {m m' : Manager} {now : Nat} {act : Act}
    (hs : PartStep m now act m') (w : Worker) : m'.isActive w = m.isActive w := by
  have hpoller (hm : m.PollerMoves m') (h : m.isActive .poller = true)
      (h' : m'.isActive .poller = true) : m'.isActive w = m.isActive w := by
    obtain ⟨_, _, _, _, x, rfl⟩ := hm
    cases w with
    | sender => rfl
    | poller => rw [h, h']
    | reaper => rfl
  cases hs with
  | take hm =>
    obtain ⟨tx, rest, metrics, hsender, -, rfl⟩ := take?_eq_some hm
    cases w with
    | sender => simp only [isActive, hsender]
    | poller => exact isActive_grant rfl
    | reaper => rfl
  | @answered a ha answer =>
    have hactive : (m.answered now a answer).isActive .sender = true := isActive_answered a answer
    obtain ⟨x, stores, ⟨_, _, _, _, hm⟩, -⟩ := m.answered_leaves now a answer
    rw [hm] at hactive ⊢
    cases w with
    | sender =>
      rw [hactive]
      simp only [isActive, ha]
    | poller => rfl
    | reaper => rfl
  | wake ha =>
    cases w with
    | sender =>
      simp only [isActive, ha]
      rfl
    | poller => rfl
    | reaper => rfl
  | beginPass hp | endPass hp =>
    exact hpoller ⟨_, _, _, _, _, rfl⟩ (by simp only [isActive, hp]) rfl
  | survey hp =>
    exact hpoller ⟨_, _, _, _, _, rfl⟩ (by simp only [isActive, hp]) (isActive_afterSettling rfl)
  | collect hp =>
    exact hpoller ⟨_, _, _, _, _, rfl⟩ (by simp only [isActive, hp]) (isActive_afterAwaiting rfl)
  | @informed q hp answer =>
    obtain ⟨x, stores, hm, -⟩ := m.heard_informed now q answer
    exact hpoller hm.moves (by simp only [isActive, hp]) (isActive_informed q answer)
  | @afterFailure tx reason next rest pass hp =>
    have hm : m.PollerMoves (m.afterFailure now tx reason next rest pass) := by
      rcases m.afterFailure_cases now tx reason next rest pass with
        hm | ⟨kind, ⟨s, -, hm⟩ | ⟨e, -, hm⟩⟩
      · exact hm.moves
      · exact hm.moves
      · exact hm.moves
    exact hpoller hm (by simp only [isActive, hp]) (isActive_afterFailure tx reason next rest pass)
  | @requeue tx rest pass hp =>
    have hm : m.PollerMoves (m.requeue tx rest pass) := by
      rcases m.requeue_cases tx rest pass with hm | ⟨x, -, hm⟩
      · rw [hm]
        exact m.pollerMoves_usePlace tx rest pass
      · exact ⟨_, _, _, _, _, hm⟩
    exact hpoller hm (by simp only [isActive, hp]) (isActive_requeue tx rest pass)
  | @usePlace tx rest pass hp =>
    exact hpoller (m.pollerMoves_usePlace tx rest pass) (by simp only [isActive, hp])
      (isActive_afterAwaiting rfl)
  | @withoutPlace tx rest pass hp =>
    have hfail := m.leaves_fail now pass.account tx.id "broadcast queue closed"
    exact hpoller (hfail.withPoller _).moves (by simp only [isActive, hp])
      (isActive_afterAwaiting rfl)
  | beginSweep hr | sweep hr | endSweep hr =>
    cases w with
    | sender => rfl
    | poller => rfl
    | reaper =>
      simp only [isActive, hr]
      rfl

namespace Manager

/-- A manager in which the same parts are at work, under the same orders. -/
structure Stands (m m' : Manager) : Prop where
  lifecycle : m'.lifecycle = m.lifecycle
  outletFree : m'.outletFree = m.outletFree
  workers : m'.workers = m.workers
  halting : m'.halting = m.halting
  active : ∀ w, m'.isActive w = m.isActive w

theorem mem_allWorkers (w : Worker) : w ∈ allWorkers := by
  cases w <;> decide

theorem stands_proceed (m : Manager) (fresh : String) (q : Submission) (answer : q.Answer) :
    m.Stands (m.proceed fresh q answer).1 := by
  have hw := m.works_proceed fresh q answer
  have hworkers : (m.proceed fresh q answer).1.workers = m.workers := by
    rcases m.proceed_cases fresh q answer with
      ⟨tx, s, -, -, -, ⟨_, _, _, hm⟩, -⟩ | ⟨tx, -, hm⟩ | ⟨-, ⟨⟨_, _, _, hm, -⟩, -⟩, -⟩
    · rw [hm]
    · rw [hm]
      rfl
    · rw [hm]
  exact ⟨hw.lifecycle, hw.outletFree, hworkers, hw.halting, isActive_proceed fresh q answer⟩

end Manager

theorem PartStep.stands {m m' : Manager} {now : Nat} {act : Act}
    (hs : PartStep m now act m') : m.Stands m' := by
  have hw := hs.works
  have hworkers : m'.workers = m.workers := by
    rcases hs.owner_cases with
      hm | ⟨a, answer, -, -, rfl⟩ | ⟨p, due, -, -, -, rfl⟩ | ⟨-, _, _, _, _, _, rfl⟩ |
      ⟨-, _, _, _, rfl⟩
    · obtain ⟨tx, rest, metrics, -, -, rfl⟩ := take?_eq_some hm
      rfl
    · obtain ⟨x, stores, ⟨_, _, _, _, hm⟩, -⟩ := m.answered_leaves now a answer
      rw [hm]
    · rfl
    · rfl
    · rfl
  exact ⟨hw.lifecycle, hw.outletFree, hworkers, hw.halting, hs.isActive_eq⟩

/-- How far the one start is that a manager may have while it is not closed. -/
inductive Opening : List Call → Manager → Prop
  | idle {m : Manager} (h : m.lifecycle = .idle) (hfree : m.outletFree = true)
      (hworkers : m.workers = []) (hactive : ∀ w, m.isActive w = false) : Opening [] m
  | taking {m : Manager} (h : m.lifecycle = .running) (hfree : m.outletFree = true)
      (hworkers : m.workers = []) : Opening [.takingOutlet] m
  | spawning {m : Manager} {parts : List Worker} (h : m.lifecycle = .running)
      (hworkers : m.workers = []) (hactive : ∀ w, w ∉ parts → m.isActive w = true) :
      Opening [.spawning parts] m
  | running {m : Manager} (h : m.lifecycle = .running)
      (hactive : ∀ w, m.isActive w = true ∧ w ∈ m.workers) : Opening [] m

theorem Opening.of_stands {m m' : Manager} {calls : List Call} (h : Opening calls m)
    (hm : m.Stands m') : Opening calls m' := by
  cases h with
  | idle h hfree hworkers hactive =>
    exact .idle (hm.lifecycle.trans h) (hm.outletFree.trans hfree) (hm.workers.trans hworkers)
      fun w => (hm.active w).trans (hactive w)
  | taking h hfree hworkers =>
    exact .taking (hm.lifecycle.trans h) (hm.outletFree.trans hfree) (hm.workers.trans hworkers)
  | spawning h hworkers hactive =>
    exact .spawning (hm.lifecycle.trans h) (hm.workers.trans hworkers)
      fun w hw => (hm.active w).trans (hactive w hw)
  | running h hactive =>
    exact .running (hm.lifecycle.trans h)
      fun w => ⟨(hm.active w).trans (hactive w).1, hm.workers ▸ (hactive w).2⟩

theorem Opening.sole {m : Manager} {before after : List Call} {c : Call}
    (h : Opening (before ++ c :: after) m) : before = [] ∧ after = [] := by
  generalize hcalls : before ++ c :: after = calls at h
  cases h with
  | idle | running => simp at hcalls
  | taking | spawning =>
    have hlength := congrArg List.length hcalls
    simp only [List.length_append, List.length_cons, List.length_nil] at hlength
    exact ⟨List.eq_nil_of_length_eq_zero (by omega), List.eq_nil_of_length_eq_zero (by omega)⟩

namespace System

variable {s s' : System}

def starts (s : System) : List Call :=
  s.calls.filter Call.isStarting

theorem starts_rest {before after : List Call} {c : Call} (hc : c.isStarting = false) :
    (before ++ c :: after).filter Call.isStarting = (before ++ after).filter Call.isStarting := by
  simp [List.filter_append, hc]

theorem starts_alone {before after : List Call} {c : Call}
    (h : (before ++ after).filter Call.isStarting = []) (hc : c.isStarting = true) :
    (before ++ c :: after).filter Call.isStarting = [c] := by
  rw [List.filter_append, List.append_eq_nil_iff] at h
  rw [List.filter_append, List.filter_cons_of_pos hc, h.1, h.2, List.nil_append]

theorem starts_progress (p : Manager.Progress) : p.calls.filter Call.isStarting = [] := by
  cases p <;> rfl

theorem opening_alone {before after : List Call} {c : Call} (h : Opening s.starts s.manager)
    (hc : s.calls = before ++ c :: after) (hstart : c.isStarting = true) :
    (before ++ after).filter Call.isStarting = [] ∧ Opening [c] s.manager := by
  rw [starts, hc, List.filter_append, List.filter_cons_of_pos hstart] at h
  obtain ⟨hbefore, hafter⟩ := h.sole
  rw [hbefore, hafter] at h
  exact ⟨by rw [List.filter_append, hbefore, hafter, List.append_nil], h⟩

theorem Step.opening {act : Act} (hl : s.Launched) (h : Opening s.starts s.manager)
    (hs : Step s act s') (hopen : s'.manager.lifecycle ≠ .closed) :
    Opening s'.starts s'.manager := by
  have hnot : s.manager.lifecycle ≠ .closed := fun hclosed => hopen (hs.closed hclosed)
  cases hs with
  | part hm => exact h.of_stands hm.stands
  | pass => exact h
  | submit hq =>
    rw [starts, starts_rest rfl, List.append_nil]
    exact h
  | @proceed before after q hc answer fresh =>
    have hsame : (before ++ (s.manager.proceed fresh q answer).2.calls ++ after).filter
        Call.isStarting = s.starts := by
      rw [starts, hc, starts_rest rfl]
      simp only [List.filter_append, starts_progress, List.append_nil]
    rw [starts, hsame]
    exact h.of_stands (s.manager.stands_proceed fresh q answer)
  | begin hm =>
    obtain ⟨hidle, rfl⟩ := begin_eq_ok_iff.mp hm
    generalize hstarts : s.starts = starts at h
    cases h with
    | idle _ hfree hworkers _ =>
      have hnone : (s.calls ++ []).filter Call.isStarting = [] := by
        rw [List.append_nil]
        exact hstarts
      rw [System.starts, starts_alone hnone rfl]
      exact .taking rfl hfree hworkers
    | taking hrunning | spawning hrunning | running hrunning =>
      exact absurd (hidle.symm.trans hrunning) nofun
  | takeOutlet hc hm =>
    obtain ⟨-, rfl⟩ := takeOutlet_eq_ok_iff.mp hm
    obtain ⟨hnone, h⟩ := opening_alone h hc rfl
    rw [starts, starts_alone hnone rfl]
    cases h with
    | taking hrunning _ hworkers =>
      exact .spawning hrunning hworkers fun w hw => absurd (mem_allWorkers w) hw
  | withoutOutlet hc he =>
    obtain ⟨-, h⟩ := opening_alone h hc rfl
    cases h with
    | taking _ hfree _ =>
      rw [Manager.takeOutlet, if_pos hfree] at he
      cases he
  | @spawn _ _ v _ hc =>
    obtain ⟨hnone, h⟩ := opening_alone h hc rfl
    rw [starts, starts_alone hnone rfl]
    cases h with
    | spawning hrunning hworkers hactive =>
      have hlifecycle : (s.manager.spawn v).lifecycle = .running := by cases v <;> exact hrunning
      have hworkers : (s.manager.spawn v).workers = [] := by cases v <;> exact hworkers
      refine .spawning hlifecycle hworkers fun w hw => ?_
      rw [isActive_spawn]
      by_cases hwv : w = v
      · simp [hwv]
      · simp [hactive w (by simp [hwv, hw])]
  | register hc =>
    obtain ⟨hnone, h⟩ := opening_alone h hc rfl
    rw [starts, hnone]
    cases h with
    | spawning hrunning _ hactive =>
      refine .running hrunning fun w => ⟨?_, List.mem_append_right _ (mem_allWorkers w)⟩
      have hw : s.manager.isActive w = true := hactive w List.not_mem_nil
      cases w <;> exact hw
  | shut => exact absurd rfl hopen
  | tell hc | gather hc | join hc => exact absurd (hl.closed_of_mem (mem_calls hc) rfl) hnot
  | halt hv =>
    rw [hl.unhalted hnot] at hv
    cases hv

theorem Run.opening {s₀ : System} {acts : List Act} (hr : Run s₀ acts s) (hl : s₀.Launched)
    (h : Opening s₀.starts s₀.manager) (hopen : s.manager.lifecycle ≠ .closed) :
    s.Launched ∧ Opening s.starts s.manager := by
  have hboth := hr.induct
    (P := fun s => s.Launched ∧ (s.manager.lifecycle ≠ .closed → Opening s.starts s.manager))
    ⟨hl, fun _ => h⟩ fun ⟨hl, h⟩ hs => ⟨hs.launched hl, fun hopen =>
      hs.opening hl (h fun hclosed => hopen (hs.closed hclosed)) hopen⟩
  exact ⟨hboth.1, hboth.2 hopen⟩

theorem eq_or_mem_calls {before after : List Call} {c d e : Call}
    (hs : s.calls = before ++ d :: after) (hc : c ∈ before ++ e :: after) :
    c = e ∨ c ∈ s.calls := by
  rcases List.mem_append.mp hc with hc | hc
  · exact .inr (mem_calls_of_rest hs (List.mem_append_left _ hc))
  · rcases List.mem_cons.mp hc with rfl | hc
    · exact .inl rfl
    · exact .inr (mem_calls_of_rest hs (List.mem_append_right _ hc))

theorem mem_calls_of_progress {before after : List Call} {q : Submission} {c : Call}
    {p : Manager.Progress} (hs : s.calls = before ++ .entering q :: after)
    (hc : c ∈ before ++ p.calls ++ after) (hother : c.submission? = none) : c ∈ s.calls := by
  rcases mem_calls_or_waiting hs hc with hc | ⟨q', -, rfl⟩
  · exact hc
  · cases hother

theorem mem_calls_of_ne {before after : List Call} {c d : Call} (new : List Call)
    (hs : s.calls = before ++ d :: after) (hc : c ∈ s.calls) (hne : c ≠ d) :
    c ∈ before ++ new ++ after := by
  rw [hs] at hc
  rcases List.mem_append.mp hc with hc | hc
  · exact List.mem_append_left _ (List.mem_append_left _ hc)
  · exact List.mem_append_right _ ((List.mem_cons.mp hc).resolve_left hne)

/-- The manager is closed and no start is under way, so that nothing can be set going. -/
structure Subsiding (s : System) : Prop where
  closed : s.manager.lifecycle = .closed
  started : ∀ c ∈ s.calls, c.isStarting = false

theorem Step.subsiding {act : Act} (h : s.Subsiding) (hs : Step s act s') :
    s'.Subsiding ∧ ∀ w, s'.manager.isActive w = true → s.manager.isActive w = true := by
  have hclosed := hs.closed h.closed
  have hnot {before after : List Call} {c : Call} (hc : s.calls = before ++ c :: after)
      (hstart : c.isStarting = true) : False := by
    rw [h.started c (mem_calls hc)] at hstart
    cases hstart
  cases hs with
  | part hm => exact ⟨⟨hclosed, h.started⟩, fun w hw => hm.stands.active w ▸ hw⟩
  | pass => exact ⟨⟨hclosed, h.started⟩, fun w hw => hw⟩
  | submit =>
    refine ⟨⟨hclosed, fun c hc => ?_⟩, fun w hw => hw⟩
    rcases List.mem_append.mp hc with hc | hc
    · exact h.started c hc
    · rw [List.mem_singleton.mp hc]
      rfl
  | proceed hc answer fresh =>
    have hm := s.manager.stands_proceed fresh _ answer
    refine ⟨⟨hclosed, fun c hmem => ?_⟩, fun w hw => hm.active w ▸ hw⟩
    cases hother : c.submission? with
    | none => exact h.started c (mem_calls_of_progress hc hmem hother)
    | some q => cases c <;> cases hother; rfl
  | begin hm =>
    obtain ⟨hidle, -⟩ := begin_eq_ok_iff.mp hm
    exact absurd (hidle.symm.trans h.closed) nofun
  | takeOutlet hc | withoutOutlet hc | spawn hc | register hc => exact (hnot hc rfl).elim
  | shut hne => exact absurd h.closed hne
  | tell hc | gather hc =>
    refine ⟨⟨hclosed, fun c hmem => ?_⟩, fun w hw => by cases w <;> exact hw⟩
    rcases eq_or_mem_calls hc hmem with rfl | hmem
    · rfl
    · exact h.started c hmem
  | join hc =>
    exact ⟨⟨hclosed, fun c hmem => h.started c (mem_calls_of_rest hc hmem)⟩, fun w hw => hw⟩
  | halt =>
    refine ⟨⟨hclosed, h.started⟩, fun w hw => ?_⟩
    rw [isActive_halt, Bool.and_eq_true] at hw
    exact hw.2

theorem Run.inactive {acts : List Act} (hr : Run s acts s') (h : s.Subsiding)
    (hnone : ∀ w, s.manager.isActive w = false) (w : Worker) : s'.manager.isActive w = false := by
  have hboth : s'.Subsiding ∧ ∀ w, s'.manager.isActive w = false := by
    refine hr.induct (P := fun s => s.Subsiding ∧ ∀ w, s.manager.isActive w = false) ⟨h, hnone⟩ ?_
    intro s act s' ⟨h, hnone⟩ hs
    obtain ⟨h', hactive⟩ := hs.subsiding h
    refine ⟨h', fun w => ?_⟩
    by_contra hne
    have hw := hactive w (by simpa using hne)
    rw [hnone w] at hw
    cases hw
  exact hboth.2 w

/-- A close call is under way that no start overlaps, or is over. What is at work is waited
for, or is still to be looked for. -/
structure Closing (s : System) : Prop extends s.Subsiding where
  kept : ∀ w, s.manager.isActive w = true →
    w ∈ s.manager.workers ∨ ∃ parts, .joining parts ∈ s.calls ∧ w ∈ parts
  gathered : s.manager.workers = [] ∨ .telling ∈ s.calls ∨ .gathering ∈ s.calls

theorem Closing.of_weaker (h : s.Closing)
    (hnext : s'.Subsiding ∧ ∀ w, s'.manager.isActive w = true → s.manager.isActive w = true)
    (hworkers : s'.manager.workers = s.manager.workers)
    (hclosing : ∀ c ∈ s.calls, c.isClosing = true → c ∈ s'.calls) : s'.Closing := by
  refine ⟨hnext.1, fun w hw => ?_, ?_⟩
  · rw [hworkers]
    rcases h.kept w (hnext.2 w hw) with hw | ⟨parts, hparts, hw⟩
    · exact .inl hw
    · exact .inr ⟨parts, hclosing _ hparts rfl, hw⟩
  · rw [hworkers]
    rcases h.gathered with hnone | htelling | hgathering
    · exact .inl hnone
    · exact .inr (.inl (hclosing _ htelling rfl))
    · exact .inr (.inr (hclosing _ hgathering rfl))

theorem Step.closing {act : Act} (h : s.Closing) (hs : Step s act s') : s'.Closing := by
  have hnext := hs.subsiding h.toSubsiding
  cases hs with
  | part hm => exact h.of_weaker hnext hm.stands.workers fun c hc _ => hc
  | pass => exact h.of_weaker hnext rfl fun c hc _ => hc
  | submit => exact h.of_weaker hnext rfl fun c hc _ => List.mem_append_left _ hc
  | @proceed before after q hc answer fresh =>
    have hm := s.manager.stands_proceed fresh q answer
    refine h.of_weaker hnext hm.workers fun c hmem hclosing => ?_
    have hne : c ≠ .entering q := by
      rintro rfl
      cases hclosing
    exact mem_calls_of_ne _ hc hmem hne
  | begin hm =>
    obtain ⟨hidle, -⟩ := begin_eq_ok_iff.mp hm
    exact absurd (hidle.symm.trans h.closed) nofun
  | takeOutlet hc | withoutOutlet hc | spawn hc | register hc =>
    exact absurd (h.started _ (mem_calls hc)) nofun
  | shut hne => exact absurd h.closed hne
  | tell hc =>
    refine ⟨hnext.1, fun w hw => ?_, .inr (.inr (by simp))⟩
    rcases h.kept w (hnext.2 w hw) with hw | ⟨parts, hparts, hw⟩
    · exact .inl hw
    · have hmem := mem_calls_of_ne [.gathering] hc hparts nofun
      exact .inr ⟨parts, by simpa using hmem, hw⟩
  | gather hc =>
    refine ⟨hnext.1, fun w hw => ?_, .inl rfl⟩
    rcases h.kept w (hnext.2 w hw) with hw | ⟨parts, hparts, hw⟩
    · exact .inr ⟨s.manager.workers, by simp, hw⟩
    · have hmem := mem_calls_of_ne [.joining s.manager.workers] hc hparts nofun
      exact .inr ⟨parts, by simpa using hmem, hw⟩
  | @join before after parts hc hstop =>
    refine ⟨hnext.1, fun w hw => ?_, by simpa [hc] using h.gathered⟩
    rcases h.kept w hw with hkept | ⟨awaited, hparts, hkept⟩
    · exact .inl hkept
    · have hne : Call.joining awaited ≠ .joining parts := by
        rintro heq
        cases heq
        rw [hstop w hkept] at hw
        cases hw
      have hmem := mem_calls_of_ne [] hc hparts hne
      exact .inr ⟨awaited, by rwa [List.append_nil] at hmem, hkept⟩
  | @halt v => exact h.of_weaker hnext (by cases v <;> rfl) fun c hc _ => hc

theorem Closing.inactive (h : s.Closing) (hover : ∀ c ∈ s.calls, c.isClosing = false)
    (w : Worker) : s.manager.isActive w = false := by
  have hno {c : Call} (hclosing : c.isClosing = true) (hc : c ∈ s.calls) : False := by
    rw [hover c hc] at hclosing
    cases hclosing
  have hworkers : s.manager.workers = [] := by
    rcases h.gathered with hnone | hc | hc
    · exact hnone
    · exact (hno rfl hc).elim
    · exact (hno rfl hc).elim
  by_contra hne
  rcases h.kept w (by simpa using hne) with hw | ⟨parts, hc, -⟩
  · rw [hworkers] at hw
    cases hw
  · exact hno rfl hc

/-- A system whose manager a close call has just closed. The call has still to tell the parts to
stop, and to wait for them. -/
def shutting (s : System) : System :=
  { s with manager := { s.manager with lifecycle := .closed }, calls := s.calls ++ [.telling] }

theorem starts_eq_nil : s.starts = [] ↔ ∀ c ∈ s.calls, c.isStarting = false := by
  simp only [starts, List.filter_eq_nil_iff, Bool.not_eq_true]

theorem subsiding_shutting (hnone : ∀ c ∈ s.calls, c.isStarting = false) :
    s.shutting.Subsiding := by
  refine ⟨rfl, fun c hc => ?_⟩
  rcases List.mem_append.mp hc with hc | hc
  · exact hnone c hc
  · rw [List.mem_singleton.mp hc]
    rfl

theorem closing_shutting (h : Opening s.starts s.manager)
    (hnone : ∀ c ∈ s.calls, c.isStarting = false) : s.shutting.Closing := by
  rw [starts_eq_nil.mpr hnone] at h
  refine ⟨subsiding_shutting hnone, fun w hw => ?_, .inr (.inl (by simp [shutting]))⟩
  have hw : s.manager.isActive w = true := by cases w <;> exact hw
  cases h with
  | idle _ _ _ hactive =>
    rw [hactive w] at hw
    cases hw
  | running _ hactive => exact .inl (hactive w).2

/-- A close call that finds no part to wait for runs through at once. -/
theorem run_shutting (hopen : s.manager.lifecycle ≠ .closed) (hworkers : s.manager.workers = []) :
    ∃ acts, Run s.shutting acts { s with manager := s.manager.close } := by
  have h₀ : Run s.shutting [] s.shutting := .start
  have h₁ := h₀.next (@Step.tell _ s.calls [] rfl)
  have h₂ := h₁.next (@Step.gather _ s.calls [] rfl)
  have hstop : ∀ w ∈ s.manager.workers, s.manager.isActive w = false := by
    rw [hworkers]
    nofun
  have h₃ := h₂.next (@Step.join _ s.calls [] _ rfl fun w hw => by
    cases w <;> exact hstop _ hw)
  rw [List.append_nil] at h₃
  rw [close_eq hopen hworkers]
  exact ⟨_, h₃⟩

theorem run_spawn {before after : List Call} {parts : List Worker}
    (hc : s.calls = before ++ .spawning parts :: after) :
    ∃ acts, Run s acts { s with
      manager := parts.foldl spawn s.manager
      calls := before ++ .spawning [] :: after } := by
  induction parts generalizing s with
  | nil =>
    rw [← hc]
    exact ⟨[], .start⟩
  | cons v parts ih =>
    have h₀ : Run s [] s := .start
    have h := h₀.next (.spawn hc)
    obtain ⟨acts, hrest⟩ := ih (s := { s with
      manager := s.manager.spawn v
      calls := before ++ .spawning parts :: after }) rfl
    exact ⟨_, h.trans hrest⟩

/-- A start that is under way when the manager is closed sets every part going after the close
call is over. -/
theorem exists_run_active (hl : s.Launched) (h : Opening s.starts s.manager)
    (hopen : s.manager.lifecycle ≠ .closed) {c : Call} (hc : c ∈ s.calls)
    (hstart : c.isStarting = true) :
    ∃ acts s', Run s.shutting acts s' ∧ (∀ c ∈ s'.calls, c.isClosing = false) ∧
      (∀ w, s'.manager.isActive w = true) ∧ ∀ w ∈ s.unlaunched, w ∉ s'.manager.halting := by
  obtain ⟨before, after, hcalls⟩ := List.append_of_mem hc
  obtain ⟨-, h⟩ := opening_alone h hcalls hstart
  -- A start registers the parts last, so that the close call finds none to wait for.
  have hworkers : s.manager.workers = [] := by
    cases h with
    | taking _ _ hworkers => exact hworkers
    | spawning _ hworkers _ => exact hworkers
  have hclose := close_eq hopen hworkers
  have hquiet : ∀ w ∈ s.unlaunched, w ∉ s.manager.close.halting := by
    intro w hw hmem
    rw [hclose] at hmem
    rcases List.mem_append.mp hmem with hmem | hmem
    · have hmem : w ∈ s.manager.halting := hmem
      rw [hl.unhalted hopen] at hmem
      cases hmem
    · have hactive : s.manager.isActive w = true := by
        have := (List.mem_filter.mp hmem).2
        cases w <;> exact this
      rw [isActive_of_isAbsent (hl.absent w hw)] at hactive
      cases hactive
  obtain ⟨acts, hr⟩ := run_shutting hopen hworkers
  -- After the close call the start goes on, to where it has only to set parts going.
  have hspawning : ∃ acts m parts,
      Run s.shutting acts { s with manager := m, calls := before ++ .spawning parts :: after } ∧
      m.halting = s.manager.close.halting ∧ ∀ w, w ∉ parts → m.isActive w = true := by
    cases h with
    | taking _ hfree _ =>
      have hfree : s.manager.close.outletFree = true := by
        rw [hclose]
        exact hfree
      have htake := (takeOutlet_eq_ok_iff (m := s.manager.close)).mpr ⟨hfree, rfl⟩
      have htaken :=
        hr.next (@Step.takeOutlet { s with manager := s.manager.close } _ _ hcalls _ htake)
      exact ⟨_, _, allWorkers, htaken, rfl, fun w hw => absurd (mem_allWorkers w) hw⟩
    | @spawning _ parts _ _ hactive =>
      refine ⟨acts, _, parts, by rwa [← hcalls], rfl, fun w hw => ?_⟩
      rw [hclose]
      have := hactive w hw
      cases w <;> exact this
  obtain ⟨acts, m, parts, hr, hhalting, hactive⟩ := hspawning
  obtain ⟨later, hlater⟩ := run_spawn (s := { s with
    manager := m
    calls := before ++ .spawning parts :: after }) rfl
  refine ⟨_, _, hr.trans hlater, fun d hd => ?_, fun w => ?_, fun w hw => ?_⟩
  · rcases eq_or_mem_calls hcalls hd with rfl | hd
    · rfl
    · exact hl.unclosing hopen d hd
  · show (parts.foldl spawn m).isActive w = true
    rw [isActive_foldl_spawn]
    by_cases hw : w ∈ parts
    · rw [decide_eq_true hw, Bool.true_or]
    · rw [hactive w hw, Bool.or_true]
  · show w ∉ (parts.foldl spawn m).halting
    rw [halting_foldl_spawn, hhalting]
    exact hquiet w hw

/-- A part at work that was not told to stop, when nothing is left that would tell it. -/
structure Untold (s : System) (w : Worker) : Prop where
  closed : s.manager.lifecycle = .closed
  active : s.manager.isActive w = true
  unordered : w ∉ s.manager.halting
  untelling : .telling ∉ s.calls

theorem Step.untold {act : Act} {w : Worker} (h : s.Untold w) (hs : Step s act s') :
    s'.Untold w := by
  have hclosed := hs.closed h.closed
  cases hs with
  | part hm =>
    refine ⟨hclosed, (hm.stands.active w).trans h.active, ?_, h.untelling⟩
    rw [hm.stands.halting]
    exact h.unordered
  | pass => exact ⟨hclosed, h.active, h.unordered, h.untelling⟩
  | submit => exact ⟨hclosed, h.active, h.unordered, by simpa using h.untelling⟩
  | proceed hc answer fresh =>
    have hm := s.manager.stands_proceed fresh _ answer
    refine ⟨hclosed, (hm.active w).trans h.active, ?_, ?_⟩
    · rw [hm.halting]
      exact h.unordered
    · exact fun hmem => h.untelling (mem_calls_of_progress hc hmem rfl)
  | begin hm =>
    obtain ⟨hidle, -⟩ := begin_eq_ok_iff.mp hm
    exact absurd (hidle.symm.trans h.closed) nofun
  | takeOutlet hc hm =>
    obtain ⟨-, rfl⟩ := takeOutlet_eq_ok_iff.mp hm
    exact ⟨hclosed, by cases w <;> exact h.active, h.unordered, by simpa [hc] using h.untelling⟩
  | withoutOutlet hc => exact ⟨hclosed, h.active, h.unordered, by simpa [hc] using h.untelling⟩
  | spawn hc =>
    refine ⟨hclosed, ?_, by cases ‹Worker› <;> exact h.unordered, by simpa [hc] using h.untelling⟩
    rw [isActive_spawn, h.active, Bool.or_true]
  | register hc =>
    exact ⟨hclosed, by cases w <;> exact h.active, h.unordered, by simpa [hc] using h.untelling⟩
  | shut hne => exact absurd h.closed hne
  | tell hc => exact absurd (mem_calls hc) h.untelling
  | gather hc =>
    exact ⟨hclosed, by cases w <;> exact h.active, h.unordered, by simpa [hc] using h.untelling⟩
  | join hc => exact ⟨hclosed, h.active, h.unordered, by simpa [hc] using h.untelling⟩
  | @halt v hv =>
    have hne : w ≠ v := by
      rintro rfl
      exact h.unordered hv
    refine ⟨hclosed, ?_, by cases v <;> exact h.unordered, h.untelling⟩
    rw [isActive_halt, h.active, decide_eq_false hne]
    rfl

theorem exists_run_untold (hl : s.Launched) (h : Opening s.starts s.manager)
    (hopen : s.manager.lifecycle ≠ .closed) {c : Call} (hc : c ∈ s.calls)
    (hstart : c.isStarting = true) :
    ∃ acts s', Run s.shutting acts s' ∧ (∀ c ∈ s'.calls, c.isClosing = false) ∧
      ∀ w ∈ s.unlaunched, ∀ later s'', Run s' later s'' → s''.manager.isActive w = true := by
  obtain ⟨acts, s', hr, hover, hactive, hunordered⟩ := exists_run_active hl h hopen hc hstart
  have hclosed : s'.manager.lifecycle = .closed :=
    hr.induct (P := fun s => s.manager.lifecycle = .closed) rfl fun h hs => hs.closed h
  have huntelling : .telling ∉ s'.calls := fun hmem => nomatch hover _ hmem
  refine ⟨acts, s', hr, hover, fun w hw later s'' hlater => ?_⟩
  have h' : s'.Untold w := ⟨hclosed, hactive w, hunordered w hw, huntelling⟩
  exact (hlater.induct (P := fun s => s.Untold w) h' fun h hs => hs.untold h).active

/-- The close call that closes the manager returns with every part stopped, whatever comes of
it, just if it did not find a start under way. A close call that finds the manager closed
returns at once, and that every part has stopped by then is certain just of a manager that was
never started. What a start has still to set going as the manager is closed may work on for
ever. -/
theorem stops_all_iff {settings : Settings} {checks : Bool} {m : Manager} {now : Nat}
    {acts : List Act} (hm : ofSettings settings checks = .ok m)
    (hr : Run { manager := m, now } acts s) (hopen : s.manager.lifecycle ≠ .closed) :
    ((∀ later s', Run s.shutting later s' → (∀ c ∈ s'.calls, c.isClosing = false) →
        ∀ w, s'.manager.isActive w = false) ↔ ∀ c ∈ s.calls, c.isStarting = false) ∧
    ((∀ later s', Run s.shutting later s' → ∀ w, s'.manager.isActive w = false) ↔
      s.manager.lifecycle = .idle) ∧
    ((∃ c ∈ s.calls, c.isStarting = true) → ∃ later s', Run s.shutting later s' ∧
      (∀ c ∈ s'.calls, c.isClosing = false) ∧
      ∀ w ∈ s.unlaunched, ∀ more s'', Run s' more s'' → s''.manager.isActive w = true) := by
  have h₀ : Opening (starts { manager := m, now }) m := by
    obtain ⟨-, rfl⟩ := ofSettings_eq_ok hm
    exact .idle rfl rfl rfl fun w => by cases w <;> rfl
  obtain ⟨hl, h⟩ := hr.opening (launched_initial hm now) h₀ hopen
  have hfirst : (∀ later s', Run s.shutting later s' → (∀ c ∈ s'.calls, c.isClosing = false) →
      ∀ w, s'.manager.isActive w = false) ↔ ∀ c ∈ s.calls, c.isStarting = false := by
    constructor
    · intro hstops c hc
      by_contra hne
      obtain ⟨later, s', hlater, hover, hactive, -⟩ :=
        exists_run_active hl h hopen hc (by simpa using hne)
      have hsender := hstops later s' hlater hover .sender
      rw [hactive .sender] at hsender
      cases hsender
    · intro hnone later s' hlater hover
      have hclosing := hlater.induct (P := Closing) (closing_shutting h hnone)
        fun h hs => hs.closing h
      exact hclosing.inactive hover
  refine ⟨hfirst, ⟨fun hstops => ?_, fun hidle later s' hlater => ?_⟩, fun ⟨c, hc, hstart⟩ => ?_⟩
  · have hnone := hfirst.mp fun later s' hlater _ => hstops later s' hlater
    rw [starts_eq_nil.mpr hnone] at h
    cases h with
    | idle hidle => exact hidle
    | running _ hactive =>
      have hsender : s.manager.isActive .sender = false := hstops [] _ .start .sender
      rw [(hactive .sender).1] at hsender
      cases hsender
  · generalize hstarts : s.starts = starts at h
    cases h with
    | idle _ _ _ hinactive =>
      refine hlater.inactive (subsiding_shutting (starts_eq_nil.mp hstarts)) fun w => ?_
      have := hinactive w
      cases w <;> exact this
    | taking hrunning | spawning hrunning | running hrunning =>
      exact absurd (hidle.symm.trans hrunning) nofun
  · exact exists_run_untold hl h hopen hc hstart

section Sample

def startedSample : System where
  manager := {
    settings := {}
    estimator := .ofSettings {}
    lifecycle := .running
    outletFree := false
    sender := .idle
    poller := .resting
    reaper := .resting
    workers := allWorkers }
  now := 0

theorem run_startedSample : ∃ acts,
    Run { manager := { settings := {}, estimator := .ofSettings {} }, now := 0 } acts
      startedSample := by
  have h₀ : Run { manager := { settings := {}, estimator := .ofSettings {} }, now := 0 } [] _ :=
    .start
  have h₁ := h₀.next (.begin rfl)
  have h₂ := h₁.next (@Step.takeOutlet _ [] [] rfl _ rfl)
  have h₃ := h₂.next (@Step.spawn _ [] [] _ _ rfl)
  have h₄ := h₃.next (@Step.spawn _ [] [] _ _ rfl)
  have h₅ := h₄.next (@Step.spawn _ [] [] _ _ rfl)
  exact ⟨_, h₅.next (@Step.register _ [] [] rfl)⟩

theorem run_shutting_startedSample (calls : List Call) : ∃ acts s',
    Run { startedSample with calls := calls }.shutting acts s' ∧ s'.calls = calls := by
  have htold (w : Worker) : w ∈ startedSample.manager.tellToStop.halting := by
    cases w <;> decide
  have h₀ : Run { startedSample with calls := calls }.shutting [] _ := .start
  have h₁ := h₀.next (@Step.tell _ calls [] rfl)
  have h₂ := h₁.next (@Step.gather _ calls [] rfl)
  have h₃ := h₂.next (@Step.halt _ .sender (htold _) rfl)
  have h₄ := h₃.next (@Step.halt _ .poller (htold _) rfl)
  have h₅ := h₄.next (@Step.halt _ .reaper (htold _) rfl)
  have h₆ := h₅.next (@Step.join _ calls [] _ rfl fun w _ => by cases w <;> rfl)
  exact ⟨_, _, h₆, List.append_nil calls⟩

theorem stops_all_iff_sample : ∃ m acts s, ofSettings {} false = .ok m ∧
    Run { manager := m, now := 0 } acts s ∧ s.manager.lifecycle ≠ .closed ∧
    (∀ w, s.manager.isActive w = true) ∧
    ∃ later s', Run s.shutting later s' ∧ (∀ c ∈ s'.calls, c.isClosing = false) ∧
      ∀ w, s'.manager.isActive w = false := by
  obtain ⟨acts, hr⟩ := run_startedSample
  obtain ⟨later, s', hlater, hcalls⟩ := run_shutting_startedSample []
  have hstops := (stops_all_iff ofSettings_default hr nofun).1.mpr nofun
  have hover : ∀ c ∈ s'.calls, c.isClosing = false := by
    rw [hcalls]
    nofun
  exact ⟨_, acts, startedSample, ofSettings_default, hr, nofun, fun w => by cases w <;> rfl,
    later, s', hlater, hover, hstops later s' hlater hover⟩

/-- The manager is closed while a start has it running but has set no part going yet. -/
theorem not_stops_all : ¬ ∀ {settings : Settings} {checks : Bool} {m : Manager} {now : Nat}
    {acts : List Act} {s : System}, ofSettings settings checks = .ok m →
    Run { manager := m, now } acts s → s.manager.lifecycle = .closed →
    (∀ c ∈ s.calls, c.isClosing = false) → ∀ w, s.manager.isActive w = false := by
  intro h
  have hm := ofSettings_default
  have h₀ : Run { manager := { settings := {}, estimator := .ofSettings {} }, now := 0 } [] _ :=
    .start
  have h₁ := h₀.next (.begin rfl)
  have h₂ := h₁.next (.shut nofun)
  have h₃ := h₂.next (@Step.tell _ [.takingOutlet] [] rfl)
  have h₄ := h₃.next (@Step.gather _ [.takingOutlet] [] rfl)
  have h₅ := h₄.next (@Step.join _ [.takingOutlet] [] [] rfl nofun)
  have h₆ := h₅.next (@Step.takeOutlet _ [] [] rfl _ rfl)
  have h₇ := h₆.next (@Step.spawn _ [] [] _ _ rfl)
  have hover := h hm h₇ rfl (by simp [Call.isClosing]) .sender
  cases hover

end Sample

end System

end TronCourier
