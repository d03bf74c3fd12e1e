import TronCourier.Proofs.Manager.Poll
import TronCourier.Proofs.Manager.System

/-! Each part of a manager is set going once at most, and none is told to stop before the
manager is closed. -/

namespace TronCourier

/-- The parts that a call is about to set going. -/
def Call.parts : Call → List Worker
  | .spawning parts => parts
  | .entering _ | .takingOutlet | .telling | .gathering | .joining _ => []

/-- Whether a call is on its way to tell the parts to stop, or has done so. -/
def Call.isClosing : Call → Bool
  | .telling | .gathering | .joining _ => true
  | .entering _ | .takingOutlet | .spawning _ => false

/-- Whether a part has not been set going. -/
def Manager.isAbsent (m : Manager) : Worker → Prop
  | .sender => m.sender = .absent
  | .poller => m.poller = .absent
  | .reaper => m.reaper = .absent

namespace System

/-- The parts that are still to be set going. -/
def unlaunched (s : System) : List Worker :=
  s.calls.flatMap Call.parts ++ if s.manager.outletFree then Manager.allWorkers else []

structure Launched (s : System) : Prop where
  nodup : s.unlaunched.Nodup
  absent : ∀ w ∈ s.unlaunched, s.manager.isAbsent w
  unhalted : s.manager.lifecycle ≠ .closed → s.manager.halting = []
  unclosing : s.manager.lifecycle ≠ .closed → ∀ c ∈ s.calls, c.isClosing = false

end System

namespace Manager

/-- A manager whose parts have worked. -/
structure Works (m m' : Manager) : Prop where
  settings : m'.settings = m.settings
  checksMessages : m'.checksMessages = m.checksMessages
  lifecycle : m'.lifecycle = m.lifecycle
  outletFree : m'.outletFree = m.outletFree
  halting : m'.halting = m.halting
  absent : ∀ w, m.isAbsent w → m'.isAbsent w

variable {m m' : Manager}

theorem works_refl (m : Manager) : m.Works m :=
  ⟨rfl, rfl, rfl, rfl, rfl, fun _ h => h⟩

theorem works_senderLeaves {x : Sender} {stores : Address → Store} (hs : m.sender ≠ .absent)
    (h : m.SenderLeaves m' x stores) : m.Works m' := by
  rcases h with ⟨⟨accounts, estimator, metrics, events, rfl⟩, -⟩
  refine ⟨rfl, rfl, rfl, rfl, rfl, fun w hw => ?_⟩
  cases w with
  | sender => exact absurd hw hs
  | poller => exact hw
  | reaper => exact hw

/-- A manager whose poller has worked. -/
def PollerMoves (m m' : Manager) : Prop :=
  ∃ accounts metrics events queue x, m' = { m with
    accounts := accounts, metrics := metrics, events := events, queue := queue, poller := x }

theorem PollerLeaves.moves {x : Poller} {stores : Address → Store}
    (h : m.PollerLeaves m' x stores) : m.PollerMoves m' := by
  obtain ⟨⟨accounts, metrics, events, hm⟩, -⟩ := h
  exact ⟨accounts, metrics, events, m.queue, x, hm⟩

theorem pollerMoves_usePlace (m : Manager) (tx : Tx) (rest : List Awaiting) (pass : Pass) :
    m.PollerMoves (m.usePlace tx rest pass) :=
  ⟨_, _, _, _, _, rfl⟩

theorem works_pollerMoves (hp : m.poller ≠ .absent) (h : m.PollerMoves m') : m.Works m' := by
  rcases h with ⟨accounts, metrics, events, queue, x, rfl⟩
  refine ⟨rfl, rfl, rfl, rfl, rfl, fun w hw => ?_⟩
  cases w with
  | sender => exact hw
  | poller => exact absurd hw hp
  | reaper => exact hw

theorem grant_absent {p : Poller} (h : p = .absent) : p.grant = .absent := by
  rw [h]
  rfl

theorem works_proceed (fresh : String) (q : Submission) (answer : q.Answer) :
    m.Works (m.proceed fresh q answer).1 := by
  rcases m.proceed_cases fresh q answer with
    ⟨tx, s, -, -, -, ⟨accounts, metrics, events, hm⟩, -⟩ | ⟨tx, -, hm⟩ |
    ⟨-, ⟨⟨accounts, promised, x, hm, hx⟩, -⟩, -⟩
  · rw [hm]
    exact ⟨rfl, rfl, rfl, rfl, rfl, fun w hw => hw⟩
  · rw [hm]
    exact ⟨rfl, rfl, rfl, rfl, rfl, fun w hw => hw⟩
  · rw [hm]
    refine ⟨rfl, rfl, rfl, rfl, rfl, fun w hw => ?_⟩
    cases w with
    | sender => exact hw
    | poller =>
      rcases hx with rfl | rfl
      · exact hw
      · exact grant_absent hw
    | reaper => exact hw

theorem works_take? (hm : m.take? = some m') : m.Works m' := by
  obtain ⟨tx, rest, metrics, hs, -, rfl⟩ := take?_eq_some hm
  refine ⟨rfl, rfl, rfl, rfl, rfl, fun w hw => ?_⟩
  cases w with
  | sender => exact absurd (hs.symm.trans hw) nofun
  | poller => exact grant_absent hw
  | reaper => exact hw

theorem isAbsent_spawn {w v : Worker} (h : m.isAbsent w) (hne : w ≠ v) :
    (m.spawn v).isAbsent w := by
  cases w <;> cases v <;> first | exact h | exact absurd rfl hne

/-- A part that stops is not one that was never set going. -/
theorem isAbsent_halt {w v : Worker} (h : m.isAbsent w) (hv : m.listens v = true) :
    (m.halt v).isAbsent w := by
  have hne : w ≠ v := by
    rintro rfl
    cases w <;> simp only [isAbsent] at h <;> simp [listens, h] at hv
  cases w with
  | sender => cases v <;> first | exact h | exact absurd rfl hne
  | poller =>
    cases v with
    | sender =>
      show m.poller.refuse = .absent
      rw [show m.poller = .absent from h]
      rfl
    | poller => exact absurd rfl hne
    | reaper => exact h
  | reaper => cases v <;> first | exact h | exact absurd rfl hne

end Manager

open Manager in
/-- A step is the sender's, the poller's or the reaper's. -/
theorem PartStep.owner_cases {m m' : Manager} {now : Nat} {act : Act}
    (hs : PartStep m now act m') :
    m.take? = some m' ∨
    (∃ a answer, act = .answered a answer ∧ m.sender = .busy a ∧
      m' = m.answered now a answer) ∨
    (∃ p due, act = .silent ∧ due ≤ now ∧ m.sender = .asleep p due ∧ m' = m.wake p) ∨
    (m.poller ≠ .absent ∧ m.PollerMoves m') ∨
    m.reaper ≠ .absent ∧ ∃ accounts metrics x, m' = { m with
      accounts := accounts, metrics := metrics, reaper := x } := by
  cases hs with
  | take hm => exact .inl hm
  | answered ha answer => exact .inr (.inl ⟨_, answer, rfl, ha, rfl⟩)
  | wake ha hdue => exact .inr (.inr (.inl ⟨_, _, rfl, hdue, ha, rfl⟩))
  | beginPass hp | survey hp | collect hp | endPass hp =>
    have hne : m.poller ≠ .absent := by rw [hp]; nofun
    exact .inr (.inr (.inr (.inl ⟨hne, _, _, _, _, _, rfl⟩)))
  | @informed q hp answer =>
    have hne : m.poller ≠ .absent := by rw [hp]; nofun
    obtain ⟨x, stores, hm, -⟩ := m.heard_informed now q answer
    exact .inr (.inr (.inr (.inl ⟨hne, hm.moves⟩)))
  | @afterFailure tx reason next rest pass hp =>
    have hne : m.poller ≠ .absent := by rw [hp]; nofun
    refine .inr (.inr (.inr (.inl ⟨hne, ?_⟩)))
    rcases m.afterFailure_cases now tx reason next rest pass with
      hm | ⟨kind, ⟨s, -, hm⟩ | ⟨e, -, hm⟩⟩
    · exact hm.moves
    · exact hm.moves
    · exact hm.moves
  | @requeue tx rest pass hp =>
    have hne : m.poller ≠ .absent := by rw [hp]; nofun
    refine .inr (.inr (.inr (.inl ⟨hne, ?_⟩)))
    rcases m.requeue_cases tx rest pass with hm | ⟨x, -, hm⟩
    · rw [hm]
      exact m.pollerMoves_usePlace tx rest pass
    · exact ⟨_, _, _, _, _, hm⟩
  | @usePlace tx rest pass hp =>
    have hne : m.poller ≠ .absent := by rw [hp]; nofun
    exact .inr (.inr (.inr (.inl ⟨hne, m.pollerMoves_usePlace tx rest pass⟩)))
  | @withoutPlace tx rest pass hp =>
    have hne : m.poller ≠ .absent := by rw [hp]; nofun
    have hfail := m.leaves_fail now pass.account tx.id "broadcast queue closed"
    exact .inr (.inr (.inr (.inl ⟨hne, (hfail.withPoller _).moves⟩)))
  | beginSweep hr | sweep hr | endSweep hr =>
    have hne : m.reaper ≠ .absent := by rw [hr]; nofun
    exact .inr (.inr (.inr (.inr ⟨hne, _, _, _, rfl⟩)))

open Manager in
/-- A part that takes a step was set going before. -/
theorem PartStep.works {m m' : Manager} {now : Nat} {act : Act} (hs : PartStep m now act m') :
    m.Works m' := by
  rcases hs.owner_cases with
    hm | ⟨a, answer, -, ha, rfl⟩ | ⟨p, due, -, -, ha, rfl⟩ | ⟨hne, hm⟩ | ⟨hne, _, _, _, rfl⟩
  · exact works_take? hm
  · have hne : m.sender ≠ .absent := by rw [ha]; nofun
    obtain ⟨x, stores, hm⟩ := m.answered_leaves now a answer
    exact works_senderLeaves hne hm
  · have hne : m.sender ≠ .absent := by rw [ha]; nofun
    exact works_senderLeaves hne ⟨⟨_, _, _, _, rfl⟩, rfl⟩
  · exact works_pollerMoves hne hm
  · refine ⟨rfl, rfl, rfl, rfl, rfl, fun w hw => ?_⟩
    cases w with
    | sender => exact hw
    | poller => exact hw
    | reaper => exact absurd hw hne

namespace System

open Manager

variable {s s' : System}

theorem mem_calls {before after : List Call} {c : Call} (hc : s.calls = before ++ c :: after) :
    c ∈ s.calls := by
  rw [hc]
  exact List.mem_append_right before List.mem_cons_self

theorem Launched.closed_of_mem (h : s.Launched) {c : Call} (hc : c ∈ s.calls)
    (hclosing : c.isClosing = true) : s.manager.lifecycle = .closed := by
  by_contra hne
  rw [h.unclosing hne c hc] at hclosing
  cases hclosing

/-- The parts have worked, and no call is new that would set one going or stop one. -/
theorem Launched.of_works (h : s.Launched) (hw : s.manager.Works s'.manager)
    (hparts : s'.calls.flatMap Call.parts = s.calls.flatMap Call.parts)
    (hclosing : ∀ c ∈ s'.calls, c.isClosing = true → c ∈ s.calls) : s'.Launched := by
  have hsame : s'.unlaunched = s.unlaunched := by
    rw [unlaunched, unlaunched, hparts, hw.outletFree]
  refine ⟨hsame ▸ h.nodup, fun w hmem => hw.absent w (h.absent w (hsame ▸ hmem)), ?_, ?_⟩
  · intro hne
    rw [hw.halting]
    exact h.unhalted (hw.lifecycle ▸ hne)
  · intro hne c hc
    by_contra hopen
    have hclosing := hclosing c hc (by simpa using hopen)
    exact hopen (h.unclosing (hw.lifecycle ▸ hne) c hclosing)

theorem Launched.of_closed (h : s.Launched) (hclosed : s'.manager.lifecycle = .closed)
    (hfree : s'.manager.outletFree = s.manager.outletFree)
    (hparts : s'.calls.flatMap Call.parts = s.calls.flatMap Call.parts)
    (habsent : ∀ w, s.manager.isAbsent w → s'.manager.isAbsent w) : s'.Launched := by
  have hsame : s'.unlaunched = s.unlaunched := by
    rw [unlaunched, unlaunched, hparts, hfree]
  exact ⟨hsame ▸ h.nodup, fun w hmem => habsent w (h.absent w (hsame ▸ hmem)),
    fun hne => absurd hclosed hne, fun hne => absurd hclosed hne⟩

theorem mem_calls_of_rest {before after : List Call} {c d : Call}
    (hs : s.calls = before ++ d :: after) (hc : c ∈ before ++ after) : c ∈ s.calls := by
  rw [hs]
  rcases List.mem_append.mp hc with hc | hc
  · exact List.mem_append_left _ hc
  · exact List.mem_append_right _ (List.mem_cons_of_mem _ hc)

/-- A request that moves leaves the other calls as they are. -/
theorem mem_calls_or_waiting {before after : List Call} {c d : Call} {p : Progress}
    (hs : s.calls = before ++ d :: after) (hc : c ∈ before ++ p.calls ++ after) :
    c ∈ s.calls ∨ ∃ q, p = .waiting q ∧ c = .entering q := by
  rcases List.mem_append.mp hc with hc | hc
  · rcases List.mem_append.mp hc with hc | hc
    · exact .inl (mem_calls_of_rest hs (List.mem_append_left _ hc))
    · cases p with
      | waiting q => exact .inr ⟨q, rfl, List.mem_singleton.mp hc⟩
      | accepted id => cases hc
      | rejected e => cases hc
  · exact .inl (mem_calls_of_rest hs (List.mem_append_right _ hc))

/-- Who takes the outlet of the queue takes the duty to set the parts going. -/
theorem Launched.of_takeOutlet (h : s.Launched) {before after : List Call}
    (hc : s.calls = before ++ .takingOutlet :: after) (hfree : s.manager.outletFree = true) :
    Launched { s with
      manager := { s.manager with outletFree := false }
      calls := before ++ .spawning allWorkers :: after } := by
  have hperm : (before.flatMap Call.parts ++ (allWorkers ++ after.flatMap Call.parts)).Perm
      s.unlaunched := by
    rw [unlaunched, hc, hfree]
    simp only [List.flatMap_append, List.flatMap_cons, Call.parts, List.nil_append, if_true,
      List.append_assoc]
    exact List.perm_append_comm.append_left _
  have hnew : unlaunched { s with
      manager := { s.manager with outletFree := false }
      calls := before ++ .spawning allWorkers :: after } =
      before.flatMap Call.parts ++ (allWorkers ++ after.flatMap Call.parts) := by
    simp [unlaunched, Call.parts]
  refine ⟨?_, fun w hmem => ?_, h.unhalted, fun hne c hmem => ?_⟩
  · rw [hnew]
    exact hperm.nodup_iff.mpr h.nodup
  · rw [hnew] at hmem
    have := h.absent w (hperm.mem_iff.mp hmem)
    cases w <;> exact this
  · rcases List.mem_append.mp hmem with hmem | hmem
    · exact h.unclosing hne c (mem_calls_of_rest hc (List.mem_append_left _ hmem))
    · rcases List.mem_cons.mp hmem with rfl | hmem
      · rfl
      · exact h.unclosing hne c (mem_calls_of_rest hc (List.mem_append_right _ hmem))

theorem Launched.of_spawn (h : s.Launched) {before after : List Call} {v : Worker}
    {parts : List Worker} (hc : s.calls = before ++ .spawning (v :: parts) :: after) :
    Launched { s with
      manager := s.manager.spawn v
      calls := before ++ .spawning parts :: after } := by
  have hlifecycle : (s.manager.spawn v).lifecycle = s.manager.lifecycle := by cases v <;> rfl
  have hhalting : (s.manager.spawn v).halting = s.manager.halting := by cases v <;> rfl
  have hfree : (s.manager.spawn v).outletFree = s.manager.outletFree := by cases v <;> rfl
  have hperm : s.unlaunched.Perm (v :: unlaunched { s with
      manager := s.manager.spawn v
      calls := before ++ .spawning parts :: after }) := by
    simp only [unlaunched, hc, hfree, List.flatMap_append, List.flatMap_cons, Call.parts,
      List.append_assoc, List.cons_append]
    exact List.perm_middle
  have hnodup := List.nodup_cons.mp (hperm.nodup_iff.mp h.nodup)
  refine ⟨hnodup.2, fun w hmem => ?_, fun hne => ?_, fun hne c hmem => ?_⟩
  · have hw := h.absent w (hperm.mem_iff.mpr (List.mem_cons_of_mem v hmem))
    exact isAbsent_spawn hw fun heq => hnodup.1 (heq ▸ hmem)
  · rw [hhalting]
    exact h.unhalted (hlifecycle ▸ hne)
  · have hne : s.manager.lifecycle ≠ .closed := hlifecycle ▸ hne
    rcases List.mem_append.mp hmem with hmem | hmem
    · exact h.unclosing hne c (mem_calls_of_rest hc (List.mem_append_left _ hmem))
    · rcases List.mem_cons.mp hmem with rfl | hmem
      · rfl
      · exact h.unclosing hne c (mem_calls_of_rest hc (List.mem_append_right _ hmem))

theorem parts_of_progress (p : Manager.Progress) : p.calls.flatMap Call.parts = [] := by
  cases p with
  | waiting q => rfl
  | accepted id => rfl
  | rejected e => rfl

theorem Step.launched {act : Act} (h : s.Launched) (hs : Step s act s') : s'.Launched := by
  cases hs with
  | part hm => exact h.of_works hm.works rfl fun c hc _ => hc
  | pass hlater => exact h.of_works (works_refl _) rfl fun c hc _ => hc
  | submit hq =>
    refine h.of_works (works_refl _) (by simp [Call.parts]) fun c hc hclosing => ?_
    rcases List.mem_append.mp hc with hc | hc
    · exact hc
    · rw [List.mem_singleton.mp hc] at hclosing
      cases hclosing
  | @proceed before after q hq answer fresh =>
    refine h.of_works (works_proceed fresh q answer) ?_ fun c hc hclosing => ?_
    · simp [hq, parts_of_progress, Call.parts]
    · rcases mem_calls_or_waiting hq hc with hc | ⟨q', -, rfl⟩
      · exact hc
      · cases hclosing
  | begin hm =>
    obtain ⟨hidle, rfl⟩ := begin_eq_ok_iff.mp hm
    have hne : s.manager.lifecycle ≠ .closed := by rw [hidle]; nofun
    refine ⟨?_, fun w hmem => ?_, fun _ => h.unhalted hne, fun _ c hc => ?_⟩
    · simpa [unlaunched, Call.parts] using h.nodup
    · have := h.absent w (by simpa [unlaunched, Call.parts] using hmem)
      cases w <;> exact this
    · rcases List.mem_append.mp hc with hc | hc
      · exact h.unclosing hne c hc
      · rw [List.mem_singleton.mp hc]
        rfl
  | takeOutlet hc hm =>
    obtain ⟨hfree, rfl⟩ := takeOutlet_eq_ok_iff.mp hm
    exact h.of_takeOutlet hc hfree
  | withoutOutlet hc he =>
    exact h.of_works (works_refl _) (by simp [hc, Call.parts]) fun c hmem _ =>
      mem_calls_of_rest hc hmem
  | spawn hc => exact h.of_spawn hc
  | register hc =>
    exact h.of_works ⟨rfl, rfl, rfl, rfl, rfl, fun w hw => by cases w <;> exact hw⟩
      (by simp [hc, Call.parts]) fun c hmem _ => mem_calls_of_rest hc hmem
  | shut hne =>
    exact h.of_closed rfl rfl (by simp [Call.parts]) fun w hw => by cases w <;> exact hw
  | tell hc | gather hc =>
    have hclosed := h.closed_of_mem (mem_calls hc) rfl
    exact h.of_closed hclosed rfl (by simp [hc, Call.parts]) fun w hw => by cases w <;> exact hw
  | join hc hstop =>
    exact h.of_works (works_refl _) (by simp [hc, Call.parts]) fun c hmem _ =>
      mem_calls_of_rest hc hmem
  | @halt v hv hlistens =>
    have hclosed : s.manager.lifecycle = .closed := by
      by_contra hne
      rw [h.unhalted hne] at hv
      cases hv
    exact h.of_closed (by cases v <;> exact hclosed) (by cases v <;> rfl) rfl
      fun w hw => isAbsent_halt hw hlistens

/-- What a manager was made with stays. -/
theorem Step.fixed {act : Act} (hs : Step s act s') :
    s'.manager.settings = s.manager.settings ∧
      s'.manager.checksMessages = s.manager.checksMessages := by
  rcases hs.manager_cases with
    hm | ⟨q, answer, fresh, -, hm⟩ | ⟨w, hm⟩ | ⟨w, hm⟩ | ⟨_, _, _, _, hm⟩
  · exact ⟨hm.works.settings, hm.works.checksMessages⟩
  · rw [hm]
    have hw := s.manager.works_proceed fresh q answer
    exact ⟨hw.settings, hw.checksMessages⟩
  · rw [hm]
    cases w <;> exact ⟨rfl, rfl⟩
  · rw [hm]
    cases w <;> exact ⟨rfl, rfl⟩
  · rw [hm]
    exact ⟨rfl, rfl⟩

theorem Run.fixed {s₀ : System} {acts : List Act} (hr : Run s₀ acts s) :
    s.manager.settings = s₀.manager.settings ∧
      s.manager.checksMessages = s₀.manager.checksMessages := by
  induction hr with
  | start => exact ⟨rfl, rfl⟩
  | next _ hs ih => exact ⟨hs.fixed.1.trans ih.1, hs.fixed.2.trans ih.2⟩

theorem Run.settings {s₀ : System} {acts : List Act} (hr : Run s₀ acts s) :
    s.manager.settings = s₀.manager.settings :=
  hr.fixed.1

theorem Step.closed {act : Act} (hclosed : s.manager.lifecycle = .closed) (hs : Step s act s') :
    s'.manager.lifecycle = .closed := by
  cases hs with
  | part hm => exact hm.works.lifecycle.trans hclosed
  | proceed _ answer fresh => exact (works_proceed fresh _ answer).lifecycle.trans hclosed
  | begin hm =>
    obtain ⟨hidle, -⟩ := begin_eq_ok_iff.mp hm
    exact absurd (hidle.symm.trans hclosed) nofun
  | takeOutlet hc hm =>
    obtain ⟨-, rfl⟩ := takeOutlet_eq_ok_iff.mp hm
    exact hclosed
  | @spawn _ _ v _ hc => cases v <;> exact hclosed
  | @halt v hv hlistens => cases v <;> exact hclosed
  | shut hne => rfl
  | pass | submit | withoutOutlet | register | tell | gather | join => exact hclosed

end System

end TronCourier
