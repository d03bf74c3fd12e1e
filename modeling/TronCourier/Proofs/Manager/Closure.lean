import TronCourier.Proofs.Manager.Admission
import TronCourier.Proofs.Manager.Shutdown

/-! What a close means to the requests that are on their way in. A request is held against the
state of the manager only when it comes. From then on it is turned away if the queue is gone, and
the queue goes with the sender. -/

namespace TronCourier

namespace Manager

variable {m : Manager}

/-- What becomes of a request that waits for its sender's key, or to be told of its message,
when the answers let it on. -/
inductive Clears (m : Manager) : Submission → Tx → Prop
  | unchecked {r : Request} (h : m.checked? r = none) (fresh : String) :
      Clears m (.probing r) (r.asTx fresh none)
  | probed {r : Request} {message : String} (h : m.checked? r = some message) {retries : Nat}
      {key : Option String} (hkey : m.keyed r message (.ok retries) = .ok key) (fresh : String) :
      Clears m (.probing r) (r.asTx fresh key)
  | checked {r : Request} {message : String} {retries : Nat} {key : Option String}
      (hkey : m.keyed r message (.ok retries) = .ok key) (fresh : String) :
      Clears m (.checking r message) (r.asTx fresh key)

theorem Clears.of_store {m' : Manager} {q : Submission} {tx : Tx} (h : m.Clears q tx)
    (hchecks : m'.checksMessages = m.checksMessages) (hstore : m'.store = m.store) :
    m'.Clears q tx := by
  have hchecked (r : Request) : m'.checked? r = m.checked? r := by
    rw [checked?, checked?, hchecks]
  have hkeyed (r : Request) : m'.keyed r = m.keyed r := by
    funext message told
    cases told with
    | error reason => rfl
    | ok retries => simp only [keyed, hstore]
  cases h with
  | unchecked h fresh => exact .unchecked ((hchecked _).trans h) fresh
  | probed h hkey fresh => exact .probed ((hchecked _).trans h) (by rwa [hkeyed]) fresh
  | checked hkey fresh => exact .checked (by rwa [hkeyed]) fresh

theorem queueOpen_proceed (m : Manager) (fresh : String) (q : Submission) (answer : q.Answer) :
    (m.proceed fresh q answer).1.queueOpen = m.queueOpen := by
  rcases m.proceed_cases fresh q answer with
    ⟨tx, s, -, -, -, ⟨_, _, _, hm⟩, -⟩ | ⟨tx, -, hm⟩ | ⟨-, ⟨⟨_, _, _, hm, -⟩, -⟩, -⟩
  · rw [hm]
  · rw [hm]
    rfl
  · rw [hm]

theorem store_proceed_of_unplaced {q : Submission} (hq : (Call.entering q).hasPlace = false)
    (answer : q.Answer) (fresh : String) : (m.proceed fresh q answer).1.store = m.store := by
  have hdelivering (tx : Tx) : q ≠ .delivering tx := by
    rintro rfl
    cases hq
  have hadmitting (tx : Tx) (t : Store) :
      q = .admitting tx → (m.store tx.sender).addPending tx ≠ .ok t := by
    rintro rfl
    cases hq
  exact (queueLeaves_proceed hdelivering hadmitting answer fresh).2

/-- Without a queue there are no places to be had. -/
theorem unplaced_of_proceed (hqueue : m.queueOpen = false) {q q' : Submission}
    {answer : q.Answer} {fresh : String} (hq : (Call.entering q).hasPlace = false)
    (hon : (m.proceed fresh q answer).2 = .waiting q') :
    (Call.entering q').hasPlace = false := by
  cases q with
  | probing r =>
    rcases answer with e | signature
    · cases hon
    · rw [proceed_probing] at hon
      cases hchecked : m.checked? r with
      | none =>
        rw [hchecked] at hon
        cases hon
        rfl
      | some message =>
        rw [hchecked] at hon
        cases hon
        rfl
  | checking r message =>
    rw [proceed_checking] at hon
    cases hkey : m.keyed r message answer with
    | error e =>
      rw [hkey] at hon
      cases hon
    | ok key =>
      rw [hkey] at hon
      cases hon
      rfl
  | reserving tx =>
    have hreserve : m.reserve tx = (m, .rejected .closed) := by simp [reserve, hqueue]
    have hon : (m.reserve tx).2 = .waiting q' := hon
    rw [hreserve] at hon
    cases hon
  | admitting tx | delivering tx => cases hq

/-- There is a sender for as long as there is a queue. -/
def Manned (m : Manager) : Prop :=
  m.queueOpen = true → m.isActive .sender = true

end Manager

open Manager

theorem PartStep.queueOpen_eq {m m' : Manager} {now : Nat} {act : Act}
    (hs : PartStep m now act m') : m'.queueOpen = m.queueOpen := by
  rcases hs.owner_cases with
    hm | ⟨a, answer, -, -, rfl⟩ | ⟨p, due, -, -, -, rfl⟩ | ⟨-, _, _, _, _, _, rfl⟩ |
    ⟨-, _, _, _, rfl⟩
  · obtain ⟨tx, rest, metrics, -, -, rfl⟩ := take?_eq_some hm
    rfl
  · obtain ⟨x, stores, ⟨_, _, _, _, hm⟩, -⟩ := m.answered_leaves now a answer
    rw [hm]
  · rfl
  · rfl
  · rfl

namespace System

variable {s s' : System}

theorem Step.queueOpen_cases {act : Act} (hs : Step s act s') :
    s'.manager.queueOpen = false ∨ s'.manager.queueOpen = s.manager.queueOpen ∧
      (s.manager.isActive .sender = true → s'.manager.isActive .sender = true) := by
  rcases hs.manager_cases with
    hm | ⟨q, answer, fresh, -, hm⟩ | ⟨w, hm⟩ | ⟨w, hm⟩ | ⟨_, _, _, _, hm⟩
  · exact .inr ⟨hm.queueOpen_eq, (hm.stands.active .sender).trans⟩
  · rw [hm]
    exact .inr ⟨queueOpen_proceed .., (isActive_proceed fresh q answer .sender).trans⟩
  · rw [hm]
    refine .inr ⟨by cases w <;> rfl, fun hactive => ?_⟩
    rw [isActive_spawn, hactive, Bool.or_true]
  · rw [hm]
    cases w with
    | sender => exact .inl rfl
    | poller | reaper => exact .inr ⟨rfl, id⟩
  · rw [hm]
    exact .inr ⟨rfl, id⟩

theorem Step.manned {act : Act} (hs : Step s act s') (h : s.manager.Manned) :
    s'.manager.Manned := by
  intro hopen
  rcases hs.queueOpen_cases with hqueue | ⟨hqueue, hactive⟩
  · rw [hqueue] at hopen
    cases hopen
  · exact hactive (h (hqueue ▸ hopen))

/-- The manager is closed, its queue is gone, and no request has a place in it. -/
structure Sealed (s : System) : Prop where
  closed : s.manager.lifecycle = .closed
  queueless : s.manager.queueOpen = false
  unplaced : ∀ q ∈ s.submissions, (Call.entering q).hasPlace = false

theorem Step.sealed {act : Act} (hs : Step s act s') (h : s.Sealed) : s'.Sealed := by
  have hqueueless : s'.manager.queueOpen = false := by
    rcases hs.queueOpen_cases with hqueue | ⟨hqueue, -⟩
    · exact hqueue
    · exact hqueue.trans h.queueless
  refine ⟨hs.closed h.closed, hqueueless, fun q' hq' => ?_⟩
  rcases hs.submission_cases with
    ⟨before, after, q, answer, fresh, -, hc, rfl⟩ | ⟨r, -, rfl⟩ | ⟨hsame, -⟩
  · have hq := h.unplaced q (mem_submissions.mpr (mem_calls hc))
    rcases mem_calls_or_waiting hc (mem_submissions.mp hq') with hmem | ⟨q'', hon, hmem⟩
    · exact h.unplaced q' (mem_submissions.mpr hmem)
    · cases hmem
      exact unplaced_of_proceed h.queueless hq hon
  · rcases List.mem_append.mp (mem_submissions.mp hq') with hmem | hmem
    · exact h.unplaced q' (mem_submissions.mpr hmem)
    · cases List.mem_singleton.mp hmem
      rfl
  · exact h.unplaced q' (hsame ▸ hq')

/-- Nothing comes in any more. Who asks is told that the manager is closed, and a request that is
on its way leaves the stores as they are and is given no id. -/
structure TurnsAway (s : System) : Prop where
  refused : ∀ r, s.manager.submit r = .error .closed
  unchanged : ∀ q ∈ s.submissions, ∀ (answer : q.Answer) (fresh : String),
    (s.manager.proceed fresh q answer).1.store = s.manager.store
  unaccepted : ∀ q ∈ s.submissions, ∀ (answer : q.Answer) (fresh id : String),
    (s.manager.proceed fresh q answer).2 ≠ .accepted id

theorem Sealed.turnsAway (h : s.Sealed) : s.TurnsAway where
  refused r := if_pos h.closed
  unchanged q hq answer fresh := store_proceed_of_unplaced (h.unplaced q hq) answer fresh
  unaccepted q hq answer fresh id haccepted := by
    obtain ⟨tx, rfl, -⟩ := proceed_accepted haccepted
    cases h.unplaced _ hq

theorem Closing.sealed (h : s.Closing) (hmanned : s.manager.Manned)
    (hover : ∀ c ∈ s.calls, c.isClosing = false)
    (hunplaced : ∀ q ∈ s.submissions, (Call.entering q).hasPlace = false) : s.Sealed := by
  refine ⟨h.closed, ?_, hunplaced⟩
  -- With the sender the queue has gone.
  by_contra hopen
  have hactive := hmanned (by simpa using hopen)
  rw [h.inactive hover .sender] at hactive
  cases hactive

/-- A request comes in from here by its next steps. Its transaction is new to its store and gets
there as pending, and its caller is given the id. -/
def LetsIn (s : System) (tx : Tx) : Prop :=
  (s.manager.store tx.sender).stage? tx.id = none ∧ ∃ acts s', Run s acts s' ∧
    (s'.manager.store tx.sender).stage? tx.id = some .pending ∧
    .delivering tx ∈ s'.submissions ∧
    ∀ fresh, (s'.manager.proceed fresh (.delivering tx) ()).2 = .accepted tx.id

theorem Step.onward {before after : List Call} {q q' : Submission}
    (hc : s.calls = before ++ .entering q :: after) {answer : q.Answer} {fresh : String}
    {m : Manager} (hp : s.manager.proceed fresh q answer = (m, .waiting q')) :
    Step s (.proceed q answer fresh)
      { s with manager := m, calls := before ++ .entering q' :: after } := by
  have h := Step.proceed hc answer fresh
  have hcalls : before ++ (Progress.waiting q').calls ++ after =
      before ++ .entering q' :: after := by
    simp [Progress.calls]
  rwa [hp, hcalls] at h

theorem run_clears {before after : List Call} {q : Submission} {tx : Tx}
    (hc : s.calls = before ++ .entering q :: after) (h : s.manager.Clears q tx) :
    ∃ acts accounts, accounts.store = s.manager.store ∧ Run s acts { s with
      manager := { s.manager with accounts := accounts }
      calls := before ++ .entering (.reserving tx) :: after } := by
  have h₀ : Run s [] s := .start
  cases h with
  | @unchecked r hnone fresh =>
    have hp := s.manager.proceed_probing r [] fresh
    rw [hnone] at hp
    exact ⟨_, _, s.manager.store_knowing r, h₀.next (Step.onward hc hp)⟩
  | @probed r message hsome retries key hkey fresh =>
    have hp := s.manager.proceed_probing r [] fresh
    rw [hsome] at hp
    have h₁ := h₀.next (Step.onward hc hp)
    have hp := (s.manager.knowing r).proceed_checking r message (.ok retries) fresh
    rw [keyed_knowing, hkey] at hp
    exact ⟨_, _, s.manager.store_knowing r, h₁.next (Step.onward rfl hp)⟩
  | @checked r message retries key hkey fresh =>
    have hp := s.manager.proceed_checking r message (.ok retries) fresh
    rw [hkey] at hp
    exact ⟨_, _, rfl, h₀.next (Step.onward hc hp)⟩

theorem letsIn_of_run {acts : List Act} {tx : Tx} (hr : Run s acts s')
    (hstore : s'.manager.store = s.manager.store) (h : s'.LetsIn tx) : s.LetsIn tx := by
  obtain ⟨hnew, later, s'', hlater, hend⟩ := h
  rw [hstore] at hnew
  exact ⟨hnew, _, s'', hr.trans hlater, hend⟩

/-- A request with a place in the queue needs nothing but its store. -/
theorem letsIn_of_addPending {tx : Tx} {t : Store} (hq : .admitting tx ∈ s.submissions)
    (ht : (s.manager.store tx.sender).addPending tx = .ok t) : s.LetsIn tx := by
  obtain ⟨before, after, hc⟩ := List.append_of_mem (mem_submissions.mp hq)
  obtain ⟨hnone, -⟩ := Store.addPending_eq_ok_iff.mp ht
  have hp : s.manager.proceed "" (.admitting tx) () =
      ((s.manager.setStore tx.sender t).record (.enqueued tx), .waiting (.delivering tx)) :=
    takeIn_ok ht
  have h₀ : Run s [] s := .start
  refine ⟨Store.stage?_eq_none_iff.mpr hnone, _, _, h₀.next (Step.onward hc hp), ?_,
    mem_submissions.mpr (by simp), fun fresh => rfl⟩
  show ((s.manager.setStore tx.sender t).store tx.sender).stage? tx.id = _
  rw [store_setStore, Function.update_self]
  exact Store.stage?_eq_some_iff.mpr ⟨_, Store.get?_addPending ht, rfl⟩

/-- Whether the manager is closed does not matter to a request on its way. -/
theorem letsIn_of_admission {q : Submission} {tx : Tx} {t : Store} (hq : q ∈ s.submissions)
    (hclears : s.manager.Clears q tx) (ht : s.manager.admission tx = .ok t) : s.LetsIn tx := by
  obtain ⟨before, after, hc⟩ := List.append_of_mem (mem_submissions.mp hq)
  obtain ⟨hopen, hroom, ht⟩ := admission_eq_ok_iff.mp ht
  obtain ⟨acts, accounts, hstore, hr⟩ := run_clears hc hclears
  let m : Manager := { s.manager with accounts := accounts }
  have hp : m.proceed "" (.reserving tx) () =
      ({ m with promised := m.promised + 1 }, .waiting (.admitting tx)) := by
    have hopen : m.queueOpen = true := hopen
    have hroom : m.hasRoom = true := hroom
    show m.reserve tx = _
    simp [reserve, hopen, hroom]
  have h := hr.next (Step.onward rfl hp)
  refine letsIn_of_run h hstore (letsIn_of_addPending (t := t) (mem_submissions.mpr (by simp)) ?_)
  show (accounts.store tx.sender).addPending tx = .ok t
  rw [hstore]
  exact ht

theorem workers_eq_nil (h : Opening s.starts s.manager)
    (hnot : ¬ (s.manager.lifecycle = .running ∧ ∀ c ∈ s.calls, c.isStarting = false)) :
    s.manager.workers = [] := by
  generalize hstarts : s.starts = starts at h
  -- The parts are registered last, when a start has run to its end.
  cases h with
  | idle _ _ hworkers _ | taking _ _ hworkers | spawning _ hworkers _ => exact hworkers
  | running hrunning _ => exact absurd ⟨hrunning, starts_eq_nil.mp hstarts⟩ hnot

theorem letsIn_close (hopen : s.manager.lifecycle ≠ .closed) (hworkers : s.manager.workers = [])
    {q : Submission} {tx : Tx} {t : Store} (hq : q ∈ s.submissions)
    (hclears : s.manager.Clears q tx) (ht : s.manager.admission tx = .ok t) :
    LetsIn { s with manager := s.manager.close } tx := by
  refine letsIn_of_admission hq (hclears.of_store ?_ ?_) (t := t) ?_
  · rw [close_eq hopen hworkers]
    rfl
  · rw [close_eq hopen hworkers]
    rfl
  · rw [close_eq hopen hworkers]
    exact ht

/-- Once the close call is over that closes a manager whose parts a start has all set going,
nothing comes in any more, unless a request has a place in the queue by then. Without a start that
has run to its end, what waits for its sender's key or to be told of its message may come in after
that call. It always may after a further close call, which finds the manager closed and
returns at once. -/
theorem close_turns_away {settings : Settings} {checks : Bool} {m : Manager} {now : Nat}
    {acts : List Act} (hm : ofSettings settings checks = .ok m)
    (hr : Run { manager := m, now } acts s) (hopen : s.manager.lifecycle ≠ .closed) :
    (s.manager.lifecycle = .running ∧ (∀ c ∈ s.calls, c.isStarting = false) →
      ∀ later s', Run s.shutting later s' → (∀ c ∈ s'.calls, c.isClosing = false) →
        (∀ q ∈ s'.submissions, (Call.entering q).hasPlace = false) →
        ∀ more s'', Run s' more s'' → s''.TurnsAway) ∧
    (∀ q tx t, q ∈ s.submissions → s.manager.Clears q tx → s.manager.admission tx = .ok t →
      (¬ (s.manager.lifecycle = .running ∧ ∀ c ∈ s.calls, c.isStarting = false) →
        ∃ later s', Run s.shutting later s' ∧ (∀ c ∈ s'.calls, c.isClosing = false) ∧
          s'.submissions = s.submissions ∧ s'.LetsIn tx) ∧
      s.shutting.LetsIn tx) ∧
    ∀ later s' tx t, Run s.shutting later s' → .admitting tx ∈ s'.submissions →
      (s'.manager.store tx.sender).addPending tx = .ok t → s'.LetsIn tx := by
  have h₀ : Opening (starts { manager := m, now }) m := by
    obtain ⟨-, rfl⟩ := ofSettings_eq_ok hm
    exact .idle rfl rfl rfl fun w => by cases w <;> rfl
  obtain ⟨hl, h⟩ := hr.opening (launched_initial hm now) h₀ hopen
  refine ⟨fun ⟨hrunning, hnone⟩ later s' hlater hover hunplaced more s'' hmore => ?_,
    fun q tx t hq hclears ht => ⟨fun hnot => ?_, ?_⟩,
    fun later s' tx t _ hq ht => letsIn_of_addPending hq ht⟩
  · have hmanned : s.shutting.manager.Manned := by
      intro _
      rw [starts_eq_nil.mpr hnone] at h
      cases h with
      | idle hidle => exact absurd (hidle.symm.trans hrunning) nofun
      | running _ hactive => exact (hactive .sender).1
    have hclosing := hlater.induct (P := Closing) (closing_shutting h hnone)
      fun h hs => hs.closing h
    have hmanned' := hlater.induct (P := fun s => s.manager.Manned) hmanned
      fun h hs => hs.manned h
    have hsealed := hclosing.sealed hmanned' hover hunplaced
    exact (hmore.induct (P := Sealed) hsealed fun h hs => hs.sealed h).turnsAway
  · have hworkers := workers_eq_nil h hnot
    obtain ⟨later, hlater⟩ := run_shutting hopen hworkers
    exact ⟨later, _, hlater, hl.unclosing hopen, rfl, letsIn_close hopen hworkers hq hclears ht⟩
  · have hq : q ∈ s.shutting.submissions := by
      rw [mem_submissions] at hq ⊢
      exact List.mem_append_left _ hq
    exact letsIn_of_admission hq (hclears.of_store rfl rfl) ht

section Sample

/-- A request has come in and waits for its sender's key, while the manager is at work. -/
def waitingSample : System :=
  { startedSample with calls := [.entering (.probing sampleRequest)] }

/-- A request that waits for its sender's key is turned away in the end if the manager was
started, and may come in if it was not. -/
theorem close_turns_away_waitingSample :
    (∃ m acts s, ofSettings {} false = .ok m ∧ Run { manager := m, now := 0 } acts s ∧
      s.calls = [.entering (.probing sampleRequest)] ∧ s.manager.lifecycle = .running ∧
      ∃ later s', Run s.shutting later s' ∧ s'.calls = s.calls ∧
        ∀ more s'', Run s' more s'' → s''.TurnsAway) ∧
    ∃ m acts s, ofSettings {} false = .ok m ∧ Run { manager := m, now := 0 } acts s ∧
      s.calls = [.entering (.probing sampleRequest)] ∧ s.manager.lifecycle = .idle ∧
      ∃ later s', Run s.shutting later s' ∧ (∀ c ∈ s'.calls, c.isClosing = false) ∧
        s'.LetsIn (sampleRequest.asTx "" none) := by
  have hm := ofSettings_default
  constructor
  · obtain ⟨acts, hr⟩ := run_startedSample
    have hr := hr.next (.submit (r := sampleRequest) (q := .probing sampleRequest) rfl)
    have hopen : waitingSample.manager.lifecycle ≠ .closed := by decide
    have hstarted : ∀ c ∈ waitingSample.calls, c.isStarting = false := by
      simp [waitingSample, Call.isStarting]
    obtain ⟨later, s', hlater, hcalls⟩ := run_shutting_startedSample waitingSample.calls
    have hcalls : s'.calls = waitingSample.calls := hcalls
    have hover : ∀ c ∈ s'.calls, c.isClosing = false := by simp [hcalls, waitingSample, Call.isClosing]
    have hunplaced : ∀ q ∈ s'.submissions, (Call.entering q).hasPlace = false := by
      simp [submissions, hcalls, waitingSample, Call.submission?, Call.hasPlace]
    have hturns := (close_turns_away hm hr hopen).1 ⟨rfl, hstarted⟩ later s' hlater hover hunplaced
    exact ⟨_, _, waitingSample, hm, hr, rfl, rfl, later, s', hlater, hcalls, hturns⟩
  · have h₀ : Run { manager := { settings := {}, estimator := .ofSettings {} }, now := 0 } [] _ :=
      .start
    have hr := h₀.next (.submit (r := sampleRequest) (q := .probing sampleRequest) rfl)
    have hopen : Lifecycle.idle ≠ .closed := by decide
    have hunstarted (p : Prop) : ¬ (Lifecycle.idle = .running ∧ p) := by simp
    obtain ⟨hclosed, -⟩ := (close_turns_away hm hr hopen).2.1 (.probing sampleRequest)
      (sampleRequest.asTx "" none) _ (mem_submissions.mpr (by simp)) (.unchecked rfl "") rfl
    obtain ⟨later, s', hlater, hover, -, hletsIn⟩ := hclosed (hunstarted _)
    exact ⟨_, _, _, hm, hr, rfl, rfl, later, s', hlater, hover, hletsIn⟩

/-- A request waits for its sender's key, while the manager was closed and never started. -/
def strandedSample : System where
  manager := { settings := {}, estimator := .ofSettings {}, lifecycle := .closed }
  now := 0
  calls := [.entering (.probing sampleRequest)]

theorem run_strandedSample : ∃ acts,
    Run { manager := { settings := {}, estimator := .ofSettings {} }, now := 0 } acts
      strandedSample := by
  have h₀ : Run { manager := { settings := {}, estimator := .ofSettings {} }, now := 0 } [] _ :=
    .start
  have h₁ := h₀.next (.submit (r := sampleRequest) (q := .probing sampleRequest) rfl)
  have hopen : Lifecycle.idle ≠ .closed := by decide
  obtain ⟨later, hlater⟩ := run_shutting (s := { strandedSample with
    manager := { settings := {}, estimator := .ofSettings {} } }) hopen rfl
  exact ⟨_, (h₁.next (.shut hopen)).trans hlater⟩

/-- The close call has returned when the key is at hand, and there is a place in the queue. -/
theorem not_close_turns_away : ¬ ∀ {settings : Settings} {checks : Bool} {m : Manager} {now : Nat}
    {acts : List Act} {s : System}, ofSettings settings checks = .ok m →
    Run { manager := m, now } acts s → s.manager.lifecycle = .closed →
    (∀ c ∈ s.calls, c.isClosing = false) →
    (∀ q ∈ s.submissions, (Call.entering q).hasPlace = false) →
    ∀ later s', Run s later s' → s'.TurnsAway := by
  intro h
  obtain ⟨acts, hr⟩ := run_strandedSample
  have hover : ∀ c ∈ strandedSample.calls, c.isClosing = false := by
    simp [strandedSample, Call.isClosing]
  have hunplaced : ∀ q ∈ strandedSample.submissions, (Call.entering q).hasPlace = false := by
    simp [submissions, strandedSample, Call.submission?, Call.hasPlace]
  have h₀ : Run strandedSample [] _ := .start
  have h₁ := h₀.next (@Step.proceed _ [] [] (.probing sampleRequest) rfl (.ok []) "")
  have h₂ := h₁.next (@Step.proceed _ [] [] (.reserving _) rfl () "")
  have h₃ := h₂.next (@Step.proceed _ [] [] (.admitting _) rfl () "")
  have hturns := h ofSettings_default hr rfl hover hunplaced _ _ h₃
  exact hturns.unaccepted (.delivering _) (mem_submissions.mpr List.mem_cons_self) () "" _ rfl

end Sample

end System

end TronCourier
