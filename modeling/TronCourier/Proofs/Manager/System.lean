import Mathlib
import TronCourier.Proofs.Manager.Effect

/-! A manager among its callers. Its parts and the calls from outside take one small
step at a time, in any order and with any answers. What is on record may come in any
order too. -/

namespace TronCourier

/-- A call from outside that has not returned yet. -/
inductive Call
  | entering (submission : Submission)
  /-- Starts the manager and is about to take the outlet of the queue. -/
  | takingOutlet
  /-- Starts the manager and is about to set these parts going. -/
  | spawning (parts : List Worker)
  /-- Closes the manager and is about to tell its parts to stop. -/
  | telling
  /-- Closes the manager and is about to see which parts there are to wait for. -/
  | gathering
  | joining (parts : List Worker)

/-- The request that a call brings in. -/
def Call.submission? : Call → Option Submission
  | .entering q => some q
  | .takingOutlet | .spawning _ | .telling | .gathering | .joining _ => none

/-- The calls that are left of a request after an answer. -/
def Manager.Progress.calls : Manager.Progress → List Call
  | .waiting submission => [.entering submission]
  | .accepted _ | .rejected _ => []

/-- Whether a part would hear that it is to stop. It does not while it has something
at hand that needs no answer. -/
def Manager.listens (m : Manager) : Worker → Bool
  | .sender => match m.sender with
    | .idle | .asleep _ _ => true
    | .busy (.failing _ _) => false
    | .busy _ => true
    | .absent | .stopped => false
  | .poller => match m.poller with
    | .resting | .asking _ | .blocked _ _ _ | .granted _ _ _ | .refused _ _ _ => true
    | _ => false
  | .reaper => m.reaper = .resting

/-- What a step takes from outside. -/
inductive Act
  | pass (later : Nat)
  | submit (request : Request)
  | proceed (submission : Submission) (answer : submission.Answer) (fresh : String)
  | answered (attempt : Attempt) (answer : attempt.Answer)
  | informed (inquiry : Inquiry) (answer : inquiry.Answer)
  | silent

/-- The request that an act moves. -/
def Act.submission? : Act → Option Submission
  | .proceed q _ _ => some q
  | .pass _ | .submit _ | .answered _ _ | .informed _ _ | .silent => none

/-- A step of one of the parts at a time. -/
inductive PartStep (m : Manager) (now : Nat) : Act → Manager → Prop
  | take {m' : Manager} (h : m.take? = some m') : PartStep m now .silent m'
  | answered {a : Attempt} (h : m.sender = .busy a) (answer : a.Answer) :
      PartStep m now (.answered a answer) (m.answered now a answer)
  | wake {p : Parcel} {due : Nat} (h : m.sender = .asleep p due) (hdue : due ≤ now) :
      PartStep m now .silent (m.wake p)
  | beginPass (h : m.poller = .resting) {accounts : List Address}
      (hall : accounts.Perm m.accounts.stores.keys) :
      PartStep m now .silent (m.beginPass accounts)
  | survey {a : Address} {later : List Address} (h : m.poller = .surveying (a :: later))
      {rows : List Settling} (hall : rows.Perm (m.store a).settlingRows) :
      PartStep m now .silent (m.afterSettling rows { account := a, later })
  | collect {pass : Pass} (h : m.poller = .collecting pass) {rows : List Awaiting}
      (hall : rows.Perm (m.store pass.account).awaitingRows) :
      PartStep m now .silent (m.afterAwaiting rows pass)
  | endPass (h : m.poller = .surveying []) : PartStep m now .silent m.endPass
  | informed {q : Inquiry} (h : m.poller = .asking q) (answer : q.Answer) :
      PartStep m now (.informed q answer) (m.informed now q answer)
  | afterFailure {tx : Tx} {reason : String} {next : Option RetryKind} {rest : List Awaiting}
      {pass : Pass} (h : m.poller = .failed tx reason next rest pass) :
      PartStep m now .silent (m.afterFailure now tx reason next rest pass)
  | requeue {tx : Tx} {rest : List Awaiting} {pass : Pass}
      (h : m.poller = .requeuing tx rest pass) : PartStep m now .silent (m.requeue tx rest pass)
  | usePlace {tx : Tx} {rest : List Awaiting} {pass : Pass}
      (h : m.poller = .granted tx rest pass) : PartStep m now .silent (m.usePlace tx rest pass)
  | withoutPlace {tx : Tx} {rest : List Awaiting} {pass : Pass}
      (h : m.poller = .refused tx rest pass) :
      PartStep m now .silent (m.withoutPlace now tx rest pass)
  | beginSweep (h : m.reaper = .resting) {accounts : List Address}
      (hall : accounts.Perm m.accounts.stores.keys) :
      PartStep m now .silent (m.beginSweep now accounts)
  | sweep {begun evicted : Nat} {a : Address} {later : List Address}
      (h : m.reaper = .sweeping begun (a :: later) evicted) :
      PartStep m now .silent (m.sweep begun a later evicted)
  | endSweep {begun evicted : Nat} (h : m.reaper = .sweeping begun [] evicted) :
      PartStep m now .silent (m.endSweep evicted)

structure System where
  manager : Manager
  now : Nat
  calls : List Call := []

/-- The requests that are on their way in. -/
def System.submissions (s : System) : List Submission :=
  s.calls.filterMap Call.submission?

/-- A call without parameters, from and to the account without a hash. -/
def sampleRequest : Request where
  id := some "t"
  sender := .ofHash []
  contract := .ofHash []
  method := "f()"

namespace System

inductive Step (s : System) : Act → System → Prop
  | part {act : Act} {m : Manager} (h : PartStep s.manager s.now act m) :
      Step s act { s with manager := m }
  | pass {later : Nat} (h : s.now ≤ later) : Step s (.pass later) { s with now := later }
  | submit {r : Request} {q : Submission} (h : s.manager.submit r = .ok q) :
      Step s (.submit r) { s with calls := s.calls ++ [.entering q] }
  | proceed {before after : List Call} {q : Submission}
      (h : s.calls = before ++ .entering q :: after) (answer : q.Answer) (fresh : String) :
      Step s (.proceed q answer fresh)
        { s with
          manager := (s.manager.proceed fresh q answer).1
          calls := before ++ (s.manager.proceed fresh q answer).2.calls ++ after }
  | begin {m : Manager} (h : s.manager.begin = .ok m) :
      Step s .silent { s with manager := m, calls := s.calls ++ [.takingOutlet] }
  | takeOutlet {before after : List Call} (h : s.calls = before ++ .takingOutlet :: after)
      {m : Manager} (hm : s.manager.takeOutlet = .ok m) :
      Step s .silent
        { s with manager := m, calls := before ++ .spawning Manager.allWorkers :: after }
  | withoutOutlet {before after : List Call} (h : s.calls = before ++ .takingOutlet :: after)
      {e : Manager.Error} (he : s.manager.takeOutlet = .error e) :
      Step s .silent { s with calls := before ++ after }
  | spawn {before after : List Call} {w : Worker} {parts : List Worker}
      (h : s.calls = before ++ .spawning (w :: parts) :: after) :
      Step s .silent
        { s with manager := s.manager.spawn w, calls := before ++ .spawning parts :: after }
  | register {before after : List Call} (h : s.calls = before ++ .spawning [] :: after) :
      Step s .silent { s with manager := s.manager.register, calls := before ++ after }
  | shut (h : s.manager.lifecycle ≠ .closed) :
      Step s .silent
        { s with
          manager := { s.manager with lifecycle := .closed }
          calls := s.calls ++ [.telling] }
  | tell {before after : List Call} (h : s.calls = before ++ .telling :: after) :
      Step s .silent
        { s with manager := s.manager.tellToStop, calls := before ++ .gathering :: after }
  | gather {before after : List Call} (h : s.calls = before ++ .gathering :: after) :
      Step s .silent
        { s with
          manager := { s.manager with workers := [] }
          calls := before ++ .joining s.manager.workers :: after }
  | join {before after : List Call} {parts : List Worker}
      (h : s.calls = before ++ .joining parts :: after)
      (hstop : ∀ w ∈ parts, s.manager.isActive w = false) :
      Step s .silent { s with calls := before ++ after }
  | halt {w : Worker} (h : w ∈ s.manager.halting) (hw : s.manager.listens w = true) :
      Step s .silent { s with manager := s.manager.halt w }

theorem Step.asking {s s' : System} {q : Inquiry} {answer : q.Answer}
    (hs : Step s (.informed q answer) s') : s.manager.poller = .asking q := by
  cases hs with
  | part hm =>
    cases hm with
    | informed hq _ => exact hq

theorem Step.attempting {s s' : System} {a : Attempt} {answer : a.Answer}
    (hs : Step s (.answered a answer) s') : s.manager.sender = .busy a := by
  cases hs with
  | part hm =>
    cases hm with
    | answered ha _ => exact ha

theorem Step.answered_eq {s s' : System} {a : Attempt} {answer : a.Answer}
    (hs : Step s (.answered a answer) s') :
    s' = { s with manager := s.manager.answered s.now a answer } := by
  cases hs with
  | part hm =>
    cases hm with
    | answered _ _ => rfl

theorem Step.informed_eq {s s' : System} {q : Inquiry} {answer : q.Answer}
    (hs : Step s (.informed q answer) s') : s'.manager = s.manager.informed s.now q answer := by
  cases hs with
  | part hm =>
    cases hm with
    | informed _ _ => rfl

theorem Step.now_le {s s' : System} {act : Act} (hs : Step s act s') : s.now ≤ s'.now := by
  cases hs with
  | pass hlater => exact hlater
  | _ => exact Nat.le_refl _

theorem mem_submissions {s : System} {q : Submission} :
    q ∈ s.submissions ↔ .entering q ∈ s.calls := by
  rw [submissions, List.mem_filterMap]
  constructor
  · rintro ⟨c, hc, hq⟩
    cases c <;> cases hq
    exact hc
  · intro hc
    exact ⟨_, hc, rfl⟩

theorem submissions_rest {before after : List Call} {c : Call} (hc : c.submission? = none) :
    (before ++ c :: after).filterMap Call.submission? =
      (before ++ after).filterMap Call.submission? := by
  simp [List.filterMap_append, hc]

/-- What a step does to the requests on their way in and to the manager. A request moves by
itself. Most other steps of a call touch neither a part nor a store. -/
theorem Step.submission_cases {s s' : System} {act : Act} (hs : Step s act s') :
    (∃ before after q answer fresh, act = .proceed q answer fresh ∧
      s.calls = before ++ .entering q :: after ∧
      s' = { s with
        manager := (s.manager.proceed fresh q answer).1
        calls := before ++ (s.manager.proceed fresh q answer).2.calls ++ after }) ∨
    (∃ r, act = .submit r ∧ s' = { s with calls := s.calls ++ [.entering (.probing r)] }) ∨
    s'.submissions = s.submissions ∧ act.submission? = none ∧
      (PartStep s.manager s.now act s'.manager ∨
      (∃ w, s'.manager = s.manager.spawn w) ∨
      (∃ w, s'.manager = s.manager.halt w) ∨
      ∃ lifecycle outletFree workers halting, s'.manager = { s.manager with
        lifecycle := lifecycle, outletFree := outletFree, workers := workers,
        halting := halting }) := by
  cases hs with
  | part hm =>
    have hact : act.submission? = none := by cases hm <;> rfl
    exact .inr (.inr ⟨rfl, hact, .inl hm⟩)
  | pass => exact .inr (.inr ⟨rfl, rfl, .inr (.inr (.inr ⟨_, _, _, _, rfl⟩))⟩)
  | submit hq =>
    cases Manager.submit_eq_ok hq
    exact .inr (.inl ⟨_, rfl, rfl⟩)
  | proceed hc answer fresh => exact .inl ⟨_, _, _, answer, fresh, rfl, hc, rfl⟩
  | begin hm =>
    obtain ⟨-, rfl⟩ := Manager.begin_eq_ok_iff.mp hm
    refine .inr (.inr ⟨?_, rfl, .inr (.inr (.inr ⟨_, _, _, _, rfl⟩))⟩)
    rw [submissions, submissions_rest rfl, List.append_nil, submissions]
  | shut =>
    refine .inr (.inr ⟨?_, rfl, .inr (.inr (.inr ⟨_, _, _, _, rfl⟩))⟩)
    rw [submissions, submissions_rest rfl, List.append_nil, submissions]
  | takeOutlet hc hm =>
    obtain ⟨-, rfl⟩ := Manager.takeOutlet_eq_ok_iff.mp hm
    refine .inr (.inr ⟨?_, rfl, .inr (.inr (.inr ⟨_, _, _, _, rfl⟩))⟩)
    rw [submissions, submissions_rest rfl, submissions, hc, submissions_rest rfl]
  | @spawn _ _ w _ hc =>
    refine .inr (.inr ⟨?_, rfl, .inr (.inl ⟨w, rfl⟩)⟩)
    rw [submissions, submissions_rest rfl, submissions, hc, submissions_rest rfl]
  | tell hc | gather hc =>
    refine .inr (.inr ⟨?_, rfl, .inr (.inr (.inr ⟨_, _, _, _, rfl⟩))⟩)
    rw [submissions, submissions_rest rfl, submissions, hc, submissions_rest rfl]
  | withoutOutlet hc | register hc | join hc =>
    refine .inr (.inr ⟨?_, rfl, .inr (.inr (.inr ⟨_, _, _, _, rfl⟩))⟩)
    rw [submissions, submissions, hc, submissions_rest rfl]
  | @halt w hw hlistens => exact .inr (.inr ⟨rfl, rfl, .inr (.inr (.inl ⟨w, rfl⟩))⟩)

theorem Step.manager_cases {s s' : System} {act : Act} (hs : Step s act s') :
    PartStep s.manager s.now act s'.manager ∨
    (∃ q answer fresh, act = .proceed q answer fresh ∧
      s'.manager = (s.manager.proceed fresh q answer).1) ∨
    (∃ w, s'.manager = s.manager.spawn w) ∨
    (∃ w, s'.manager = s.manager.halt w) ∨
    ∃ lifecycle outletFree workers halting, s'.manager = { s.manager with
      lifecycle := lifecycle, outletFree := outletFree, workers := workers,
      halting := halting } := by
  rcases hs.submission_cases with
    ⟨_, _, q, answer, fresh, hact, -, rfl⟩ | ⟨r, -, rfl⟩ | ⟨-, -, hm | hm⟩
  · exact .inr (.inl ⟨q, answer, fresh, hact, rfl⟩)
  · exact .inr (.inr (.inr (.inr ⟨_, _, _, _, rfl⟩)))
  · exact .inl hm
  · exact .inr (.inr hm)

/-- The states that a system can come to, with what it took from outside on its way. -/
inductive Run (s₀ : System) : List Act → System → Prop
  | start : Run s₀ [] s₀
  | next {acts : List Act} {act : Act} {s s' : System} (h : Run s₀ acts s)
      (hs : Step s act s') : Run s₀ (acts ++ [act]) s'

theorem Run.trans {s₀ s s' : System} {acts later : List Act} (hr : Run s₀ acts s)
    (h : Run s later s') : Run s₀ (acts ++ later) s' := by
  induction h with
  | start => rwa [List.append_nil]
  | next _ hs ih =>
    rw [← List.append_assoc]
    exact ih.next hs

/-- What holds at the start and is kept by every step holds of every run. -/
theorem Run.induct {P : System → Prop} {s₀ s : System} {acts : List Act} (h : Run s₀ acts s)
    (h₀ : P s₀) (hstep : ∀ {s act s'}, P s → Step s act s' → P s') : P s := by
  induction h with
  | start => exact h₀
  | next _ hs ih => exact hstep ih hs

end System

end TronCourier
