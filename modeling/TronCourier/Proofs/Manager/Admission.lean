import TronCourier.Manager.Surroundings
import TronCourier.Proofs.Manager.Idempotence

/-! Taking in a request is all or nothing: it comes with one entry and one copy in the queue, or
leaves no trace but an empty store, also while others work between its steps. -/

namespace TronCourier

/-- The transaction that a request becomes, under a key. -/
def Request.asTx (r : Request) (fresh : String) (key : Option String) : Tx :=
  { Tx.ofRequest (r.id.getD fresh) r with key }

namespace Poller

theorem grant_grant (p : Poller) : p.grant.grant = p.grant := by
  cases p <;> rfl

theorem grant_refuse (p : Poller) : p.refuse.grant = p.refuse := by
  cases p <;> rfl

theorem grant_afterAwaiting (pass : Pass) (rest : List Awaiting) :
    (afterAwaiting pass rest).grant = afterAwaiting pass rest := by
  cases rest <;> rfl

theorem grant_afterSettling (pass : Pass) (rest : List Settling) :
    (afterSettling pass rest).grant = afterSettling pass rest := by
  cases rest <;> rfl

end Poller

namespace Manager

variable {m m' : Manager} {now : Nat}

/-- Nobody waits for a place in the queue while there is one. -/
def Fair (m : Manager) : Prop :=
  m.hasRoom = true → m.poller.grant = m.poller

theorem Fair.of_grant (h : m.poller.grant = m.poller) : m.Fair :=
  fun _ => h

theorem Fair.of_le (h : m.Fair) (hpoller : m'.poller = m.poller)
    (hsettings : m'.settings = m.settings) (hle : m.queueLength ≤ m'.queueLength) : m'.Fair := by
  intro hroom
  have hfewer : m.hasRoom = true := by
    simp only [hasRoom, decide_eq_true_eq, hsettings] at hroom ⊢
    omega
  rw [hpoller]
  exact h hfewer

theorem Heard.grant {q : Inquiry} {answer : q.Answer} {x : Poller} {stores : Address → Store}
    (h : m.Heard now q answer x stores) : x.grant = x := by
  cases h with
  | finalized | displaced | stillSettling => exact Poller.grant_afterSettling _ _
  | confirmed | stillAwaiting => exact Poller.grant_afterAwaiting _ _
  | unsettled | undated | failed => rfl

theorem PollerLeaves.fair {x : Poller} {stores : Address → Store}
    (h : m.PollerLeaves m' x stores) (hx : x.grant = x) : m'.Fair := by
  obtain ⟨⟨accounts, metrics, events, rfl⟩, -⟩ := h
  exact .of_grant hx

theorem fair_requeue {tx : Tx} {rest : List Awaiting} {pass : Pass}
    (hp : m.poller = .requeuing tx rest pass) : (m.requeue tx rest pass).Fair := by
  unfold Manager.requeue
  split
  · exact .of_grant rfl
  · split
    · exact .of_grant (Poller.grant_afterAwaiting _ _)
    · rename_i hfull
      intro hroom
      have hlength : ({ m with poller := .blocked tx rest pass } : Manager).queueLength =
          m.queueLength := by
        simp only [queueLength, hp]
      unfold hasRoom at hfull hroom
      rw [hlength] at hroom
      exact (hfull hroom).elim

theorem fair_deliver (h : m.Fair) (tx : Tx) : (m.deliver tx).1.Fair := by
  refine h.of_le rfl rfl ?_
  have hlength : (m.deliver tx).1.queue.length = m.queue.length + 1 := by simp [deliver, count]
  have hpromised : (m.deliver tx).1.promised = m.promised - 1 := rfl
  have hpoller : (m.deliver tx).1.poller = m.poller := rfl
  simp only [queueLength, hlength, hpromised, hpoller]
  omega

theorem Fair.proceed (h : m.Fair) (fresh : String) (q : Submission) (answer : q.Answer) :
    (m.proceed fresh q answer).1.Fair := by
  cases q with
  | probing r =>
    rcases answer with e | signature
    · exact h
    · simp only [Manager.proceed]
      split
      · split
        · exact h
        · exact h
      · exact h
  | checking r message =>
    rcases answer with e | retries
    · exact h
    · simp only [Manager.proceed]
      split
      · exact h
      · exact h
  | reserving tx =>
    show (m.reserve tx).1.Fair
    rcases m.reserve_eq tx with hp | hp | hp
    · rw [hp]
      exact h
    · rw [hp]
      exact h
    · rw [hp]
      exact h.of_le rfl rfl (by simp only [queueLength]; omega)
  | admitting tx =>
    show (m.takeIn tx).1.Fair
    unfold takeIn
    split
    · exact .of_grant (Poller.grant_grant _)
    · exact .of_grant (Poller.grant_grant _)
    · exact h
  | delivering tx => exact fair_deliver h tx

end Manager

open Manager in
theorem PartStep.fair {m m' : Manager} {now : Nat} {act : Act} (hs : PartStep m now act m')
    (h : m.Fair) : m'.Fair := by
  cases hs with
  | take hm =>
    obtain ⟨tx, rest, metrics, -, -, rfl⟩ := take?_eq_some hm
    exact .of_grant (Poller.grant_grant _)
  | @answered a ha answer =>
    obtain ⟨x, stores, ⟨⟨_, _, _, _, hm⟩, -⟩⟩ := m.answered_leaves now a answer
    rw [hm]
    exact h
  | wake | beginSweep | sweep | endSweep => exact h
  | beginPass | endPass => exact .of_grant rfl
  | survey => exact .of_grant (Poller.grant_afterSettling _ _)
  | collect | usePlace => exact .of_grant (Poller.grant_afterAwaiting _ _)
  | @informed q hq answer =>
    obtain ⟨x, stores, hm, hx⟩ := m.heard_informed now q answer
    exact hm.fair hx.grant
  | @afterFailure tx reason next rest pass hp =>
    rcases m.afterFailure_cases now tx reason next rest pass with
      hm | ⟨kind, ⟨s, -, hm⟩ | ⟨e, -, hm⟩⟩
    · exact hm.fair (Poller.grant_afterAwaiting _ _)
    · exact hm.fair rfl
    · exact hm.fair (Poller.grant_afterAwaiting _ _)
  | requeue hp => exact fair_requeue hp
  | withoutPlace => exact .of_grant (Poller.grant_afterAwaiting _ _)

theorem System.Step.fair {s s' : System} {act : Act} (hs : System.Step s act s')
    (h : s.manager.Fair) : s'.manager.Fair := by
  rcases hs.manager_cases with
    hm | ⟨q, answer, fresh, -, hm⟩ | ⟨w, hm⟩ | ⟨w, hm⟩ | ⟨_, _, _, _, hm⟩
  · exact hm.fair h
  · rw [hm]
    exact h.proceed fresh q answer
  · rw [hm]
    cases w with
    | sender | reaper => exact h
    | poller => exact .of_grant rfl
  · rw [hm]
    cases w with
    | sender => exact .of_grant (Poller.grant_refuse _)
    | poller => exact .of_grant rfl
    | reaper => exact h
  · rw [hm]
    exact h

open Manager in
theorem System.Run.fair {settings : Settings} {on : Bool} {m : Manager} {now : Nat} {s : System}
    {acts : List Act} (hm : ofSettings settings on = .ok m)
    (hr : System.Run { manager := m, now } acts s) : s.manager.Fair := by
  obtain ⟨-, rfl⟩ := System.ofSettings_eq_ok hm
  exact hr.induct (P := fun s => s.manager.Fair) (.of_grant rfl) fun h hs => hs.fair h

namespace Manager

variable {σ : Type} {w : Surroundings σ} {m m' : Manager} {r : Request} {tx : Tx} {fresh : String}

def Error.ofStore : StoreError → Error
  | .duplicateKey key => .duplicateSubmission key
  | e => .store e

def checked? (m : Manager) (r : Request) : Option String :=
  if m.checksMessages then r.about.bind Meta.soleMessage? else none

/-- The key of a request about a message, from what the record of messages tells of it. -/
def keyed (m : Manager) (r : Request) (message : String) :
    Except String Nat → Except Error (Option String)
  | .error reason => .error (.statusCheck reason)
  | .ok retries =>
    let key := idempotencyKey message retries
    if (m.store r.sender).keys.contains key then .error (.duplicateSubmission key)
    else .ok (some key)

/-- What is looked at before there is need of a place in the queue: the request, its sender's
key and its message. It gives the key that the transaction is to have. -/
def clearance (w : Surroundings σ) (m : Manager) (r : Request) :
    StateM σ (Except Error (Option String)) :=
  match m.submit r with
  | .error e => return .error e
  | .ok _ => do
    match ← w.sign r.sender none with
    | .error e => return .error (.unknownSigner r.sender e)
    | .ok _ =>
      match m.checked? r with
      | some message => return m.keyed r message (← w.retries message)
      | none => return .ok none

def admission (m : Manager) (tx : Tx) : Except Error Store :=
  if !m.queueOpen then .error .closed
  else if !m.hasRoom then .error (.queueFull m.settings.queueCapacity)
  else ((m.store tx.sender).addPending tx).mapError Error.ofStore

/-- A manager that a transaction has come to, in its store and in the queue. -/
def admitted (m : Manager) (tx : Tx) (s : Store) : Manager :=
  { m with
    accounts := m.accounts.set tx.sender s
    queue := m.queue ++ [tx]
    metrics := { m.metrics with
      enqueued := m.metrics.enqueued + 1, queueDepth := m.queueLength + 1 }
    events := m.events ++ [.enqueued tx] }

theorem store_admitted (m : Manager) (tx : Tx) (s : Store) :
    (m.admitted tx s).store = Function.update m.store tx.sender s :=
  m.accounts.store_set tx.sender s

/-- At most an empty store was made for an account. -/
def Declines (m : Manager) (a : Address) (m' : Manager) : Prop :=
  ∃ accounts, (accounts = m.accounts ∨ accounts = m.accounts.ensure a) ∧
    m' = { m with accounts := accounts }

theorem declines_refl (m : Manager) (a : Address) : m.Declines a m :=
  ⟨m.accounts, .inl rfl, rfl⟩

theorem declines_ensure (m : Manager) (a : Address) :
    m.Declines a { m with accounts := m.accounts.ensure a } :=
  ⟨_, .inr rfl, rfl⟩

theorem Declines.store_eq {a : Address} (h : m.Declines a m') : m'.store = m.store := by
  obtain ⟨accounts, rfl | rfl, rfl⟩ := h
  · rfl
  · exact m.store_ensure a

theorem takeIn_error {e : StoreError} (h : (m.store tx.sender).addPending tx = .error e) :
    m.takeIn tx = (m.release, .rejected (.ofStore e)) := by
  unfold takeIn
  rw [h]
  cases e <;> rfl

theorem takeIn_ok {s : Store} (h : (m.store tx.sender).addPending tx = .ok s) :
    m.takeIn tx = ((m.setStore tx.sender s).record (.enqueued tx), .waiting (.delivering tx)) := by
  unfold takeIn
  rw [h]

/-- A place that is taken when nobody waits for one is as free as before when it is given
back. -/
theorem takeIn_promised_error (hfair : m.Fair) (hroom : m.hasRoom = true) {e : StoreError}
    (h : (m.store tx.sender).addPending tx = .error e) :
    ({ m with promised := m.promised + 1 } : Manager).takeIn tx = (m, .rejected (.ofStore e)) := by
  have hback : ({ m with promised := m.promised + 1 } : Manager).release = m := by
    simp only [release, hfair hroom, Nat.add_sub_cancel]
  rw [takeIn_error (m := { m with promised := m.promised + 1 }) h, hback]

theorem deliver_promised (m : Manager) (tx : Tx) (s : Store) :
    ((({ m with promised := m.promised + 1 } : Manager).setStore tx.sender s).record
      (.enqueued tx)).deliver tx = (m.admitted tx s, .accepted tx.id) := by
  have hlength : ({ m with queue := m.queue ++ [tx] } : Manager).queueLength =
      m.queueLength + 1 := by
    simp only [queueLength, List.length_append, List.length_singleton]
    omega
  have hdepth : (({ m with queue := m.queue ++ [tx] } : Manager).queueLength : Int) =
      m.queueLength + 1 := by
    rw [hlength, Nat.cast_succ]
  simp only [deliver, admitted, setStore, record, count, Nat.add_sub_cancel, ← hdepth]
  rfl

theorem settle_accepted (w : Surroundings σ) (fresh : String) (steps : Nat) (m : Manager)
    (id : String) : settle w fresh steps m (.accepted id) = pure (m, .accepted id) := by
  cases steps <;> rfl

theorem settle_delivering (w : Surroundings σ) (fresh : String) (steps : Nat) (m : Manager)
    (tx : Tx) : settle w fresh (steps + 1) m (.waiting (.delivering tx)) = pure (m.deliver tx) := by
  show settle w fresh steps (m.deliver tx).1 (.accepted tx.id) = _
  rw [settle_accepted]
  rfl

theorem settle_waiting (w : Surroundings σ) (fresh : String) (steps : Nat) (m : Manager)
    (q : Submission) {answer : q.Answer} {t t' : σ} (h : (q.ask w).run t = (answer, t')) :
    (settle w fresh (steps + 1) m (.waiting q)).run t =
      (settle w fresh steps (m.proceed fresh q answer).1 (m.proceed fresh q answer).2).run t' := by
  show (settle w fresh steps (m.proceed fresh q ((q.ask w).run t).1).1
    (m.proceed fresh q ((q.ask w).run t).1).2).run ((q.ask w).run t).2 = _
  rw [h]

theorem settle_reserving (hfair : m.Fair) (w : Surroundings σ) (tx : Tx) (steps : Nat) (t : σ) :
    ((settle w fresh (steps + 3) m (.waiting (.reserving tx))).run t).1 =
      match m.admission tx with
      | .error e => (m, .rejected e)
      | .ok s => (m.admitted tx s, .accepted tx.id) := by
  show ((settle w fresh (steps + 2) (m.reserve tx).1 (m.reserve tx).2).run t).1 = _
  by_cases hopen : m.queueOpen = true
  · by_cases hroom : m.hasRoom = true
    · -- a place is taken, and then kept or given back by the store
      have hreserve : m.reserve tx =
          ({ m with promised := m.promised + 1 }, .waiting (.admitting tx)) := by
        simp [reserve, hopen, hroom]
      have hadmission : m.admission tx =
          ((m.store tx.sender).addPending tx).mapError .ofStore := by
        simp [admission, hopen, hroom]
      rw [hreserve, hadmission]
      show ((settle w fresh (steps + 1) (takeIn { m with promised := m.promised + 1 } tx).1
        (takeIn { m with promised := m.promised + 1 } tx).2).run t).1 = _
      cases hs : (m.store tx.sender).addPending tx with
      | error e =>
        rw [takeIn_promised_error hfair hroom hs]
        rfl
      | ok s =>
        rw [takeIn_ok (m := { m with promised := m.promised + 1 }) hs]
        rw [settle_delivering, deliver_promised]
        rfl
    · simp only [reserve, admission, hopen, hroom, Bool.not_true, Bool.not_false,
        Bool.false_eq_true, if_true, if_false]
      rfl
  · simp only [reserve, admission, hopen, Bool.not_false, if_true]
    rfl

def knowing (m : Manager) (r : Request) : Manager :=
  { m with accounts := m.accounts.ensure r.sender }

theorem store_knowing (m : Manager) (r : Request) : (m.knowing r).store = m.store :=
  m.store_ensure r.sender

theorem admission_knowing (m : Manager) (r : Request) (tx : Tx) :
    (m.knowing r).admission tx = m.admission tx := by
  have hroom : (m.knowing r).hasRoom = m.hasRoom := rfl
  have hopen : (m.knowing r).queueOpen = m.queueOpen := rfl
  have hsettings : (m.knowing r).settings = m.settings := rfl
  rw [admission, admission, store_knowing, hroom, hopen, hsettings]

theorem proceed_probing (m : Manager) (r : Request) (signature : Bytes) (fresh : String) :
    m.proceed fresh (.probing r) (.ok signature) = (m.knowing r, match m.checked? r with
      | some message => .waiting (.checking r message)
      | none => prepare r none fresh) := by
  cases hsole : r.about.bind Meta.soleMessage? with
  | none =>
    have hnone : m.checked? r = none := by simp [checked?, hsole]
    simp only [proceed, hsole, hnone]
    rfl
  | some message =>
    by_cases hon : m.checksMessages = true
    · have hsome : m.checked? r = some message := by simp [checked?, hon, hsole]
      simp only [proceed, hsole, hsome]
      exact if_pos hon
    · have hnone : m.checked? r = none := by simp [checked?, hon]
      simp only [proceed, hsole, hnone]
      exact if_neg hon

theorem proceed_checking (m : Manager) (r : Request) (message : String)
    (told : (Submission.checking r message).Answer) (fresh : String) :
    m.proceed fresh (.checking r message) told = (m, match m.keyed r message told with
      | .error e => .rejected e
      | .ok key => prepare r key fresh) := by
  cases told with
  | error reason => rfl
  | ok retries =>
    simp only [proceed, keyed]
    split
    · rfl
    · rfl

theorem keyed_knowing (m : Manager) (r : Request) : (m.knowing r).keyed r = m.keyed r := by
  funext message told
  cases told with
  | error reason => rfl
  | ok retries => simp only [keyed, store_knowing]

section Clearance

variable {t t₁ t₂ : σ} {signature : Bytes} {message : String}

theorem clearance_unsigned (hr : m.submit r = .ok (.probing r)) {e : KeystoreError}
    (hsign : (w.sign r.sender none).run t = (.error e, t₁)) :
    ((m.clearance w r).run t).1 = .error (.unknownSigner r.sender e) := by
  simp only [clearance, hr, StateT.run_bind, hsign]
  rfl

theorem clearance_unchecked (hr : m.submit r = .ok (.probing r))
    (hsign : (w.sign r.sender none).run t = (.ok signature, t₁)) (hnone : m.checked? r = none) :
    ((m.clearance w r).run t).1 = .ok none := by
  simp only [clearance, hr, StateT.run_bind, hsign, hnone]
  rfl

theorem clearance_checked (hr : m.submit r = .ok (.probing r))
    (hsign : (w.sign r.sender none).run t = (.ok signature, t₁))
    (hsome : m.checked? r = some message) {told : Except String Nat}
    (hretries : (w.retries message).run t₁ = (told, t₂)) :
    ((m.clearance w r).run t).1 = m.keyed r message told := by
  simp only [clearance, hr, StateT.run_bind, hsign, hsome]
  show m.keyed r message ((w.retries message).run t₁).1 = _
  rw [hretries]

end Clearance

theorem settle_knowing (hfair : m.Fair) (w : Surroundings σ) (r : Request) (key : Option String)
    (steps : Nat) (t : σ) :
    ((settle w fresh (steps + 3) (m.knowing r) (prepare r key fresh)).run t).1 =
      match m.admission (r.asTx fresh key) with
      | .error e => (m.knowing r, .rejected e)
      | .ok s => ((m.knowing r).admitted (r.asTx fresh key) s, .accepted (r.id.getD fresh)) := by
  have hfair' : (m.knowing r).Fair := hfair
  rw [← admission_knowing m r]
  exact settle_reserving hfair' w (r.asTx fresh key) steps t

/-- The checks come first, then the queue, then the store. Each of them may turn the request
away. -/
theorem enqueue_eq (hfair : m.Fair) (w : Surroundings σ) (r : Request) (fresh : String) (t : σ) :
    ∃ m₁, m.Declines r.sender m₁ ∧ ((m.enqueue w r fresh).run t).1 =
      match ((m.clearance w r).run t).1 with
      | .error e => (m₁, .rejected e)
      | .ok key => match m.admission (r.asTx fresh key) with
        | .error e => (m₁, .rejected e)
        | .ok s => ((m.knowing r).admitted (r.asTx fresh key) s,
            .accepted (r.id.getD fresh)) := by
  cases hr : m.submit r with
  | error e =>
    refine ⟨m, m.declines_refl _, ?_⟩
    simp only [enqueue, clearance, hr]
    rfl
  | ok q =>
    obtain rfl := submit_eq_ok hr
    have hstart : m.enqueue w r fresh = settle w fresh 5 m (.waiting (.probing r)) := by
      simp only [enqueue, hr]
    rw [hstart]
    cases hsign : (w.sign r.sender none).run t with
    | mk signed t₁ =>
      rw [settle_waiting w fresh 4 m (.probing r) hsign]
      cases signed with
      | error e =>
        rw [clearance_unsigned hr hsign]
        exact ⟨m, m.declines_refl _, rfl⟩
      | ok signature =>
        refine ⟨m.knowing r, m.declines_ensure _, ?_⟩
        rw [proceed_probing]
        cases hchecked : m.checked? r with
        | none =>
          rw [clearance_unchecked hr hsign hchecked]
          exact settle_knowing hfair w r none 1 t₁
        | some message =>
          cases hretries : ((Submission.checking r message).ask w).run t₁ with
          | mk told t₂ =>
            rw [clearance_checked hr hsign hchecked hretries,
              settle_waiting w fresh 3 (m.knowing r) (.checking r message) hretries,
              proceed_checking, keyed_knowing]
            cases hkey : m.keyed r message told with
            | error e => rfl
            | ok key => exact settle_knowing hfair w r key 0 t₂

theorem admission_eq_ok_iff {s : Store} : m.admission tx = .ok s ↔
    m.queueOpen = true ∧ m.hasRoom = true ∧ (m.store tx.sender).addPending tx = .ok s := by
  unfold admission
  by_cases hopen : m.queueOpen = true
  · by_cases hroom : m.hasRoom = true
    · simp [hopen, hroom, mapError_eq_ok_iff]
    · simp [hopen, hroom]
  · simp [hopen]

theorem admission_full (hopen : m.queueOpen = true) (hroom : m.hasRoom = false) :
    m.admission tx = .error (.queueFull m.settings.queueCapacity) := by
  simp [admission, hopen, hroom]

theorem admission_refused (hopen : m.queueOpen = true) (hroom : m.hasRoom = true) {e : StoreError}
    (he : (m.store tx.sender).addPending tx = .error e) :
    m.admission tx = .error (.ofStore e) := by
  simp [admission, hopen, hroom, he, Except.mapError]

/-- A request on its way in, with the managers that each of its steps finds and leaves. Others
may work between the steps. -/
inductive Journey (fresh : String) : Submission → List (Manager × Manager) → Progress → Prop
  | last {m : Manager} {q : Submission} (answer : q.Answer)
      (hend : ∀ q', (m.proceed fresh q answer).2 ≠ .waiting q') :
      Journey fresh q [(m, (m.proceed fresh q answer).1)] (m.proceed fresh q answer).2
  | next {m : Manager} {q q' : Submission} (answer : q.Answer)
      (hon : (m.proceed fresh q answer).2 = .waiting q') {steps : List (Manager × Manager)}
      {p : Progress} (h : Journey fresh q' steps p) :
      Journey fresh q ((m, (m.proceed fresh q answer).1) :: steps) p

/-- What the steps of a request come to when it is turned away, or gives a place back, or comes
in with the entry and the copy of one transaction. -/
inductive Whole (fresh : String) (r : Request) : List (Manager × Manager) → Progress → Prop
  | declined {m m' : Manager} (h : m.Declines r.sender m') (e : Error) :
      Whole fresh r [(m, m')] (.rejected e)
  | givenBack (m m' : Manager) (e : Error) :
      Whole fresh r [(m, { m with promised := m.promised + 1 }), (m', m'.release)] (.rejected e)
  | accepted {key : Option String} {tx : Tx}
      (htx : tx = r.asTx fresh key) (m₁ m₃ : Manager)
      {m₂ : Manager} {s : Store} (hs : (m₂.store tx.sender).addPending tx = .ok s) :
      Whole fresh r [(m₁, { m₁ with promised := m₁.promised + 1 }),
        (m₂, (m₂.setStore tx.sender s).record (.enqueued tx)), (m₃, (m₃.deliver tx).1)]
        (.accepted (r.id.getD fresh))
  | later {m m' : Manager} (h : m.Declines r.sender m') {steps : List (Manager × Manager)}
      {p : Progress} (hrest : Whole fresh r steps p) : Whole fresh r ((m, m') :: steps) p

section Journey

variable {steps : List (Manager × Manager)} {p : Progress}

theorem Journey.delivering (h : Journey fresh (.delivering tx) steps p) :
    ∃ m : Manager, steps = [(m, (m.deliver tx).1)] ∧ p = .accepted tx.id := by
  cases h with
  | last => exact ⟨_, rfl, rfl⟩
  | next answer hon => cases hon

theorem Journey.admitting (h : Journey fresh (.admitting tx) steps p) :
    (∃ (m : Manager) (e : Error), steps = [(m, m.release)] ∧ p = .rejected e) ∨
    ∃ (m m' : Manager) (s : Store), (m.store tx.sender).addPending tx = .ok s ∧
      steps = [(m, (m.setStore tx.sender s).record (.enqueued tx)), (m', (m'.deliver tx).1)] ∧
      p = .accepted tx.id := by
  have htake (m : Manager) (answer : (Submission.admitting tx).Answer) :
      m.proceed fresh (.admitting tx) answer = m.takeIn tx := rfl
  cases h with
  | @last m _ answer hend =>
    rw [htake] at hend ⊢
    cases hs : (m.store tx.sender).addPending tx with
    | error e =>
      rw [takeIn_error hs]
      exact .inl ⟨m, _, rfl, rfl⟩
    | ok s =>
      rw [takeIn_ok hs] at hend
      exact (hend _ rfl).elim
  | @next m _ q' answer hon steps _ h =>
    rw [htake] at hon ⊢
    cases hs : (m.store tx.sender).addPending tx with
    | error e =>
      rw [takeIn_error hs] at hon
      cases hon
    | ok s =>
      rw [takeIn_ok hs] at hon ⊢
      cases hon
      obtain ⟨m', rfl, rfl⟩ := h.delivering
      exact .inr ⟨m, m', s, hs, rfl, rfl⟩

theorem Journey.reserving {key : Option String}
    (h : Journey fresh (.reserving (r.asTx fresh key)) steps p) :
    Whole fresh r steps p := by
  generalize htx : r.asTx fresh key = tx at h
  have htake (m : Manager) (answer : (Submission.reserving tx).Answer) :
      m.proceed fresh (.reserving tx) answer = m.reserve tx := rfl
  have hid : tx.id = r.id.getD fresh := by rw [← htx]; rfl
  cases h with
  | @last m _ answer hend =>
    rw [htake] at hend ⊢
    rcases m.reserve_eq tx with hp | hp | hp
    · rw [hp]
      exact .declined (m.declines_refl _) _
    · rw [hp]
      exact .declined (m.declines_refl _) _
    · rw [hp] at hend
      exact (hend _ rfl).elim
  | @next m _ q' answer hon steps _ h =>
    rw [htake] at hon ⊢
    rcases m.reserve_eq tx with hp | hp | hp
    · rw [hp] at hon
      cases hon
    · rw [hp] at hon
      cases hon
    · rw [hp] at hon ⊢
      cases hon
      rcases h.admitting with ⟨m', e, rfl, rfl⟩ | ⟨m₂, m₃, s, hs, rfl, rfl⟩
      · exact .givenBack m m' e
      · rw [hid]
        exact .accepted htx.symm m m₃ hs

theorem Journey.checking {message : String} (h : Journey fresh (.checking r message) steps p) :
    Whole fresh r steps p := by
  cases h with
  | @last m _ answer hend =>
    rw [proceed_checking] at hend ⊢
    cases hkey : m.keyed r message answer with
    | error e => exact .declined (m.declines_refl _) e
    | ok key =>
      rw [hkey] at hend
      exact (hend _ rfl).elim
  | @next m _ q' answer hon steps _ h =>
    rw [proceed_checking] at hon ⊢
    cases hkey : m.keyed r message answer with
    | error e =>
      rw [hkey] at hon
      cases hon
    | ok key =>
      rw [hkey] at hon
      cases hon
      exact .later (m.declines_refl _) h.reserving

theorem Journey.probing (h : Journey fresh (.probing r) steps p) : Whole fresh r steps p := by
  cases h with
  | @last m _ answer hend =>
    rcases answer with e | signature
    · exact .declined (m.declines_refl _) _
    · rw [proceed_probing] at hend
      cases hchecked : m.checked? r with
      | none =>
        rw [hchecked] at hend
        exact (hend _ rfl).elim
      | some message =>
        rw [hchecked] at hend
        exact (hend _ rfl).elim
  | @next m _ q' answer hon steps _ h =>
    rcases answer with e | signature
    · cases hon
    · rw [proceed_probing] at hon ⊢
      cases hchecked : m.checked? r with
      | none =>
        rw [hchecked] at hon
        cases hon
        exact .later (m.declines_ensure _) h.reserving
      | some message =>
        rw [hchecked] at hon
        cases hon
        exact .later (m.declines_ensure _) h.checking

end Journey

end Manager

namespace System

open Manager

variable {settings : Settings} {on : Bool} {m : Manager} {now : Nat} {s : System}
  {acts : List Act}

/-- In whatever state a manager is, a request that it turns away leaves everything as it was but
for an empty store, and one that it accepts adds one pending entry to its sender's store, one
equal copy to the queue and one to the count. A request that passes the checks is turned away
for want of a place, or because its store does not take it in, and then the place is free again.
Where others work between the steps of a request, each of its steps leaves the manager that it
finds as it was, but for a place that is taken and given back, or for the entry and the copy. -/
theorem enqueue_all_or_nothing (hm : ofSettings settings on = .ok m)
    (hr : Run { manager := m, now } acts s) :
    (∀ {σ : Type} (w : Surroundings σ) (t : σ) (r : Request) (fresh : String),
      let before := s.manager
      let after := ((before.enqueue w r fresh).run t).1.1
      let progress := ((before.enqueue w r fresh).run t).1.2
      let cleared := ((before.clearance w r).run t).1
      (∀ q, progress ≠ .waiting q) ∧
      (∀ e, progress = .rejected e →
        before.Declines r.sender after ∧ after.store = before.store) ∧
      (∀ id, progress = .accepted id → ∃ key store, cleared = .ok key ∧
        (r.asTx fresh key).id = id ∧ (r.asTx fresh key).attempt = 1 ∧
        (r.asTx fresh key).stage = .pending ∧
        (before.store r.sender).stage? id = none ∧
        (before.store r.sender).addPending (r.asTx fresh key) = .ok store ∧
        store.entries = (before.store r.sender).entries.insert id { tx := r.asTx fresh key } ∧
        after.store = Function.update before.store r.sender store ∧
        after = { before with
          accounts := (before.accounts.ensure r.sender).set r.sender store
          queue := before.queue ++ [r.asTx fresh key]
          metrics := { before.metrics with
            enqueued := before.metrics.enqueued + 1, queueDepth := before.queueLength + 1 }
          events := before.events ++ [.enqueued (r.asTx fresh key)] }) ∧
      (∀ e, cleared = .error e → progress = .rejected e) ∧
      (∀ key, cleared = .ok key → before.queueOpen = true → before.hasRoom = false →
        progress = .rejected (.queueFull before.settings.queueCapacity)) ∧
      ∀ key e, cleared = .ok key → before.queueOpen = true → before.hasRoom = true →
        (before.store r.sender).addPending (r.asTx fresh key) = .error e →
        progress = .rejected (.ofStore e)) ∧
    ∀ r fresh steps p, Journey fresh (.probing r) steps p → Whole fresh r steps p := by
  refine ⟨fun w t r fresh => ?_, fun r fresh steps p h => h.probing⟩
  obtain ⟨m₁, hdeclines, heq⟩ := enqueue_eq (hr.fair hm) w r fresh t
  intro before after progress cleared
  have hresult : ((before.enqueue w r fresh).run t).1 = (after, progress) := rfl
  rw [hresult, show ((s.manager.clearance w r).run t).1 = cleared from rfl] at heq
  cases hc : cleared with
  | error e =>
    simp only [hc, Prod.mk.injEq] at heq
    obtain ⟨hafter, hprogress⟩ := heq
    rw [hafter, hprogress]
    refine ⟨nofun, fun _ _ => ⟨hdeclines, hdeclines.store_eq⟩, nofun, ?_, nofun, nofun⟩
    rintro _ ⟨⟩
    rfl
  | ok key =>
    simp only [hc] at heq
    cases ha : s.manager.admission (r.asTx fresh key) with
    | error e =>
      simp only [ha, Prod.mk.injEq] at heq
      obtain ⟨hafter, hprogress⟩ := heq
      rw [hafter, hprogress]
      refine ⟨nofun, fun _ _ => ⟨hdeclines, hdeclines.store_eq⟩, nofun, nofun, ?_, ?_⟩
      · rintro _ ⟨⟩ hopen hroom
        rw [admission_full hopen hroom, Except.error.injEq] at ha
        rw [ha]
      · rintro _ e' ⟨⟩ hopen hroom he
        rw [admission_refused hopen hroom he, Except.error.injEq] at ha
        rw [ha]
    | ok store =>
      simp only [ha, Prod.mk.injEq] at heq
      obtain ⟨hafter, hprogress⟩ := heq
      obtain ⟨hopen, hroom, hs⟩ := admission_eq_ok_iff.mp ha
      obtain ⟨hnone, -, hstore⟩ := Store.addPending_eq_ok_iff.mp hs
      rw [hafter, hprogress]
      refine ⟨nofun, nofun, ?_, nofun, ?_, ?_⟩
      · rintro _ ⟨⟩
        have hnew := Store.stage?_eq_none_iff.mpr hnone
        refine ⟨key, store, rfl, rfl, rfl, rfl, hnew, hs, ?_, ?_, rfl⟩
        · rw [hstore]
          rfl
        · show ((s.manager.knowing r).admitted (r.asTx fresh key) store).store = _
          rw [store_admitted, store_knowing]
          rfl
      · rintro _ ⟨⟩ _ hfull
        rw [hroom] at hfull
        cases hfull
      · rintro _ e ⟨⟩ _ _ he
        have hs : (s.manager.store r.sender).addPending (r.asTx fresh key) = .ok store := hs
        rw [hs] at he
        cases he

/-- Surroundings in which every key is at hand and nothing is heard from a node. -/
def unheardSample : Surroundings Unit :=
  let unheard {α : Type} : StateM Unit (Except Node.Error α) := pure (.error .estimateUnsupported)
  { estimate := fun _ => unheard
    dryRun := fun _ => unheard
    prices := unheard
    block := unheard
    broadcast := fun _ => unheard
    receipt := fun _ _ => unheard
    sign := fun _ _ => pure (.ok [])
    retries := fun _ => pure (.ok 0) }

def narrowSample : Settings :=
  { queueCapacity := 1 }

/-- There is a place for one request, and the next one finds none. -/
theorem enqueue_all_or_nothing_fullSample :
    ∃ m acts s, ofSettings narrowSample false = .ok m ∧
      Run { manager := m, now := 0 } acts s ∧
      (∃ store, ((m.enqueue unheardSample sampleRequest "").run ()).1.1.store =
        Function.update m.store sampleRequest.sender store) ∧
      ((s.manager.enqueue unheardSample { sampleRequest with id := some "u" } "").run ()).1.2 =
        .rejected (.queueFull 1) ∧
      ((s.manager.enqueue unheardSample { sampleRequest with id := some "u" } "").run ()).1.1.store
        = s.manager.store := by
  have hfault : narrowSample.fault? = none := by decide +kernel
  have hm : ofSettings narrowSample false =
      .ok { settings := narrowSample, estimator := .ofSettings narrowSample } := by
    rw [ofSettings, Settings.validate, hfault]
  have h₀ : Run { manager :=
    { settings := narrowSample, estimator := .ofSettings narrowSample }, now := 0 } [] _ := .start
  have h₁ := h₀.next (.submit (r := sampleRequest) (q := .probing sampleRequest) rfl)
  have h₂ := h₁.next (@Step.proceed _ [] [] (.probing sampleRequest) rfl (.ok []) "")
  have h₃ := h₂.next (@Step.proceed _ [] [] (.reserving _) rfl () "")
  have h₄ := h₃.next (@Step.proceed _ [] [] (.admitting _) rfl () "")
  have h₅ := h₄.next (@Step.proceed _ [] [] (.delivering _) rfl () "")
  obtain ⟨-, -, haccepted, -⟩ :=
    (enqueue_all_or_nothing hm h₀).1 unheardSample () sampleRequest ""
  obtain ⟨-, hrejected, -, -, hfull, -⟩ := (enqueue_all_or_nothing hm h₅).1 unheardSample ()
    { sampleRequest with id := some "u" } ""
  obtain ⟨key, store, -, -, -, -, -, -, -, hstore, -⟩ := haccepted "t" rfl
  have hnone := hfull none rfl rfl rfl
  exact ⟨_, _, _, hm, h₅, ⟨store, hstore⟩, hnone, (hrejected _ hnone).2⟩

end System

end TronCourier
