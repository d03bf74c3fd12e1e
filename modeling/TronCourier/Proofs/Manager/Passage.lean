import TronCourier.Proofs.Manager.Custody

/-! Runs that a system can make when nobody is in the way: a request comes in, the manager
starts, and a transaction is brought to the node. -/

namespace TronCourier.System

open Manager

variable {s₀ s : System} {acts : List Act} {tx : Tx}

theorem Run.proceed (hr : Run s₀ acts s) {calls : List Call} {q : Submission}
    (hc : s.calls = calls ++ [Call.entering q]) {answer : q.Answer} {fresh : String}
    {m : Manager} {p : Progress} (hp : s.manager.proceed fresh q answer = (m, p)) :
    Run s₀ (acts ++ [Act.proceed q answer fresh])
      { s with manager := m, calls := calls ++ p.calls } := by
  have h := hr.next (Step.proceed hc answer fresh)
  rwa [hp, List.append_nil] at h

section Request

variable {r : Request}

/-- A request whose message is not checked comes to ask for a place in the queue. -/
theorem Run.prepare (h : Run s₀ acts s) (hr : s.manager.submit r = .ok (.probing r))
    (hchecks : s.manager.checksMessages = true → r.about.bind Meta.soleMessage? = none)
    (signature : Bytes) (fresh : String) :
    Run s₀ (acts ++ [Act.submit r, Act.proceed (.probing r) (.ok signature) fresh])
      { s with
        manager := { s.manager with accounts := s.manager.accounts.ensure r.sender }
        calls := s.calls ++ [Call.entering (.reserving (Tx.ofRequest (r.id.getD fresh) r))] } := by
  have hp : s.manager.proceed fresh (.probing r) (.ok signature) =
      ({ s.manager with accounts := s.manager.accounts.ensure r.sender },
        .waiting (.reserving (Tx.ofRequest (r.id.getD fresh) r))) := by
    simp only [Manager.proceed]
    split
    · rename_i message hsole
      have hoff : ¬ s.manager.checksMessages = true := fun hon => by
        rw [hchecks hon] at hsole
        cases hsole
      exact if_neg hoff
    · rfl
  have h := (h.next (Step.submit hr)).proceed rfl hp
  rwa [List.append_assoc] at h

/-- A request comes to ask how often its message was sent again. -/
theorem Run.probe (h : Run s₀ acts s) (hr : s.manager.submit r = .ok (.probing r))
    {message : String} (hsole : r.about.bind Meta.soleMessage? = some message)
    (hchecks : s.manager.checksMessages = true) (signature : Bytes) (fresh : String) :
    Run s₀ (acts ++ [Act.submit r, Act.proceed (.probing r) (.ok signature) fresh])
      { s with
        manager := { s.manager with accounts := s.manager.accounts.ensure r.sender }
        calls := s.calls ++ [Call.entering (.checking r message)] } := by
  have hprobed : s.manager.proceed fresh (.probing r) (.ok signature) =
      ({ s.manager with accounts := s.manager.accounts.ensure r.sender },
        .waiting (.checking r message)) := by
    simp only [Manager.proceed]
    rw [hsole]
    exact if_pos hchecks
  have h := (h.next (Step.submit hr)).proceed rfl hprobed
  rwa [List.append_assoc] at h

/-- A request whose message is new to the store comes to ask for a place in the queue. -/
theorem Run.check (h : Run s₀ acts s) (hr : s.manager.submit r = .ok (.probing r))
    {message : String} (hsole : r.about.bind Meta.soleMessage? = some message)
    (hchecks : s.manager.checksMessages = true) (signature : Bytes) (retries : Nat)
    (hkey : (s.manager.store r.sender).keys.get? (idempotencyKey message retries) = none)
    (fresh : String) :
    Run s₀ (acts ++ [Act.submit r, Act.proceed (.probing r) (.ok signature) fresh,
        Act.proceed (.checking r message) (.ok retries) fresh])
      { s with
        manager := { s.manager with accounts := s.manager.accounts.ensure r.sender }
        calls := s.calls ++ [Call.entering (.reserving { Tx.ofRequest (r.id.getD fresh) r with
          key := some (idempotencyKey message retries) })] } := by
  have hchecked :
      ({ s.manager with accounts := s.manager.accounts.ensure r.sender } : Manager).proceed
      fresh (.checking r message) (.ok retries) =
      ({ s.manager with accounts := s.manager.accounts.ensure r.sender },
        .waiting (.reserving { Tx.ofRequest (r.id.getD fresh) r with
          key := some (idempotencyKey message retries) })) := by
    have hnew : ¬ ((s.manager.accounts.ensure r.sender).store r.sender).keys.contains
        (idempotencyKey message retries) = true := by
      have hkey : (s.manager.accounts.store r.sender).keys.get?
        (idempotencyKey message retries) = none := hkey
      rw [Accounts.store_ensure, Table.contains, hkey]
      simp
    exact if_neg hnew
  have h := (h.probe hr hsole hchecks signature fresh).proceed rfl hchecked
  rwa [List.append_assoc] at h

/-- A place in the queue is taken and used. -/
theorem Run.enter (h : Run s₀ acts s) {calls : List Call}
    (hc : s.calls = calls ++ [Call.entering (.reserving tx)]) (hopen : s.manager.queueOpen = true)
    (hroom : s.manager.hasRoom = true) {t : Store}
    (ht : (s.manager.store tx.sender).addPending tx = .ok t) (fresh : String) :
    ∃ accounts metrics events,
      accounts.store = Function.update s.manager.store tx.sender t ∧
      Run s₀ (acts ++ [Act.proceed (.reserving tx) () fresh, Act.proceed (.admitting tx) () fresh,
          Act.proceed (.delivering tx) () fresh])
        { s with
          manager := { s.manager with
            accounts := accounts, queue := s.manager.queue ++ [tx], metrics := metrics,
            events := events }
          calls } := by
  have hreserved : s.manager.proceed fresh (.reserving tx) () =
      ({ s.manager with promised := s.manager.promised + 1 }, .waiting (.admitting tx)) := by
    show s.manager.reserve tx = _
    simp [reserve, hopen, hroom]
  have hadmitted : ({ s.manager with promised := s.manager.promised + 1 } : Manager).proceed
      fresh (.admitting tx) () =
      ((({ s.manager with promised := s.manager.promised + 1 } : Manager).setStore
        tx.sender t).record (.enqueued tx), .waiting (.delivering tx)) := by
    show Manager.takeIn _ tx = _
    have ht : (({ s.manager with promised := s.manager.promised + 1 } : Manager).store
      tx.sender).addPending tx = .ok t := ht
    simp [takeIn, ht]
  have hdelivered (m : Manager) : m.proceed fresh (.delivering tx) () =
      ((m.deliver tx).1, .accepted tx.id) := rfl
  have h := ((h.proceed hc hreserved).proceed rfl hadmitted).proceed rfl (hdelivered _)
  rw [show calls ++ (Progress.accepted tx.id).calls = calls from List.append_nil calls] at h
  simp only [List.append_assoc] at h
  exact ⟨_, _, _, s.manager.store_setStore tx.sender t, h⟩

/-- A transaction that is new to its store gets there by a place in the queue. -/
theorem Run.admit {a : Address} (h : Run s₀ acts { s with
      manager := { s.manager with accounts := s.manager.accounts.ensure a }
      calls := s.calls ++ [Call.entering (.reserving tx)] })
    (hopen : s.manager.queueOpen = true) (hroom : s.manager.hasRoom = true)
    (hid : (s.manager.store tx.sender).entries.get? tx.id = none)
    (hkey : ∀ key, tx.key = some key → (s.manager.store tx.sender).keys.get? key = none)
    (fresh : String) :
    ∃ accounts metrics events t, (s.manager.store tx.sender).addPending tx = .ok t ∧
      accounts.store = Function.update s.manager.store tx.sender t ∧
      Run s₀ (acts ++ [Act.proceed (.reserving tx) () fresh, Act.proceed (.admitting tx) () fresh,
          Act.proceed (.delivering tx) () fresh])
        { s with manager := { s.manager with
          accounts := accounts, metrics := metrics, events := events,
          queue := s.manager.queue ++ [tx] } } := by
  have ht : ∃ t, (s.manager.store tx.sender).addPending tx = .ok t :=
    ⟨_, Store.addPending_eq_ok_iff.mpr ⟨hid, hkey, rfl⟩⟩
  obtain ⟨t, ht⟩ := ht
  have hstore : (s.manager.accounts.ensure a).store = s.manager.store :=
    Accounts.store_ensure ..
  have hensured : ((s.manager.accounts.ensure a).store tx.sender).addPending tx = .ok t := by
    rw [hstore]
    exact ht
  obtain ⟨accounts, metrics, events, haccounts, hentered⟩ :=
    h.enter rfl hopen hroom hensured fresh
  refine ⟨accounts, metrics, events, t, ht, ?_, hentered⟩
  rw [haccounts]
  exact congrArg (Function.update · tx.sender t) hstore

/-- A request whose message is not checked comes in. -/
theorem Run.request (h : Run s₀ acts s) (hr : s.manager.submit r = .ok (.probing r))
    (hchecks : s.manager.checksMessages = true → r.about.bind Meta.soleMessage? = none)
    (hopen : s.manager.queueOpen = true) (hroom : s.manager.hasRoom = true) (fresh : String)
    (hid : (s.manager.store r.sender).entries.get? (r.id.getD fresh) = none) :
    ∃ acts accounts metrics events t,
      (s.manager.store r.sender).addPending (Tx.ofRequest (r.id.getD fresh) r) = .ok t ∧
      accounts.store = Function.update s.manager.store r.sender t ∧
      Run s₀ acts
        { s with manager := { s.manager with
          accounts := accounts, metrics := metrics, events := events,
          queue := s.manager.queue ++ [Tx.ofRequest (r.id.getD fresh) r] } } := by
  have hprepared := h.prepare hr hchecks [] fresh
  exact ⟨_, hprepared.admit hopen hroom hid nofun fresh⟩

/-- A request whose message is new to the store comes in. -/
theorem Run.checkedRequest (h : Run s₀ acts s) (hr : s.manager.submit r = .ok (.probing r))
    {message : String} (hsole : r.about.bind Meta.soleMessage? = some message)
    (hchecks : s.manager.checksMessages = true) (signature : Bytes) (retries : Nat)
    (hkey : (s.manager.store r.sender).keys.get? (idempotencyKey message retries) = none)
    (hopen : s.manager.queueOpen = true) (hroom : s.manager.hasRoom = true) (fresh : String)
    (hid : (s.manager.store r.sender).entries.get? (r.id.getD fresh) = none)
    (htx : tx = { Tx.ofRequest (r.id.getD fresh) r with
      key := some (idempotencyKey message retries) }) :
    ∃ accounts metrics events t, (s.manager.store r.sender).addPending tx = .ok t ∧
      accounts.store = Function.update s.manager.store r.sender t ∧
      Run s₀ (acts ++ [Act.submit r, Act.proceed (.probing r) (.ok signature) fresh,
          Act.proceed (.checking r message) (.ok retries) fresh,
          Act.proceed (.reserving tx) () fresh, Act.proceed (.admitting tx) () fresh,
          Act.proceed (.delivering tx) () fresh])
        { s with manager := { s.manager with
          accounts := accounts, metrics := metrics, events := events,
          queue := s.manager.queue ++ [tx] } } := by
  subst htx
  have hchecked := h.check hr hsole hchecks signature retries hkey fresh
  have hfree : ∀ key, some (idempotencyKey message retries) = some key →
      (s.manager.store r.sender).keys.get? key = none := by
    rintro key ⟨⟩
    exact hkey
  have h := hchecked.admit hopen hroom hid hfree fresh
  rwa [List.append_assoc] at h

end Request

/-- The manager starts, and its sender is the first of its parts. -/
theorem Run.launch (h : Run s₀ acts s) (hidle : s.manager.lifecycle = .idle)
    (hfree : s.manager.outletFree = true) :
    Run s₀ (acts ++ [Act.silent] ++ [Act.silent] ++ [Act.silent]) { s with
      manager := { s.manager with lifecycle := .running, outletFree := false, sender := .idle }
      calls := s.calls ++ [Call.spawning [.poller, .reaper]] } := by
  have h₁ := h.next (Step.begin (begin_eq_ok_iff.mpr ⟨hidle, rfl⟩))
  have h₂ := h₁.next (@Step.takeOutlet _ s.calls [] rfl _ (takeOutlet_eq_ok_iff.mpr ⟨hfree, rfl⟩))
  exact h₂.next (@Step.spawn _ s.calls [] .sender [.poller, .reaper] rfl)

theorem Run.take (hr : Run s₀ acts s) (hsender : s.manager.sender = .idle) {rest : List Tx}
    (hqueue : s.manager.queue = tx :: rest) : ∃ metrics, Run s₀ (acts ++ [Act.silent]) { s with
      manager := { s.manager with
        queue := rest, poller := s.manager.poller.grant, metrics := metrics,
        sender := .busy (.beginning tx) } } := by
  have hm : ∃ metrics, s.manager.take? = some { s.manager with
      queue := rest, poller := s.manager.poller.grant, metrics := metrics,
      sender := .busy (.beginning tx) } := by
    rw [take?, hsender, hqueue]
    exact ⟨_, rfl⟩
  obtain ⟨metrics, hm⟩ := hm
  exact ⟨metrics, hr.next (.part (.take hm))⟩

theorem Run.answered (hr : Run s₀ acts s) {a : Attempt} (ha : s.manager.sender = .busy a)
    {answer : a.Answer} {m : Manager} (hm : s.manager.answered s.now a answer = m) :
    Run s₀ (acts ++ [Act.answered a answer]) { s with manager := m } := by
  have h := hr.next (.part (.answered ha answer))
  rwa [hm] at h

/-- The sender has a transaction whose energy it is about to ask for. -/
theorem Run.estimating (hr : Run s₀ acts s) (hsender : s.manager.sender = .idle) {rest : List Tx}
    (hqueue : s.manager.queue = tx :: rest) {call : Node.Simulated}
    (hcall : Fee.simulated tx = .ok call) (hestimates : s.manager.estimator.estimates = true) :
    ∃ accounts metrics, accounts.store = s.manager.store ∧
      Run s₀ (acts ++ [Act.silent, Act.answered (.beginning tx) ()]) { s with
        manager := { s.manager with
          accounts := accounts, queue := rest, poller := s.manager.poller.grant,
          metrics := metrics, sender := .busy (.estimating tx call) } } := by
  obtain ⟨metrics, h⟩ := hr.take hsender hqueue
  have hm (m : Manager) (he : m.estimator.estimates = true) :
      m.answered s.now (.beginning tx) () =
        { m with accounts := m.accounts.ensure tx.sender }.busy (.estimating tx call) := by
    show m.attempt tx = _
    simp [attempt, hcall, he]
  have h := h.answered rfl (hm _ hestimates)
  rw [List.append_assoc] at h
  exact ⟨_, metrics, Accounts.store_ensure .., h⟩

/-- The node estimates the energy, has no feed of prices and tells of a block. -/
theorem Run.signing (hr : Run s₀ acts s) {call : Node.Simulated}
    (hsender : s.manager.sender = .busy (.estimating tx call))
    (hprice : s.manager.estimator.cached = none) (energy : Int) (e : Node.Error) {limit : Int}
    (hlimit : limit = Fee.padded (Fee.limitOf energy s.manager.estimator.defaultPrice).amount
      s.manager.settings.energyMultiplier tx.energyBumps) {block : Node.Block}
    {u : UnsignedTransaction} (hu : s.manager.unsigned tx limit block = .ok u) :
    Run s₀ (acts ++ [Act.answered (.estimating tx call) (.ok energy),
        Act.answered (.pricing tx energy) (.error e),
        Act.answered (.referring tx limit) (.ok block)]) { s with
      manager := { s.manager with sender := .busy (.signing tx limit u) } } := by
  have hpricing : s.manager.answered s.now (.estimating tx call) (.ok energy) =
      s.manager.busy (.pricing tx energy) := by
    simp [Manager.answered, Fee.Estimator.afterEstimate, priced, Fee.Estimator.freshPrice?, hprice]
  have hreferring : (s.manager.busy (.pricing tx energy)).answered s.now (.pricing tx energy)
      (.error e) = s.manager.busy (.referring tx limit) := by
    simp [Manager.answered, Fee.Estimator.afterPrices, limited, busy, hprice, hlimit]
  have hsigning : (s.manager.busy (.referring tx limit)).answered s.now (.referring tx limit)
      (.ok block) = s.manager.busy (.signing tx limit u) := by
    have hu : (s.manager.busy (.referring tx limit)).unsigned tx limit block = .ok u := hu
    simp only [Manager.answered, hu]
    rfl
  have h := ((hr.answered hsender hpricing).answered rfl hreferring).answered rfl hsigning
  simp only [List.append_assoc] at h
  exact h

/-- The node estimates that a default manager needs no energy. -/
theorem Run.signingFree (hr : Run s₀ acts s) {call : Node.Simulated}
    (hsender : s.manager.sender = .busy (.estimating tx call))
    (hestimator : s.manager.estimator = .ofSettings {}) (hsettings : s.manager.settings = {})
    (hbumps : tx.energyBumps = 0) {block : Node.Block} {u : UnsignedTransaction}
    (hu : s.manager.unsigned tx 0 block = .ok u) :
    ∃ later, Run s₀ (acts ++ later) { s with
      manager := { s.manager with sender := .busy (.signing tx 0 u) } } := by
  have hcached : s.manager.estimator.cached = none := by
    rw [hestimator]
    rfl
  have hlimit : 0 = Fee.padded (Fee.limitOf 0 s.manager.estimator.defaultPrice).amount
      s.manager.settings.energyMultiplier tx.energyBumps := by
    rw [hestimator, hsettings, hbumps]
    rfl
  exact ⟨_, hr.signing hsender hcached 0 (.http "prices" 503) hlimit hu⟩

/-- Then the keystore signs. -/
theorem Run.sendingFree (hr : Run s₀ acts s) {call : Node.Simulated}
    (hsender : s.manager.sender = .busy (.estimating tx call))
    (hestimator : s.manager.estimator = .ofSettings {}) (hsettings : s.manager.settings = {})
    (hbumps : tx.energyBumps = 0) {block : Node.Block} {u : UnsignedTransaction}
    (hu : s.manager.unsigned tx 0 block = .ok u) :
    ∃ later, Run s₀ (acts ++ later) { s with
      manager := { s.manager with sender := .busy (.sending {
        tx, feeLimit := 0, signed := u.withSignature [], since := s.now }) } } := by
  obtain ⟨later, h⟩ := hr.signingFree hsender hestimator hsettings hbumps hu
  have h := h.answered rfl
    (show Manager.answered _ s.now (.signing tx 0 u) (.ok []) = _ from rfl)
  rw [List.append_assoc] at h
  exact ⟨_, h⟩

theorem Step.fatal {s' : System} (hg : s.Guarded) {reason : String}
    (hs : Step s (.answered (.failing tx reason) ()) s') :
    (s'.manager.store tx.sender).stage? tx.id = some .fatallyErrored := by
  obtain ⟨dropped, hc, -⟩ := hg.custody
  have hguards := hc.guards
  rw [Manager.copies, hs.attempting] at hguards
  obtain ⟨t, ht, -⟩ := (hguards.perm (perm_sender ..)).markFatal s.now
  have hstore := (s.manager.leaves_fail s.now tx.sender tx.id reason).2
  have ht : (s.manager.store tx.sender).markFatal tx.id s.now = .ok t := ht
  rw [storesAfter_ok ht] at hstore
  rw [hs.answered_eq]
  show Store.stage? ((s.manager.fail s.now tx.sender tx.id reason).store tx.sender) tx.id = _
  rw [hstore, Function.update_self]
  obtain ⟨e, he, -, rfl⟩ := Store.finish_eq_ok_iff.mp ht
  rw [Store.stage?_eq_some_iff]
  refine ⟨e.withStage .fatallyErrored, ?_, rfl⟩
  show (Table.insert _ _ _).get? tx.id = _
  rw [Table.get?_insert, if_pos rfl]

/-- A transaction is given up. -/
theorem Run.fail (hr : Run s₀ acts s) {reason : String}
    (hsender : s.manager.sender = .busy (.failing tx reason)) {t : Store}
    (ht : (s.manager.store tx.sender).markFatal tx.id s.now = .ok t) :
    ∃ accounts metrics events,
      accounts.store = Function.update s.manager.store tx.sender t ∧
      Run s₀ (acts ++ [Act.answered (.failing tx reason) ()]) { s with
        manager := { s.manager with
          accounts := accounts, metrics := metrics, events := events, sender := .idle } } := by
  obtain ⟨⟨accounts, metrics, events, hfail⟩, hstore⟩ :=
    s.manager.leaves_fail s.now tx.sender tx.id reason
  rw [storesAfter_ok ht, hfail] at hstore
  have hm : s.manager.answered s.now (.failing tx reason) () = { s.manager with
      accounts := accounts, metrics := metrics, events := events, sender := .idle } := by
    show { s.manager.fail s.now tx.sender tx.id reason with sender := .idle } = _
    rw [hfail]
  exact ⟨accounts, metrics, events, hstore, hr.answered hsender hm⟩

/-- A manager by default is about to ask for the energy of the first transaction that came in, and
has set none of its other parts going. -/
structure Estimating (s : System) (tx : Tx) (call : Node.Simulated) : Prop where
  sender : s.manager.sender = .busy (.estimating tx call)
  calls : s.calls = [.spawning [.poller, .reaper]]
  settings : s.manager.settings = {}
  estimator : s.manager.estimator = .ofSettings {}
  queue : s.manager.queue = []
  promised : s.manager.promised = 0
  isOpen : s.manager.queueOpen = true
  reaper : s.manager.reaper = .absent
  now : s.now = 0
  store : s.manager.store =
    Function.update (fun _ => .empty) tx.sender (Store.empty.run 0 [.addPending tx])

theorem run_estimating {r : Request} {call : Node.Simulated}
    (hr : Manager.submit { settings := {}, estimator := .ofSettings {} } r = .ok (.probing r))
    (hcall : Fee.simulated (.ofRequest (r.id.getD "") r) = .ok call) :
    ∃ m acts s, ofSettings {} false = .ok m ∧ Run { manager := m, now := 0 } acts s ∧
      s.Estimating (.ofRequest (r.id.getD "") r) call := by
  have h₀ : Run { manager := { settings := {}, estimator := .ofSettings {} }, now := 0 } [] _ :=
    .start
  obtain ⟨_, accounts, metrics, events, t, ht, hstore, h₁⟩ :=
    h₀.request hr (fun hon => by cases hon) rfl rfl "" rfl
  obtain ⟨accounts', metrics', hstore', h₂⟩ :=
    (h₁.launch rfl rfl).estimating rfl rfl hcall rfl
  have ht : Store.empty.run 0 [.addPending (.ofRequest (r.id.getD "") r)] = t := by
    have ht : Store.empty.addPending (.ofRequest (r.id.getD "") r) = .ok t := ht
    show Store.empty.after (Store.empty.addPending (.ofRequest (r.id.getD "") r)) = t
    rw [ht]
    rfl
  refine ⟨_, _, _, ofSettings_default, h₂, rfl, rfl, rfl, rfl, rfl, rfl, rfl, rfl, rfl, ?_⟩
  rw [ht]
  exact hstore'.trans hstore

end TronCourier.System
