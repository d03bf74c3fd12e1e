import TronCourier.Proofs.Manager.Effect

/-! What the poller makes of an answer, and of an attempt that failed. -/

namespace TronCourier

/-- The transaction whose attempt failed and that is on its way back to the queue. -/
def Poller.tx? : Poller → Option Tx
  | .failed tx _ _ _ _ | .requeuing tx _ _ | .blocked tx _ _ | .granted tx _ _ | .refused tx _ _ =>
    some tx
  | .absent | .resting | .surveying _ | .collecting _ | .asking _ | .stopped => none

/-- The pass that a poller is in. -/
def Poller.pass? : Poller → Option Pass
  | .collecting pass => some pass
  | .asking (.solid _ _ pass) | .asking (.tip _ _ pass) | .asking (.receipt _ _ pass)
  | .asking (.clock _ _ pass) => some pass
  | .failed _ _ _ _ pass | .requeuing _ _ pass | .blocked _ _ pass | .granted _ _ pass
  | .refused _ _ pass => some pass
  | .absent | .resting | .surveying _ | .stopped => none

/-- The pass after an answer. The time of the ledger is asked for once in a pass. -/
def Inquiry.passAfter : (q : Inquiry) → q.Answer → Pass
  | .solid _ _ pass, _ | .tip _ _ pass, _ | .receipt _ _ pass, _ => pass
  | .clock _ _ pass, .error _ => pass
  | .clock _ _ pass, .ok block => { pass with clock := some block.timestamp }

/-- The transaction that an inquiry about a receipt is for, and those that come after. -/
def Inquiry.awaiting? : Inquiry → Option (Awaiting × List Awaiting)
  | .receipt entry rest _ | .clock entry rest _ => some (entry, rest)
  | .solid _ _ _ | .tip _ _ _ => none

def Inquiry.settling? : Inquiry → Option (Settling × List Settling)
  | .solid entry rest _ | .tip entry rest _ => some (entry, rest)
  | .receipt _ _ _ | .clock _ _ _ => none

theorem Poller.tx?_afterAwaiting (pass : Pass) (rest : List Awaiting) :
    (afterAwaiting pass rest).tx? = none := by
  cases rest with
  | nil => rfl
  | cons e rest => rfl

theorem Poller.tx?_afterSettling (pass : Pass) (rest : List Settling) :
    (afterSettling pass rest).tx? = none := by
  cases rest with
  | nil => rfl
  | cons e rest => rfl

theorem Poller.pass?_afterAwaiting {pass pass' : Pass} {rest : List Awaiting}
    (h : (afterAwaiting pass rest).pass? = some pass') : pass' = pass := by
  cases rest with
  | nil => cases h
  | cons e rest =>
    cases h
    rfl

theorem Poller.pass?_afterSettling {pass pass' : Pass} {rest : List Settling}
    (h : (afterSettling pass rest).pass? = some pass') : pass' = pass := by
  cases rest with
  | nil =>
    cases h
    rfl
  | cons e rest =>
    cases h
    rfl

theorem Poller.tx?_grant (p : Poller) : p.grant.tx? = p.tx? := by
  cases p with
  | blocked tx rest pass => rfl
  | _ => rfl

theorem Poller.tx?_refuse (p : Poller) : p.refuse.tx? = p.tx? := by
  cases p with
  | blocked tx rest pass => rfl
  | _ => rfl

namespace Manager

/-- A manager whose poller has become another, with these stores. -/
def PollerLeaves (m m' : Manager) (x : Poller) (stores : Address → Store) : Prop :=
  (∃ accounts metrics events, m' = { m with
    poller := x, accounts := accounts, metrics := metrics, events := events }) ∧
  m'.store = stores

variable {m m' : Manager} {stores : Address → Store}

theorem Leaves.withPoller (h : m.Leaves m' stores) (x : Poller) :
    m.PollerLeaves { m' with poller := x } x stores := by
  rcases h with ⟨⟨accounts, metrics, events, rfl⟩, hs⟩
  exact ⟨⟨_, _, _, rfl⟩, hs⟩

theorem pollerLeaves_same (m : Manager) (x : Poller) :
    m.PollerLeaves { m with poller := x } x m.store :=
  ⟨⟨_, _, _, rfl⟩, rfl⟩

theorem failAttempt_cases (m : Manager) (entry : Awaiting) (rest : List Awaiting) (pass : Pass)
    (reason : String) (next : Option RetryKind) :
    m.PollerLeaves (m.failAttempt entry rest pass reason next) (.afterAwaiting pass rest) m.store ∨
    ∃ s tx, (m.store pass.account).markErrored entry.id = .ok (s, tx) ∧
      m.PollerLeaves (m.failAttempt entry rest pass reason next) (.failed tx reason next rest pass)
        (Function.update m.store pass.account s) := by
  unfold failAttempt
  split
  · exact .inl (m.pollerLeaves_same _)
  · rename_i s tx hs
    exact .inr ⟨s, tx, hs, (m.leaves_move pass.account entry.id s).withPoller _⟩

/-- What an answer makes of the poller and of the stores. -/
inductive Heard (m : Manager) (now : Nat) :
    (q : Inquiry) → q.Answer → Poller → (Address → Store) → Prop
  | finalized {entry : Settling} {rest : List Settling} {pass : Pass} {r : Node.Receipt}
      (h : r.block = entry.block) :
      Heard m now (.solid entry rest pass) (.ok (some r)) (.afterSettling pass rest)
        (m.storesAfter pass.account ((m.store pass.account).markFinalized entry.id now))
  | unsettled {entry : Settling} {rest : List Settling} {pass : Pass}
      (answer : (Inquiry.solid entry rest pass).Answer) :
      Heard m now (.solid entry rest pass) answer (.asking (.tip entry rest pass)) m.store
  | displaced {entry : Settling} {rest : List Settling} {pass : Pass}
      (answer : (Inquiry.tip entry rest pass).Answer) :
      Heard m now (.tip entry rest pass) answer (.afterSettling pass rest)
        (m.storesAfter pass.account ((m.store pass.account).markReorganized entry.id))
  | stillSettling {q : Inquiry} (answer : q.Answer) {entry : Settling} {rest : List Settling}
      (hq : q.settling? = some (entry, rest)) :
      Heard m now q answer (.afterSettling (q.passAfter answer) rest) m.store
  | confirmed {entry : Awaiting} {rest : List Awaiting} {pass : Pass} {r : Node.Receipt}
      (h : Outcome.ofReceipt m.settings.resultCodes r = .success) :
      Heard m now (.receipt entry rest pass) (.ok (some r)) (.afterAwaiting pass rest)
        (m.storesAfter pass.account ((m.store pass.account).markConfirmed entry.id r.block))
  | undated {entry : Awaiting} {rest : List Awaiting} {pass : Pass} (h : pass.clock = none) :
      Heard m now (.receipt entry rest pass) (.ok none) (.asking (.clock entry rest pass)) m.store
  | failed {q : Inquiry} (answer : q.Answer) {entry : Awaiting} {rest : List Awaiting}
      (hq : q.awaiting? = some (entry, rest)) {s : Store} {tx : Tx}
      (hs : (m.store (q.passAfter answer).account).markErrored entry.id = .ok (s, tx))
      (reason : String) (next : Option RetryKind) :
      Heard m now q answer (.failed tx reason next rest (q.passAfter answer))
        (Function.update m.store (q.passAfter answer).account s)
  | stillAwaiting {q : Inquiry} (answer : q.Answer) {entry : Awaiting} {rest : List Awaiting}
      (hq : q.awaiting? = some (entry, rest)) :
      Heard m now q answer (.afterAwaiting (q.passAfter answer) rest) m.store

/-- An attempt that is found to have failed goes on record, or the poller goes on. -/
theorem heard_failAttempt (m : Manager) (now : Nat) {q : Inquiry} (answer : q.Answer)
    {entry : Awaiting} {rest : List Awaiting} (hq : q.awaiting? = some (entry, rest))
    (reason : String) (next : Option RetryKind) :
    ∃ x stores,
      m.PollerLeaves (m.failAttempt entry rest (q.passAfter answer) reason next) x stores ∧
      m.Heard now q answer x stores := by
  rcases m.failAttempt_cases entry rest (q.passAfter answer) reason next with h | ⟨s, tx, hs, h⟩
  · exact ⟨_, _, h, .stillAwaiting answer hq⟩
  · exact ⟨_, _, h, .failed answer hq hs reason next⟩

theorem heard_withoutReceipt (m : Manager) (now : Nat) {q : Inquiry} (answer : q.Answer)
    {entry : Awaiting} {rest : List Awaiting} (hq : q.awaiting? = some (entry, rest)) (t : Int) :
    ∃ x stores, m.PollerLeaves (m.withoutReceipt t entry rest (q.passAfter answer)) x stores ∧
      m.Heard now q answer x stores := by
  unfold withoutReceipt
  split
  · exact m.heard_failAttempt now answer hq _ _
  · exact ⟨_, _, m.pollerLeaves_same _, .stillAwaiting answer hq⟩

theorem heard_withReceipt (m : Manager) (now : Nat) (r : Node.Receipt) (entry : Awaiting)
    (rest : List Awaiting) (pass : Pass) :
    ∃ x stores, m.PollerLeaves (m.withReceipt r entry rest pass) x stores ∧
      m.Heard now (.receipt entry rest pass) (.ok (some r)) x stores := by
  have hfail := m.heard_failAttempt now (q := .receipt entry rest pass) (.ok (some r)) rfl
  unfold withReceipt
  cases ho : Outcome.ofReceipt m.settings.resultCodes r with
  | success =>
    have h := m.leaves_confirm pass.account entry.id r.block
    exact ⟨_, _, h.withPoller _, .confirmed ho⟩
  | outOfEnergy => exact hfail _ _
  | outOfTime => exact hfail _ _
  | fatal code => exact hfail _ _
  | unknown code => exact hfail _ _

theorem heard_informed (m : Manager) (now : Nat) (q : Inquiry) (answer : q.Answer) :
    ∃ x stores, m.PollerLeaves (m.informed now q answer) x stores ∧
      m.Heard now q answer x stores := by
  cases q with
  | solid entry rest pass =>
    rcases answer with e | r | _
    · exact ⟨_, _, m.pollerLeaves_same _, .stillSettling _ rfl⟩
    · exact ⟨_, _, m.pollerLeaves_same _, .unsettled _⟩
    · simp only [informed]
      split
      · rename_i r h
        exact ⟨_, _, (m.leaves_finalize now pass.account entry.id).withPoller _, .finalized h⟩
      · exact ⟨_, _, m.pollerLeaves_same _, .unsettled _⟩
  | tip entry rest pass =>
    have hdisplaced := (m.leaves_displace pass.account entry).withPoller (.afterSettling pass rest)
    rcases answer with e | r | _
    · exact ⟨_, _, m.pollerLeaves_same _, .stillSettling _ rfl⟩
    · exact ⟨_, _, hdisplaced, .displaced _⟩
    · simp only [informed]
      split
      · exact ⟨_, _, m.pollerLeaves_same _, .stillSettling _ rfl⟩
      · exact ⟨_, _, hdisplaced, .displaced _⟩
  | receipt entry rest pass =>
    rcases answer with e | r | _
    · exact ⟨_, _, m.pollerLeaves_same _, .stillAwaiting _ rfl⟩
    · simp only [informed]
      split
      · exact m.heard_withoutReceipt now (q := .receipt entry rest pass) (.ok none) rfl _
      · rename_i h
        exact ⟨_, _, m.pollerLeaves_same _, .undated h⟩
    · exact m.heard_withReceipt now _ entry rest pass
  | clock entry rest pass =>
    rcases answer with e | block
    · exact ⟨_, _, m.pollerLeaves_same _, .stillAwaiting _ rfl⟩
    · exact m.heard_withoutReceipt now (q := .clock entry rest pass) (.ok block) rfl _

theorem retry_cases (m : Manager) (tx : Tx) (reason : String) (kind : RetryKind)
    (rest : List Awaiting) (pass : Pass) :
    (∃ s, (m.store pass.account).recordCounters (tx.nextAttempt kind) = .ok s ∧
      m.PollerLeaves (m.retry tx reason kind rest pass)
        (.requeuing (tx.nextAttempt kind) rest pass) (Function.update m.store pass.account s)) ∨
    ∃ e, (m.store pass.account).recordCounters (tx.nextAttempt kind) = .error e ∧
      m.PollerLeaves (m.retry tx reason kind rest pass) (.afterAwaiting pass rest) m.store := by
  -- the count of attempts with more energy is the only thing that the kind touches
  have hcount : m.Leaves (if kind = .moreEnergy then
      m.count fun c => { c with energyBumps := c.energyBumps + 1 } else m) m.store := by
    split
    · exact ⟨⟨_, _, _, rfl⟩, rfl⟩
    · exact ⟨⟨_, _, _, rfl⟩, rfl⟩
  unfold retry
  generalize (if kind = .moreEnergy then
      m.count fun c => { c with energyBumps := c.energyBumps + 1 } else m) = m' at hcount
  rcases hcount with ⟨⟨accounts, metrics, events, rfl⟩, hstore⟩
  simp only [hstore]
  split
  · rename_i e he
    exact .inr ⟨e, he, ⟨_, _, _, rfl⟩, hstore⟩
  · rename_i s hs
    refine .inl ⟨s, hs, ⟨_, _, _, rfl⟩, ?_⟩
    rw [← hstore]
    exact store_setStore _ pass.account s

theorem afterFailure_cases (m : Manager) (now : Nat) (tx : Tx) (reason : String)
    (next : Option RetryKind) (rest : List Awaiting) (pass : Pass) :
    m.PollerLeaves (m.afterFailure now tx reason next rest pass) (.afterAwaiting pass rest)
      (m.storesAfter pass.account ((m.store pass.account).markFatal tx.id now)) ∨
    ∃ kind, (∃ s, (m.store pass.account).recordCounters (tx.nextAttempt kind) = .ok s ∧
        m.PollerLeaves (m.afterFailure now tx reason next rest pass)
          (.requeuing (tx.nextAttempt kind) rest pass) (Function.update m.store pass.account s)) ∨
      (∃ e, (m.store pass.account).recordCounters (tx.nextAttempt kind) = .error e ∧
        m.PollerLeaves (m.afterFailure now tx reason next rest pass) (.afterAwaiting pass rest)
          m.store) := by
  unfold afterFailure
  split
  · exact .inl ((m.leaves_fail now pass.account tx.id _).withPoller _)
  · rename_i kind
    split
    · exact .inl ((m.leaves_fail now pass.account tx.id _).withPoller _)
    · exact .inr ⟨kind, m.retry_cases tx reason kind rest pass⟩

theorem ceiling?_eq_none_iff {tx : Tx} {kind : RetryKind} : m.ceiling? tx kind = none ↔
    tx.attempt < m.settings.maxAttempts ∧
      (kind = .moreTime → tx.outOfTime < m.settings.maxOutOfTime) := by
  unfold ceiling?
  split
  · rename_i hattempt
    simp [Nat.not_lt_of_le hattempt]
  · rename_i hattempt
    have hlt := Nat.lt_of_not_le hattempt
    split
    · rename_i htime
      simp [htime.1, htime.2]
    · rename_i htime
      simpa [hlt] using htime

/-- Who asks for a place in the queue when there is room uses it at once. -/
theorem requeue_of_hasRoom {tx : Tx} {rest : List Awaiting} {pass : Pass}
    (hroom : m.hasRoom = true) (hopen : m.queueOpen = true) :
    m.requeue tx rest pass = m.usePlace tx rest pass := by
  simp [requeue, hopen, hroom, usePlace]

theorem requeue_cases (m : Manager) (tx : Tx) (rest : List Awaiting) (pass : Pass) :
    m.requeue tx rest pass = m.usePlace tx rest pass ∨
    ∃ x, (x = .refused tx rest pass ∨ x = .blocked tx rest pass) ∧
      m.requeue tx rest pass = { m with poller := x } := by
  unfold requeue
  split
  · exact .inr ⟨_, .inl rfl, rfl⟩
  · split
    · exact .inl rfl
    · exact .inr ⟨_, .inr rfl, rfl⟩

end Manager

end TronCourier
