import TronCourier.Proofs.Manager.Poll
import TronCourier.Proofs.Manager.System
import TronCourier.Proofs.Store.Change

/-! A step of a system changes one store at most, by one operation. Which one that can be
depends on what the step took from outside. -/

namespace TronCourier

/-- What a step may do to the store of a sender. -/
inductive Touches (m : Manager) (now : Nat) : Act → Address → Operation → Prop
  | admitted (tx : Tx) (fresh : String) :
      Touches m now (.proceed (.admitting tx) () fresh) tx.sender (.addPending tx)
  | sent (p : Parcel) (answer : (Attempt.sending p).Answer) :
      Touches m now (.answered (.sending p) answer) p.tx.sender
        (.markBroadcasted p.signed.id p.signed.raw.expiration p.tx)
  | abandoned (tx : Tx) (reason : String) :
      Touches m now (.answered (.failing tx reason) ()) tx.sender (.markFatal tx.id now)
  | finalized {entry : Settling} {rest : List Settling} {pass : Pass} {r : Node.Receipt}
      (h : r.block = entry.block) :
      Touches m now (.informed (.solid entry rest pass) (.ok (some r))) pass.account
        (.markFinalized entry.id now)
  | displaced {entry : Settling} {rest : List Settling} {pass : Pass}
      (answer : (Inquiry.tip entry rest pass).Answer) :
      Touches m now (.informed (.tip entry rest pass) answer) pass.account
        (.markReorganized entry.id)
  | confirmed {entry : Awaiting} {rest : List Awaiting} {pass : Pass} {r : Node.Receipt}
      (h : Outcome.ofReceipt m.settings.resultCodes r = .success) :
      Touches m now (.informed (.receipt entry rest pass) (.ok (some r))) pass.account
        (.markConfirmed entry.id r.block)
  | failed {q : Inquiry} (answer : q.Answer) {entry : Awaiting} {rest : List Awaiting}
      (hq : q.awaiting? = some (entry, rest)) :
      Touches m now (.informed q answer) (q.passAfter answer).account (.markErrored entry.id)
  | repeated {tx : Tx} (hp : m.poller.tx? = some tx) {pass : Pass}
      (hpass : m.poller.pass? = some pass) (kind : RetryKind) :
      Touches m now .silent pass.account (.recordCounters (tx.nextAttempt kind))
  | ended {tx : Tx} (hp : m.poller.tx? = some tx) {pass : Pass}
      (hpass : m.poller.pass? = some pass) :
      Touches m now .silent pass.account (.markFatal tx.id now)
  | evicted (a : Address) (begun : Nat) : Touches m now .silent a (.reap begun)

/-- The stores after a step: as they were, or one of them after an operation. -/
def Touched (m m' : Manager) (now : Nat) (act : Act) : Prop :=
  m'.store = m.store ∨ ∃ a op, Touches m now act a op ∧
    m'.store = Function.update m.store a
      ((m.store a).apply (m.settings.retentionSecs * 1000) op)

namespace Manager

variable {m m' : Manager} {now : Nat}

theorem touched_proceed (fresh : String) (q : Submission) (answer : q.Answer) :
    Touched m (m.proceed fresh q answer).1 now (.proceed q answer fresh) := by
  rcases m.proceed_cases fresh q answer with
    ⟨tx, s, rfl, hs, -, -, hstore⟩ | ⟨tx, rfl, hm⟩ | ⟨-, ⟨-, hstore⟩, -⟩
  · refine .inr ⟨tx.sender, _, .admitted tx fresh, ?_⟩
    rw [hstore, Store.apply, hs]
    rfl
  · rw [hm]
    exact .inl rfl
  · exact .inl hstore

theorem touched_answered (a : Attempt) (answer : a.Answer) :
    Touched m (m.answered now a answer) now (.answered a answer) := by
  rcases m.answered_cases now a answer with
    ⟨x, ⟨-, hstore⟩, -⟩ | ⟨p, s, rfl, hs, -, hstore⟩ | ⟨tx, reason, rfl, -, hstore⟩
  · exact .inl hstore
  · refine .inr ⟨p.tx.sender, _, .sent p answer, ?_⟩
    rw [hstore, Store.apply, hs]
    rfl
  · exact .inr ⟨tx.sender, _, .abandoned tx reason, hstore⟩

theorem touched_informed (q : Inquiry) (answer : q.Answer) :
    Touched m (m.informed now q answer) now (.informed q answer) := by
  obtain ⟨x, stores, ⟨-, hstore⟩, hx⟩ := m.heard_informed now q answer
  cases hx with
  | finalized hb => exact .inr ⟨_, _, .finalized hb, hstore⟩
  | displaced answer => exact .inr ⟨_, _, .displaced answer, hstore⟩
  | confirmed ho => exact .inr ⟨_, _, .confirmed ho, hstore⟩
  | unsettled | stillSettling | undated | stillAwaiting => exact .inl hstore
  | failed answer hq hs reason next =>
    refine .inr ⟨_, _, .failed answer hq, ?_⟩
    rw [hstore, Store.apply, hs]
    rfl

theorem touched_afterFailure {tx : Tx} {reason : String} {next : Option RetryKind}
    {rest : List Awaiting} {pass : Pass} (hp : m.poller = .failed tx reason next rest pass) :
    Touched m (m.afterFailure now tx reason next rest pass) now .silent := by
  have htx : m.poller.tx? = some tx := by rw [hp]; rfl
  have hpass : m.poller.pass? = some pass := by rw [hp]; rfl
  rcases m.afterFailure_cases now tx reason next rest pass with
    ⟨-, hstore⟩ | ⟨kind, ⟨s, hs, -, hstore⟩ | ⟨e, -, -, hstore⟩⟩
  · exact .inr ⟨pass.account, _, .ended htx hpass, hstore⟩
  · refine .inr ⟨pass.account, _, .repeated htx hpass kind, ?_⟩
    rw [hstore, Store.apply, hs]
    rfl
  · exact .inl hstore

end Manager

open Manager

theorem PartStep.touched {m m' : Manager} {now : Nat} {act : Act} (hs : PartStep m now act m') :
    Touched m m' now act := by
  cases hs with
  | take hm =>
    obtain ⟨tx, rest, metrics, -, -, rfl⟩ := take?_eq_some hm
    exact .inl rfl
  | answered ha answer => exact touched_answered _ answer
  | informed hp answer => exact touched_informed _ answer
  | afterFailure hp => exact touched_afterFailure hp
  | @requeue tx rest pass hp =>
    rcases m.requeue_cases tx rest pass with hm | ⟨x, -, hm⟩
    · rw [hm]
      exact .inl rfl
    · rw [hm]
      exact .inl rfl
  | @withoutPlace tx rest pass hp =>
    have hfail := m.leaves_fail now pass.account tx.id "broadcast queue closed"
    exact .inr ⟨pass.account, _, .ended (by rw [hp]; rfl) (by rw [hp]; rfl), hfail.2⟩
  | sweep hr => exact .inr ⟨_, _, .evicted _ _, store_sweep ..⟩
  | wake | beginPass | survey | collect | endPass | usePlace | beginSweep | endSweep =>
    exact .inl rfl

namespace System

variable {s s' s₀ : System} {act : Act} {acts : List Act}

theorem Step.touched (hs : Step s act s') : Touched s.manager s'.manager s.now act := by
  rcases hs.manager_cases with
    hm | ⟨q, answer, fresh, rfl, hm⟩ | ⟨w, hm⟩ | ⟨w, hm⟩ | ⟨_, _, _, _, hm⟩
  · exact hm.touched
  · rw [hm]
    exact touched_proceed fresh q answer
  · rw [hm]
    cases w <;> exact .inl rfl
  · rw [hm]
    cases w <;> exact .inl rfl
  · rw [hm]
    exact .inl rfl

/-- An entry that is found after a step was there before, or it has taken the turn of an
operation that the step may do. -/
theorem Step.get?_cases (hs : Step s act s') {a : Address} {id : String} {e : Entry}
    (he : (s'.manager.store a).entries.get? id = some e) :
    (s.manager.store a).entries.get? id = some e ∨ ∃ op, Touches s.manager s.now act a op ∧
      op.Turns id ((s.manager.store a).entries.get? id) e := by
  rcases hs.touched with hstore | ⟨b, op, ht, hstore⟩
  · rw [hstore] at he
    exact .inl he
  · rw [hstore] at he
    by_cases hb : a = b
    · subst hb
      rw [Function.update_self] at he
      rcases Store.get?_apply_cases op he with he | hturn
      · exact .inl he
      · exact .inr ⟨op, ht, hturn⟩
    · rw [Function.update_of_ne hb] at he
      exact .inl he

end System

end TronCourier
