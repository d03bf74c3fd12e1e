import Mathlib
import TronCourier.Proofs.Manager.Agenda
import TronCourier.Proofs.Manager.Launch

/-! When an attempt is taken to have expired without a receipt. The receipt is asked for
first and the time after it, so that the ledger may still take the attempt in between.
Within a pass that knows the time already this cannot be. -/

namespace TronCourier

/-- A history of the ledger without reorganizations, moment by moment. -/
structure Ledger where
  clock : Nat → Int
  receipt : Nat → String → Option Node.Receipt
  clock_mono : Monotone clock
  receipt_stays : ∀ {n hash r}, receipt n hash = some r → receipt (n + 1) hash = some r

namespace Ledger

/-- A hash is taken in no later than at a time. -/
def TakesBy (l : Ledger) (hash : String) (deadline : Int) : Prop :=
  ∀ n, l.receipt n hash = none → l.receipt (n + 1) hash ≠ none → l.clock (n + 1) ≤ deadline

/-- What the poller hears is what the ledger says at a moment, or an error. -/
def Answers (l : Ledger) (n : Nat) : Act → Prop
  | .informed (.receipt entry _ _) (.ok r) => r = l.receipt n entry.hash
  | .informed (.tip entry _ _) (.ok r) => r = l.receipt n entry.hash
  | .informed (.clock _ _ _) (.ok block) => block.timestamp = l.clock n
  | _ => True

variable {l : Ledger} {n k : Nat} {hash : String}

theorem receipt_none_of_le (hle : n ≤ k) (hk : l.receipt k hash = none) :
    l.receipt n hash = none := by
  induction k, hle using Nat.le_induction with
  | base => exact hk
  | succ k _ ih =>
    apply ih
    cases hr : l.receipt k hash with
    | none => rfl
    | some r => rw [l.receipt_stays hr] at hk; cases hk

/-- Once it is too late for a hash, it is never taken in. -/
theorem receipt_none_of_late {deadline : Int} (hin : l.TakesBy hash deadline)
    (hn : l.receipt n hash = none) (hlate : deadline < l.clock n) (k : Nat) :
    l.receipt k hash = none := by
  rcases le_total k n with hle | hle
  · exact receipt_none_of_le hle hn
  · induction k, hle using Nat.le_induction with
    | base => exact hn
    | succ k hle ih =>
      by_contra hne
      have htime := hin k ih hne
      have hmono := l.clock_mono (show n ≤ k + 1 by omega)
      omega

end Ledger

namespace Poller

variable {pass : Pass} {l : Ledger} {n n' : Nat}

theorem pass?_grant (p : Poller) : p.grant.pass? = p.pass? := by
  cases p with
  | blocked tx rest pass => rfl
  | _ => rfl

theorem pass?_refuse (p : Poller) : p.refuse.pass? = p.pass? := by
  cases p with
  | blocked tx rest pass => rfl
  | _ => rfl

/-- The time that a pass knows has been the ledger's. -/
def Timed (p : Poller) (l : Ledger) (n : Nat) : Prop :=
  ∀ pass t, p.pass? = some pass → pass.clock = some t → ∃ j ≤ n, l.clock j = t

theorem Timed.later {p : Poller} (h : p.Timed l n) (hn : n ≤ n') : p.Timed l n' := by
  intro pass t hpass ht
  obtain ⟨j, hj, hclock⟩ := h pass t hpass ht
  exact ⟨j, hj.trans hn, hclock⟩

/-- An answer leaves the pass as it is, or tells it the time. -/
theorem timed_informed {m : Manager} {now : Nat} {q : Inquiry} {answer : q.Answer}
    {x : Poller} {stores : Address → Store} (h : (Poller.asking q).Timed l n) (hn : n ≤ n')
    (ha : l.Answers n' (.informed q answer)) (hx : m.Heard now q answer x stores) :
    x.Timed l n' := by
  -- a pass comes to know the time by an answer about the clock only
  have hafter : ∀ t, (q.passAfter answer).clock = some t → ∃ j ≤ n', l.clock j = t := by
    intro t ht
    cases q with
    | solid entry rest pass => exact h.later hn pass t rfl ht
    | tip entry rest pass => exact h.later hn pass t rfl ht
    | receipt entry rest pass => exact h.later hn pass t rfl ht
    | clock entry rest pass =>
      cases answer with
      | error e => exact h.later hn pass t rfl ht
      | ok block =>
        cases ht
        exact ⟨n', le_rfl, ha.symm⟩
  intro pass t hpass ht
  cases hx with
  | finalized | displaced | stillSettling =>
    rw [Poller.pass?_afterSettling hpass] at ht
    exact hafter t ht
  | confirmed | stillAwaiting =>
    rw [Poller.pass?_afterAwaiting hpass] at ht
    exact hafter t ht
  | unsettled | undated | failed =>
    cases hpass
    exact hafter t ht

theorem Timed.of_pass? {p p' : Poller} (h : p.Timed l n) (hn : n ≤ n')
    (hp : ∀ pass, p'.pass? = some pass → p.pass? = some pass) : p'.Timed l n' :=
  fun pass t hpass ht => h.later hn pass t (hp pass hpass) ht

theorem Timed.afterAwaiting {p : Poller} (h : p.Timed l n) (hn : n ≤ n')
    (hp : p.pass? = some pass) (rest : List Awaiting) : (afterAwaiting pass rest).Timed l n' :=
  h.of_pass? hn fun _ hpass => by rw [pass?_afterAwaiting hpass, hp]

theorem Timed.grant {p : Poller} (h : p.Timed l n) (hn : n ≤ n') : p.grant.Timed l n' :=
  h.of_pass? hn fun pass hpass => by rwa [Poller.pass?_grant] at hpass

theorem Timed.refuse {p : Poller} (h : p.Timed l n) (hn : n ≤ n') : p.refuse.Timed l n' :=
  h.of_pass? hn fun pass hpass => by rwa [Poller.pass?_refuse] at hpass

end Poller

/-- An answer by which an attempt is taken to have expired without a receipt: there is no
receipt and the time is known already, or the time is told after there was none. -/
def Act.Expires (act : Act) (entry : Awaiting) : Prop :=
  (∃ rest pass t, act = .informed (.receipt entry rest pass) (.ok none) ∧
    pass.clock = some t ∧ entry.expiration < t) ∨
  ∃ rest pass block, act = .informed (.clock entry rest pass) (.ok block) ∧
    entry.expiration < block.timestamp

namespace System

/-- The states that a system can come to while the ledger goes on, each with a moment of the
ledger that is not before any answer so far. -/
inductive LedgerRun (l : Ledger) (s₀ : System) : Nat → System → Prop
  | start (n : Nat) : LedgerRun l s₀ n s₀
  | next {n n' : Nat} {act : Act} {s s' : System} (h : LedgerRun l s₀ n s) (hs : Step s act s')
      (hn : n ≤ n') (ha : l.Answers n' act) : LedgerRun l s₀ n' s'

end System

open Manager

theorem Manager.UpToDate.failAttempt {m : Manager} (h : m.UpToDate) {a : Address}
    {entry : Awaiting} (hrow : (m.store a).Awaits entry) (rest : List Awaiting) (pass : Pass)
    (ha : pass.account = a) (reason : String) (next : Option RetryKind) : ∃ tx, tx.id = entry.id ∧
      (m.failAttempt entry rest pass reason next).poller = .failed tx reason next rest pass := by
  subst ha
  obtain ⟨e, he, hg, -⟩ := hrow
  have hs := Store.markErrored_eq_ok_iff.mpr ⟨e, he, .inr hg, rfl, rfl⟩
  have hid : e.tx.id = entry.id := (h.consistent pass.account).id_eq he
  refine ⟨(e.withStage .errored).tx, hid, ?_⟩
  rw [Manager.failAttempt, hs]

variable {l : Ledger} {n n' : Nat} {m m' : Manager}

theorem Poller.Timed.proceed (h : m.poller.Timed l n) (hn : n ≤ n') (fresh : String)
    (q : Submission) (answer : q.Answer) : (m.proceed fresh q answer).1.poller.Timed l n' := by
  rcases m.proceed_cases fresh q answer with
    ⟨tx, r, rfl, -, -, ⟨_, _, _, hm⟩, -⟩ | ⟨tx, rfl, hm⟩ | ⟨-, ⟨⟨_, _, x, hm, hx⟩, -⟩, -⟩
  · rw [hm]
    exact h.later hn
  · rw [hm]
    exact h.later hn
  · rw [hm]
    rcases hx with rfl | rfl
    · exact h.later hn
    · exact h.grant hn

theorem Poller.Timed.afterFailure {tx : Tx} {reason : String} {next : Option RetryKind}
    {rest : List Awaiting} {pass : Pass} (h : (failed tx reason next rest pass).Timed l n)
    (hn : n ≤ n') (m : Manager) (now : Nat) :
    (m.afterFailure now tx reason next rest pass).poller.Timed l n' := by
  have hrest := h.afterAwaiting hn rfl rest
  rcases m.afterFailure_cases now tx reason next rest pass with
    ⟨⟨_, _, _, hm⟩, -⟩ | ⟨kind, ⟨s, -, ⟨_, _, _, hm⟩, -⟩ | ⟨e, -, ⟨_, _, _, hm⟩, -⟩⟩
  · rw [hm]
    exact hrest
  · rw [hm]
    exact h.of_pass? hn fun _ hpass => hpass
  · rw [hm]
    exact hrest

theorem PartStep.timed {now : Nat} {act : Act} (h : m.poller.Timed l n)
    (hs : PartStep m now act m') (hn : n ≤ n') (ha : l.Answers n' act) :
    m'.poller.Timed l n' := by
  cases hs with
  | take hm =>
    obtain ⟨tx, rest, metrics, -, -, rfl⟩ := take?_eq_some hm
    exact h.grant hn
  | @answered a hq answer =>
    have hsame : (m.answered now a answer).poller = m.poller := by
      rcases m.answered_cases now a answer with
        ⟨x, ⟨⟨_, _, _, _, hm⟩, -⟩, -⟩ | ⟨p, s, -, -, ⟨_, _, _, _, hm⟩, -⟩ |
          ⟨tx, reason, -, ⟨_, _, _, _, hm⟩, -⟩
      all_goals rw [hm]
    rw [hsame]
    exact h.later hn
  | @informed q hp answer =>
    obtain ⟨x, stores, ⟨⟨_, _, _, hm⟩, -⟩, hx⟩ := m.heard_informed now q answer
    rw [hp] at h
    rw [hm]
    exact Poller.timed_informed h hn ha hx
  | @collect pass hp rows hall => exact h.afterAwaiting hn (by rw [hp]; rfl) rows
  | survey hp hall =>
    intro pass t hpass ht
    rw [Poller.pass?_afterSettling hpass] at ht
    cases ht
  | afterFailure hp =>
    rw [hp] at h
    exact h.afterFailure hn m now
  | @requeue tx rest pass hp =>
    rw [hp] at h
    rcases m.requeue_cases tx rest pass with hm | ⟨x, hx, hm⟩
    · rw [hm]
      exact h.afterAwaiting hn rfl rest
    · rw [hm]
      rcases hx with rfl | rfl
      · exact h.of_pass? hn fun _ hpass => hpass
      · exact h.of_pass? hn fun _ hpass => hpass
  | @usePlace tx rest pass hp => exact h.afterAwaiting hn (by rw [hp]; rfl) rest
  | @withoutPlace tx rest pass hp => exact h.afterAwaiting hn (by rw [hp]; rfl) rest
  | beginPass | endPass => nofun
  | wake | beginSweep | sweep | endSweep => exact h.later hn

namespace System

variable {l : Ledger} {s₀ s s' : System} {act : Act} {n n' : Nat} {entry : Awaiting}

theorem Step.timed (h : s.manager.poller.Timed l n) (hs : Step s act s') (hn : n ≤ n')
    (ha : l.Answers n' act) : s'.manager.poller.Timed l n' := by
  rcases hs.manager_cases with
    hm | ⟨q, answer, fresh, -, hm⟩ | ⟨w, hm⟩ | ⟨w, hm⟩ | ⟨_, _, _, _, hm⟩
  · exact hm.timed h hn ha
  · rw [hm]
    exact h.proceed hn fresh q answer
  · rw [hm]
    cases w with
    | poller => nofun
    | sender | reaper => exact h.later hn
  · rw [hm]
    cases w with
    | poller => nofun
    | reaper => exact h.later hn
    | sender => exact h.refuse hn
  · rw [hm]
    exact h.later hn

theorem LedgerRun.run (hr : LedgerRun l s₀ n s) : ∃ acts, Run s₀ acts s := by
  induction hr with
  | start => exact ⟨[], .start⟩
  | next _ hs _ _ ih =>
    obtain ⟨acts, hr⟩ := ih
    exact ⟨_, hr.next hs⟩

theorem LedgerRun.timed (hr : LedgerRun l s₀ n s) (hstart : s₀.manager.poller.pass? = none) :
    s.manager.poller.Timed l n := by
  induction hr with
  | start n =>
    intro pass t hpass
    rw [hstart] at hpass
    cases hpass
  | next _ hs hn ha ih => exact hs.timed ih hn ha

/-- What is taken to have expired is to be sent once more. -/
theorem Step.failed_of_expires (hu : s.manager.UpToDate) (hs : Step s act s')
    (hexp : act.Expires entry) : ∃ tx rest pass, tx.id = entry.id ∧
      s'.manager.poller = .failed tx expiredReason (some .plain) rest pass := by
  rcases hexp with ⟨rest, pass, t, rfl, ht, hlate⟩ | ⟨rest, pass, block, rfl, hlate⟩
  · have hrows : s.manager.poller.awaiting = some (pass.account, entry :: rest) := by
      rw [hs.asking]
      rfl
    obtain ⟨tx, hid, hpoller⟩ := hu.failAttempt
      (hu.awaits hrows entry List.mem_cons_self) rest pass rfl expiredReason (some .plain)
    refine ⟨tx, rest, pass, hid, ?_⟩
    rw [hs.informed_eq, ← hpoller]
    simp only [informed, ht, withoutReceipt, if_pos hlate]
  · have hrows : s.manager.poller.awaiting = some (pass.account, entry :: rest) := by
      rw [hs.asking]
      rfl
    obtain ⟨tx, hid, hpoller⟩ := hu.failAttempt
      (hu.awaits hrows entry List.mem_cons_self) rest
      { pass with clock := some block.timestamp } rfl expiredReason (some .plain)
    refine ⟨tx, rest, { pass with clock := some block.timestamp }, hid, ?_⟩
    rw [hs.informed_eq, ← hpoller]
    simp only [informed, withoutReceipt, if_pos hlate]

theorem Step.never_lands_iff (htimed : s.manager.poller.Timed l n) (hs : Step s act s')
    (hn : n ≤ n') (ha : l.Answers n' act) (hexp : act.Expires entry)
    (hin : l.TakesBy entry.hash entry.expiration) :
    (∀ k, l.receipt k entry.hash = none) ↔
      (∃ rest pass, act = .informed (.receipt entry rest pass) (.ok none)) ∨
        l.receipt n' entry.hash = none := by
  constructor
  · exact fun h => .inr (h n')
  · intro h
    rcases hexp with ⟨rest, pass, t, rfl, ht, hlate⟩ | ⟨rest, pass, block, rfl, hlate⟩
    · obtain ⟨j, hj, hclock⟩ := htimed pass t (by rw [hs.asking]; rfl) ht
      have hmono := l.clock_mono (hj.trans hn)
      exact Ledger.receipt_none_of_late hin ha.symm (by omega)
    · have hnone : l.receipt n' entry.hash = none := by
        rcases h with ⟨rest, pass, hact⟩ | h
        · cases hact
        · exact h
      rw [show block.timestamp = l.clock n' from ha] at hlate
      exact Ledger.receipt_none_of_late hin hnone hlate

/-- An attempt that is taken to have expired never lands on the ledger, just if the time
was known before or the ledger has no receipt even when the time is told. In either case its
transaction is on the way to its next attempt, when the stores have come of operations. -/
theorem expired_for_good_iff (hstart : s₀.manager.poller.pass? = none)
    (hr : LedgerRun l s₀ n s) (hs : Step s act s') (hn : n ≤ n') (ha : l.Answers n' act)
    (hexp : act.Expires entry)
    (hin : l.TakesBy entry.hash entry.expiration) :
    ((∀ k, l.receipt k entry.hash = none) ↔
      (∃ rest pass, act = .informed (.receipt entry rest pass) (.ok none)) ∨
        l.receipt n' entry.hash = none) ∧
    ((∀ a, ∃ retention ops, s₀.manager.store a = Store.empty.run retention ops) →
      ∃ tx rest pass, tx.id = entry.id ∧
        s'.manager.poller = .failed tx expiredReason (some .plain) rest pass) := by
  refine ⟨hs.never_lands_iff (hr.timed hstart) hn ha hexp hin, fun hstores => ?_⟩
  obtain ⟨acts, hrun⟩ := hr.run
  exact hs.failed_of_expires (hrun.upToDate (upToDate_of_start hstart hstores)) hexp

section Sample

/-- A ledger that takes in the hash "h" at the last moment that it may. -/
def lateLedger : Ledger where
  clock n := 29 + n
  receipt n hash :=
    if 1 ≤ n ∧ hash = "h" then some { id := "h", block := 7, code := some "SUCCESS" } else none
  clock_mono := fun a b hab => by
    show (29 : Int) + a ≤ 29 + b
    omega
  receipt_stays := fun {n hash r} h => by
    by_cases hn : 1 ≤ n ∧ hash = "h"
    · rw [if_pos hn] at h
      rw [if_pos ⟨by omega, hn.2⟩]
      exact h
    · rw [if_neg hn] at h
      cases h

theorem lateLedger_receipt {n : Nat} (hn : 1 ≤ n) : lateLedger.receipt n "h" ≠ none := by
  have hsome : lateLedger.receipt n "h" =
    some { id := "h", block := 7, code := some "SUCCESS" } := if_pos ⟨hn, rfl⟩
  rw [hsome]
  nofun

theorem lateLedger_takesBy : lateLedger.TakesBy "h" 30 := by
  intro n hn _
  cases n with
  | zero => decide
  | succ n => exact absurd hn (lateLedger_receipt (by omega))

/-- A transaction that may be taken in until time 30 is all that there is. -/
def sentSample : System where
  now := 0
  manager := {
    settings := {}
    estimator := .ofSettings {}
    poller := .resting
    accounts := Accounts.empty.set sampleRequest.sender (Store.empty.run 0 [
      .addPending (.ofRequest "t" sampleRequest),
      .markBroadcasted "h" 30 (.ofRequest "t" sampleRequest)]) }

/-- The ledger takes in the sample's hash after it was asked for a receipt and before it is
asked for the time. -/
theorem sentSample_expires : ∃ s s' pass block,
    LedgerRun lateLedger sentSample 0 s ∧
    Step s (.informed (.clock ⟨"t", "h", 30⟩ [] pass) (.ok block)) s' ∧
    lateLedger.Answers 2 (.informed (.clock ⟨"t", "h", 30⟩ [] pass) (.ok block)) ∧
    Act.Expires (.informed (.clock ⟨"t", "h", 30⟩ [] pass) (.ok block)) ⟨"t", "h", 30⟩ := by
  let pass : Pass := ⟨sampleRequest.sender, none, []⟩
  have h₀ : LedgerRun lateLedger sentSample 0 sentSample := .start 0
  have h₁ := h₀.next (.part (.beginPass rfl (List.Perm.refl [sampleRequest.sender]))) le_rfl trivial
  have h₂ := h₁.next (.part (.survey rfl (List.Perm.refl ([] : List Settling)))) le_rfl trivial
  have h₃ := h₂.next (.part (.collect rfl (List.Perm.refl [Awaiting.mk "t" "h" 30]))) le_rfl trivial
  have h₄ := h₃.next (.part (.informed (q := .receipt ⟨"t", "h", 30⟩ [] pass) rfl (.ok none)))
    le_rfl rfl
  refine ⟨_, _, pass, ⟨7, "b", 31⟩, h₄, .part (.informed rfl _), rfl, ?_⟩
  exact .inr ⟨[], pass, _, rfl, by decide⟩

/-- The sample's hash is on the ledger, so that the attempt had not expired for good. It is to
be repeated all the same. -/
theorem expired_for_good_iff_sentSample : ∃ s s' act n tx rest pass,
    LedgerRun lateLedger sentSample 0 s ∧ Step s act s' ∧ act.Expires ⟨"t", "h", 30⟩ ∧
    lateLedger.receipt n "h" ≠ none ∧ tx.id = "t" ∧
    s'.manager.poller = .failed tx expiredReason (some .plain) rest pass := by
  obtain ⟨s, s', pass, block, hr, hs, ha, hexp⟩ := sentSample_expires
  obtain ⟨hiff, hagain⟩ := expired_for_good_iff rfl hr hs (by omega) ha hexp lateLedger_takesBy
  have hland : ¬ ∀ n, lateLedger.receipt n "h" = none := by
    intro hall
    rcases hiff.mp hall with ⟨rest, pass, hact⟩ | hnone
    · cases hact
    · exact lateLedger_receipt (by omega) hnone
  obtain ⟨n, hn⟩ := not_forall.mp hland
  obtain ⟨tx, rest, pass, hid, hpoller⟩ :=
    hagain (Accounts.exists_run_set Accounts.exists_run_empty _ _ _)
  exact ⟨s, s', _, n, tx, rest, pass, hr, hs, hexp, hn, hid, hpoller⟩

/-- What is sent again after it was taken to have expired may be on the ledger already. -/
theorem not_expired_for_good : ¬ ∀ {l : Ledger} {s₀ s s' : System} {act : Act} {n n' : Nat}
    {entry : Awaiting}, s₀.manager.poller.pass? = none → LedgerRun l s₀ n s → Step s act s' →
    n ≤ n' → l.Answers n' act → act.Expires entry →
    l.TakesBy entry.hash entry.expiration → ∀ k ≥ n', l.receipt k entry.hash = none := by
  intro h
  obtain ⟨s, s', pass, block, hr, hs, ha, hexp⟩ := sentSample_expires
  have hnone := h rfl hr hs (by omega) ha hexp lateLedger_takesBy 2 le_rfl
  exact lateLedger_receipt (by omega) hnone

end Sample

end System

end TronCourier
