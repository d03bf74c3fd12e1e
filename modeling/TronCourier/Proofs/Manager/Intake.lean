import TronCourier.Proofs.Manager.Launch

/-! What requests on their way in carry. A transaction is made of a request with fresh
counters, and if messages are checked, its key tells what the checker answered. -/

namespace TronCourier

/-- The transaction that a request has become. -/
def Submission.made? : Submission → Option Tx
  | .reserving tx | .admitting tx | .delivering tx => some tx
  | .probing _ | .checking _ _ => none

/-- A transaction made of a request. Its key is that of an answer about its message. -/
def Tx.Made (tx : Tx) (checks : Bool) (acts : List Act) : Prop :=
  ∃ r id key, tx = { Tx.ofRequest id r with key } ∧
    ∀ message, checks = true → r.about.bind Meta.soleMessage? = some message →
      ∃ retries fresh, key = some (idempotencyKey message retries) ∧
        Act.proceed (.checking r message) (.ok retries) fresh ∈ acts

def Submission.Made (checks : Bool) (acts : List Act) : Submission → Prop
  | .probing _ => True
  | .checking r message => r.about.bind Meta.soleMessage? = some message
  | .reserving tx | .admitting tx | .delivering tx => tx.Made checks acts

variable {checks : Bool} {acts : List Act}

theorem Tx.Made.later {tx : Tx} (h : tx.Made checks acts) (act : Act) :
    tx.Made checks (acts ++ [act]) := by
  obtain ⟨r, id, key, rfl, hkey⟩ := h
  refine ⟨r, id, key, rfl, fun message hchecks hsole => ?_⟩
  obtain ⟨retries, fresh, hk, hmem⟩ := hkey message hchecks hsole
  exact ⟨retries, fresh, hk, List.mem_append_left _ hmem⟩

theorem Submission.Made.later {q : Submission} (h : q.Made checks acts) (act : Act) :
    q.Made checks (acts ++ [act]) := by
  cases q with
  | probing r => trivial
  | checking r message => exact h
  | reserving tx | admitting tx | delivering tx => exact Tx.Made.later h act

theorem Submission.Made.tx {q : Submission} (h : q.Made checks acts) {tx : Tx}
    (htx : q.made? = some tx) : tx.Made checks acts := by
  cases q with
  | probing r | checking r message => cases htx
  | reserving tx | admitting tx | delivering tx =>
    cases htx
    exact h

theorem Manager.made_proceed {m : Manager} {q : Submission} (h : q.Made m.checksMessages acts)
    (fresh : String) (answer : q.Answer) {q' : Submission}
    (hq : (m.proceed fresh q answer).2 = .waiting q') :
    q'.Made m.checksMessages (acts ++ [.proceed q answer fresh]) := by
  cases q with
  | probing r =>
    rcases answer with e | signature
    · cases hq
    · simp only [proceed, prepare] at hq
      split at hq
      · rename_i message hsole
        split at hq
        · cases hq
          exact hsole
        · rename_i hchecks
          cases hq
          exact ⟨r, _, none, rfl, fun _ hon _ => absurd hon hchecks⟩
      · rename_i hnone
        cases hq
        refine ⟨r, _, none, rfl, fun message _ hsole => ?_⟩
        cases hnone.symm.trans hsole
  | checking r message =>
    rcases answer with e | retries
    · cases hq
    · simp only [proceed, prepare] at hq
      split at hq
      · cases hq
      · cases hq
        refine ⟨r, _, _, rfl, fun other _ hsole => ?_⟩
        obtain rfl : message = other := Option.some.inj (Eq.trans (Eq.symm h) hsole)
        exact ⟨retries, fresh, rfl, by simp⟩
  | reserving tx =>
    have hq : (m.reserve tx).2 = .waiting q' := hq
    unfold reserve at hq
    split at hq
    · cases hq
    · split at hq
      · cases hq
      · cases hq
        exact Tx.Made.later h _
  | admitting tx =>
    have hq : (m.takeIn tx).2 = .waiting q' := hq
    unfold takeIn at hq
    split at hq
    · cases hq
    · cases hq
    · cases hq
      exact Tx.Made.later h _
  | delivering tx => cases hq

namespace System

variable {s s' : System} {act : Act}

def AllMade (s : System) (acts : List Act) : Prop :=
  ∀ q, .entering q ∈ s.calls → q.Made s.manager.checksMessages acts

theorem allMade_initial {m : Manager} {now : Nat} : AllMade { manager := m, now } [] :=
  nofun

theorem Step.allMade (h : s.AllMade acts) (hs : Step s act s') : s'.AllMade (acts ++ [act]) := by
  have hchecks := hs.fixed.2
  intro q hq
  rw [hchecks]
  rcases hs.submission_cases with
    ⟨before, after, p, answer, fresh, rfl, hc, rfl⟩ | ⟨r, rfl, rfl⟩ | ⟨hsame, -⟩
  · rcases mem_calls_or_waiting hc hq with hq | ⟨p', hp, hq⟩
    · exact (h q hq).later _
    · cases hq
      exact Manager.made_proceed (h p (mem_calls hc)) fresh answer hp
  · rcases List.mem_append.mp hq with hq | hq
    · exact (h q hq).later _
    · cases List.mem_singleton.mp hq
      trivial
  · have hq := mem_submissions.mpr hq
    rw [hsame] at hq
    exact (h q (mem_submissions.mp hq)).later _

theorem Run.allMade {s₀ : System} (h : s₀.AllMade []) (hr : Run s₀ acts s) : s.AllMade acts := by
  induction hr with
  | start => exact h
  | next _ hs ih => exact hs.allMade ih

end System

end TronCourier
