import TronCourier.Proofs.Manager.Rounds

/-! How a transaction comes to its good end. The newest blocks have shown that it
succeeded, and a solid block of the same number has it. What the solid receipt says about
the execution is not looked at. -/

namespace TronCourier

/-- A transaction is confirmed under a hash and in a block. -/
def Store.ConfirmedAs (s : Store) (id hash : String) (block : Int) : Prop :=
  ∃ e, s.entries.get? id = some e ∧ e.tx.stage = .confirmed ∧ e.currentHash = some hash ∧
    e.confirmedBlock = some block

/-- The newest blocks have shown a success of a sender's transaction. -/
def Act.Shows (codes : ResultCodes) (act : Act) (a : Address) (id hash : String) (block : Int) :
    Prop :=
  ∃ entry rest pass r, act = .informed (.receipt entry rest pass) (.ok (some r)) ∧
    pass.account = a ∧ entry.id = id ∧ entry.hash = hash ∧ r.block = block ∧
    Outcome.ofReceipt codes r = .success

namespace System

variable {s₀ s s' : System} {act : Act} {acts : List Act} {a : Address} {id hash : String}
  {block : Int}

theorem Step.confirmed_cases (hu : s.manager.UpToDate) (hs : Step s act s')
    (h : (s'.manager.store a).ConfirmedAs id hash block) :
    (s.manager.store a).ConfirmedAs id hash block ∨
      act.Shows s.manager.settings.resultCodes a id hash block := by
  obtain ⟨e, he, hg, hhash, hblock⟩ := h
  rcases hs.get?_cases he with he | ⟨op, ht, hturn⟩
  · exact .inl ⟨e, he, hg, hhash, hblock⟩
  · generalize hold : (s.manager.store a).entries.get? id = old at hturn
    cases hturn with
    | addPending | markBroadcasted | markReorganized | markFinalized | markErrored | markFatal =>
      simp [Entry.ofTx, Entry.sentAs, Entry.displaced, Entry.withStage] at hg
    | recordCounters tx => exact .inl ⟨_, hold, hg, hhash, hblock⟩
    | markConfirmed id b hbefore =>
      cases ht with
      | @confirmed entry rest pass r ho =>
        have hrows : s.manager.poller.awaiting = some (pass.account, entry :: rest) := by
          rw [hs.asking]
          rfl
        obtain ⟨d, hd, -, hrow⟩ := hu.awaits hrows entry List.mem_cons_self
        rw [hold, Option.some.injEq] at hd
        subst hd
        obtain ⟨-, hcurrent, -⟩ := Entry.awaiting?_eq_some_iff.mp hrow
        have hash_eq : entry.hash = hash := by
          rw [← Option.some.injEq, ← hcurrent, ← hhash]
          rfl
        have block_eq : r.block = block := by
          rw [← Option.some.injEq, ← hblock]
          rfl
        exact .inr ⟨entry, rest, pass, r, rfl, rfl, rfl, hash_eq, block_eq, ho⟩

theorem Step.finalized_cases (hu : s.manager.UpToDate) (hs : Step s act s')
    (hbefore : (s.manager.store a).stage? id ≠ some .finalized)
    (hafter : (s'.manager.store a).stage? id = some .finalized) :
    ∃ entry rest pass r, act = .informed (.solid entry rest pass) (.ok (some r)) ∧
      pass.account = a ∧ entry.id = id ∧
      (s.manager.store a).ConfirmedAs id entry.hash r.block := by
  obtain ⟨e, he, hg⟩ := Store.stage?_eq_some_iff.mp hafter
  rcases hs.get?_cases he with he | ⟨op, ht, hturn⟩
  · exact absurd (Store.stage?_eq_some_iff.mpr ⟨e, he, hg⟩) hbefore
  · generalize hold : (s.manager.store a).entries.get? id = old at hturn
    cases hturn with
    | addPending | markBroadcasted | markReorganized | markConfirmed | markErrored | markFatal =>
      simp [Entry.ofTx, Entry.sentAs, Entry.displaced, Entry.confirmedIn, Entry.withStage] at hg
    | recordCounters tx => exact absurd (Store.stage?_eq_some_iff.mpr ⟨_, hold, hg⟩) hbefore
    | markFinalized id now hconfirmed =>
      cases ht with
      | @finalized entry rest pass r hblock =>
        have hrows : s.manager.poller.settling = some (pass.account, entry :: rest) := by
          rw [hs.asking]
          rfl
        have hrow := hu.settles hrows entry List.mem_cons_self _ hold hconfirmed
        obtain ⟨-, -, hhash, hrecorded⟩ := Entry.settling?_eq_some_iff.mp hrow
        exact ⟨entry, rest, pass, r, rfl, rfl, rfl, _, hold, hconfirmed, hhash, hblock ▸ hrecorded⟩

/-- What is confirmed has been shown to have succeeded, or was confirmed at the start. -/
theorem Run.confirmed_shown (hr : Run s₀ acts s) (hu : s₀.manager.UpToDate)
    (h : (s.manager.store a).ConfirmedAs id hash block) :
    (∃ heard ∈ acts, heard.Shows s₀.manager.settings.resultCodes a id hash block) ∨
      (s₀.manager.store a).ConfirmedAs id hash block := by
  induction hr with
  | start => exact .inr h
  | @next acts act s s' hr hs ih =>
    rcases hs.confirmed_cases (hr.upToDate hu) h with h | hshows
    · rcases ih h with ⟨heard, hmem, hshows⟩ | h
      · exact .inl ⟨heard, List.mem_append_left _ hmem, hshows⟩
      · exact .inr h
    · rw [hr.settings] at hshows
      exact .inl ⟨act, List.mem_append_right _ List.mem_cons_self, hshows⟩

/-- A transaction that becomes final was confirmed, and a solid block of the recorded number
was shown to have its current hash. The newest blocks had shown before that it succeeded
under that hash and in a block of that number, unless it was confirmed so from the start. -/
theorem finalized_after_success {s₀ s s' : System} {acts : List Act} {act : Act} {a : Address}
    {id : String}
    (hstores : ∀ a, ∃ retention ops, s₀.manager.store a = Store.empty.run retention ops)
    (hstart : s₀.manager.poller.pass? = none) (hr : Run s₀ acts s) (hs : Step s act s')
    (hbefore : (s.manager.store a).stage? id ≠ some .finalized)
    (hafter : (s'.manager.store a).stage? id = some .finalized) :
    ∃ entry rest pass r, act = .informed (.solid entry rest pass) (.ok (some r)) ∧
      pass.account = a ∧ entry.id = id ∧
      (s.manager.store a).ConfirmedAs id entry.hash r.block ∧
      ((∃ heard ∈ acts,
          heard.Shows s₀.manager.settings.resultCodes a id entry.hash r.block) ∨
        (s₀.manager.store a).ConfirmedAs id entry.hash r.block) := by
  have hu := Manager.upToDate_of_start hstart hstores
  obtain ⟨entry, rest, pass, r, hact, ha, hid, hconfirmed⟩ :=
    hs.finalized_cases (hr.upToDate hu) hbefore hafter
  exact ⟨entry, rest, pass, r, hact, ha, hid, hconfirmed, hr.confirmed_shown hu hconfirmed⟩

section Sample

open Manager

/-- The newest blocks show the success of the one sample before a solid block has it. -/
theorem finalized_after_success_oneSample : ∃ m acts s act s' hash, ofSettings {} false = .ok m ∧
    Run { manager := m, now := 0 } acts s ∧ Step s act s' ∧
    (s'.manager.store sampleRequest.sender).stage? "t" = some .finalized ∧
    ∃ heard ∈ acts, heard.Shows m.settings.resultCodes sampleRequest.sender "t" hash 7 := by
  obtain ⟨m, acts, s, hash, later, s', hm, hr, hs, hconfirmed, hfinal⟩ := run_oneFinalized
  have hstores (a : Address) : ∃ retention ops, m.store a = Store.empty.run retention ops :=
    ⟨0, [], store_initial hm a⟩
  have hstart : m.poller.pass? = none := by
    rw [(ofSettings_eq_ok hm).2]
    rfl
  have hbefore : (s.manager.store sampleRequest.sender).stage? "t" ≠ some .finalized := by
    rw [hconfirmed]
    decide
  obtain ⟨entry, rest, pass, r, hact, -, -, -, hshown⟩ :=
    finalized_after_success hstores hstart hr hs hbefore hfinal
  cases hact
  rcases hshown with hshows | ⟨e, he, -⟩
  · exact ⟨m, acts, s, _, s', hash, hm, hr, hs, hfinal, hshows⟩
  · -- nothing was confirmed when the run began
    have hnone : (m.store sampleRequest.sender).entries.get? "t" = none := by
      rw [store_initial hm]
      rfl
    cases hnone.symm.trans he

/-- A transaction that is confirmed in block 7 is all that there is. -/
def settledSample : System where
  now := 0
  manager := {
    settings := {}
    estimator := .ofSettings {}
    poller := .resting
    accounts := Accounts.empty.set sampleRequest.sender (Store.empty.run 0 [
      .addPending (.ofRequest "t" sampleRequest),
      .markBroadcasted "h" 30 (.ofRequest "t" sampleRequest),
      .markConfirmed "t" 7]) }

theorem settledSample_stores (a : Address) :
    ∃ retention ops, settledSample.manager.store a = Store.empty.run retention ops :=
  Accounts.exists_run_set Accounts.exists_run_empty ..

/-- The sample when the poller asks whether a solid block has the transaction. -/
def settledAsking : System :=
  { settledSample with
    manager := (settledSample.manager.beginPass [sampleRequest.sender]).afterSettling
      [⟨"t", "h", 7⟩] ⟨sampleRequest.sender, none, []⟩ }

theorem run_settledAsking : Run settledSample [.silent, .silent] settledAsking := by
  have h₀ : Run settledSample [] settledSample := .start
  have h₁ := h₀.next (.part (.beginPass rfl (List.Perm.refl [sampleRequest.sender])))
  exact h₁.next (.part (.survey rfl (List.Perm.refl [Settling.mk "t" "h" 7])))

theorem step_settledAsking (r : Node.Receipt) : ∃ s', Step settledAsking
    (.informed (.solid ⟨"t", "h", 7⟩ [] ⟨sampleRequest.sender, none, []⟩) (.ok (some r))) s' ∧
    (r.block = 7 → (s'.manager.store sampleRequest.sender).stage? "t" = some .finalized) := by
  have hq : settledAsking.manager.poller =
      .asking (.solid ⟨"t", "h", 7⟩ [] ⟨sampleRequest.sender, none, []⟩) := rfl
  refine ⟨_, .part (.informed hq _), fun hr => ?_⟩
  simp only [informed, if_pos hr]
  rfl

/-- A solid block has a transaction whose execution was reverted. It becomes final all the
same, if the number of the block is the one on record. -/
theorem not_finalized_only_after_solid_success :
    ¬ ∀ {s₀ s s' : System} {acts : List Act} {act : Act} {a : Address} {id : String},
      (∀ a, ∃ retention ops, s₀.manager.store a = Store.empty.run retention ops) →
      s₀.manager.poller.pass? = none → Run s₀ acts s → Step s act s' →
      (s.manager.store a).stage? id ≠ some .finalized →
      (s'.manager.store a).stage? id = some .finalized →
      ∃ entry rest pass r, act = .informed (.solid entry rest pass) (.ok (some r)) ∧
        r.block = entry.block ∧
        Outcome.ofReceipt s₀.manager.settings.resultCodes r = .success := by
  intro h
  obtain ⟨s', hs, hfinal⟩ := step_settledAsking
    { id := "h", block := 7, code := some "REVERT", result := some "FAILED" }
  obtain ⟨entry, rest, pass, r, hact, -, hsuccess⟩ :=
    h settledSample_stores rfl run_settledAsking hs (by decide) (hfinal rfl)
  cases hact
  exact absurd hsuccess (by decide)

end Sample

end System

end TronCourier
