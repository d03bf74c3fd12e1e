import TronCourier.Proofs.Manager.Budget
import TronCourier.Proofs.Manager.Touch

/-! The time of a transaction in its store: from when a request is admitted until the
entry is evicted. -/

namespace TronCourier

def Manager.Tracks (m : Manager) (a : Address) (id : String) : Prop :=
  ∃ e, (m.store a).entries.get? id = some e

namespace System

/-- A run all of whose steps are of a kind. -/
inductive RunOf (kind : System → System → Prop) (s₀ : System) : List Act → System → Prop
  | start : RunOf kind s₀ [] s₀
  | next {acts : List Act} {act : Act} {s s' : System} (h : RunOf kind s₀ acts s)
      (hs : Step s act s') (hkind : kind s s') : RunOf kind s₀ (acts ++ [act]) s'

/-- A transaction was admitted in the last of the earlier acts and is on record since. -/
inductive Tenure (s₀ : System) (tx : Tx) (earlier : List Act) : List Act → System → Prop
  | admitted {acts : List Act} {fresh : String} {s s' : System} (hr : Run s₀ acts s)
      (hnew : ¬ s.manager.Tracks tx.sender tx.id)
      (hs : Step s (.proceed (.admitting tx) () fresh) s')
      (hin : s'.manager.Tracks tx.sender tx.id)
      (hacts : earlier = acts ++ [.proceed (.admitting tx) () fresh]) :
      Tenure s₀ tx earlier [] s'
  | next {later : List Act} {act : Act} {s s' : System} (h : Tenure s₀ tx earlier later s)
      (hs : Step s act s') (hin : s'.manager.Tracks tx.sender tx.id) :
      Tenure s₀ tx earlier (later ++ [act]) s'

variable {s₀ s s' : System} {act : Act} {acts later earlier : List Act} {tx : Tx}

theorem Tenure.run (h : Tenure s₀ tx earlier later s) : Run s₀ (earlier ++ later) s := by
  induction h with
  | admitted hr hnew hs hin hacts =>
    rw [hacts, List.append_nil]
    exact hr.next hs
  | next h hs hin ih =>
    rw [← List.append_assoc]
    exact ih.next hs

theorem Tenure.tracks (h : Tenure s₀ tx earlier later s) :
    s.manager.Tracks tx.sender tx.id := by
  cases h with
  | admitted _ _ _ hin _ => exact hin
  | next _ _ hin => exact hin

/-- Only an admission brings in what was not on record. -/
theorem Step.admission (hs : Step s act s') {a : Address} {id : String} {e' : Entry}
    (hnew : (s.manager.store a).entries.get? id = none)
    (he' : (s'.manager.store a).entries.get? id = some e') :
    ∃ tx fresh, act = .proceed (.admitting tx) () fresh ∧ tx.sender = a ∧ tx.id = id ∧
      e' = .ofTx tx := by
  rcases hs.get?_cases he' with hsame | ⟨op, ht, hturn⟩
  · rw [hnew] at hsame
    cases hsame
  · rw [hnew] at hturn
    cases hturn with
    | addPending tx =>
      cases ht with
      | admitted tx fresh => exact ⟨tx, fresh, rfl, rfl, rfl, rfl⟩

/-- What is on record was admitted at some time of the run, and is on record since. -/
theorem Run.tenure (hr : Run s₀ acts s) {a : Address} {id : String}
    (h₀ : ¬ s₀.manager.Tracks a id) (hin : s.manager.Tracks a id) :
    ∃ tx earlier later, tx.sender = a ∧ tx.id = id ∧ acts = earlier ++ later ∧
      Tenure s₀ tx earlier later s := by
  induction hr with
  | start => exact absurd hin h₀
  | @next acts act s s' hr hs ih =>
    by_cases hold : s.manager.Tracks a id
    · obtain ⟨tx, earlier, later, rfl, rfl, rfl, ht⟩ := ih hold
      exact ⟨tx, earlier, later ++ [act], rfl, rfl, List.append_assoc .., ht.next hs hin⟩
    · obtain ⟨e, he⟩ := hin
      have hnew : (s.manager.store a).entries.get? id = none :=
        Option.eq_none_iff_forall_ne_some.mpr fun e he => hold ⟨e, he⟩
      obtain ⟨tx, fresh, rfl, rfl, rfl, -⟩ := hs.admission hnew he
      exact ⟨tx, _, [], rfl, rfl, (List.append_nil _).symm, .admitted hr hold hs ⟨_, he⟩ rfl⟩

theorem RunOf.run {kind : System → System → Prop} (h : RunOf kind s later s') :
    Run s later s' := by
  induction h with
  | start => exact .start
  | next h hs hkind ih => exact ih.next hs

theorem Step.key_eq (hs : Step s act s') {a : Address} {id : String} {e e' : Entry}
    (he : (s.manager.store a).entries.get? id = some e)
    (he' : (s'.manager.store a).entries.get? id = some e') : e'.tx.key = e.tx.key := by
  rcases hs.get?_cases he' with hsame | ⟨op, -, hturn⟩
  · rw [he, Option.some.injEq] at hsame
    rw [hsame]
  · rw [he] at hturn
    cases hturn <;> rfl

end System

end TronCourier
