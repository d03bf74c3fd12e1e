import TronCourier.Proofs.Store.Consistent

/-! What an operation does: nothing, or the one turn that it stands for to one entry. A reap
may take entries away. -/

namespace TronCourier

/-- The turn that an operation gives to the entry of a transaction. -/
inductive Operation.Turns : Operation → String → Option Entry → Entry → Prop
  | addPending (tx : Tx) : Turns (.addPending tx) tx.id none (.ofTx tx)
  | markBroadcasted (hash : String) (expiration : Int) (tx : Tx) {e : Entry}
      (hg : e.tx.stage = .pending ∨ e.tx.stage = .errored) :
      Turns (.markBroadcasted hash expiration tx) tx.id (some e) (e.sentAs hash expiration tx)
  | markConfirmed (id : String) (block : Int) {e : Entry} (hg : e.tx.stage = .broadcasted) :
      Turns (.markConfirmed id block) id (some e) (e.confirmedIn block)
  | markReorganized (id : String) {e : Entry} (hg : e.tx.stage = .confirmed) :
      Turns (.markReorganized id) id (some e) e.displaced
  | markFinalized (id : String) (now : Nat) {e : Entry} (hg : e.tx.stage = .confirmed) :
      Turns (.markFinalized id now) id (some e) (e.withStage .finalized)
  | markErrored (id : String) {e : Entry}
      (hg : e.tx.stage = .pending ∨ e.tx.stage = .broadcasted) :
      Turns (.markErrored id) id (some e) (e.withStage .errored)
  | recordCounters (tx : Tx) {e : Entry} :
      Turns (.recordCounters tx) tx.id (some e) (e.withCounters tx)
  | markFatal (id : String) (now : Nat) {e : Entry}
      (hg : e.tx.stage.canMoveTo .fatallyErrored = true) :
      Turns (.markFatal id now) id (some e) (e.withStage .fatallyErrored)

/-- When the transaction that an operation is about comes to its end. -/
def Operation.end? : Operation → Option Nat
  | .markFinalized _ now | .markFatal _ now => some now
  | _ => none

/-- What an operation that succeeds does to the entries and to the index of what is
finished. -/
structure Operation.Does (op : Operation) (s s' : Store) (id : String) (e' : Entry) : Prop where
  entries_eq : s'.entries = s.entries.insert id e'
  turns : op.Turns id (s.entries.get? id) e'
  finished_eq : s'.finished = (op.end?.map fun now => s.finished.insert id now).getD s.finished

namespace Store

variable {s s' : Store} {id j : String} {e e' d : Entry}

/-- An operation that succeeds does the one thing that it stands for. -/
theorem does_of_outcome {retention : Nat} {op : Operation}
    (h : s.outcome retention op = .ok s') :
    (∃ j e', op.Does s s' j e') ∨ ∃ now, op = .reap now := by
  cases op with
  | addPending tx =>
    obtain ⟨hnone, -, rfl⟩ := addPending_eq_ok_iff.mp h
    exact .inl ⟨_, _, rfl, hnone ▸ .addPending tx, rfl⟩
  | markBroadcasted hash expiration tx =>
    obtain ⟨-, e, hget, hg, rfl⟩ := markBroadcasted_eq_ok_iff.mp h
    exact .inl ⟨_, _, rfl, hget ▸ .markBroadcasted hash expiration tx hg, rfl⟩
  | markConfirmed j block =>
    obtain ⟨e, hget, hg, rfl⟩ := markConfirmed_eq_ok_iff.mp h
    exact .inl ⟨_, _, rfl, hget ▸ .markConfirmed j block hg, rfl⟩
  | markReorganized j =>
    obtain ⟨e, hget, hg, rfl⟩ := markReorganized_eq_ok_iff.mp h
    exact .inl ⟨_, _, rfl, hget ▸ .markReorganized j hg, rfl⟩
  | markFinalized j now =>
    obtain ⟨e, hget, hg, rfl⟩ := finish_eq_ok_iff.mp h
    exact .inl ⟨_, _, rfl, hget ▸ .markFinalized j now (Stage.canMoveTo_finalized_iff.mp hg), rfl⟩
  | markErrored j =>
    obtain ⟨tx, h⟩ := map_markErrored_eq_ok_iff.mp h
    obtain ⟨e, hget, hg, rfl, -⟩ := markErrored_eq_ok_iff.mp h
    exact .inl ⟨_, _, rfl, hget ▸ .markErrored j hg, rfl⟩
  | recordCounters tx =>
    obtain ⟨e, hget, rfl⟩ := recordCounters_eq_ok_iff.mp h
    exact .inl ⟨_, _, rfl, hget ▸ .recordCounters tx, rfl⟩
  | markFatal j now =>
    obtain ⟨e, hget, hg, rfl⟩ := finish_eq_ok_iff.mp h
    exact .inl ⟨_, _, rfl, hget ▸ .markFatal j now hg, rfl⟩
  | reap now => exact .inr ⟨now, rfl⟩

theorem apply_cases (retention : Nat) (s : Store) (op : Operation) :
    s.apply retention op = s ∨ (∃ j e', op.Does s (s.apply retention op) j e') ∨
      ∃ now, op = .reap now := by
  rw [apply_eq_after]
  cases h : s.outcome retention op with
  | error _ => exact .inl rfl
  | ok s' => exact .inr (does_of_outcome h)

theorem get?_insert_cases (hs : s'.entries = s.entries.insert j e')
    (he : s'.entries.get? id = some d) : s.entries.get? id = some d ∨ j = id ∧ e' = d := by
  rw [hs, Table.get?_insert] at he
  by_cases hj : j = id
  · rw [if_pos hj, Option.some.injEq] at he
    exact .inr ⟨hj, he⟩
  · rw [if_neg hj] at he
    exact .inl he

/-- An entry that is found after an operation was there before, or has taken its turn. -/
theorem get?_apply_cases {retention : Nat} (op : Operation)
    (he : (s.apply retention op).entries.get? id = some d) :
    s.entries.get? id = some d ∨ op.Turns id (s.entries.get? id) d := by
  rcases apply_cases retention s op with hs | ⟨j, e', hdoes⟩ | ⟨now, rfl⟩
  · rw [hs] at he
    exact .inl he
  · rcases get?_insert_cases hdoes.entries_eq he with he | ⟨rfl, rfl⟩
    · exact .inl he
    · exact .inr hdoes.turns
  · rw [apply, get?_reap] at he
    by_cases hid : id ∈ s.expired retention now
    · rw [if_pos hid] at he
      cases he
    · rw [if_neg hid] at he
      exact .inl he

end Store

end TronCourier
