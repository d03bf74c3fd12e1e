import TronCourier.Proofs.Store.Rows
import TronCourier.Proofs.Store.Terminal

/-! When an operation of a store fails, and with which error; that a failure leaves the store
as it was, also where the operation is carried out in place, one write after another; and what
a success leaves of the other transactions. -/

namespace TronCourier

/-- Checks that read a store and writes to it, one after another. A check that fails ends
them, and what was written before it stays. -/
abbrev Writes := ExceptT StoreError (StateM Store)

namespace Writes

variable {α β : Type}

def check (read : Store → Except StoreError α) : Writes α :=
  fun s => (read s, s)

def write (f : Store → Store) : Writes Unit :=
  fun s => (.ok (), f s)

theorem check_bind (read : Store → Except StoreError α) (next : α → Writes β) (s : Store) :
    (check read >>= next) s = match read s with
      | .ok a => next a s
      | .error error => (.error error, s) := by
  show ExceptT.bindCont next (read s) s = _
  cases read s with
  | ok a => rfl
  | error _ => rfl

end Writes

namespace Operation

open Writes

/-- An operation as it is carried out in place. A key is taken down before the transaction
that holds it, and an entry before the indexes that tell of it. -/
def inPlace (retention : Nat) : Operation → Writes Unit
  | .addPending tx => do
    check fun s => if s.entries.contains tx.id then .error (.duplicateId tx.id) else .ok ()
    if let some key := tx.key then
      check fun s => if s.keys.contains key then .error (.duplicateKey key) else .ok ()
      write fun s => { s with keys := s.keys.insert key tx.id }
    write fun s => s.setEntry tx.id (.ofTx tx)
  | .markBroadcasted hash expiration tx => do
    check fun s => if s.hashes.contains hash then .error (.duplicateHash hash) else .ok ()
    let e ← check fun s => s.entry tx.id
    check fun _ => if e.tx.stage = .confirmed then
      .error (.invalidTransition tx.id .confirmed .broadcasted) else .ok ()
    let e ← check fun s => s.entryFor tx.id .broadcasted
    write fun s => s.setEntry tx.id (e.sentAs hash expiration tx)
    write fun s => { s with hashes := s.hashes.insert hash tx.id }
    write fun s => s.await tx.id
  | .markConfirmed id block => do
    let e ← check fun s => s.entryFor id .confirmed
    write fun s => s.setEntry id (e.confirmedIn block)
    write fun s => s.unawait id
  | .markReorganized id => do
    let e ← check fun s => s.entry id
    check fun _ => if e.tx.stage = .confirmed then .ok () else
      .error (.invalidTransition id e.tx.stage .broadcasted)
    write fun s => s.setEntry id e.displaced
    write fun s => s.await id
  | .markErrored id => do
    let e ← check fun s => s.entryFor id .errored
    write fun s => s.setEntry id (e.withStage .errored)
    write fun s => s.unawait id
  | .recordCounters tx => do
    let e ← check fun s => s.entry tx.id
    write fun s => s.setEntry tx.id (e.withCounters tx)
  | .markFinalized id now => finish id .finalized now
  | .markFatal id now => finish id .fatallyErrored now
  | .reap now => write fun s => (s.reap retention now).1
where
  finish (id : String) (target : Stage) (now : Nat) : Writes Unit := do
    let e ← check fun s => s.entryFor id target
    write fun s => s.setEntry id (e.withStage target)
    write fun s => s.unawait id
    write fun s => { s with finished := s.finished.insert id now }

/-- What a caller is told, and the store that is left in place. -/
def left (s : Store) : Except StoreError Store → Except StoreError Unit × Store
  | .ok s' => (.ok (), s')
  | .error error => (.error error, s)

theorem finish_eq (s : Store) (id : String) (target : Stage) (now : Nat) :
    inPlace.finish id target now s = left s (s.finish id target now) := by
  simp only [inPlace.finish, Store.finish, check_bind]
  cases s.entryFor id target with
  | error _ => rfl
  | ok e => rfl

/-- No check comes after a write, so that a failure has written nothing. -/
theorem inPlace_eq (retention : Nat) (s : Store) (op : Operation) :
    op.inPlace retention s = left s (s.outcome retention op) := by
  cases op with
  | addPending tx =>
    simp only [inPlace, Store.outcome, Store.addPending, check_bind]
    by_cases hid : s.entries.contains tx.id = true
    · simp only [if_pos hid, left]
    · simp only [if_neg hid]
      cases tx.key with
      | none => rfl
      | some key =>
        simp only [check_bind]
        by_cases hkey : s.keys.contains key = true
        · simp only [if_pos hkey, left]
        · simp only [if_neg hkey]
          rfl
  | markBroadcasted hash expiration tx =>
    simp only [inPlace, Store.outcome, Store.markBroadcasted, check_bind]
    by_cases hhash : s.hashes.contains hash = true
    · simp only [if_pos hhash, left]
    · simp only [if_neg hhash]
      cases s.entry tx.id with
      | error _ => rfl
      | ok e =>
        by_cases hg : e.tx.stage = .confirmed
        · simp only [hg, if_true, left, bind, Except.bind]
        · simp only [if_neg hg, bind, Except.bind]
          cases s.entryFor tx.id .broadcasted with
          | error _ => rfl
          | ok d => rfl
  | markConfirmed id block =>
    simp only [inPlace, Store.outcome, Store.markConfirmed, check_bind]
    cases s.entryFor id .confirmed with
    | error _ => rfl
    | ok e => rfl
  | markReorganized id =>
    simp only [inPlace, Store.outcome, Store.markReorganized, check_bind]
    cases s.entry id with
    | error _ => rfl
    | ok e =>
      by_cases hg : e.tx.stage = .confirmed
      · simp only [if_pos hg, bind, Except.bind]
        rfl
      · simp only [if_neg hg, left, bind, Except.bind]
  | markErrored id =>
    simp only [inPlace, Store.outcome, Store.markErrored, check_bind]
    cases s.entryFor id .errored with
    | error _ => rfl
    | ok e => rfl
  | recordCounters tx =>
    simp only [inPlace, Store.outcome, Store.recordCounters, check_bind]
    cases s.entry tx.id with
    | error _ => rfl
    | ok e => rfl
  | markFinalized id now => exact finish_eq s id .finalized now
  | markFatal id now => exact finish_eq s id .fatallyErrored now
  | reap now => rfl

def id? : Operation → Option String
  | .addPending tx | .markBroadcasted _ _ tx | .recordCounters tx => some tx.id
  | .markConfirmed id _ | .markReorganized id | .markFinalized id _ | .markErrored id
  | .markFatal id _ => some id
  | .reap _ => none

def target? : Operation → Option Stage
  | .addPending _ => some .pending
  | .markBroadcasted .. | .markReorganized _ => some .broadcasted
  | .markConfirmed .. => some .confirmed
  | .markFinalized .. => some .finalized
  | .markErrored _ => some .errored
  | .markFatal .. => some .fatallyErrored
  | .recordCounters _ | .reap _ => none

/-- The move asks for nothing but that the transition table has it. -/
def Moves (id : String) (target : Stage) : Operation → Prop
  | .markConfirmed j _ => j = id ∧ target = .confirmed
  | .markFinalized j _ => j = id ∧ target = .finalized
  | .markErrored j => j = id ∧ target = .errored
  | .markFatal j _ => j = id ∧ target = .fatallyErrored
  | _ => False

/-- Why an operation fails on a store, and the error that it gives. -/
inductive Refused (s : Store) : Operation → StoreError → Prop
  | idTaken {tx : Tx} (htaken : s.entries.contains tx.id = true) :
      Refused s (.addPending tx) (.duplicateId tx.id)
  | keyHeld {tx : Tx} {key : String} (hnew : s.entries.contains tx.id = false)
      (hkey : tx.key = some key) (hheld : s.keys.contains key = true) :
      Refused s (.addPending tx) (.duplicateKey key)
  | hashKnown {hash : String} {expiration : Int} {tx : Tx}
      (hknown : s.hashes.contains hash = true) :
      Refused s (.markBroadcasted hash expiration tx) (.duplicateHash hash)
  | sentUnknown {hash : String} {expiration : Int} {tx : Tx}
      (hnew : s.hashes.contains hash = false) (hnone : s.stage? tx.id = none) :
      Refused s (.markBroadcasted hash expiration tx) (.notFound tx.id)
  | sentBefore {hash : String} {expiration : Int} {tx : Tx} {g : Stage}
      (hnew : s.hashes.contains hash = false) (hstage : s.stage? tx.id = some g)
      (hg : g ≠ .pending ∧ g ≠ .errored) :
      Refused s (.markBroadcasted hash expiration tx) (.invalidTransition tx.id g .broadcasted)
  | displacedUnknown {id : String} (hnone : s.stage? id = none) :
      Refused s (.markReorganized id) (.notFound id)
  | notInBlock {id : String} {g : Stage} (hstage : s.stage? id = some g) (hg : g ≠ .confirmed) :
      Refused s (.markReorganized id) (.invalidTransition id g .broadcasted)
  | movedUnknown {op : Operation} {id : String} {target : Stage} (hop : op.Moves id target)
      (hnone : s.stage? id = none) : Refused s op (.notFound id)
  | noSuchMove {op : Operation} {id : String} {target g : Stage} (hop : op.Moves id target)
      (hstage : s.stage? id = some g) (hg : g.canMoveTo target = false) :
      Refused s op (.invalidTransition id g target)
  | countedUnknown {tx : Tx} (hnone : s.stage? tx.id = none) :
      Refused s (.recordCounters tx) (.notFound tx.id)

end Operation

namespace Store

variable {s s' : Store} {id : String} {e e' : Entry} {error : StoreError} {op : Operation}
  {retention : Nat}

theorem entry_eq_error_iff :
    s.entry id = .error error ↔ s.stage? id = none ∧ error = .notFound id := by
  unfold entry stage?
  cases s.entries.get? id with
  | none => simp [eq_comm]
  | some e => simp

theorem Consistent.entryFor_eq_error_iff (h : s.Consistent) {target : Stage} :
    s.entryFor id target = .error error ↔ s.stage? id = none ∧ error = .notFound id ∨
      ∃ g, s.stage? id = some g ∧ g.canMoveTo target = false ∧
        error = .invalidTransition id g target := by
  simp only [entryFor, bind_eq_error_iff, entry_eq_error_iff, entry_eq_ok_iff]
  refine or_congr_right ⟨?_, ?_⟩
  · rintro ⟨e, he, herror⟩
    by_cases hg : e.tx.stage.canMoveTo target = true
    · rw [if_pos hg] at herror
      cases herror
    · rw [if_neg hg, h.id_eq he] at herror
      cases herror
      exact ⟨_, stage?_of_entry he, Bool.eq_false_iff.mpr hg, rfl⟩
  · rintro ⟨g, hstage, hg, rfl⟩
    obtain ⟨e, he, rfl⟩ := stage?_eq_some_iff.mp hstage
    refine ⟨e, he, ?_⟩
    rw [if_neg (Bool.eq_false_iff.mp hg), h.id_eq he]

theorem addPending_eq_error_iff {tx : Tx} :
    s.addPending tx = .error error ↔ (Operation.addPending tx).Refused s error := by
  unfold addPending
  constructor
  · intro herror
    by_cases hid : s.entries.contains tx.id = true
    · rw [if_pos hid] at herror
      cases herror
      exact .idTaken hid
    · rw [if_neg hid] at herror
      cases hk : tx.key with
      | none => simp [hk] at herror
      | some key =>
        simp only [hk] at herror
        by_cases hkey : s.keys.contains key = true
        · rw [if_pos hkey] at herror
          cases herror
          exact .keyHeld (Bool.eq_false_iff.mpr hid) hk hkey
        · rw [if_neg hkey] at herror
          cases herror
  · intro hrefused
    cases hrefused with
    | idTaken htaken => rw [if_pos htaken]
    | keyHeld hnew hkey hheld =>
      simp only [hnew, hkey, hheld, Bool.false_eq_true, if_true, if_false]
    | movedUnknown hop => exact hop.elim
    | noSuchMove hop => exact hop.elim

theorem Consistent.markBroadcasted_eq_error_iff (h : s.Consistent) {hash : String}
    {expiration : Int} {tx : Tx} : s.markBroadcasted hash expiration tx = .error error ↔
      (Operation.markBroadcasted hash expiration tx).Refused s error := by
  unfold Store.markBroadcasted
  by_cases hhash : s.hashes.contains hash = true
  · rw [if_pos hhash]
    constructor
    · intro herror
      cases herror
      exact .hashKnown hhash
    · intro hrefused
      cases hrefused with
      | hashKnown => rfl
      | sentUnknown hnew => simp [hnew] at hhash
      | sentBefore hnew => simp [hnew] at hhash
      | movedUnknown hop => exact hop.elim
      | noSuchMove hop => exact hop.elim
  · rw [if_neg hhash]
    have hnew := Bool.eq_false_iff.mpr hhash
    simp only [bind_eq_error_iff, entry_eq_error_iff, entry_eq_ok_iff]
    constructor
    · rintro (⟨hnone, rfl⟩ | ⟨e, he, herror⟩)
      · exact .sentUnknown hnew hnone
      · have hstage := stage?_of_entry he
        -- what is confirmed has a check of its own, since the table lets it be displaced
        by_cases hg : e.tx.stage = .confirmed
        · rw [if_pos hg] at herror
          cases herror
          rw [hg] at hstage
          exact .sentBefore hnew hstage (by decide)
        · simp only [if_neg hg, bind_eq_error_iff, h.entryFor_eq_error_iff, hstage] at herror
          rcases herror with (⟨hnone, -⟩ | ⟨g, hsome, hmove, rfl⟩) | ⟨d, -, hd⟩
          · cases hnone
          · cases hsome
            rw [Bool.eq_false_iff, ne_eq, Stage.canMoveTo_broadcasted_iff] at hmove
            exact .sentBefore hnew hstage (by tauto)
          · cases hd
    · intro hrefused
      cases hrefused with
      | hashKnown hknown => exact (hhash hknown).elim
      | sentUnknown _ hnone => exact .inl ⟨hnone, rfl⟩
      | sentBefore _ hstage hg =>
        obtain ⟨e, he, rfl⟩ := stage?_eq_some_iff.mp hstage
        refine .inr ⟨e, he, ?_⟩
        by_cases hc : e.tx.stage = .confirmed
        · rw [if_pos hc, hc]
        · rw [if_neg hc, bind_eq_error_iff, h.entryFor_eq_error_iff]
          have hmove : e.tx.stage.canMoveTo .broadcasted = false := by
            rw [Bool.eq_false_iff, ne_eq, Stage.canMoveTo_broadcasted_iff]
            tauto
          exact .inl (.inr ⟨_, hstage, hmove, rfl⟩)
      | movedUnknown hop => exact hop.elim
      | noSuchMove hop => exact hop.elim

theorem markReorganized_eq_error_iff : s.markReorganized id = .error error ↔
    (Operation.markReorganized id).Refused s error := by
  simp only [markReorganized, bind_eq_error_iff, entry_eq_error_iff, entry_eq_ok_iff]
  constructor
  · rintro (⟨hnone, rfl⟩ | ⟨e, he, herror⟩)
    · exact .displacedUnknown hnone
    · by_cases hg : e.tx.stage = .confirmed
      · rw [if_pos hg] at herror
        cases herror
      · rw [if_neg hg] at herror
        cases herror
        exact .notInBlock (stage?_of_entry he) hg
  · intro hrefused
    cases hrefused with
    | displacedUnknown hnone => exact .inl ⟨hnone, rfl⟩
    | notInBlock hstage hg =>
      obtain ⟨e, he, rfl⟩ := stage?_eq_some_iff.mp hstage
      exact .inr ⟨e, he, if_neg hg⟩
    | movedUnknown hop => exact hop.elim
    | noSuchMove hop => exact hop.elim

theorem recordCounters_eq_error_iff {tx : Tx} : s.recordCounters tx = .error error ↔
    (Operation.recordCounters tx).Refused s error := by
  simp only [recordCounters, bind_eq_error_iff, entry_eq_error_iff, entry_eq_ok_iff]
  constructor
  · rintro (⟨hnone, rfl⟩ | ⟨e, -, herror⟩)
    · exact .countedUnknown hnone
    · cases herror
  · intro hrefused
    cases hrefused with
    | countedUnknown hnone => exact .inl ⟨hnone, rfl⟩
    | movedUnknown hop => exact hop.elim
    | noSuchMove hop => exact hop.elim

theorem outcome_eq_error_iff_of_moves {target : Stage} (hop : op.Moves id target) :
    s.outcome retention op = .error error ↔ s.entryFor id target = .error error := by
  have hwritten {f : Entry → Store} :
      (s.entryFor id target >>= fun e => pure (f e)) = .error error ↔
        s.entryFor id target = .error error := by
    simp [bind_eq_error_iff, pure, Except.pure]
  cases op with
  | markConfirmed _ block =>
    obtain ⟨rfl, rfl⟩ := hop
    exact hwritten
  | markFinalized _ now =>
    obtain ⟨rfl, rfl⟩ := hop
    exact hwritten
  | markErrored _ =>
    obtain ⟨rfl, rfl⟩ := hop
    simp [outcome, markErrored, map_eq_error_iff, bind_eq_error_iff, pure, Except.pure]
  | markFatal _ now =>
    obtain ⟨rfl, rfl⟩ := hop
    exact hwritten
  | addPending | markBroadcasted | markReorganized | recordCounters | reap => exact hop.elim

theorem Consistent.outcome_of_moves (h : s.Consistent) {target : Stage} (hop : op.Moves id target) :
    s.outcome retention op = .error error ↔ op.Refused s error := by
  rw [outcome_eq_error_iff_of_moves hop, h.entryFor_eq_error_iff]
  constructor
  · rintro (⟨hnone, rfl⟩ | ⟨g, hstage, hg, rfl⟩)
    · exact .movedUnknown hop hnone
    · exact .noSuchMove hop hstage hg
  · intro hrefused
    have hsame {j : String} {target' : Stage} (hop' : op.Moves j target') :
        j = id ∧ target' = target := by
      cases op <;> simp_all [Operation.Moves]
    cases hrefused with
    | movedUnknown hop' hnone =>
      obtain ⟨rfl, rfl⟩ := hsame hop'
      exact .inl ⟨hnone, rfl⟩
    | noSuchMove hop' hstage hg =>
      obtain ⟨rfl, rfl⟩ := hsame hop'
      exact .inr ⟨_, hstage, hg, rfl⟩
    | idTaken | keyHeld | hashKnown | sentUnknown | sentBefore | displacedUnknown | notInBlock
    | countedUnknown => exact hop.elim

theorem Consistent.outcome_eq_error_iff (h : s.Consistent) :
    s.outcome retention op = .error error ↔ op.Refused s error := by
  cases op with
  | addPending tx => exact addPending_eq_error_iff
  | markBroadcasted hash expiration tx => exact h.markBroadcasted_eq_error_iff
  | markConfirmed id block => exact h.outcome_of_moves ⟨rfl, rfl⟩
  | markReorganized id => exact markReorganized_eq_error_iff
  | markFinalized id now => exact h.outcome_of_moves ⟨rfl, rfl⟩
  | markErrored id => exact h.outcome_of_moves ⟨rfl, rfl⟩
  | recordCounters tx => exact recordCounters_eq_error_iff
  | markFatal id now => exact h.outcome_of_moves ⟨rfl, rfl⟩
  | reap now =>
    constructor
    · intro herror
      cases herror
    · intro hrefused
      cases hrefused with
      | movedUnknown hop => exact hop.elim
      | noSuchMove hop => exact hop.elim

/-- Two stores say the same of a transaction, whichever of their views is asked. -/
structure Agree (s s' : Store) (id : String) : Prop where
  entry_eq : s'.entries.get? id = s.entries.get? id
  stage?_eq : s'.stage? id = s.stage? id
  tx?_eq : s'.tx? id = s.tx? id
  hashesOf_eq : s'.hashesOf id = s.hashesOf id
  awaiting_iff : ∀ row, row.id = id → (row ∈ s'.awaitingRows ↔ row ∈ s.awaitingRows)
  settling_iff : ∀ row, row.id = id → (row ∈ s'.settlingRows ↔ row ∈ s.settlingRows)
  finished_eq : s'.finished.get? id = s.finished.get? id
  hashes_iff : ∀ hash, s'.hashes.get? hash = some id ↔ s.hashes.get? hash = some id
  keys_iff : ∀ key, s'.keys.get? key = some id ↔ s.keys.get? key = some id

theorem Consistent.agree (h : s.Consistent) (h' : s'.Consistent)
    (hentry : s'.entries.get? id = s.entries.get? id)
    (hfinished : s'.finished.get? id = s.finished.get? id) : s.Agree s' id where
  entry_eq := hentry
  stage?_eq := by rw [stage?, hentry, stage?]
  tx?_eq := by rw [tx?, hentry, tx?]
  hashesOf_eq := by rw [hashesOf, hentry, hashesOf]
  awaiting_iff := by
    rintro row rfl
    rw [mem_awaitingRows, mem_awaitingRows, h'.awaiting_iff, h.awaiting_iff, stage?, hentry, stage?]
  settling_iff := by
    rintro row rfl
    rw [h'.mem_settlingRows, h.mem_settlingRows, hentry]
  finished_eq := hfinished
  hashes_iff hash := by rw [h'.hashes_iff, h.hashes_iff, hentry]
  keys_iff key := by rw [h'.keys_iff, h.keys_iff, hentry]

theorem Consistent.agree_of_does (h : s.Consistent) (h' : s'.Consistent)
    (hdoes : op.Does s s' id e') {j : String} (hj : j ≠ id) : s.Agree s' j := by
  refine h.agree h' ?_ ?_
  · rw [hdoes.entries_eq, Table.get?_insert, if_neg hj.symm]
  · rw [hdoes.finished_eq]
    cases op.end? with
    | none => rfl
    | some now => rw [Option.map_some, Option.getD_some, Table.get?_insert, if_neg hj.symm]

theorem id?_of_turns {old : Option Entry} (hturn : op.Turns id old e') : op.id? = some id := by
  cases hturn <;> rfl

theorem stage_of_turns {old : Option Entry} (hturn : op.Turns id old e') :
    some e'.tx.stage = op.target?.or (old.map fun e => e.tx.stage) := by
  cases hturn <;> rfl

theorem does_of_id? (h : s.outcome retention op = .ok s') (hid : op.id? = some id) :
    ∃ e', op.Does s s' id e' := by
  obtain ⟨j, e', hdoes⟩ | ⟨now, rfl⟩ := does_of_outcome h
  · have hj := id?_of_turns hdoes.turns
    rw [hid, Option.some.injEq] at hj
    subst hj
    exact ⟨e', hdoes⟩
  · cases hid

theorem stage?_of_does (hdoes : op.Does s s' id e') :
    s'.stage? id = op.target?.or (s.stage? id) := by
  rw [stage?, hdoes.entries_eq, Table.get?_insert, if_pos rfl, Option.map_some,
    stage_of_turns hdoes.turns, stage?]

/-- Whatever was tried on a store that was empty at first, an operation fails just if it is
refused, with that error. The store is then as it was, also where the operation was carried out
in place. An operation that succeeds gives one turn to the transaction that it is about, brings
it to the stage that it stands for, and all that the store says of others stays. -/
theorem refused_whole_or_one_turn (retention : Nat) (earlier : List Operation) (op : Operation) :
    let s := Store.empty.run retention earlier
    (∀ error, s.outcome retention op = .error error ↔ op.Refused s error) ∧
    (∀ error, op.Refused s error →
      op.inPlace retention s = (.error error, s) ∧ s.apply retention op = s) ∧
    ∀ id, op.id? = some id → (∀ error, ¬ op.Refused s error) →
      ∃ s' e', s.outcome retention op = .ok s' ∧ op.inPlace retention s = (.ok (), s') ∧
        s'.entries = s.entries.insert id e' ∧ op.Turns id (s.entries.get? id) e' ∧
        s'.stage? id = op.target?.or (s.stage? id) ∧ ∀ j, j ≠ id → s.Agree s' j := by
  intro s
  have h : s.Consistent := consistent_empty.run retention earlier
  refine ⟨fun error => h.outcome_eq_error_iff, fun error hrefused => ?_, fun id hid hnot => ?_⟩
  · have herror : s.outcome retention op = .error error := h.outcome_eq_error_iff.mpr hrefused
    rw [Operation.inPlace_eq, apply_eq_after, herror]
    exact ⟨rfl, rfl⟩
  · cases hs : s.outcome retention op with
    | error error => exact (hnot error (h.outcome_eq_error_iff.mp hs)).elim
    | ok s' =>
      have h' : s'.Consistent := by
        have happly := h.apply retention op
        rwa [apply_eq_after, hs] at happly
      obtain ⟨e', hdoes⟩ := does_of_id? hs hid
      refine ⟨s', e', rfl, ?_, hdoes.entries_eq, hdoes.turns, stage?_of_does hdoes, fun j hj =>
        h.agree_of_does h' hdoes hj⟩
      rw [Operation.inPlace_eq, hs]
      rfl

theorem refused_whole_or_one_turn_keyedSample :
    let s := Store.empty.run 60 earlierSample
    let again := { keyedSample with id := "v" }
    (Operation.addPending again).inPlace 60 s = (.error (.duplicateKey "k-1"), s) ∧
      ∃ s', s.outcome 60 (.markReorganized "t") = .ok s' ∧ s'.stage? "t" = some .broadcasted ∧
        s.Agree s' "u" := by
  intro s again
  constructor
  · have hheld : (Operation.addPending again).Refused s (.duplicateKey "k-1") :=
      .keyHeld (by decide +kernel) rfl (by decide +kernel)
    exact ((refused_whole_or_one_turn 60 earlierSample (.addPending again)).2.1 _ hheld).1
  · have hstage : s.stage? "t" = some .confirmed := by decide +kernel
    have hnot : ∀ error, ¬ (Operation.markReorganized "t").Refused s error := by
      intro error hrefused
      cases hrefused with
      | displacedUnknown hnone =>
        rw [hstage] at hnone
        cases hnone
      | notInBlock hother hg =>
        rw [hstage, Option.some.injEq] at hother
        exact hg hother.symm
      | movedUnknown hop => exact hop.elim
      | noSuchMove hop => exact hop.elim
    obtain ⟨s', e', hs, -, -, -, htarget, hothers⟩ :=
      (refused_whole_or_one_turn 60 earlierSample (.markReorganized "t")).2.2 "t" rfl hnot
    exact ⟨s', hs, htarget, hothers "u" (by decide)⟩

end Store

end TronCourier
