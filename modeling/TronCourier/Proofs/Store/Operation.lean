import TronCourier.Proofs.Except
import TronCourier.Store.Store

/-! The operations of a store as data, and what each of them does when it succeeds. -/

namespace TronCourier

/-- An operation with its arguments. -/
inductive Operation
  | addPending (tx : Tx)
  | markBroadcasted (hash : String) (expiration : Int) (tx : Tx)
  | markConfirmed (id : String) (block : Int)
  | markReorganized (id : String)
  | markFinalized (id : String) (now : Nat)
  | markErrored (id : String)
  | recordCounters (tx : Tx)
  | markFatal (id : String) (now : Nat)
  | reap (now : Nat)

namespace Stage

variable {g : Stage}

theorem canMoveTo_broadcasted_iff :
    g.canMoveTo .broadcasted = true ↔ g = .pending ∨ g = .errored ∨ g = .confirmed := by
  cases g <;> simp [canMoveTo]

theorem canMoveTo_confirmed_iff : g.canMoveTo .confirmed = true ↔ g = .broadcasted := by
  cases g <;> simp [canMoveTo]

theorem canMoveTo_finalized_iff : g.canMoveTo .finalized = true ↔ g = .confirmed := by
  cases g <;> simp [canMoveTo]

theorem canMoveTo_errored_iff :
    g.canMoveTo .errored = true ↔ g = .pending ∨ g = .broadcasted := by
  cases g <;> simp [canMoveTo]

end Stage

namespace Store

/-- The store after an outcome. A failure changes nothing. -/
def after (s : Store) : Except StoreError Store → Store
  | .ok s' => s'
  | .error _ => s

def apply (retention : Nat) (s : Store) : Operation → Store
  | .addPending tx => s.after (s.addPending tx)
  | .markBroadcasted hash expiration tx => s.after (s.markBroadcasted hash expiration tx)
  | .markConfirmed id block => s.after (s.markConfirmed id block)
  | .markReorganized id => s.after (s.markReorganized id)
  | .markFinalized id now => s.after (s.markFinalized id now)
  | .markErrored id => s.after ((s.markErrored id).map Prod.fst)
  | .recordCounters tx => s.after (s.recordCounters tx)
  | .markFatal id now => s.after (s.markFatal id now)
  | .reap now => (s.reap retention now).1

/-- What an operation gives. A reap always succeeds. -/
def outcome (retention : Nat) (s : Store) : Operation → Except StoreError Store
  | .addPending tx => s.addPending tx
  | .markBroadcasted hash expiration tx => s.markBroadcasted hash expiration tx
  | .markConfirmed id block => s.markConfirmed id block
  | .markReorganized id => s.markReorganized id
  | .markFinalized id now => s.markFinalized id now
  | .markErrored id => (s.markErrored id).map Prod.fst
  | .recordCounters tx => s.recordCounters tx
  | .markFatal id now => s.markFatal id now
  | .reap now => .ok (s.reap retention now).1

theorem apply_eq_after (retention : Nat) (s : Store) (op : Operation) :
    s.apply retention op = s.after (s.outcome retention op) := by
  cases op <;> rfl

def run (retention : Nat) (s : Store) (ops : List Operation) : Store :=
  ops.foldl (apply retention) s

variable {s s' : Store} {id hash : String} {tx : Tx} {e : Entry}

/-- What holds of a store and of every success holds after the outcome. -/
theorem after_induction {P : Store → Prop} {r : Except StoreError Store} (h : P s)
    (hr : ∀ s', r = .ok s' → P s') : P (s.after r) := by
  cases r with
  | error _ => exact h
  | ok s' => exact hr s' rfl

theorem stage?_eq_some_iff {g : Stage} :
    s.stage? id = some g ↔ ∃ e, s.entries.get? id = some e ∧ e.tx.stage = g := by
  simp [stage?]

theorem stage?_of_entry (h : s.entries.get? id = some e) : s.stage? id = some e.tx.stage := by
  simp [stage?, h]

theorem stage?_eq_none_iff : s.stage? id = none ↔ s.entries.get? id = none := by
  simp [stage?]

theorem mem_await {j : String} : j ∈ (s.await id).awaiting ↔ j = id ∨ j ∈ s.awaiting := by
  simp only [await]
  by_cases h : id ∈ s.awaiting
  · rw [if_pos h]
    exact ⟨Or.inr, fun hj => hj.elim (fun e => e ▸ h) fun hj => hj⟩
  · rw [if_neg h, List.mem_append, List.mem_singleton, or_comm]

theorem mem_unawait {j : String} : j ∈ (s.unawait id).awaiting ↔ j ∈ s.awaiting ∧ j ≠ id := by
  simp [unawait]

theorem nodup_await (h : s.awaiting.Nodup) : (s.await id).awaiting.Nodup := by
  simp only [await]
  by_cases hm : id ∈ s.awaiting
  · rwa [if_pos hm]
  · rw [if_neg hm]
    exact List.nodup_append.mpr ⟨h, by simp, fun a ha b hb e => hm (by simp_all)⟩

theorem nodup_unawait (h : s.awaiting.Nodup) : (s.unawait id).awaiting.Nodup :=
  h.sublist List.filter_sublist

theorem get?_setEntry (s : Store) (id : String) (e : Entry) (j : String) :
    (s.setEntry id e).entries.get? j = if id = j then some e else s.entries.get? j :=
  Table.get?_insert _ _ _ _

theorem entry_eq_ok_iff : s.entry id = .ok e ↔ s.entries.get? id = some e := by
  unfold entry
  cases s.entries.get? id with
  | none => simp
  | some d => simp

theorem entryFor_eq_ok_iff {target : Stage} :
    s.entryFor id target = .ok e ↔
      s.entries.get? id = some e ∧ e.tx.stage.canMoveTo target = true := by
  simp only [entryFor, bind_eq_ok_iff, entry_eq_ok_iff]
  constructor
  · rintro ⟨d, hd, hok⟩
    split at hok
    · rename_i hg
      cases hok
      exact ⟨hd, hg⟩
    · cases hok
  · rintro ⟨he, hg⟩
    exact ⟨e, he, if_pos hg⟩

/-- The keys of a store that takes in a transaction. -/
def keysWith (s : Store) (tx : Tx) : Table String String :=
  match tx.key with
  | some key => s.keys.insert key tx.id
  | none => s.keys

theorem get?_keysWith {key : String} :
    (s.keysWith tx).get? key = if tx.key = some key then some tx.id else s.keys.get? key := by
  unfold keysWith
  cases tx.key with
  | none => simp
  | some k => simp [Table.get?_insert]

theorem get?_keysWithout {key : String} :
    (s.keysWithout tx).get? key = if tx.key = some key then none else s.keys.get? key := by
  unfold keysWithout
  cases tx.key with
  | none => simp
  | some k => simp [Table.get?_erase]

theorem addPending_eq_ok_iff :
    s.addPending tx = .ok s' ↔
      s.entries.get? tx.id = none ∧ (∀ key, tx.key = some key → s.keys.get? key = none) ∧
        s' = { s with keys := s.keysWith tx }.setEntry tx.id (.ofTx tx) := by
  unfold addPending Table.contains
  obtain he | ⟨e, he⟩ := Option.eq_none_or_eq_some (s.entries.get? tx.id)
  · cases hk : tx.key with
    | none => simp [he, keysWith, hk, eq_comm]
    | some key =>
      obtain hkey | ⟨owner, hkey⟩ := Option.eq_none_or_eq_some (s.keys.get? key)
      · simp [he, hkey, keysWith, hk, eq_comm]
      · simp [he, hkey]
  · simp [he]

theorem get?_addPending (h : s.addPending tx = .ok s') :
    s'.entries.get? tx.id = some (.ofTx tx) := by
  obtain ⟨-, -, rfl⟩ := addPending_eq_ok_iff.mp h
  show (Table.insert _ _ _).get? tx.id = _
  rw [Table.get?_insert, if_pos rfl]

theorem keys_addPending (h : s.addPending tx = .ok s') {key : String} (hkey : tx.key = some key) :
    s'.keys.get? key = some tx.id := by
  obtain ⟨-, -, rfl⟩ := addPending_eq_ok_iff.mp h
  show (s.keysWith tx).get? key = _
  rw [get?_keysWith, if_pos hkey]

theorem markBroadcasted_eq_ok_iff {expiration : Int} :
    s.markBroadcasted hash expiration tx = .ok s' ↔
      s.hashes.get? hash = none ∧
        ∃ e, s.entries.get? tx.id = some e ∧
          (e.tx.stage = .pending ∨ e.tx.stage = .errored) ∧
          s' = ({ s with hashes := s.hashes.insert hash tx.id }.setEntry tx.id
            (e.sentAs hash expiration tx)).await tx.id := by
  unfold markBroadcasted Table.contains
  obtain hh | ⟨owner, hh⟩ := Option.eq_none_or_eq_some (s.hashes.get? hash)
  · rw [hh, Option.isSome_none, if_neg Bool.false_ne_true]
    simp only [bind_eq_ok_iff, entry_eq_ok_iff, true_and]
    refine exists_congr fun e => and_congr_right fun he => ?_
    by_cases hc : e.tx.stage = .confirmed
    · simp [hc]
    · -- what is not confirmed may be sent as the stages allow
      have hsent : e.tx.stage.canMoveTo .broadcasted = true ↔
          e.tx.stage = .pending ∨ e.tx.stage = .errored := by
        rw [Stage.canMoveTo_broadcasted_iff]
        simp [hc]
      simp only [if_neg hc, bind_eq_ok_iff, entryFor_eq_ok_iff, he, pure, Except.pure,
        Except.ok.injEq, eq_comm (b := s')]
      constructor
      · rintro ⟨d, ⟨hd, hg⟩, hs⟩
        cases hd
        exact ⟨hsent.mp hg, hs⟩
      · rintro ⟨hg, hs⟩
        exact ⟨e, ⟨rfl, hsent.mpr hg⟩, hs⟩
  · simp [hh]

theorem markConfirmed_eq_ok_iff {block : Int} :
    s.markConfirmed id block = .ok s' ↔
      ∃ e, s.entries.get? id = some e ∧ e.tx.stage = .broadcasted ∧
        s' = (s.setEntry id (e.confirmedIn block)).unawait id := by
  simp only [markConfirmed, bind_eq_ok_iff, entryFor_eq_ok_iff, Stage.canMoveTo_confirmed_iff,
    and_assoc, pure, Except.pure, Except.ok.injEq, eq_comm (b := s')]

theorem markReorganized_eq_ok_iff :
    s.markReorganized id = .ok s' ↔
      ∃ e, s.entries.get? id = some e ∧ e.tx.stage = .confirmed ∧
        s' = (s.setEntry id e.displaced).await id := by
  simp only [markReorganized, bind_eq_ok_iff, entry_eq_ok_iff]
  refine exists_congr fun e => and_congr_right fun _ => ?_
  by_cases hg : e.tx.stage = .confirmed
  · simp [hg, pure, Except.pure, eq_comm]
  · simp [hg]

theorem markErrored_eq_ok_iff :
    s.markErrored id = .ok (s', tx) ↔
      ∃ e, s.entries.get? id = some e ∧
        (e.tx.stage = .pending ∨ e.tx.stage = .broadcasted) ∧
        s' = (s.setEntry id (e.withStage .errored)).unawait id ∧
        tx = (e.withStage .errored).tx := by
  simp only [markErrored, bind_eq_ok_iff, entryFor_eq_ok_iff, Stage.canMoveTo_errored_iff,
    and_assoc, pure, Except.pure, Except.ok.injEq, Prod.mk.injEq, eq_comm (b := s'),
    eq_comm (b := tx)]

theorem map_markErrored_eq_ok_iff :
    (s.markErrored id).map Prod.fst = .ok s' ↔ ∃ tx, s.markErrored id = .ok (s', tx) := by
  cases s.markErrored id with
  | error _ => simp [Except.map]
  | ok r =>
    obtain ⟨t, tx⟩ := r
    simp [Except.map]

theorem recordCounters_eq_ok_iff :
    s.recordCounters tx = .ok s' ↔
      ∃ e, s.entries.get? tx.id = some e ∧ s' = s.setEntry tx.id (e.withCounters tx) := by
  simp only [recordCounters, bind_eq_ok_iff, entry_eq_ok_iff, pure, Except.pure, Except.ok.injEq,
    eq_comm (b := s')]

theorem finish_eq_ok_iff {target : Stage} {now : Nat} :
    s.finish id target now = .ok s' ↔
      ∃ e, s.entries.get? id = some e ∧ e.tx.stage.canMoveTo target = true ∧
        s' = { (s.setEntry id (e.withStage target)).unawait id with
          finished := s.finished.insert id now } := by
  simp only [finish, bind_eq_ok_iff, entryFor_eq_ok_iff, and_assoc, pure, Except.pure,
    Except.ok.injEq, eq_comm (b := s')]

end Store

end TronCourier
