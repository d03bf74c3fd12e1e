import TronCourier.Proofs.Manager.Lookup
import TronCourier.Proofs.Manager.Policy

/-! What was done for whom in a pass, what there is to do in all, and what each operation of the
poller does. -/

namespace TronCourier

/-- The deeds for one transaction, out of a list of what was done for whom. -/
def deedsOf (log : List ((Address × String) × Deed)) (k : Address × String) : List Deed :=
  log.filterMap fun x => if x.1 = k then some x.2 else none

section Log

variable {log log' : List ((Address × String) × Deed)} {k : Address × String}

theorem deedsOf_append : deedsOf (log ++ log') k = deedsOf log k ++ deedsOf log' k :=
  List.filterMap_append

theorem deedsOf_map (deeds : List Deed) : deedsOf (deeds.map (Prod.mk k)) k = deeds := by
  simp [deedsOf, List.filterMap_map]

theorem deedsOf_eq_nil (h : ∀ x ∈ log, x.1 ≠ k) : deedsOf log k = [] := by
  rw [deedsOf, List.filterMap_eq_nil_iff]
  exact fun x hx => if_neg (h x hx)

theorem deedsOf_map_of_ne {k' : Address × String} (h : k' ≠ k) (deeds : List Deed) :
    deedsOf (deeds.map (Prod.mk k')) k = [] := by
  refine deedsOf_eq_nil fun x hx => ?_
  obtain ⟨d, -, rfl⟩ := List.mem_map.mp hx
  exact h

open Classical in
theorem count_eq (d : Deed) : log.count (k, d) = (deedsOf log k).count d := by
  induction log with
  | nil => rfl
  | cons x log ih =>
    obtain ⟨k', d'⟩ := x
    rw [List.count_cons, ih]
    by_cases hk : k' = k
    · subst hk
      simp [deedsOf, List.count_cons]
    · simp [deedsOf, hk]

theorem perm_of_deedsOf (h : ∀ k, deedsOf log k = deedsOf log' k) : log.Perm log' := by
  classical
  rw [List.perm_iff_count]
  rintro ⟨k, d⟩
  rw [count_eq, count_eq, h]

theorem subperm_of_deedsOf (h : ∀ k, (deedsOf log k).Sublist (deedsOf log' k)) :
    log.Subperm log' := by
  classical
  rw [List.subperm_ext_iff]
  rintro ⟨k, d⟩ -
  rw [count_eq, count_eq]
  exact (h k).count_le d

theorem Table.deedsOf_flatMap {κ α : Type} [DecidableEq κ] {t : Table κ α} (h : t.keys.Nodup)
    {f : κ × α → List ((Address × String) × Deed)} {i : κ}
    (hf : ∀ row, row.1 ≠ i → deedsOf (f row) k = []) :
    deedsOf (t.rows.flatMap f) k =
      match t.get? i with
      | some a => deedsOf (f (i, a)) k
      | none => [] := by
  obtain ⟨rows⟩ := t
  simp only [keys, get?] at h ⊢
  induction rows with
  | nil => rfl
  | cons row rest ih =>
    obtain ⟨j, a⟩ := row
    have hrest := List.nodup_cons.mp h
    rw [List.flatMap_cons, deedsOf_append, ih hrest.2]
    by_cases hj : j = i
    · subst hj
      have hnone : rest.find? (fun row => decide (row.1 = j)) = none := by
        simp only [List.find?_eq_none, decide_eq_true_eq]
        intro row hrow hj
        have hmem : row.1 ∈ rest.map Prod.fst := List.mem_map_of_mem hrow
        exact hrest.1 (hj ▸ hmem)
      simp [hnone]
    · simp [hj, hf (j, a) hj]

end Log

namespace Manager

/-- All that a pass has to do. -/
def dues (w : Surroundings Unit) (m : Manager) : List ((Address × String) × Deed) :=
  m.accounts.stores.rows.flatMap fun row => row.2.entries.rows.flatMap fun e =>
    (e.2.policy m.settings (w.tidings? e.2)).deeds.map (Prod.mk (row.1, e.1))

variable {m m' : Manager} {w : Surroundings Unit} {now : Nat}

theorem deedsOf_dues (hkeys : m.accounts.Distinct) (hc : ∀ a, (m.store a).Consistent)
    (a : Address) (id : String) : deedsOf (m.dues w) (a, id) =
      match (m.store a).entries.get? id with
      | some e => (e.policy m.settings (w.tidings? e)).deeds
      | none => [] := by
  have hstore : m.store a = (m.accounts.stores.get? a).getD .empty := rfl
  rw [dues, Table.deedsOf_flatMap (i := a) hkeys]
  · cases hs : m.accounts.stores.get? a with
    | none =>
      rw [hstore, hs]
      rfl
    | some s =>
      rw [hs, Option.getD_some] at hstore
      rw [hstore]
      have hnodup : s.entries.keys.Nodup := hstore ▸ (hc a).nodup_entries
      simp only
      rw [Table.deedsOf_flatMap (i := id) hnodup]
      · cases s.entries.get? id with
        | none => rfl
        | some e => exact deedsOf_map _
      · rintro ⟨j, e⟩ hj
        exact deedsOf_map_of_ne (fun h => hj (Prod.mk.inj h).2) _
  · rintro ⟨b, s⟩ hb
    refine deedsOf_eq_nil fun x hx => ?_
    simp only [List.mem_flatMap, List.mem_map] at hx
    obtain ⟨_, -, _, -, rfl⟩ := hx
    exact fun h => hb (Prod.mk.inj h).1

/-- A manager whose poller has become another and has done these deeds. -/
structure Performs (m m' : Manager) (x : Poller) (stores : Address → Store) (deeds : List Deed) :
    Prop where
  eq : ∃ accounts events, m' = { m with
    poller := x
    accounts := accounts
    events := events
    metrics := deeds.foldl Metrics.after m.metrics
    queue := m.queue ++ deeds.filterMap Deed.tx? }
  store_eq : m'.store = stores
  keys_eq : m'.accounts.stores.keys = m.accounts.stores.keys

variable {x : Poller} {stores : Address → Store} {deeds : List Deed} {a : Address} {id : String}
  {s : Store}

theorem performs_same (m : Manager) (x : Poller) :
    m.Performs { m with poller := x } x m.store [] where
  eq := ⟨_, _, by rw [List.filterMap_nil, List.append_nil, List.foldl_nil]⟩
  store_eq := rfl
  keys_eq := rfl

theorem Performs.withPoller (h : m.Performs m' x stores deeds) (y : Poller) :
    m.Performs { m' with poller := y } y stores deeds := by
  obtain ⟨⟨accounts, events, rfl⟩, hstore, hkeys⟩ := h
  exact ⟨⟨_, _, rfl⟩, hstore, hkeys⟩

theorem Performs.record (h : m.Performs m' x stores deeds) (e : Event) :
    m.Performs (m'.record e) x stores deeds := by
  obtain ⟨⟨accounts, events, rfl⟩, hstore, hkeys⟩ := h
  exact ⟨⟨_, _, rfl⟩, hstore, hkeys⟩

theorem Performs.does (h : m.Performs m' x stores deeds) {d : Deed} (hd : d.tx? = none) :
    m.Performs (m'.count fun c => c.after d) x stores (deeds ++ [d]) := by
  obtain ⟨⟨accounts, events, rfl⟩, hstore, hkeys⟩ := h
  refine ⟨⟨accounts, events, ?_⟩, hstore, hkeys⟩
  rw [List.foldl_append, List.filterMap_append, List.filterMap_cons_none hd, List.filterMap_nil,
    List.append_nil]
  rfl

theorem Performs.setStore (h : m.Performs m' x stores deeds) (ha : a ∈ m.accounts.stores.keys)
    (s : Store) : m.Performs (m'.setStore a s) x (Function.update stores a s) deeds := by
  obtain ⟨⟨accounts, events, rfl⟩, rfl, hkeys⟩ := h
  refine ⟨⟨_, _, rfl⟩, store_setStore _ a s, ?_⟩
  rw [← hkeys] at ha ⊢
  exact (Table.keys_insert _ a s).trans (if_pos ha)

theorem performs_move (ha : a ∈ m.accounts.stores.keys) (id : String) (s : Store) :
    m.Performs (m.move a id s) m.poller (Function.update m.store a s) [] := by
  have hset := (m.performs_same m.poller).setStore ha s
  unfold move
  split
  · exact hset.record _
  · exact hset

theorem performs_finalize (ha : a ∈ m.accounts.stores.keys)
    (hs : (m.store a).markFinalized id now = .ok s) :
    m.Performs (m.finalize now a id) m.poller (Function.update m.store a s) [.finalized] := by
  unfold finalize
  rw [hs]
  exact (performs_move ha id s).does (d := .finalized) rfl

theorem performs_displace {row : Settling} (ha : a ∈ m.accounts.stores.keys)
    (hs : (m.store a).markReorganized row.id = .ok s) :
    m.Performs (m.displace a row) m.poller (Function.update m.store a s) [.displaced] := by
  unfold displace
  have hstore : (m.record (.displaced row.id row.hash row.block)).store = m.store := rfl
  simp only [hstore, hs]
  obtain ⟨⟨accounts, events, hm⟩, hstore, hkeys⟩ :=
    (performs_move (m := m.record (.displaced row.id row.hash row.block)) ha row.id s).does
      (d := .displaced) rfl
  exact ⟨⟨accounts, events, hm⟩, hstore, hkeys⟩

theorem performs_confirm {block : Int} (ha : a ∈ m.accounts.stores.keys)
    (hs : (m.store a).markConfirmed id block = .ok s) :
    m.Performs (m.confirm a id block) m.poller (Function.update m.store a s) [.confirmed] := by
  unfold confirm
  rw [hs]
  exact (performs_move ha id s).does (d := .confirmed) rfl

theorem performs_fail (ha : a ∈ m.accounts.stores.keys)
    (hs : (m.store a).markFatal id now = .ok s) (reason : String) :
    m.Performs (m.fail now a id reason) m.poller (Function.update m.store a s) [.ended] := by
  unfold fail
  rw [hs]
  exact ((performs_move ha id s).does (d := .ended) rfl).record _

theorem performs_failAttempt {entry : Awaiting} {rest : List Awaiting} {pass : Pass} {tx : Tx}
    (ha : pass.account ∈ m.accounts.stores.keys)
    (hs : (m.store pass.account).markErrored entry.id = .ok (s, tx)) (reason : String)
    (next : Option RetryKind) :
    m.Performs (m.failAttempt entry rest pass reason next) (.failed tx reason next rest pass)
      (Function.update m.store pass.account s) [] := by
  unfold failAttempt
  rw [hs]
  exact (performs_move ha entry.id s).withPoller _

theorem performs_retry {tx : Tx} {kind : RetryKind} {rest : List Awaiting} {pass : Pass}
    (ha : pass.account ∈ m.accounts.stores.keys)
    (hs : (m.store pass.account).recordCounters (tx.nextAttempt kind) = .ok s) (reason : String) :
    m.Performs (m.retry tx reason kind rest pass) (.requeuing (tx.nextAttempt kind) rest pass)
      (Function.update m.store pass.account s)
      ((if kind = .moreEnergy then [.moreEnergy] else []) ++ [.repeated]) := by
  have hcount : m.Performs (if kind = .moreEnergy then
      m.count fun c => { c with energyBumps := c.energyBumps + 1 } else m) m.poller m.store
      (if kind = .moreEnergy then [.moreEnergy] else []) := by
    split
    · exact (m.performs_same m.poller).does (d := .moreEnergy) rfl
    · exact m.performs_same m.poller
  unfold retry
  generalize (if kind = .moreEnergy then
    m.count fun c => { c with energyBumps := c.energyBumps + 1 } else m) = m₁ at hcount
  simp only [hcount.store_eq, hs]
  exact (((hcount.setStore ha s).does (d := .repeated) rfl).record _).withPoller _

theorem performs_usePlace (m : Manager) (tx : Tx) (rest : List Awaiting) (pass : Pass) :
    m.Performs (m.usePlace tx rest pass) (.afterAwaiting pass rest) m.store [.requeued tx] where
  eq := ⟨_, _, rfl⟩
  store_eq := rfl
  keys_eq := rfl

end Manager

end TronCourier
