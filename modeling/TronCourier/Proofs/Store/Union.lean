import TronCourier.Proofs.Store.Tally

/-! What is told of all stores together, in whatever order they come: under which hashes
something was sent, how much waits for a receipt and how much is finished. -/

namespace TronCourier

namespace Table

variable {κ α : Type} [DecidableEq κ]

theorem contains_insert (t : Table κ α) (k k' : κ) (a : α) :
    (t.insert k a).contains k' = true ↔ k = k' ∨ t.contains k' = true := by
  rw [contains, get?_insert]
  by_cases hk : k = k'
  · simp [hk]
  · simp [hk, contains]

/-- A later row takes the place of an earlier one. -/
def insertAll (t : Table κ α) (rows : List (κ × α)) : Table κ α :=
  rows.foldl (fun t row => t.insert row.1 row.2) t

theorem rows_insertAll (t : Table κ α) (rows : List (κ × α)) :
    (t.insertAll rows).rows = rows.foldl (fun rows row => put row.1 row.2 rows) t.rows := by
  induction rows generalizing t with
  | nil => rfl
  | cons row rest ih => exact ih (t.insert row.1 row.2)

theorem mem_of_get?_insertAll {t : Table κ α} {rows : List (κ × α)} {k : κ} {a : α}
    (h : (t.insertAll rows).get? k = some a) : (k, a) ∈ rows ∨ t.get? k = some a := by
  induction rows generalizing t with
  | nil => exact .inr h
  | cons row rest ih =>
    rcases ih h with hrest | hnew
    · exact .inl (List.mem_cons_of_mem row hrest)
    · rw [get?_insert] at hnew
      by_cases hk : row.1 = k
      · rw [if_pos hk, Option.some.injEq] at hnew
        rw [← hk, ← hnew]
        exact .inl List.mem_cons_self
      · rw [if_neg hk] at hnew
        exact .inr hnew

theorem contains_insertAll (t : Table κ α) (rows : List (κ × α)) (k : κ) :
    (t.insertAll rows).contains k = true ↔ (∃ a, (k, a) ∈ rows) ∨ t.contains k = true := by
  induction rows generalizing t with
  | nil => simp [insertAll]
  | cons row rest ih =>
    have hrest := ih (t.insert row.1 row.2)
    rw [contains_insert] at hrest
    refine hrest.trans ⟨?_, ?_⟩
    · rintro (⟨a, ha⟩ | rfl | ht)
      · exact .inl ⟨a, List.mem_cons_of_mem row ha⟩
      · exact .inl ⟨row.2, List.mem_cons_self⟩
      · exact .inr ht
    · rintro (⟨a, ha⟩ | ht)
      · rcases List.mem_cons.mp ha with rfl | ha
        · exact .inr (.inl rfl)
        · exact .inl ⟨a, ha⟩
      · exact .inr (.inr ht)

omit [DecidableEq κ] in
theorem foldl_eq_total (f : α → Nat) (t : Table κ α) :
    t.rows.foldl (fun n row => n + f row.2) 0 = t.total f := by
  rw [total, List.sum_eq_foldl, List.foldl_map]

omit [DecidableEq κ] in
theorem total_congr {f g : α → Nat} {t : Table κ α} (h : ∀ row ∈ t.rows, f row.2 = g row.2) :
    t.total f = t.total g :=
  congrArg List.sum (List.map_congr_left h)

theorem nodup_keys_eraseAll {t : Table κ α} (h : t.keys.Nodup) (ks : List κ) :
    (t.eraseAll ks).keys.Nodup := by
  rw [eraseAll]
  induction ks generalizing t with
  | nil => exact h
  | cons k ks ih => exact ih (nodup_keys_erase h k)

end Table

namespace Store

variable {s : Store}

theorem nodup_hashes_evict (h : s.hashes.keys.Nodup) (id : String) :
    (s.evict id).hashes.keys.Nodup := by
  cases he : s.entries.get? id with
  | none => simpa only [evict, he] using h
  | some e => simpa only [evict, he] using Table.nodup_keys_eraseAll h e.hashes

theorem nodup_hashes_foldl_evict (h : s.hashes.keys.Nodup) (ids : List String) :
    (ids.foldl evict s).hashes.keys.Nodup := by
  induction ids generalizing s with
  | nil => exact h
  | cons id ids ih => exact ih (nodup_hashes_evict h id)

/-- Whatever is tried on a store, no hash gets two rows in its index. -/
theorem nodup_hashes_apply (h : s.hashes.keys.Nodup) (retention : Nat) (op : Operation) :
    (s.apply retention op).hashes.keys.Nodup := by
  rw [apply_eq_after]
  refine after_induction (P := fun s' => s'.hashes.keys.Nodup) h fun s' hs => ?_
  cases op with
  | addPending tx =>
    obtain ⟨-, -, rfl⟩ := addPending_eq_ok_iff.mp hs
    exact h
  | markBroadcasted hash expiration tx =>
    obtain ⟨-, e, -, -, rfl⟩ := markBroadcasted_eq_ok_iff.mp hs
    exact Table.nodup_keys_insert h hash tx.id
  | markConfirmed id block =>
    obtain ⟨e, -, -, rfl⟩ := markConfirmed_eq_ok_iff.mp hs
    exact h
  | markReorganized id =>
    obtain ⟨e, -, -, rfl⟩ := markReorganized_eq_ok_iff.mp hs
    exact h
  | markErrored id =>
    obtain ⟨tx, hs⟩ := map_markErrored_eq_ok_iff.mp hs
    obtain ⟨e, -, -, rfl, -⟩ := markErrored_eq_ok_iff.mp hs
    exact h
  | recordCounters tx =>
    obtain ⟨e, -, rfl⟩ := recordCounters_eq_ok_iff.mp hs
    exact h
  | markFinalized id now | markFatal id now =>
    obtain ⟨e, -, -, rfl⟩ := finish_eq_ok_iff.mp hs
    exact h
  | reap now =>
    cases hs
    exact nodup_hashes_foldl_evict h _

theorem nodup_hashes_run (h : s.hashes.keys.Nodup) (retention : Nat) (ops : List Operation) :
    (s.run retention ops).hashes.keys.Nodup := by
  induction ops generalizing s with
  | nil => exact h
  | cons op ops ih => exact ih (nodup_hashes_apply h retention op)

/-- A hash comes to an entry only when the entry's transaction is sent under it. -/
theorem hash_of_apply {retention : Nat} {op : Operation} {id hash : String} {e' : Entry}
    (hunsent : ∀ expiration tx, op ≠ .markBroadcasted hash expiration tx)
    (he : (s.apply retention op).entries.get? id = some e') (hhash : hash ∈ e'.hashes) :
    ∃ e, s.entries.get? id = some e ∧ hash ∈ e.hashes := by
  rcases get?_apply_cases op he with he | hturn
  · exact ⟨e', he, hhash⟩
  · generalize hold : s.entries.get? id = old at hturn ⊢
    cases hturn with
    | addPending => cases hhash
    | @markBroadcasted sent expiration tx e hg =>
      rcases List.mem_append.mp hhash with hhash | hhash
      · exact ⟨e, rfl, hhash⟩
      · rw [List.mem_singleton.mp hhash] at hunsent
        exact (hunsent expiration tx rfl).elim
    | markConfirmed | markReorganized | markFinalized | markErrored | recordCounters | markFatal =>
      exact ⟨_, rfl, hhash⟩

theorem Consistent.length_awaiting (h : s.Consistent) :
    s.awaiting.length = s.tally fun g => g = .broadcasted :=
  h.length_eq_tally h.nodup_awaiting fun id => by simp [h.awaiting_iff]

theorem Consistent.size_finished (h : s.Consistent) :
    s.finished.size = s.tally Stage.isTerminal := by
  have hkeys := h.length_eq_tally h.nodup_finished fun id => by
    rw [Table.mem_keys_iff, h.finished_iff]
  rwa [Table.keys, List.length_map] at hkeys

end Store

namespace Accounts

/-- No sender has two stores, and the indexes of each tell the same as its entries. -/
structure Kept (as : Accounts) : Prop where
  distinct : as.Distinct
  consistent : ∀ a, (as.store a).Consistent
  nodup_hashes : ∀ a, (as.store a).hashes.keys.Nodup

/-- A transaction of a sender is on record with a hash that it was sent under. -/
def Records (as : Accounts) (a : Address) (id hash : String) : Prop :=
  ∃ e, (as.store a).entries.get? id = some e ∧ hash ∈ e.hashes

variable {as as' : Accounts} {a : Address} {id hash : String}

theorem Records.mem_hashesOf (h : as.Records a id hash) : hash ∈ (as.store a).hashesOf id := by
  obtain ⟨e, he, hhash⟩ := h
  rwa [Store.hashesOf, he]

theorem Kept.perm (h : as.Kept) (hperm : as'.stores.rows.Perm as.stores.rows) : as'.Kept := by
  have hstore := store_perm h.distinct hperm
  exact ⟨h.distinct.perm hperm, hstore ▸ h.consistent, hstore ▸ h.nodup_hashes⟩

/-- The rows of all stores' indexes of hashes. -/
def hashList (as : Accounts) : List (String × String) :=
  as.stores.rows.flatMap fun row => row.2.hashes.rows

theorem hashRows_eq (as : Accounts) : as.hashRows = Table.empty.insertAll as.hashList := by
  have hrows := Table.rows_insertAll Table.empty as.hashList
  rw [hashList, List.foldl_flatMap] at hrows
  exact congrArg Table.mk hrows.symm

theorem Kept.mem_hashList (h : as.Kept) :
    (hash, id) ∈ as.hashList ↔ ∃ a, as.Records a id hash := by
  rw [hashList, List.mem_flatMap]
  constructor
  · rintro ⟨⟨a, s⟩, hrow, hhash⟩
    obtain rfl := store_of_mem h.distinct hrow
    rw [Table.mem_rows_iff (h.nodup_hashes a)] at hhash
    exact ⟨a, ((h.consistent a).hashes_iff hash id).mp hhash⟩
  · rintro ⟨a, e, he, hhash⟩
    refine ⟨_, mem_rows_of_entry he, ?_⟩
    rw [Table.mem_rows_iff (h.nodup_hashes a)]
    exact ((h.consistent a).hashes_iff hash id).mpr ⟨e, he, hhash⟩

theorem Kept.contains_hashRows (h : as.Kept) (hash : String) :
    as.hashRows.contains hash = true ↔ ∃ a id, as.Records a id hash := by
  rw [hashRows_eq, Table.contains_insertAll]
  simp only [h.mem_hashList, Table.contains, Table.get?_empty, Option.isSome_none,
    Bool.false_eq_true, or_false]
  exact exists_comm

theorem Kept.records_of_hashRows (h : as.Kept) (hid : as.hashRows.get? hash = some id) :
    ∃ a, as.Records a id hash := by
  rw [hashRows_eq] at hid
  rcases Table.mem_of_get?_insertAll hid with hmem | hnone
  · exact h.mem_hashList.mp hmem
  · cases hnone

theorem Kept.total_eq (h : as.Kept) {f : Store → Nat} {p : Stage → Bool}
    (hf : ∀ {s : Store}, s.Consistent → f s = s.tally p) :
    as.stores.rows.foldl (fun n row => n + f row.2) 0 =
      as.tracked.countP fun tx => p tx.stage := by
  rw [Table.foldl_eq_total, ← tally_eq_countP, tally]
  refine Table.total_congr fun row hrow => ?_
  rw [← store_of_mem h.distinct hrow]
  exact hf (h.consistent row.1)

theorem Kept.awaitingCount_eq (h : as.Kept) :
    as.awaitingCount = as.tracked.countP fun tx => tx.stage = .broadcasted :=
  h.total_eq Store.Consistent.length_awaiting

theorem Kept.finishedCount_eq (h : as.Kept) :
    as.finishedCount = as.tracked.countP fun tx => tx.stage.isTerminal :=
  h.total_eq Store.Consistent.size_finished

theorem tracked_perm (hperm : as'.stores.rows.Perm as.stores.rows) :
    as'.tracked.Perm as.tracked :=
  hperm.flatMap_right _

end Accounts

end TronCourier
