import TronCourier.Proofs.Manager.Lookup

/-! How many transactions on record are in a stage. An operation takes one out of its stage
and puts it into another, and a reap takes out only what has come to its end. -/

namespace TronCourier

namespace Table

variable {κ α : Type} [DecidableEq κ]

def total (f : α → Nat) (t : Table κ α) : Nat :=
  (t.rows.map fun row => f row.2).sum

/-- A row counts in place of the one that it replaces. -/
theorem total_insert (f : α → Nat) (t : Table κ α) (k : κ) (a : α) :
    (t.insert k a).total f + ((t.get? k).map f).getD 0 = t.total f + f a := by
  obtain ⟨rows⟩ := t
  simp only [insert, total, get?]
  induction rows with
  | nil => simp [put]
  | cons row rest ih =>
    by_cases hk : row.1 = k
    · simp only [put, hk, if_true, List.map_cons, List.sum_cons, List.find?_cons, decide_true,
        Option.map_some, Option.getD_some]
      omega
    · simp only [put, hk, if_false, List.map_cons, List.sum_cons, List.find?_cons, decide_false]
      omega

theorem total_erase (f : α → Nat) {t : Table κ α} (h : t.keys.Nodup) (k : κ) :
    (t.erase k).total f + ((t.get? k).map f).getD 0 = t.total f := by
  obtain ⟨rows⟩ := t
  simp only [keys, erase, total, get?] at h ⊢
  induction rows with
  | nil => rfl
  | cons row rest ih =>
    obtain ⟨hnot, hrest⟩ := List.nodup_cons.mp h
    by_cases hk : row.1 = k
    · -- no other row has the key
      have hall : rest.filter (fun r => r.1 ≠ k) = rest := by
        refine List.filter_eq_self.mpr fun r hr => ?_
        have hne : r.1 ≠ k := fun he => hnot (hk ▸ he ▸ List.mem_map_of_mem hr)
        simpa using hne
      simp only [List.filter_cons, hk, ne_eq, not_true_eq_false, decide_false, List.find?_cons,
        decide_true, List.map_cons, List.sum_cons, Option.map_some, Option.getD_some] at hall ⊢
      simp only [Bool.false_eq_true, if_false, hall]
      omega
    · have ih := ih hrest
      simp only [List.filter_cons, hk, ne_eq, not_false_eq_true, decide_true, if_true,
        List.find?_cons, decide_false, List.map_cons, List.sum_cons] at ih ⊢
      omega

end Table

namespace Store

/-- How many transactions are in a stage of this kind. -/
def tally (p : Stage → Bool) (s : Store) : Nat :=
  s.entries.total fun e => (p e.tx.stage).toNat

variable {s s' : Store} {id : String} {e' : Entry}

theorem tally_eq_countP (p : Stage → Bool) (s : Store) :
    s.tally p = s.entries.rows.countP fun row => p row.2.tx.stage := by
  rw [tally, Table.total]
  generalize s.entries.rows = rows
  induction rows with
  | nil => rfl
  | cons row rest ih =>
    rw [List.map_cons, List.sum_cons, ih, List.countP_cons]
    cases p row.2.tx.stage <;> simp [Nat.add_comm]

/-- An index of what is in a stage of this kind has as many rows as there are such entries. -/
theorem Consistent.length_eq_tally (h : s.Consistent) {p : Stage → Bool} {ids : List String}
    (hids : ids.Nodup) (hmem : ∀ id, id ∈ ids ↔ ∃ g, s.stage? id = some g ∧ p g = true) :
    ids.length = s.tally p := by
  have hperm : ids.Perm
      ((s.entries.rows.filter fun row => p row.2.tx.stage).map Prod.fst) := by
    refine (List.perm_ext_iff_of_nodup hids ?_).mpr fun id => ?_
    · exact h.nodup_entries.sublist (List.filter_sublist.map Prod.fst)
    · rw [hmem]
      simp [Table.mem_rows_iff h.nodup_entries, stage?]
  rw [tally_eq_countP, List.countP_eq_length_filter, hperm.length_eq, List.length_map]

theorem countP_stage? (p : Stage → Bool) (s : Store) (id : String) :
    ((s.entries.get? id).map fun e => (p e.tx.stage).toNat).getD 0 =
      (s.stage? id).toList.countP p := by
  rw [stage?]
  cases s.entries.get? id with
  | none => rfl
  | some e => cases hp : p e.tx.stage <;> simp [hp]

/-- A transaction comes out of the stage that it was in, and into the one that it is in now. -/
theorem tally_insert (h : s'.entries = s.entries.insert id e') (p : Stage → Bool) :
    s'.tally p + (s.stage? id).toList.countP p = s.tally p + [e'.tx.stage].countP p := by
  have weight : [e'.tx.stage].countP p = (p e'.tx.stage).toNat := by
    cases hp : p e'.tx.stage <;> simp [hp]
  rw [tally, tally, h, ← countP_stage?, weight]
  exact Table.total_insert _ s.entries id e'

theorem entries_evict (s : Store) (id : String) :
    (s.evict id).entries = s.entries.erase id := by
  cases he : s.entries.get? id with
  | none =>
    have habsent : ∀ row ∈ s.entries.rows, row.1 ≠ id := by
      simpa [Table.get?, List.find?_eq_none] using he
    have hsame : s.entries.erase id = s.entries := by
      rw [Table.erase, List.filter_eq_self.mpr fun row hrow => by simpa using habsent row hrow]
    simp only [evict, he, hsame]
  | some e => simp only [evict, he]

theorem tally_evict (h : s.entries.keys.Nodup) (p : Stage → Bool) (id : String) :
    (s.evict id).tally p + (s.stage? id).toList.countP p = s.tally p := by
  rw [← countP_stage?, tally, entries_evict]
  exact Table.total_erase _ h id

theorem tally_foldl_evict (h : s.entries.keys.Nodup) (p : Stage → Bool) {ids : List String}
    (hids : ids.Nodup) :
    (ids.foldl evict s).tally p + (ids.filterMap s.stage?).countP p = s.tally p := by
  induction ids generalizing s with
  | nil => rfl
  | cons id ids ih =>
    obtain ⟨hid, hids⟩ := List.nodup_cons.mp hids
    have hkeys : (s.evict id).entries.keys.Nodup := by
      rw [entries_evict]
      exact Table.nodup_keys_erase h id
    have hrest := ih hkeys hids
    have hfirst := tally_evict h p id
    have hsame : ids.filterMap (s.evict id).stage? = ids.filterMap s.stage? := by
      refine List.filterMap_congr fun j hj => ?_
      have hne : id ≠ j := fun he => hid (he ▸ hj)
      rw [stage?_evict, if_neg hne]
    rw [hsame] at hrest
    have hsplit : ((id :: ids).filterMap s.stage?).countP p =
        (s.stage? id).toList.countP p + (ids.filterMap s.stage?).countP p := by
      cases hs : s.stage? id with
      | none => simp [hs]
      | some g => simp [hs, List.countP_cons, Nat.add_comm]
    rw [List.foldl_cons, hsplit]
    omega

theorem nodup_expired (h : s.finished.keys.Nodup) (retention now : Nat) :
    (s.expired retention now).Nodup :=
  h.sublist (List.filter_sublist.map Prod.fst)

/-- A reap takes out as many as it tells, each of them at its end. -/
theorem Consistent.tally_reap (h : s.Consistent) (retention now : Nat) :
    ∃ stages : List Stage, stages.length = (s.reap retention now).2 ∧
      (∀ g ∈ stages, g.isTerminal = true) ∧
      ∀ p, (s.reap retention now).1.tally p + stages.countP p = s.tally p := by
  refine ⟨(s.expired retention now).filterMap s.stage?, ?_, fun g hg => ?_, fun p => ?_⟩
  · rw [Store.reap, List.length_filterMap_eq_countP, List.countP_eq_length]
    intro id hid
    obtain ⟨ended, he, -⟩ := (mem_expired_iff h.nodup_finished retention now).mp hid
    obtain ⟨g, hg, -⟩ := (h.finished_iff id).mp (by simp [Table.contains, he])
    rw [hg, Option.isSome_some]
  · obtain ⟨id, hid, hg⟩ := List.mem_filterMap.mp hg
    exact h.isTerminal_of_mem_expired hid hg
  · exact tally_foldl_evict h.nodup_entries p (nodup_expired h.nodup_finished retention now)

end Store

namespace Accounts

/-- All transactions on record. -/
def tracked (as : Accounts) : List Tx :=
  as.stores.rows.flatMap fun row => row.2.entries.rows.map fun e => e.2.tx

theorem mem_tracked {as : Accounts} {a : Address} {id : String} {e : Entry}
    (h : (as.store a).entries.keys.Nodup) (he : (as.store a).entries.get? id = some e) :
    e.tx ∈ as.tracked :=
  List.mem_flatMap.mpr ⟨_, mem_rows_of_entry he,
    List.mem_map_of_mem ((Table.mem_rows_iff h id e).mpr he)⟩

def tally (p : Stage → Bool) (as : Accounts) : Nat :=
  as.stores.total (Store.tally p)

theorem tally_eq_countP (p : Stage → Bool) (as : Accounts) :
    as.tally p = as.tracked.countP fun tx => p tx.stage := by
  rw [tracked, List.countP_flatMap, tally, Table.total]
  refine congrArg List.sum (List.map_congr_left fun row _ => ?_)
  rw [Function.comp_apply, Store.tally_eq_countP, List.countP_map]
  rfl

theorem tally_set (as : Accounts) (a : Address) (s : Store) (p : Stage → Bool) :
    (as.set a s).tally p + (as.store a).tally p = as.tally p + s.tally p := by
  have weight : ((as.stores.get? a).map (Store.tally p)).getD 0 = (as.store a).tally p := by
    rw [store]
    cases as.stores.get? a <;> rfl
  rw [← weight]
  exact Table.total_insert _ as.stores a s

theorem tally_ensure (as : Accounts) (a : Address) (p : Stage → Bool) :
    (as.ensure a).tally p = as.tally p := by
  unfold ensure
  split
  · rfl
  · rename_i hnew
    have hnone : as.stores.get? a = none := by simpa [Table.contains] using hnew
    have hset := Table.total_insert (Store.tally p) as.stores a .empty
    rw [hnone] at hset
    exact hset

end Accounts

end TronCourier
