import Mathlib
import TronCourier.Proofs.Store.Consistent

/-! The rows that a store gives out: one for each transaction that waits for a
receipt, and one for each whose block is to become final. -/

namespace TronCourier

namespace Entry

variable {e : Entry}

theorem awaiting?_eq_some_iff {id : String} {row : Awaiting} : e.awaiting? id = some row ↔
    row.id = id ∧ e.currentHash = some row.hash ∧ e.expiration = row.expiration := by
  obtain ⟨j, hash, expiration⟩ := row
  cases hc : e.currentHash with
  | none => simp [awaiting?, hc]
  | some last => simp [awaiting?, hc, eq_comm]

theorem settling?_eq_some_iff {row : Settling} : e.settling? = some row ↔
    e.tx.stage = .confirmed ∧ row.id = e.tx.id ∧ e.currentHash = some row.hash ∧
      e.confirmedBlock = some row.block := by
  obtain ⟨id, hash, block⟩ := row
  by_cases hg : e.tx.stage = .confirmed
  · cases hc : e.currentHash with
    | none => simp [settling?, hg, hc]
    | some last =>
      cases hb : e.confirmedBlock with
      | none => simp [settling?, hg, hc, hb]
      | some b => simp [settling?, hg, hc, hb, eq_comm]
  · simp [settling?, hg]

end Entry

namespace Store

variable {s : Store} {id : String} {e : Entry}

theorem Consistent.currentHash_of_sent (h : s.Consistent) (he : s.entries.get? id = some e)
    (hg : e.tx.stage = .broadcasted ∨ e.tx.stage = .confirmed) :
    ∃ hash, e.currentHash = some hash ∧ e.hashes.getLast? = some hash := by
  have hne := (h.sound he).sent hg
  have hlast := List.getLast?_eq_some_getLast hne
  exact ⟨e.hashes.getLast hne, by rw [(h.sound he).currentHash_eq, hlast], hlast⟩

theorem mem_awaitingRows (row : Awaiting) :
    row ∈ s.awaitingRows ↔ row.id ∈ s.awaiting ∧ ∃ e, s.entries.get? row.id = some e ∧
      e.awaiting? row.id = some row := by
  simp only [awaitingRows, List.mem_filterMap, Option.bind_eq_some_iff]
  constructor
  · rintro ⟨id, hid, e, he, hrow⟩
    have : row.id = id := by rw [(Entry.awaiting?_eq_some_iff.mp hrow).1]
    subst this
    exact ⟨hid, e, he, hrow⟩
  · rintro ⟨hid, e, he, hrow⟩
    exact ⟨row.id, hid, e, he, hrow⟩

/-- No transaction that waits for a receipt is left out, and none comes twice. -/
theorem Consistent.map_id_awaitingRows (h : s.Consistent) :
    s.awaitingRows.map Awaiting.id = s.awaiting := by
  rw [awaitingRows, List.map_filterMap]
  have hsome : ∀ id ∈ s.awaiting, Option.map Awaiting.id
      ((s.entries.get? id).bind fun e => e.awaiting? id) = some id := by
    intro id hm
    obtain ⟨e, he, hg⟩ := stage?_eq_some_iff.mp ((h.awaiting_iff id).mp hm)
    obtain ⟨hash, hhash, -⟩ := h.currentHash_of_sent he (.inl hg)
    simp [he, Entry.awaiting?, hhash]
  rw [List.filterMap_eq_map_iff_forall_eq_some.mpr hsome, List.map_id']

theorem Consistent.nodup_awaitingRows (h : s.Consistent) :
    (s.awaitingRows.map Awaiting.id).Nodup := by
  rw [h.map_id_awaitingRows]
  exact h.nodup_awaiting

theorem Consistent.mem_settlingRows (h : s.Consistent) (row : Settling) :
    row ∈ s.settlingRows ↔ ∃ e, s.entries.get? row.id = some e ∧ e.settling? = some row := by
  simp only [settlingRows, List.mem_filterMap, Prod.exists, Table.mem_rows_iff h.nodup_entries]
  constructor
  · rintro ⟨id, e, he, hrow⟩
    obtain ⟨-, hid, -⟩ := Entry.settling?_eq_some_iff.mp hrow
    exact ⟨e, by rwa [hid, h.id_eq he], hrow⟩
  · rintro ⟨e, he, hrow⟩
    exact ⟨row.id, e, he, hrow⟩

/-- The rows come in the order of the entries, some of which have none. -/
theorem Consistent.nodup_settlingRows (h : s.Consistent) :
    (s.settlingRows.map Settling.id).Nodup := by
  have hsub : ∀ rows : List (String × Entry), (∀ row ∈ rows, row.2.tx.id = row.1) →
      ((rows.filterMap fun row => row.2.settling?).map Settling.id).Sublist
        (rows.map Prod.fst) := by
    intro rows hrows
    induction rows with
    | nil => exact List.Sublist.slnil
    | cons row rows ih =>
      have hrest := ih fun r hr => hrows r (List.mem_cons_of_mem row hr)
      rw [List.filterMap_cons]
      cases hs : row.2.settling? with
      | none => exact hrest.cons _
      | some settling =>
        obtain ⟨-, hid, -⟩ := Entry.settling?_eq_some_iff.mp hs
        rw [List.map_cons, List.map_cons, hid, hrows row List.mem_cons_self]
        exact hrest.cons_cons _
  exact h.nodup_entries.sublist (hsub s.entries.rows fun row hr =>
    h.id_eq ((Table.mem_rows_iff h.nodup_entries row.1 row.2).mp hr))

theorem Consistent.mem_finished_iff (h : s.Consistent) :
    id ∈ s.finished.keys ↔
      s.stage? id = some .finalized ∨ s.stage? id = some .fatallyErrored := by
  rw [Table.mem_keys_iff, h.finished_iff]
  constructor
  · rintro ⟨g, hg, ht⟩
    cases g <;> simp_all [Stage.isTerminal]
  · rintro (hg | hg)
    · exact ⟨_, hg, rfl⟩
    · exact ⟨_, hg, rfl⟩

theorem Consistent.row_of_broadcasted (h : s.Consistent) (he : s.entries.get? id = some e)
    (hg : e.tx.stage = .broadcasted) :
    ∃ hash, e.currentHash = some hash ∧ ⟨id, hash, e.expiration⟩ ∈ s.awaitingRows := by
  obtain ⟨hash, hhash, -⟩ := h.currentHash_of_sent he (.inl hg)
  have hm := (h.mem_awaiting_iff he).mpr hg
  have hrow : e.awaiting? id = some ⟨id, hash, e.expiration⟩ :=
    Entry.awaiting?_eq_some_iff.mpr ⟨rfl, hhash, rfl⟩
  exact ⟨hash, hhash, (mem_awaitingRows ⟨id, hash, e.expiration⟩).mpr ⟨hm, e, he, hrow⟩⟩

theorem Consistent.row_of_confirmed (h : s.Consistent) (he : s.entries.get? id = some e)
    (hg : e.tx.stage = .confirmed) :
    ∃ hash block, e.currentHash = some hash ∧ e.confirmedBlock = some block ∧
      ⟨id, hash, block⟩ ∈ s.settlingRows := by
  obtain ⟨hash, hhash, -⟩ := h.currentHash_of_sent he (.inr hg)
  obtain ⟨block, hblock⟩ := (h.sound he).confirmed hg
  have hrow : e.settling? = some ⟨id, hash, block⟩ :=
    Entry.settling?_eq_some_iff.mpr ⟨hg, (h.id_eq he).symm, hhash, hblock⟩
  exact ⟨hash, block, hhash, hblock, (h.mem_settlingRows ⟨id, hash, block⟩).mpr ⟨e, he, hrow⟩⟩

theorem Consistent.stage?_of_mem_settlingRows (h : s.Consistent) {row : Settling}
    (hrow : row ∈ s.settlingRows) : s.stage? row.id = some .confirmed := by
  obtain ⟨e, he, hrow⟩ := (h.mem_settlingRows row).mp hrow
  rw [stage?_of_entry he, (Entry.settling?_eq_some_iff.mp hrow).1]

theorem Consistent.id_eq_of_mem_hashes (h : s.Consistent) {id' : String} {e' : Entry}
    (he : s.entries.get? id = some e) (he' : s.entries.get? id' = some e') {hash : String}
    (hm : hash ∈ e.hashes) (hm' : hash ∈ e'.hashes) : id = id' := by
  have hid := (h.hashes_get?_iff he hash).mpr hm
  rw [(h.hashes_get?_iff he' hash).mpr hm', Option.some.injEq] at hid
  exact hid.symm

theorem Consistent.id_eq_of_key_eq (h : s.Consistent) {id' : String} {e' : Entry}
    (he : s.entries.get? id = some e) (he' : s.entries.get? id' = some e') {key : String}
    (hk : e.tx.key = some key) (hk' : e'.tx.key = some key) : id = id' := by
  have hid := (h.keys_iff key id).mpr ⟨e, he, hk⟩
  rw [(h.keys_iff key id').mpr ⟨e', he', hk'⟩, Option.some.injEq] at hid
  exact hid.symm

/-- Whatever was tried on a store that was empty at first, its entries are filed under
their ids, each of its indexes lists what the entries call for and no more, and a row is
given out for each transaction that is to be asked for. -/
theorem indexes_agree_after_run (retention : Nat) (ops : List Operation) :
    let s := Store.empty.run retention ops
    (∀ id e, s.entries.get? id = some e → e.tx.id = id) ∧
    ((∀ hash id, s.hashes.get? hash = some id ↔
        ∃ e, s.entries.get? id = some e ∧ hash ∈ e.hashes) ∧
      (∀ id e, s.entries.get? id = some e → e.hashes.Nodup) ∧
      ∀ id e id' e' hash, s.entries.get? id = some e → s.entries.get? id' = some e' →
        hash ∈ e.hashes → hash ∈ e'.hashes → id = id') ∧
    (s.awaiting.Nodup ∧ ∀ id, id ∈ s.awaiting ↔ s.stage? id = some .broadcasted) ∧
    (s.finished.keys.Nodup ∧ ∀ id, id ∈ s.finished.keys ↔
      s.stage? id = some .finalized ∨ s.stage? id = some .fatallyErrored) ∧
    ((∀ key id, s.keys.get? key = some id ↔
        ∃ e, s.entries.get? id = some e ∧ e.tx.key = some key) ∧
      ∀ id e id' e' key, s.entries.get? id = some e → s.entries.get? id' = some e' →
        e.tx.key = some key → e'.tx.key = some key → id = id') ∧
    ((∀ id e, s.entries.get? id = some e →
        e.tx.stage = .broadcasted ∨ e.tx.stage = .confirmed →
        ∃ hash, e.currentHash = some hash ∧ e.hashes.getLast? = some hash) ∧
      (∀ id e, s.entries.get? id = some e → e.tx.stage = .confirmed →
        ∃ block, e.confirmedBlock = some block) ∧
      ((s.awaitingRows.map Awaiting.id).Nodup ∧
        (∀ row ∈ s.awaitingRows, s.stage? row.id = some .broadcasted) ∧
        ∀ id e, s.entries.get? id = some e → e.tx.stage = .broadcasted →
          ∃ hash, e.currentHash = some hash ∧ ⟨id, hash, e.expiration⟩ ∈ s.awaitingRows) ∧
      ((s.settlingRows.map Settling.id).Nodup ∧
        (∀ row ∈ s.settlingRows, s.stage? row.id = some .confirmed) ∧
        ∀ id e, s.entries.get? id = some e → e.tx.stage = .confirmed →
          ∃ hash block, e.currentHash = some hash ∧ e.confirmedBlock = some block ∧
            ⟨id, hash, block⟩ ∈ s.settlingRows)) := by
  intro s
  have h : s.Consistent := consistent_empty.run retention ops
  refine ⟨fun id e he => h.id_eq he, ⟨h.hashes_iff, fun id e he => (h.sound he).nodup, ?_⟩,
    ⟨h.nodup_awaiting, h.awaiting_iff⟩, ⟨h.nodup_finished, fun id => h.mem_finished_iff⟩,
    ⟨h.keys_iff, ?_⟩, fun id e he hg => h.currentHash_of_sent he hg,
    fun id e he => (h.sound he).confirmed, ⟨h.nodup_awaitingRows, ?_, ?_⟩,
    h.nodup_settlingRows, ?_, ?_⟩
  · exact fun id e id' e' hash he he' hm hm' => h.id_eq_of_mem_hashes he he' hm hm'
  · exact fun id e id' e' key he he' hk hk' => h.id_eq_of_key_eq he he' hk hk'
  · exact fun row hrow => (h.awaiting_iff row.id).mp ((mem_awaitingRows row).mp hrow).1
  · exact fun id e he hg => h.row_of_broadcasted he hg
  · exact fun row hrow => h.stage?_of_mem_settlingRows hrow
  · exact fun id e he hg => h.row_of_confirmed he hg

end Store

end TronCourier
