import TronCourier.Proofs.Store.Operation

/-! The indexes of a store say the same as its entries, whatever operations were
tried on it. -/

namespace TronCourier

/-- An entry whose hashes are distinct, the latest one last, and that has what its
stage asks for. -/
structure Entry.Sound (e : Entry) : Prop where
  nodup : e.hashes.Nodup
  currentHash_eq : e.currentHash = e.hashes.getLast?
  sent : e.tx.stage = .broadcasted ∨ e.tx.stage = .confirmed → e.hashes ≠ []
  confirmed : e.tx.stage = .confirmed → ∃ block, e.confirmedBlock = some block

namespace Entry

variable {e : Entry}

theorem sound_ofTx (tx : Tx) : (ofTx tx).Sound where
  nodup := List.nodup_nil
  currentHash_eq := rfl
  sent h := by simp [ofTx] at h
  confirmed h := by simp [ofTx] at h

theorem Sound.withStage (h : e.Sound) {g : Stage} (hb : g ≠ .broadcasted) (hc : g ≠ .confirmed) :
    (e.withStage g).Sound where
  nodup := h.nodup
  currentHash_eq := h.currentHash_eq
  sent hg := hg.elim (fun hg => absurd hg hb) fun hg => absurd hg hc
  confirmed hg := absurd hg hc

theorem Sound.sentAs (h : e.Sound) {hash : String} (hnew : hash ∉ e.hashes) (expiration : Int)
    (tx : Tx) : (e.sentAs hash expiration tx).Sound where
  nodup := List.nodup_append.mpr
    ⟨h.nodup, by simp, fun a ha b hb he => hnew (by simp_all)⟩
  currentHash_eq := by simp [Entry.sentAs]
  sent _ := by simp [Entry.sentAs]
  confirmed hg := by simp [Entry.sentAs] at hg

theorem Sound.confirmedIn (h : e.Sound) (hg : e.tx.stage = .broadcasted) (block : Int) :
    (e.confirmedIn block).Sound where
  nodup := h.nodup
  currentHash_eq := h.currentHash_eq
  sent _ := h.sent (.inl hg)
  confirmed _ := ⟨block, rfl⟩

theorem Sound.displaced (h : e.Sound) (hg : e.tx.stage = .confirmed) : e.displaced.Sound where
  nodup := h.nodup
  currentHash_eq := h.currentHash_eq
  sent _ := h.sent (.inr hg)
  confirmed hd := by simp [Entry.displaced, Entry.withStage] at hd

theorem Sound.withCounters (h : e.Sound) (tx : Tx) : (e.withCounters tx).Sound where
  nodup := h.nodup
  currentHash_eq := h.currentHash_eq
  sent := h.sent
  confirmed := h.confirmed

end Entry

namespace Store

/-- Every index can be told from the entries. -/
structure Consistent (s : Store) : Prop where
  nodup_entries : s.entries.keys.Nodup
  nodup_awaiting : s.awaiting.Nodup
  nodup_finished : s.finished.keys.Nodup
  id_eq : ∀ {id e}, s.entries.get? id = some e → e.tx.id = id
  sound : ∀ {id e}, s.entries.get? id = some e → e.Sound
  hashes_iff : ∀ hash id,
    s.hashes.get? hash = some id ↔ ∃ e, s.entries.get? id = some e ∧ hash ∈ e.hashes
  keys_iff : ∀ key id,
    s.keys.get? key = some id ↔ ∃ e, s.entries.get? id = some e ∧ e.tx.key = some key
  awaiting_iff : ∀ id, id ∈ s.awaiting ↔ s.stage? id = some .broadcasted
  finished_iff : ∀ id,
    s.finished.contains id = true ↔ ∃ g, s.stage? id = some g ∧ g.isTerminal = true

theorem consistent_empty : Consistent .empty where
  nodup_entries := List.nodup_nil
  nodup_awaiting := List.nodup_nil
  nodup_finished := List.nodup_nil
  id_eq h := by simp [empty] at h
  sound h := by simp [empty] at h
  hashes_iff := by simp [empty]
  keys_iff := by simp [empty]
  awaiting_iff := by simp [empty, stage?]
  finished_iff := by simp [empty, stage?, Table.contains]

variable {s s' : Store} {id : String} {e e' : Entry}

/-- What the entry of one transaction becomes, and what the indexes say of it. The
other transactions are left alone. -/
structure Replaces (s s' : Store) (id : String) (e' : Entry) : Prop where
  entries_eq : s'.entries = s.entries.insert id e'
  keys_eq : s'.keys = s.keys
  nodup_awaiting : s'.awaiting.Nodup
  nodup_finished : s'.finished.keys.Nodup
  hashes_iff : ∀ hash j, s'.hashes.get? hash = some j ↔
    if id = j then hash ∈ e'.hashes else s.hashes.get? hash = some j
  awaiting_iff : ∀ j, j ∈ s'.awaiting ↔
    if id = j then e'.tx.stage = .broadcasted else j ∈ s.awaiting
  finished_iff : ∀ j, s'.finished.contains j = true ↔
    if id = j then e'.tx.stage.isTerminal = true else s.finished.contains j = true

theorem Consistent.replace (h : s.Consistent) (he : s.entries.get? id = some e) (e' : Entry)
    (hid : e'.tx.id = e.tx.id) (hkey : e'.tx.key = e.tx.key) (hsound : e'.Sound)
    (hr : s.Replaces s' id e') : s'.Consistent := by
  have hget (j : String) : s'.entries.get? j = if id = j then some e' else s.entries.get? j := by
    rw [hr.entries_eq, Table.get?_insert]
  refine ⟨?_, hr.nodup_awaiting, hr.nodup_finished, ?_, ?_, ?_, ?_, ?_, ?_⟩
  · rw [hr.entries_eq]
    exact Table.nodup_keys_insert h.nodup_entries id e'
  · intro j d hd
    rw [hget] at hd
    by_cases hj : id = j
    · rw [if_pos hj, Option.some.injEq] at hd
      rw [← hd, hid, h.id_eq he, hj]
    · exact h.id_eq (by rwa [if_neg hj] at hd)
  · intro j d hd
    rw [hget] at hd
    by_cases hj : id = j
    · rw [if_pos hj, Option.some.injEq] at hd
      exact hd ▸ hsound
    · exact h.sound (by rwa [if_neg hj] at hd)
  · intro hash j
    rw [hr.hashes_iff, hget]
    by_cases hj : id = j
    · simp [hj]
    · rw [if_neg hj, if_neg hj, h.hashes_iff]
  · intro key j
    rw [hr.keys_eq, h.keys_iff, hget]
    by_cases hj : id = j
    · subst hj
      simp [he, hkey]
    · rw [if_neg hj]
  · intro j
    rw [hr.awaiting_iff, stage?, hget]
    by_cases hj : id = j
    · simp [hj]
    · rw [if_neg hj, if_neg hj, h.awaiting_iff, stage?]
  · intro j
    rw [hr.finished_iff, stage?, hget]
    by_cases hj : id = j
    · simp [hj]
    · rw [if_neg hj, if_neg hj, h.finished_iff, stage?]

theorem Consistent.hashes_get?_iff (h : s.Consistent) (he : s.entries.get? id = some e)
    (hash : String) : s.hashes.get? hash = some id ↔ hash ∈ e.hashes := by
  simp [h.hashes_iff, he]

theorem Consistent.mem_awaiting_iff (h : s.Consistent) (he : s.entries.get? id = some e) :
    id ∈ s.awaiting ↔ e.tx.stage = .broadcasted := by
  rw [h.awaiting_iff, stage?_of_entry he, Option.some.injEq]

theorem Consistent.finished_contains_iff (h : s.Consistent) (he : s.entries.get? id = some e) :
    s.finished.contains id = true ↔ e.tx.stage.isTerminal = true := by
  simp [h.finished_iff, stage?_of_entry he]

theorem Consistent.hashes_of_same (h : s.Consistent) (he : s.entries.get? id = some e)
    (hsame : e'.hashes = e.hashes) (hash j : String) : s.hashes.get? hash = some j ↔
      if id = j then hash ∈ e'.hashes else s.hashes.get? hash = some j := by
  by_cases hj : id = j
  · subst hj
    rw [if_pos rfl, hsame, h.hashes_get?_iff he]
  · rw [if_neg hj]

theorem Consistent.awaiting_of_same (h : s.Consistent) (he : s.entries.get? id = some e)
    (hsame : e'.tx.stage = .broadcasted ↔ e.tx.stage = .broadcasted) (j : String) :
    j ∈ s.awaiting ↔ if id = j then e'.tx.stage = .broadcasted else j ∈ s.awaiting := by
  by_cases hj : id = j
  · subst hj
    rw [if_pos rfl, hsame, h.mem_awaiting_iff he]
  · rw [if_neg hj]

theorem Consistent.finished_of_same (h : s.Consistent) (he : s.entries.get? id = some e)
    (hsame : e'.tx.stage.isTerminal = e.tx.stage.isTerminal) (j : String) :
    s.finished.contains j = true ↔
      if id = j then e'.tx.stage.isTerminal = true else s.finished.contains j = true := by
  by_cases hj : id = j
  · subst hj
    rw [if_pos rfl, hsame, h.finished_contains_iff he]
  · rw [if_neg hj]

theorem mem_await_iff_stage (hg : e'.tx.stage = .broadcasted) (j : String) :
    j ∈ (s.await id).awaiting ↔
      if id = j then e'.tx.stage = .broadcasted else j ∈ s.awaiting := by
  by_cases hj : id = j
  · simp [mem_await, hj, hg]
  · simp [mem_await, hj, Ne.symm hj]

theorem mem_unawait_iff_stage (hg : e'.tx.stage ≠ .broadcasted) (j : String) :
    j ∈ (s.unawait id).awaiting ↔
      if id = j then e'.tx.stage = .broadcasted else j ∈ s.awaiting := by
  by_cases hj : id = j
  · simp [mem_unawait, hj, hg]
  · simp [mem_unawait, hj, Ne.symm hj]

theorem Consistent.addPending (h : s.Consistent) {tx : Tx} (hs : s.addPending tx = .ok s') :
    s'.Consistent := by
  obtain ⟨hnone, hkey, rfl⟩ := addPending_eq_ok_iff.mp hs
  have hget (j : String) : (s.entries.insert tx.id (.ofTx tx)).get? j =
      if tx.id = j then some (.ofTx tx) else s.entries.get? j := Table.get?_insert ..
  have hstage : s.stage? tx.id = none := stage?_eq_none_iff.mpr hnone
  refine ⟨Table.nodup_keys_insert h.nodup_entries _ _, h.nodup_awaiting, h.nodup_finished,
    ?_, ?_, ?_, ?_, ?_, ?_⟩
  · intro j d hd
    simp only [setEntry, hget] at hd
    by_cases hj : tx.id = j
    · rw [if_pos hj, Option.some.injEq] at hd
      rw [← hd, ← hj, Entry.ofTx]
    · exact h.id_eq (by rwa [if_neg hj] at hd)
  · intro j d hd
    simp only [setEntry, hget] at hd
    by_cases hj : tx.id = j
    · rw [if_pos hj, Option.some.injEq] at hd
      exact hd ▸ Entry.sound_ofTx tx
    · exact h.sound (by rwa [if_neg hj] at hd)
  · intro hash j
    simp only [setEntry, hget, h.hashes_iff]
    by_cases hj : tx.id = j
    · subst hj
      simp [hnone, Entry.ofTx]
    · rw [if_neg hj]
  · intro key j
    simp only [setEntry, hget, get?_keysWith]
    by_cases hj : tx.id = j
    · subst hj
      by_cases hk : tx.key = some key
      · simp [hk, Entry.ofTx]
      · have : s.keys.get? key ≠ some tx.id := by simp [h.keys_iff, hnone]
        simp [hk, this, Entry.ofTx]
    · by_cases hk : tx.key = some key
      · have : ¬ ∃ e, s.entries.get? j = some e ∧ e.tx.key = some key := by
          rw [← h.keys_iff, hkey key hk]
          simp
        simp [hk, hj, this]
      · rw [if_neg hk, if_neg hj, h.keys_iff]
  · intro j
    simp only [setEntry, stage?, hget, h.awaiting_iff]
    by_cases hj : tx.id = j
    · subst hj
      simp [hnone, Entry.ofTx]
    · rw [if_neg hj]
  · intro j
    simp only [setEntry, stage?, hget, h.finished_iff]
    by_cases hj : tx.id = j
    · subst hj
      simp [hnone, Entry.ofTx, Stage.isTerminal]
    · rw [if_neg hj]

theorem Consistent.markBroadcasted (h : s.Consistent) {hash : String} {expiration : Int} {tx : Tx}
    (hs : s.markBroadcasted hash expiration tx = .ok s') : s'.Consistent := by
  obtain ⟨hnone, e, he, hg, rfl⟩ := markBroadcasted_eq_ok_iff.mp hs
  have hnew : hash ∉ e.hashes := by
    rw [← h.hashes_get?_iff he, hnone]
    simp
  refine h.replace he (e.sentAs hash expiration tx) (h.id_eq he).symm rfl
    ((h.sound he).sentAs hnew expiration tx)
    ⟨rfl, rfl, nodup_await h.nodup_awaiting, h.nodup_finished, ?_, mem_await_iff_stage rfl,
      h.finished_of_same he ?_⟩
  · intro other j
    simp only [await, setEntry, Table.get?_insert, Entry.sentAs, List.mem_append,
      List.mem_singleton]
    by_cases ho : hash = other
    · subst ho
      by_cases hj : tx.id = j
      · simp [hj]
      · simp [hj, hnone]
    · by_cases hj : tx.id = j
      · subst hj
        simp [ho, Ne.symm ho, h.hashes_get?_iff he]
      · simp [ho, hj]
  · obtain hg | hg := hg
    · rw [hg]
      rfl
    · rw [hg]
      rfl

theorem Consistent.markConfirmed (h : s.Consistent) {block : Int}
    (hs : s.markConfirmed id block = .ok s') : s'.Consistent := by
  obtain ⟨e, he, hg, rfl⟩ := markConfirmed_eq_ok_iff.mp hs
  refine h.replace he (e.confirmedIn block) rfl rfl ((h.sound he).confirmedIn hg block)
    ⟨rfl, rfl, nodup_unawait h.nodup_awaiting, h.nodup_finished, h.hashes_of_same he rfl,
      mem_unawait_iff_stage ?_, h.finished_of_same he ?_⟩
  · simp [Entry.confirmedIn, Entry.withStage]
  · rw [hg]
    rfl

theorem Consistent.markReorganized (h : s.Consistent) (hs : s.markReorganized id = .ok s') :
    s'.Consistent := by
  obtain ⟨e, he, hg, rfl⟩ := markReorganized_eq_ok_iff.mp hs
  refine h.replace he e.displaced rfl rfl ((h.sound he).displaced hg)
    ⟨rfl, rfl, nodup_await h.nodup_awaiting, h.nodup_finished, h.hashes_of_same he rfl,
      mem_await_iff_stage rfl, h.finished_of_same he ?_⟩
  rw [hg]
  rfl

theorem Consistent.markErrored (h : s.Consistent) {tx : Tx}
    (hs : s.markErrored id = .ok (s', tx)) : s'.Consistent := by
  obtain ⟨e, he, hg, rfl, -⟩ := markErrored_eq_ok_iff.mp hs
  refine h.replace he (e.withStage .errored) rfl rfl
    ((h.sound he).withStage (by decide) (by decide))
    ⟨rfl, rfl, nodup_unawait h.nodup_awaiting, h.nodup_finished, h.hashes_of_same he rfl,
      mem_unawait_iff_stage (by simp [Entry.withStage]), h.finished_of_same he ?_⟩
  obtain hg | hg := hg
  · rw [hg]
    rfl
  · rw [hg]
    rfl

theorem Consistent.recordCounters (h : s.Consistent) {tx : Tx}
    (hs : s.recordCounters tx = .ok s') : s'.Consistent := by
  obtain ⟨e, he, rfl⟩ := recordCounters_eq_ok_iff.mp hs
  exact h.replace he (e.withCounters tx) rfl rfl ((h.sound he).withCounters tx)
    ⟨rfl, rfl, h.nodup_awaiting, h.nodup_finished, h.hashes_of_same he rfl,
      h.awaiting_of_same he Iff.rfl, h.finished_of_same he rfl⟩

theorem Consistent.finish (h : s.Consistent) {target : Stage} (ht : target.isTerminal = true)
    {now : Nat} (hs : s.finish id target now = .ok s') : s'.Consistent := by
  obtain ⟨e, he, -, rfl⟩ := finish_eq_ok_iff.mp hs
  have hb : target ≠ .broadcasted := fun hg => by simp [hg, Stage.isTerminal] at ht
  have hc : target ≠ .confirmed := fun hg => by simp [hg, Stage.isTerminal] at ht
  refine h.replace he (e.withStage target) rfl rfl ((h.sound he).withStage hb hc)
    ⟨rfl, rfl, nodup_unawait h.nodup_awaiting, Table.nodup_keys_insert h.nodup_finished id now,
      h.hashes_of_same he rfl, mem_unawait_iff_stage hb, ?_⟩
  intro j
  by_cases hj : id = j
  · simp [Table.contains, Table.get?_insert, hj, Entry.withStage, ht]
  · simp [Table.contains, Table.get?_insert, hj]

theorem get?_evict (j : String) :
    (s.evict id).entries.get? j = if id = j then none else s.entries.get? j := by
  unfold evict
  cases he : s.entries.get? id with
  | none =>
    by_cases hj : id = j
    · subst hj
      simp [he]
    · simp [he, hj]
  | some e => simp [he, Table.get?_erase]

theorem get?_of_get?_evict {j : String} (h : (s.evict id).entries.get? j = some e) :
    s.entries.get? j = some e := by
  rw [get?_evict] at h
  by_cases hj : id = j
  · simp [hj] at h
  · rwa [if_neg hj] at h

theorem get?_foldl_evict (ids : List String) (j : String) :
    (ids.foldl Store.evict s).entries.get? j = if j ∈ ids then none else s.entries.get? j := by
  induction ids generalizing s with
  | nil => simp
  | cons id ids ih =>
    rw [List.foldl_cons, ih, get?_evict]
    by_cases hj : id = j
    · simp [hj]
    · simp [hj, Ne.symm hj]

theorem get?_reap (retention now : Nat) (j : String) :
    (s.reap retention now).1.entries.get? j =
      if j ∈ s.expired retention now then none else s.entries.get? j :=
  get?_foldl_evict _ j

theorem stage?_evict (j : String) :
    (s.evict id).stage? j = if id = j then none else s.stage? j := by
  rw [stage?, get?_evict]
  by_cases hj : id = j
  · simp [hj]
  · simp [hj, stage?]

theorem contains_erase {α : Type} (t : Table String α) (j : String) :
    (t.erase id).contains j = true ↔ if id = j then False else t.contains j = true := by
  by_cases hj : id = j
  · simp [Table.contains, Table.get?_erase, hj]
  · simp [Table.contains, Table.get?_erase, hj]

theorem Consistent.evict (h : s.Consistent)
    (hend : ∀ g, s.stage? id = some g → g.isTerminal = true) : (s.evict id).Consistent := by
  have hstage : ∀ j, (s.evict id).stage? j = if id = j then none else s.stage? j := stage?_evict
  have hget : ∀ j, (s.evict id).entries.get? j = if id = j then none else s.entries.get? j :=
    get?_evict
  cases he : s.entries.get? id with
  | none =>
    have heq : s.evict id = { s with finished := s.finished.erase id } := by simp [Store.evict, he]
    rw [heq] at hstage ⊢
    refine ⟨h.nodup_entries, h.nodup_awaiting, Table.nodup_keys_erase h.nodup_finished id,
      h.id_eq, h.sound, h.hashes_iff, h.keys_iff, h.awaiting_iff, fun j => ?_⟩
    rw [hstage, contains_erase]
    by_cases hj : id = j
    · simp [hj]
    · rw [if_neg hj, if_neg hj, h.finished_iff]
  | some e =>
    have heq : s.evict id = { s with
        entries := s.entries.erase id
        hashes := s.hashes.eraseAll e.hashes
        keys := s.keysWithout e.tx
        finished := s.finished.erase id } := by
      simp [Store.evict, he, keysWithout]
    have hnot : id ∉ s.awaiting := by
      intro hm
      have := hend _ ((h.awaiting_iff id).mp hm)
      cases this
    rw [heq] at hstage hget ⊢
    refine ⟨Table.nodup_keys_erase h.nodup_entries id, h.nodup_awaiting,
      Table.nodup_keys_erase h.nodup_finished id, ?_, ?_, ?_, ?_, ?_, ?_⟩
    · intro j d hd
      exact h.id_eq (get?_of_get?_evict (heq ▸ hd))
    · intro j d hd
      exact h.sound (get?_of_get?_evict (heq ▸ hd))
    · intro hash j
      rw [hget, Table.get?_eraseAll]
      by_cases hj : id = j
      · subst hj
        by_cases hm : hash ∈ e.hashes
        · simp [hm]
        · simp [hm, h.hashes_get?_iff he]
      · by_cases hm : hash ∈ e.hashes
        · have : s.hashes.get? hash ≠ some j := by
            rw [(h.hashes_get?_iff he hash).mpr hm]
            simpa using hj
          simpa [hm, hj] using (not_congr (h.hashes_iff hash j)).mp this
        · rw [if_neg hm, if_neg hj, h.hashes_iff]
    · intro key j
      rw [hget, get?_keysWithout]
      by_cases hj : id = j
      · subst hj
        by_cases hk : e.tx.key = some key
        · simp [hk]
        · simp [hk, h.keys_iff, he]
      · by_cases hk : e.tx.key = some key
        · have : s.keys.get? key ≠ some j := by
            rw [(h.keys_iff key id).mpr ⟨e, he, hk⟩]
            simpa using hj
          simpa [hk, hj] using (not_congr (h.keys_iff key j)).mp this
        · rw [if_neg hk, if_neg hj, h.keys_iff]
    · intro j
      rw [hstage]
      by_cases hj : id = j
      · subst hj
        simp [hnot]
      · rw [if_neg hj, h.awaiting_iff]
    · intro j
      rw [hstage, contains_erase]
      by_cases hj : id = j
      · simp [hj]
      · rw [if_neg hj, if_neg hj, h.finished_iff]

theorem Consistent.foldl_evict (ids : List String) (h : s.Consistent)
    (hend : ∀ id ∈ ids, ∀ g, s.stage? id = some g → g.isTerminal = true) :
    (ids.foldl Store.evict s).Consistent := by
  induction ids generalizing s with
  | nil => exact h
  | cons id ids ih =>
    refine ih (h.evict (hend id List.mem_cons_self)) fun j hj g hg => ?_
    rw [stage?_evict] at hg
    by_cases he : id = j
    · simp [he] at hg
    · exact hend j (List.mem_cons_of_mem id hj) g (by rwa [if_neg he] at hg)

theorem mem_expired_iff (h : s.finished.keys.Nodup) (retention now : Nat) :
    id ∈ s.expired retention now ↔
      ∃ ended, s.finished.get? id = some ended ∧ retention ≤ now - ended := by
  simp [expired, ← Table.mem_rows_iff h]

theorem Consistent.isTerminal_of_mem_expired (h : s.Consistent) {retention now : Nat} {g : Stage}
    (hid : id ∈ s.expired retention now) (hg : s.stage? id = some g) : g.isTerminal = true := by
  obtain ⟨ended, he, -⟩ := (mem_expired_iff h.nodup_finished retention now).mp hid
  obtain ⟨g', hg', ht⟩ := (h.finished_iff id).mp (by simp [Table.contains, he])
  rw [hg, Option.some.injEq] at hg'
  exact hg' ▸ ht

theorem Consistent.reap (h : s.Consistent) (retention now : Nat) :
    (s.reap retention now).1.Consistent :=
  h.foldl_evict _ fun _ hid _ hg => h.isTerminal_of_mem_expired hid hg

theorem Consistent.apply (h : s.Consistent) (retention : Nat) (op : Operation) :
    (s.apply retention op).Consistent := by
  cases op with
  | addPending tx => exact after_induction h fun _ hs => h.addPending hs
  | markBroadcasted hash expiration tx => exact after_induction h fun _ hs => h.markBroadcasted hs
  | markConfirmed id block => exact after_induction h fun _ hs => h.markConfirmed hs
  | markReorganized id => exact after_induction h fun _ hs => h.markReorganized hs
  | markFinalized id now => exact after_induction h fun _ hs => h.finish rfl hs
  | markErrored id =>
    refine after_induction h fun s' hs => ?_
    obtain ⟨tx, hs⟩ := map_markErrored_eq_ok_iff.mp hs
    exact h.markErrored hs
  | recordCounters tx => exact after_induction h fun _ hs => h.recordCounters hs
  | markFatal id now => exact after_induction h fun _ hs => h.finish rfl hs
  | reap now => exact h.reap retention now

theorem Consistent.run (h : s.Consistent) (retention : Nat) (ops : List Operation) :
    (s.run retention ops).Consistent := by
  induction ops generalizing s with
  | nil => exact h
  | cons op ops ih => exact ih (h.apply retention op)

end Store

end TronCourier
