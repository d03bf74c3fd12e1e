import Mathlib
import TronCourier.Proofs.Store.Refusal
import TronCourier.Proofs.Store.Tally

/-! A reap takes the transactions that came to their end a retention period ago or earlier.
Since no two entries share a hash or a key, the rows that go with them are theirs alone. -/

namespace TronCourier

namespace Store

/-- The transaction of an entry came to its end, and a retention period has passed since. The
time that has passed counts from zero. -/
def Lapsed (s : Store) (retention now : Nat) (id : String) (e : Entry) : Prop :=
  e.tx.stage.isTerminal = true ∧
    ∃ ended ∈ s.finished.get? id, (retention : Int) ≤ max 0 ((now : Int) - ended)

instance (s : Store) (retention now : Nat) (id : String) (e : Entry) :
    Decidable (s.Lapsed retention now id e) :=
  inferInstanceAs (Decidable (_ ∧ _))

/-- An operation of a history brought a transaction to an end at a time, and the transaction
has been at that end ever since. -/
def EndedAt (retention : Nat) (ops : List Operation) (id : String) (g : Stage) (ended : Nat) :
    Prop :=
  ∃ before op after, ops = before ++ op :: after ∧ op.Ends id ended g ∧
    (Store.empty.run retention before).stage? id ≠ some g ∧
    ∀ rest, before ++ op :: rest <+: ops →
      (Store.empty.run retention (before ++ op :: rest)).stage? id = some g

/-- Of the transactions on record, only such as have lapsed are of a kind. -/
def OnlyLapsed (s : Store) (retention now : Nat) (kind : String → Entry → Prop) : Prop :=
  ∀ id e, s.entries.get? id = some e → kind id e → s.Lapsed retention now id e

/-- No index of a store knows a transaction, nor what an entry of it held. -/
structure Forgets (s : Store) (id : String) (e : Entry) : Prop where
  entry_eq : s.entries.get? id = none
  finished_eq : s.finished.get? id = none
  not_awaiting : id ∉ s.awaiting
  hashes_eq : ∀ hash ∈ e.hashes, s.hashes.get? hash = none
  keys_eq : ∀ key, e.tx.key = some key → s.keys.get? key = none
  hashes_ne : ∀ hash, s.hashes.get? hash ≠ some id
  keys_ne : ∀ key, s.keys.get? key ≠ some id

/-- What an entry held is free. A new transaction can have its id and its key and can be sent
under its hashes, and whatever else is to be sent can have them too. -/
structure Frees (s : Store) (id : String) (e : Entry) : Prop where
  readmits : ∀ tx, tx.id = id ∨ s.entries.get? tx.id = none →
    (∀ key, tx.key = some key → e.tx.key = some key) →
    ∃ s₁, s.addPending tx = .ok s₁ ∧ ∀ hash ∈ e.hashes, ∀ expiration,
      ∃ s₂, s₁.markBroadcasted hash expiration tx = .ok s₂
  resends : ∀ hash ∈ e.hashes, ∀ expiration tx,
    s.stage? tx.id = some .pending ∨ s.stage? tx.id = some .errored →
    ∃ s₁, s.markBroadcasted hash expiration tx = .ok s₁

variable {s : Store} {id : String} {e : Entry} {g : Stage} {retention now ended : Nat}

theorem run_append (retention : Nat) (s : Store) (ops ops' : List Operation) :
    s.run retention (ops ++ ops') = (s.run retention ops).run retention ops' :=
  List.foldl_append

theorem Consistent.finished_apply (h : s.Consistent) (hg : s.stage? id = some g)
    (ht : g.isTerminal = true) (hended : s.finished.get? id = some ended) {op : Operation}
    (hstays : (s.apply retention op).stage? id = some g) :
    (s.apply retention op).finished.get? id = some ended := by
  obtain ⟨e, he, rfl⟩ := stage?_eq_some_iff.mp hg
  have hop : ¬ op.Reaps retention ended := by
    intro hreaps
    cases op with
    | reap now =>
      have hmem : id ∈ s.expired retention now :=
        (mem_expired_iff h.nodup_finished retention now).mpr ⟨ended, hended, hreaps⟩
      rw [Store.apply, stage?, get?_reap, if_pos hmem] at hstays
      cases hstays
    | _ => exact hreaps
  obtain ⟨-, -, hfinished, -, -⟩ := h.apply_of_isTerminal he ht hended hop
  exact hfinished

/-- The time that a store has for a transaction at its end is that of the operation that brought
it there. -/
theorem finished_run (retention : Nat) (ops : List Operation)
    (hg : (Store.empty.run retention ops).stage? id = some g) (ht : g.isTerminal = true) :
    ∃ ended, (Store.empty.run retention ops).finished.get? id = some ended ∧
      EndedAt retention ops id g ended := by
  induction ops using List.reverseRecOn with
  | nil => simp [run, stage?, empty] at hg
  | append_singleton ops op ih =>
    have hlast : Store.empty.run retention (ops ++ [op]) =
        (Store.empty.run retention ops).apply retention op := run_append ..
    by_cases hbefore : (Store.empty.run retention ops).stage? id = some g
    · obtain ⟨ended, hended, before, o, after, rfl, hends, hnot, hsince⟩ := ih hbefore
      refine ⟨ended, ?_, before, o, after ++ [op], by simp, hends, hnot, fun rest hrest => ?_⟩
      · rw [hlast] at hg ⊢
        exact (consistent_empty.run retention _).finished_apply hbefore ht hended hg
      · rcases List.prefix_concat_iff.mp hrest with hwhole | hrest
        · rw [hwhole, hg]
        · exact hsince rest hrest
    · rw [hlast] at hg
      obtain ⟨ended, hends, hended⟩ := ends_of_stage?_eq hbefore hg ht
      refine ⟨ended, hlast ▸ hended, ops, op, [], rfl, hends, hbefore, fun rest hrest => ?_⟩
      have hnil : rest = [] := by
        have hlen := hrest.length_le
        simp only [List.length_append, List.length_cons, List.length_nil] at hlen
        exact List.length_eq_zero_iff.mp (by omega)
      rw [hnil, hlast, hg]

theorem Consistent.mem_expired_iff_lapsed (h : s.Consistent) (he : s.entries.get? id = some e) :
    id ∈ s.expired retention now ↔ s.Lapsed retention now id e := by
  have hpassed (ended : Nat) :
      retention ≤ now - ended ↔ (retention : Int) ≤ max 0 ((now : Int) - ended) := by omega
  rw [mem_expired_iff h.nodup_finished]
  constructor
  · rintro ⟨ended, hended, hlong⟩
    refine ⟨?_, ended, hended, (hpassed ended).mp hlong⟩
    rw [← h.finished_contains_iff he, Table.contains, hended, Option.isSome_some]
  · rintro ⟨-, ended, hended, hlong⟩
    exact ⟨ended, hended, (hpassed ended).mpr hlong⟩

theorem Consistent.entry_of_mem_expired (h : s.Consistent)
    (hid : id ∈ s.expired retention now) : ∃ e, s.entries.get? id = some e := by
  obtain ⟨ended, hended, -⟩ := (mem_expired_iff h.nodup_finished retention now).mp hid
  have hfound : s.finished.contains id = true := by
    rw [Table.contains, hended, Option.isSome_some]
  obtain ⟨g, hg, -⟩ := (h.finished_iff id).mp hfound
  obtain ⟨e, he, -⟩ := stage?_eq_some_iff.mp hg
  exact ⟨e, he⟩

theorem Consistent.not_mem_expired (h : s.Consistent)
    (hkept : ∀ e, s.entries.get? id = some e → ¬ s.Lapsed retention now id e) :
    id ∉ s.expired retention now := by
  intro hid
  obtain ⟨e, he⟩ := h.entry_of_mem_expired hid
  exact hkept e he ((h.mem_expired_iff_lapsed he).mp hid)

/-- As many as are told have lapsed, since each of them is in the list once. -/
theorem Consistent.length_expired (h : s.Consistent) (retention now : Nat) :
    (s.expired retention now).length =
      s.entries.rows.countP fun row => s.Lapsed retention now row.1 row.2 := by
  have hperm : (s.expired retention now).Perm
      ((s.entries.rows.filter fun row => s.Lapsed retention now row.1 row.2).map Prod.fst) := by
    refine (List.perm_ext_iff_of_nodup (nodup_expired h.nodup_finished retention now) ?_).mpr ?_
    · exact h.nodup_entries.sublist (List.filter_sublist.map Prod.fst)
    · intro id
      simp only [List.mem_map, List.mem_filter, Prod.exists, Table.mem_rows_iff h.nodup_entries,
        decide_eq_true_eq, exists_and_right, exists_eq_right]
      constructor
      · intro hid
        obtain ⟨e, he⟩ := h.entry_of_mem_expired hid
        exact ⟨e, he, (h.mem_expired_iff_lapsed he).mp hid⟩
      · rintro ⟨e, he, hlapsed⟩
        exact (h.mem_expired_iff_lapsed he).mpr hlapsed
  rw [List.countP_eq_length_filter, hperm.length_eq, List.length_map]

theorem Consistent.not_awaiting_of_get?_eq_none (h : s.Consistent)
    (hnone : s.entries.get? id = none) : id ∉ s.awaiting := by
  rw [h.awaiting_iff, stage?_eq_none_iff.mpr hnone]
  rintro ⟨⟩

theorem Consistent.finished_eq_none (h : s.Consistent) (hnone : s.entries.get? id = none) :
    s.finished.get? id = none := by
  by_contra hsome
  have hfound : s.finished.contains id = true := Option.isSome_iff_ne_none.mpr hsome
  obtain ⟨g, hg, -⟩ := (h.finished_iff id).mp hfound
  rw [stage?_eq_none_iff.mpr hnone] at hg
  cases hg

theorem Consistent.get?_reap_of_lapsed (h : s.Consistent) (he : s.entries.get? id = some e)
    (hlapsed : s.Lapsed retention now id e) :
    (s.reap retention now).1.entries.get? id = none := by
  rw [get?_reap, if_pos ((h.mem_expired_iff_lapsed he).mpr hlapsed)]

/-- An entry that a reap leaves was there before, and had not lapsed. -/
theorem Consistent.get?_of_get?_reap (h : s.Consistent)
    (he : (s.reap retention now).1.entries.get? id = some e) :
    s.entries.get? id = some e ∧ ¬ s.Lapsed retention now id e := by
  have hbefore : s.entries.get? id = some e := by
    rw [get?_reap] at he
    split at he
    · cases he
    · exact he
  refine ⟨hbefore, fun hlapsed => ?_⟩
  rw [h.get?_reap_of_lapsed hbefore hlapsed] at he
  cases he

theorem Consistent.entries_reap_eq_none (h : s.Consistent)
    (hid : s.OnlyLapsed retention now fun j _ => j = id) :
    (s.reap retention now).1.entries.get? id = none := by
  by_contra hsome
  obtain ⟨e, he⟩ := Option.ne_none_iff_exists'.mp hsome
  obtain ⟨hbefore, hnot⟩ := h.get?_of_get?_reap he
  exact hnot (hid id e hbefore rfl)

theorem Consistent.hashes_reap_eq_none (h : s.Consistent) {hash : String}
    (hhash : s.OnlyLapsed retention now fun _ e => hash ∈ e.hashes) :
    (s.reap retention now).1.hashes.get? hash = none := by
  by_contra hsome
  obtain ⟨j, hj⟩ := Option.ne_none_iff_exists'.mp hsome
  obtain ⟨e, he, hmem⟩ := ((h.reap retention now).hashes_iff hash j).mp hj
  obtain ⟨hbefore, hnot⟩ := h.get?_of_get?_reap he
  exact hnot (hhash j e hbefore hmem)

theorem Consistent.keys_reap_eq_none (h : s.Consistent) {key : String}
    (hkey : s.OnlyLapsed retention now fun _ e => e.tx.key = some key) :
    (s.reap retention now).1.keys.get? key = none := by
  by_contra hsome
  obtain ⟨j, hj⟩ := Option.ne_none_iff_exists'.mp hsome
  obtain ⟨e, he, hheld⟩ := ((h.reap retention now).keys_iff key j).mp hj
  obtain ⟨hbefore, hnot⟩ := h.get?_of_get?_reap he
  exact hnot (hkey j e hbefore hheld)

/-- No entry that stays has a hash or the key of one that goes. -/
theorem Consistent.reap_forgets (h : s.Consistent) (he : s.entries.get? id = some e)
    (hlapsed : s.Lapsed retention now id e) : (s.reap retention now).1.Forgets id e := by
  have h' := h.reap retention now
  have hgone := h.get?_reap_of_lapsed he hlapsed
  constructor
  case entry_eq => exact hgone
  case finished_eq => exact h'.finished_eq_none hgone
  case not_awaiting => exact h'.not_awaiting_of_get?_eq_none hgone
  case hashes_ne =>
    intro hash hrow
    obtain ⟨d, hd, -⟩ := (h'.hashes_iff hash id).mp hrow
    rw [hgone] at hd
    cases hd
  case keys_ne =>
    intro key hrow
    obtain ⟨d, hd, -⟩ := (h'.keys_iff key id).mp hrow
    rw [hgone] at hd
    cases hd
  case hashes_eq =>
    intro hash hmem
    refine h.hashes_reap_eq_none fun j d hd hmem' => ?_
    obtain rfl := h.id_eq_of_mem_hashes he hd hmem hmem'
    rw [he, Option.some.injEq] at hd
    exact hd ▸ hlapsed
  case keys_eq =>
    intro key hkey
    refine h.keys_reap_eq_none fun j d hd hkey' => ?_
    obtain rfl := h.id_eq_of_key_eq he hd hkey hkey'
    rw [he, Option.some.injEq] at hd
    exact hd ▸ hlapsed

theorem Consistent.reap_agree (h : s.Consistent) (hid : id ∉ s.expired retention now) :
    s.Agree (s.reap retention now).1 id := by
  refine h.agree (h.reap retention now) ?_ (finished_foldl_evict hid)
  rw [get?_reap, if_neg hid]

theorem Consistent.expired_reap (h : s.Consistent) (retention now : Nat) :
    (s.reap retention now).1.expired retention now = [] := by
  have h' := h.reap retention now
  refine List.eq_nil_iff_forall_not_mem.mpr fun id hid => ?_
  obtain ⟨e, he⟩ := h'.entry_of_mem_expired hid
  have hkept : id ∉ s.expired retention now := by
    intro hmem
    rw [get?_reap, if_pos hmem] at he
    cases he
  obtain ⟨ended, hended, hlong⟩ := (mem_expired_iff h'.nodup_finished retention now).mp hid
  rw [(h.reap_agree hkept).finished_eq] at hended
  exact hkept ((mem_expired_iff h.nodup_finished retention now).mpr ⟨ended, hended, hlong⟩)

theorem reap_of_expired_eq_nil (hnil : s.expired retention now = []) :
    s.reap retention now = (s, 0) := by
  rw [reap, hnil]
  rfl

theorem exists_addPending {tx : Tx} (hid : s.entries.get? tx.id = none)
    (hkey : ∀ key, tx.key = some key → s.keys.get? key = none) :
    ∃ s', s.addPending tx = .ok s' ∧ s'.stage? tx.id = some .pending ∧ s'.hashes = s.hashes := by
  refine ⟨_, addPending_eq_ok_iff.mpr ⟨hid, hkey, rfl⟩, ?_, rfl⟩
  simp [stage?, setEntry, Table.get?_insert, Entry.ofTx]

theorem markBroadcasted_of_stage? {hash : String} (hhash : s.hashes.get? hash = none) {tx : Tx}
    (hg : s.stage? tx.id = some .pending ∨ s.stage? tx.id = some .errored) (expiration : Int) :
    ∃ s', s.markBroadcasted hash expiration tx = .ok s' := by
  have hfound : ∃ e, s.entries.get? tx.id = some e ∧
      (e.tx.stage = .pending ∨ e.tx.stage = .errored) := by
    rcases hg with hg | hg
    · obtain ⟨e, he, hg⟩ := stage?_eq_some_iff.mp hg
      exact ⟨e, he, .inl hg⟩
    · obtain ⟨e, he, hg⟩ := stage?_eq_some_iff.mp hg
      exact ⟨e, he, .inr hg⟩
  obtain ⟨e, he, hg⟩ := hfound
  exact ⟨_, markBroadcasted_eq_ok_iff.mpr ⟨hhash, e, he, hg, rfl⟩⟩

/-- A transaction can be put on record, and sent, under what no index knows. -/
theorem exists_addPending_markBroadcasted {tx : Tx} (hid : s.entries.get? tx.id = none)
    (hkey : ∀ key, tx.key = some key → s.keys.get? key = none) :
    ∃ s₁, s.addPending tx = .ok s₁ ∧ ∀ hash expiration, s.hashes.get? hash = none →
      ∃ s₂, s₁.markBroadcasted hash expiration tx = .ok s₂ := by
  obtain ⟨s₁, hadded, hpending, hsame⟩ := exists_addPending hid hkey
  refine ⟨s₁, hadded, fun hash expiration hhash => ?_⟩
  rw [← hsame] at hhash
  exact markBroadcasted_of_stage? hhash (.inl hpending) expiration

theorem Forgets.frees (h : s.Forgets id e) : s.Frees id e where
  readmits tx hid hkey := by
    have hnone : s.entries.get? tx.id = none := by
      rcases hid with rfl | hnone
      · exact h.entry_eq
      · exact hnone
    obtain ⟨s₁, hadded, hsent⟩ :=
      exists_addPending_markBroadcasted hnone fun key hk => h.keys_eq key (hkey key hk)
    exact ⟨s₁, hadded, fun hash hmem expiration => hsent hash expiration (h.hashes_eq hash hmem)⟩
  resends hash hmem expiration _ hg :=
    markBroadcasted_of_stage? (h.hashes_eq hash hmem) hg expiration

/-- Whatever was tried on a store that was empty at first, a transaction at its end has the time
of the operation that brought it there, and a reap tells how many came to their end a retention
period ago or earlier. Of these no index knows anything any more, and all that the store says of
any other id stays. A second reap at that time does nothing. An id, a key or a hash that none of
those that stay has can be taken again, and so can what an entry held that went. -/
theorem reap_takes_just_the_lapsed (retention : Nat) (ops : List Operation) (now : Nat) :
    let s := Store.empty.run retention ops
    let s' := (s.reap retention now).1
    (∀ id e, s.entries.get? id = some e → e.tx.stage.isTerminal = true →
      ∃ ended, s.finished.get? id = some ended ∧ EndedAt retention ops id e.tx.stage ended) ∧
    (s.reap retention now).2 =
      s.entries.rows.countP (fun row => s.Lapsed retention now row.1 row.2) ∧
    (∀ id e, s.entries.get? id = some e → s.Lapsed retention now id e → s'.Forgets id e) ∧
    (∀ id, (∀ e, s.entries.get? id = some e → ¬ s.Lapsed retention now id e) → s.Agree s' id) ∧
    s'.reap retention now = (s', 0) ∧
    (∀ tx, (s.OnlyLapsed retention now fun j _ => j = tx.id) →
      (∀ key, tx.key = some key → s.OnlyLapsed retention now fun _ e => e.tx.key = some key) →
      ∃ s₁, s'.addPending tx = .ok s₁ ∧ ∀ hash expiration,
        (s.OnlyLapsed retention now fun _ e => hash ∈ e.hashes) →
        ∃ s₂, s₁.markBroadcasted hash expiration tx = .ok s₂) ∧
    (∀ hash expiration tx, (s.OnlyLapsed retention now fun _ e => hash ∈ e.hashes) →
      s'.stage? tx.id = some .pending ∨ s'.stage? tx.id = some .errored →
      ∃ s₁, s'.markBroadcasted hash expiration tx = .ok s₁) ∧
    ∀ id e, s.entries.get? id = some e → s.Lapsed retention now id e → s'.Frees id e := by
  intro s s'
  have h : s.Consistent := consistent_empty.run retention ops
  refine ⟨fun id e he ht => ?_, h.length_expired retention now, ?_, ?_, ?_, ?_, ?_, ?_⟩
  · exact finished_run retention ops (stage?_of_entry he) ht
  · intro id e he hlapsed
    exact h.reap_forgets he hlapsed
  · intro id hkept
    exact h.reap_agree (h.not_mem_expired hkept)
  · exact reap_of_expired_eq_nil (h.expired_reap retention now)
  · intro tx hid hkey
    obtain ⟨s₁, hadded, hsent⟩ := exists_addPending_markBroadcasted (h.entries_reap_eq_none hid)
      fun key hk => h.keys_reap_eq_none (hkey key hk)
    exact ⟨s₁, hadded, fun hash expiration hhash =>
      hsent hash expiration (h.hashes_reap_eq_none hhash)⟩
  · intro hash expiration tx hhash hg
    exact markBroadcasted_of_stage? (h.hashes_reap_eq_none hhash) hg expiration
  · intro id e he hlapsed
    exact (h.reap_forgets he hlapsed).frees

theorem Consistent.onlyLapsed (h : s.Consistent) {kind : String → Entry → Prop}
    (hrows : ∀ row ∈ s.entries.rows, kind row.1 row.2 → s.Lapsed retention now row.1 row.2) :
    s.OnlyLapsed retention now kind :=
  fun id e he => hrows (id, e) ((Table.mem_rows_iff h.nodup_entries id e).mpr he)

def finalizedSample : List Operation :=
  earlierSample ++ [.markFinalized "t" 5]

/-- The retention period ends at 65. -/
theorem reap_takes_just_the_lapsed_finalizedSample :
    let s := Store.empty.run 60 finalizedSample
    (s.reap 60 64).2 = 0 ∧ (s.reap 60 65).2 = 1 ∧ (s.reap 60 65).1.entries.get? "t" = none ∧
      s.Agree (s.reap 60 65).1 "u" ∧
      (∃ s₁ s₂, (s.reap 60 65).1.addPending keyedSample = .ok s₁ ∧
        s₁.markBroadcasted "h" 0 keyedSample = .ok s₂) ∧
      ∃ s₁ s₂, (s.reap 60 65).1.addPending { keyedSample with id := "v" } = .ok s₁ ∧
        s₁.markBroadcasted "h" 0 { keyedSample with id := "v" } = .ok s₂ := by
  intro s
  have h : s.Consistent := consistent_empty.run 60 finalizedSample
  obtain ⟨-, early, -⟩ := reap_takes_just_the_lapsed 60 finalizedSample 64
  obtain ⟨-, due, gone, kept, -, again, -, frees⟩ :=
    reap_takes_just_the_lapsed 60 finalizedSample 65
  have hid : s.OnlyLapsed 60 65 fun j _ => j = "t" := h.onlyLapsed (by decide +kernel)
  obtain ⟨e, he, hkeyed, hsent⟩ : ∃ e, s.entries.get? "t" = some e ∧ e.tx.key = some "k-1" ∧
      "h" ∈ e.hashes := by
    refine ⟨_, rfl, ?_, ?_⟩
    · decide +kernel
    · decide +kernel
  refine ⟨?_, ?_, ?_, ?_, ?_, ?_⟩
  · rw [early]
    decide +kernel
  · rw [due]
    decide +kernel
  · exact (gone "t" e he (hid "t" e he rfl)).entry_eq
  · refine kept "u" fun e he hlapsed => ?_
    have hpending : s.stage? "u" = some .pending := by decide +kernel
    obtain ⟨ht, -⟩ := hlapsed
    rw [stage?_of_entry he, Option.some.injEq] at hpending
    rw [hpending] at ht
    cases ht
  · have hkey : s.OnlyLapsed 60 65 fun _ e => e.tx.key = some "k-1" :=
      h.onlyLapsed (by decide +kernel)
    have hhash : s.OnlyLapsed 60 65 fun _ e => "h" ∈ e.hashes := h.onlyLapsed (by decide +kernel)
    obtain ⟨s₁, hadded, hsent⟩ := again keyedSample hid fun key hk => by
      rwa [← Option.some.inj hk]
    obtain ⟨s₂, hsent⟩ := hsent "h" 0 hhash
    exact ⟨s₁, s₂, hadded, hsent⟩
  · have hnew : (s.reap 60 65).1.entries.get? "v" = none := by decide +kernel
    obtain ⟨s₁, hadded, hagain⟩ := (frees "t" e he (hid "t" e he rfl)).readmits
      { keyedSample with id := "v" } (.inr hnew) fun key hk => hkeyed.trans hk
    obtain ⟨s₂, hagain⟩ := hagain "h" hsent 0
    exact ⟨s₁, s₂, hadded, hagain⟩

end Store

end TronCourier
