import TronCourier.Proofs.Store.Change

/-! A transaction that came to its end is told of as it was then, until it is reaped. Nothing
moves it any more, and a reap takes nothing that has not come to its end. -/

namespace TronCourier

/-- The operation is a reap that takes what came to its end at a time. -/
def Operation.Reaps (retention ended : Nat) : Operation → Prop
  | .reap now => retention ≤ now - ended
  | _ => False

def Operation.Counts (id : String) : Operation → Prop
  | .recordCounters tx => tx.id = id
  | _ => False

/-- The end that an operation brings a transaction to. -/
inductive Operation.Ends (id : String) (now : Nat) : Operation → Stage → Prop
  | finalized : Ends id now (.markFinalized id now) .finalized
  | fatal : Ends id now (.markFatal id now) .fatallyErrored

namespace Store

/-- The store tells of a transaction what its entry says. -/
structure Tells (s : Store) (id : String) (e : Entry) : Prop where
  stage?_eq : s.stage? id = some e.tx.stage
  tx?_eq : s.tx? id = some e.tx
  hashesOf_eq : s.hashesOf id = e.hashes
  hashes : ∀ hash ∈ e.hashes, s.hashes.get? hash = some id
  keys : ∀ key, e.tx.key = some key → s.keys.get? key = some id

/-- No transition of a transaction is taken in a stage. -/
structure Rejects (s : Store) (id : String) (g : Stage) : Prop where
  addPending : ∀ tx, tx.id = id → s.addPending tx = .error (.duplicateId id)
  markBroadcasted : ∀ hash expiration tx, tx.id = id →
    s.markBroadcasted hash expiration tx = .error
      (if s.hashes.contains hash then .duplicateHash hash else .invalidTransition id g .broadcasted)
  markConfirmed : ∀ block, s.markConfirmed id block = .error (.invalidTransition id g .confirmed)
  markReorganized : s.markReorganized id = .error (.invalidTransition id g .broadcasted)
  markFinalized : ∀ now, s.markFinalized id now = .error (.invalidTransition id g .finalized)
  markErrored : s.markErrored id = .error (.invalidTransition id g .errored)
  markFatal : ∀ now, s.markFatal id now = .error (.invalidTransition id g .fatallyErrored)

variable {s : Store} {id : String} {e : Entry} {g : Stage} {retention ended : Nat}
  {op : Operation}

theorem Consistent.tells (h : s.Consistent) (he : s.entries.get? id = some e) : s.Tells id e where
  stage?_eq := stage?_of_entry he
  tx?_eq := by rw [tx?, he, Option.map_some]
  hashesOf_eq := by rw [hashesOf, he, Option.map_some, Option.getD_some]
  hashes hash hm := (h.hashes_get?_iff he hash).mpr hm
  keys key hk := (h.keys_iff key id).mpr ⟨e, he, hk⟩

theorem Consistent.entryFor_of_isTerminal (h : s.Consistent) (he : s.entries.get? id = some e)
    (ht : e.tx.stage.isTerminal = true) (target : Stage) :
    s.entryFor id target = .error (.invalidTransition id e.tx.stage target) := by
  have hentry : s.entry id = .ok e := entry_eq_ok_iff.mpr he
  have hmove := Stage.not_canMoveTo_of_isTerminal ht target
  simp only [entryFor, hentry, bind, Except.bind, hmove, h.id_eq he, Bool.false_eq_true, if_false]

theorem Consistent.rejects (h : s.Consistent) (he : s.entries.get? id = some e)
    (ht : e.tx.stage.isTerminal = true) : s.Rejects id e.tx.stage := by
  have hfor := h.entryFor_of_isTerminal he ht
  have hentry : s.entry id = .ok e := entry_eq_ok_iff.mpr he
  have hne : e.tx.stage ≠ .confirmed := by
    intro hg
    rw [hg] at ht
    cases ht
  constructor
  case addPending =>
    rintro tx rfl
    rw [Store.addPending, Table.contains, he, Option.isSome_some, if_pos rfl]
  case markBroadcasted =>
    rintro hash expiration tx rfl
    rw [Store.markBroadcasted]
    split
    · rfl
    · simp only [hentry, bind, Except.bind, if_neg hne, hfor]
  case markReorganized =>
    simp only [Store.markReorganized, hentry, bind, Except.bind, if_neg hne]
  case markErrored => simp only [Store.markErrored, hfor, bind, Except.bind]
  case markConfirmed =>
    intro block
    simp only [Store.markConfirmed, hfor, bind, Except.bind]
  case markFinalized =>
    intro now
    simp only [Store.markFinalized, Store.finish, hfor, bind, Except.bind]
  case markFatal =>
    intro now
    simp only [Store.markFatal, Store.finish, hfor, bind, Except.bind]

theorem finished_evict (j : String) : (s.evict j).finished = s.finished.erase j := by
  unfold evict
  cases he : s.entries.get? j with
  | none => simp only [he]
  | some e => simp only [he]

theorem finished_foldl_evict {ids : List String} (hid : id ∉ ids) :
    (ids.foldl Store.evict s).finished.get? id = s.finished.get? id := by
  induction ids generalizing s with
  | nil => rfl
  | cons j ids ih =>
    have hne : j ≠ id := fun hj => hid (hj ▸ List.mem_cons_self)
    have hrest : id ∉ ids := fun hm => hid (List.mem_cons_of_mem j hm)
    rw [List.foldl_cons, ih hrest, finished_evict, Table.get?_erase, if_neg hne]

theorem eq_withCounters_of_turns {d : Entry} (ht : e.tx.stage.isTerminal = true)
    (hturn : op.Turns id (some e) d) :
    op.Counts id ∧ op.end? = none ∧ d = e.withCounters d.tx := by
  cases hturn with
  | markBroadcasted hash expiration tx hg =>
    rcases hg with hg | hg <;> simp [hg, Stage.isTerminal] at ht
  | markConfirmed _ block hg => simp [hg, Stage.isTerminal] at ht
  | markReorganized _ hg => simp [hg, Stage.isTerminal] at ht
  | markFinalized _ now hg => simp [hg, Stage.isTerminal] at ht
  | markErrored _ hg => rcases hg with hg | hg <;> simp [hg, Stage.isTerminal] at ht
  | recordCounters tx => exact ⟨rfl, rfl, rfl⟩
  | markFatal _ now hg =>
    rw [Stage.not_canMoveTo_of_isTerminal ht] at hg
    cases hg

/-- What an operation leaves of a transaction that came to its end. -/
theorem Consistent.apply_of_isTerminal (h : s.Consistent) (he : s.entries.get? id = some e)
    (ht : e.tx.stage.isTerminal = true) (hended : s.finished.get? id = some ended)
    (hop : ¬ op.Reaps retention ended) :
    ∃ d, (s.apply retention op).entries.get? id = some d ∧
      (s.apply retention op).finished.get? id = some ended ∧ d = e.withCounters d.tx ∧
      (¬ op.Counts id → d = e) := by
  rcases apply_cases retention s op with hs | ⟨j, d, hdoes⟩ | ⟨now, rfl⟩
  · exact ⟨e, by rw [hs, he], by rw [hs, hended], rfl, fun _ => rfl⟩
  · by_cases hj : j = id
    · subst hj
      have hturn := hdoes.turns
      rw [he] at hturn
      obtain ⟨hcounts, hend, hd⟩ := eq_withCounters_of_turns ht hturn
      refine ⟨d, ?_, ?_, hd, fun hnot => absurd hcounts hnot⟩
      · rw [hdoes.entries_eq, Table.get?_insert, if_pos rfl]
      · rw [hdoes.finished_eq, hend, Option.map_none, Option.getD_none, hended]
    · refine ⟨e, ?_, ?_, rfl, fun _ => rfl⟩
      · rw [hdoes.entries_eq, Table.get?_insert, if_neg hj, he]
      · rw [hdoes.finished_eq]
        cases op.end? with
        | none => exact hended
        | some now =>
          rw [Option.map_some, Option.getD_some, Table.get?_insert, if_neg hj, hended]
  · have hid : id ∉ s.expired retention now := by
      intro hmem
      obtain ⟨t, hfound, hlong⟩ := (mem_expired_iff h.nodup_finished retention now).mp hmem
      rw [hended, Option.some.injEq] at hfound
      rw [← hfound] at hlong
      exact hop hlong
    refine ⟨e, ?_, ?_, rfl, fun _ => rfl⟩
    · rw [Store.apply, get?_reap, if_neg hid, he]
    · exact (finished_foldl_evict hid).trans hended

theorem Consistent.run_of_isTerminal (h : s.Consistent) (he : s.entries.get? id = some e)
    (ht : e.tx.stage.isTerminal = true) (hended : s.finished.get? id = some ended)
    {ops : List Operation} (hops : ∀ op ∈ ops, ¬ op.Reaps retention ended) :
    ∃ d, (s.run retention ops).entries.get? id = some d ∧ d = e.withCounters d.tx ∧
      ((∀ op ∈ ops, ¬ op.Counts id) → d = e) := by
  induction ops generalizing s e with
  | nil => exact ⟨e, he, rfl, fun _ => rfl⟩
  | cons op ops ih =>
    obtain ⟨d, hd, hended', hcounters, hsame⟩ :=
      h.apply_of_isTerminal he ht hended (hops op List.mem_cons_self)
    have ht' : d.tx.stage.isTerminal = true := by
      rw [hcounters]
      exact ht
    obtain ⟨c, hc, hcounters', hsame'⟩ := ih (h.apply retention op) hd ht' hended'
      fun op hop => hops op (List.mem_cons_of_mem _ hop)
    refine ⟨c, hc, ?_, fun hnot => ?_⟩
    · calc
        c = d.withCounters c.tx := hcounters'
        _ = (e.withCounters d.tx).withCounters c.tx := by rw [← hcounters]
        _ = e.withCounters c.tx := rfl
    · rw [hsame' fun op hop => hnot op (List.mem_cons_of_mem _ hop),
        hsame (hnot op List.mem_cons_self)]

/-- A transaction comes to its end by an operation that brings it there, which is when the
store takes down the time. -/
theorem ends_of_stage?_eq (hbefore : s.stage? id ≠ some g)
    (hafter : (s.apply retention op).stage? id = some g) (ht : g.isTerminal = true) :
    ∃ now, op.Ends id now g ∧ (s.apply retention op).finished.get? id = some now := by
  obtain ⟨d, hd, rfl⟩ := stage?_eq_some_iff.mp hafter
  have hnew {e : Entry} (he : s.entries.get? id = some e) : e.tx.stage ≠ d.tx.stage := by
    intro hsame
    exact hbefore (stage?_eq_some_iff.mpr ⟨e, he, hsame⟩)
  rcases apply_cases retention s op with hs | ⟨j, d', hdoes⟩ | ⟨now, rfl⟩
  · rw [hs] at hd
    exact absurd rfl (hnew hd)
  · rcases get?_insert_cases hdoes.entries_eq hd with he | ⟨rfl, rfl⟩
    · exact absurd rfl (hnew he)
    · have hfinished := hdoes.finished_eq
      have hturn := hdoes.turns
      generalize hold : s.entries.get? j = old at hturn
      cases hturn with
      | markFinalized _ now hg =>
        refine ⟨now, .finalized, ?_⟩
        rw [hfinished]
        simp [Operation.end?, Table.get?_insert]
      | markFatal _ now hg =>
        refine ⟨now, .fatal, ?_⟩
        rw [hfinished]
        simp [Operation.end?, Table.get?_insert]
      | recordCounters tx => exact (hnew hold rfl).elim
      | addPending tx => simp [Entry.ofTx, Stage.isTerminal] at ht
      | markBroadcasted hash expiration tx hg => simp [Entry.sentAs, Stage.isTerminal] at ht
      | markConfirmed _ block hg => simp [Entry.confirmedIn, Entry.withStage, Stage.isTerminal] at ht
      | markReorganized _ hg => simp [Entry.displaced, Entry.withStage, Stage.isTerminal] at ht
      | markErrored _ hg => simp [Entry.withStage, Stage.isTerminal] at ht
  · rw [Store.apply, get?_reap] at hd
    split at hd
    · cases hd
    · exact absurd rfl (hnew hd)

theorem Consistent.get?_reap_of_not_isTerminal (h : s.Consistent)
    (he : s.entries.get? id = some e) (ht : e.tx.stage.isTerminal = false) (now : Nat) :
    (s.reap retention now).1.entries.get? id = some e := by
  have hid : id ∉ s.expired retention now := by
    intro hmem
    have := h.isTerminal_of_mem_expired hmem (stage?_of_entry he)
    rw [ht] at this
    cases this
  rw [get?_reap, if_neg hid, he]

/-- A transaction that came to its end stays in that stage, is told of as it was then, apart
from counters that are recorded for it, and takes no further transition, up to the first reap
a retention period later. A reap at any time leaves what has not come to its end. -/
theorem ended_is_stable (retention : Nat) (earlier : List Operation) :
    let s := Store.empty.run retention earlier
    (∀ op id g, s.stage? id ≠ some g → (s.apply retention op).stage? id = some g →
      g.isTerminal = true →
      ∃ now e, op.Ends id now g ∧ (s.apply retention op).Tells id e ∧ e.tx.stage = g ∧
        ∀ later, (∀ o ∈ later, ¬ o.Reaps retention now) →
          let s' := (s.apply retention op).run retention later
          ∃ d, s'.Tells id d ∧ d = e.withCounters d.tx ∧
            ((∀ o ∈ later, ¬ o.Counts id) → d = e) ∧ s'.Rejects id g) ∧
    (∀ now id e, s.entries.get? id = some e → e.tx.stage.isTerminal = false →
      (s.reap retention now).1.entries.get? id = some e) := by
  intro s
  have h : s.Consistent := consistent_empty.run retention earlier
  constructor
  · intro op id g hbefore hafter ht
    obtain ⟨now, hends, hended⟩ := ends_of_stage?_eq hbefore hafter ht
    obtain ⟨e, he, rfl⟩ := stage?_eq_some_iff.mp hafter
    have h' := h.apply retention op
    refine ⟨now, e, hends, h'.tells he, rfl, fun later hlater => ?_⟩
    obtain ⟨d, hd, hcounters, hsame⟩ := h'.run_of_isTerminal he ht hended hlater
    have hlast := h'.run retention later
    have hstage : d.tx.stage = e.tx.stage := by
      rw [hcounters]
      rfl
    refine ⟨d, hlast.tells hd, hcounters, hsame, ?_⟩
    rw [← hstage] at ht ⊢
    exact hlast.rejects hd ht
  · intro now id e he ht
    exact h.get?_reap_of_not_isTerminal he ht now

def keyedSample : Tx where
  id := "t"
  sender := .ofHash []
  contract := .ofHash []
  method := "f()"
  params := []
  key := some "k-1"

def earlierSample : List Operation :=
  [.addPending keyedSample, .addPending { keyedSample with id := "u", key := none },
    .markBroadcasted "h" 0 keyedSample, .markConfirmed "t" 7]

def laterSample : List Operation :=
  [.markFatal "t" 6, .reap 64, .recordCounters { keyedSample with attempt := 3 }, .markErrored "t",
    .markBroadcasted "h'" 0 keyedSample]

theorem ended_is_stable_keyedSample :
    let s := Store.empty.run 60 earlierSample
    let s' := (s.apply 60 (.markFinalized "t" 5)).run 60 laterSample
    (∃ d, s'.Tells "t" d ∧ d.hashes = ["h"] ∧ d.tx.key = some "k-1" ∧ s'.Rejects "t" .finalized) ∧
    ∃ e, s.entries.get? "u" = some e ∧ (s.reap 60 1000).1.entries.get? "u" = some e := by
  intro s s'
  obtain ⟨stable, kept⟩ := ended_is_stable 60 earlierSample
  constructor
  · have hbefore : s.stage? "t" ≠ some .finalized := by decide +kernel
    have hafter : (s.apply 60 (.markFinalized "t" 5)).stage? "t" = some .finalized := by
      decide +kernel
    obtain ⟨now, e, hends, htells, -, hlater⟩ := stable _ _ _ hbefore hafter rfl
    cases hends
    have hshort : ∀ o ∈ laterSample, ¬ o.Reaps 60 5 := by
      simp [laterSample, Operation.Reaps]
    obtain ⟨d, hd, hcounters, -, hrejects⟩ := hlater laterSample hshort
    have hhashes : e.hashes = ["h"] := by
      rw [← htells.hashesOf_eq]
      decide +kernel
    have hkey : e.tx.key = some "k-1" := by
      have hfound : ((s.apply 60 (.markFinalized "t" 5)).tx? "t").bind Tx.key = some "k-1" := by
        decide +kernel
      rwa [htells.tx?_eq, Option.bind_some] at hfound
    refine ⟨d, hd, ?_, ?_, hrejects⟩
    · rw [hcounters]
      exact hhashes
    · rw [hcounters]
      exact hkey
  · have hpending : s.stage? "u" = some .pending := by decide +kernel
    obtain ⟨e, he, hg⟩ := stage?_eq_some_iff.mp hpending
    exact ⟨e, he, kept 1000 "u" e he (by rw [hg]; rfl)⟩

end Store

end TronCourier
