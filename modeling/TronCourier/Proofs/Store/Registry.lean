import TronCourier.Proofs.Store.Union

/-! Handing out the stores. A call looks for a sender's store while others look too. If there is
none it comes back on its own to put one in, and by then another call may have done so. Whoever
was handed a store works on it from then on, whatever happens to the others. -/

namespace TronCourier

namespace Table

variable {κ α : Type} [DecidableEq κ]

theorem rows_insert_of_not_mem {t : Table κ α} {k : κ} (h : k ∉ t.keys) (a : α) :
    (t.insert k a).rows = t.rows ++ [(k, a)] := by
  obtain ⟨rows⟩ := t
  simp only [keys, insert] at h ⊢
  induction rows with
  | nil => rfl
  | cons row rest ih =>
    rw [List.map_cons, List.mem_cons, not_or] at h
    simp only [put, if_neg (Ne.symm h.1), ih h.2, List.cons_append]

theorem rows_insert_of_mem {t : Table κ α} (h : t.keys.Nodup) {k : κ} (hk : k ∈ t.keys) (a : α) :
    (t.insert k a).rows = t.rows.map fun row => if row.1 = k then (k, a) else row := by
  obtain ⟨rows⟩ := t
  simp only [keys, insert] at h hk ⊢
  induction rows with
  | nil => cases hk
  | cons row rest ih =>
    obtain ⟨hnot, hrest⟩ := List.nodup_cons.mp h
    by_cases hrow : row.1 = k
    · have hsame : rest.map (fun row => if row.1 = k then (k, a) else row) = rest := by
        conv_rhs => rw [← List.map_id rest]
        refine List.map_congr_left fun other hother => if_neg fun he => hnot ?_
        rw [hrow, ← he]
        exact List.mem_map_of_mem hother
      simp only [put, hrow, if_true, List.map_cons, hsame]
    · have hin : k ∈ rest.map Prod.fst := (List.mem_cons.mp hk).resolve_left (Ne.symm hrow)
      simp only [put, hrow, if_false, List.map_cons, ih hrest hin]

end Table

/-- The senders' stores, each in a place of its own. -/
structure Registry where
  places : Table Address Nat := .empty
  stores : List Store := []
  /-- The calls that found no store and are still to come back for it. -/
  missed : List Address := []
  /-- The places that were given away, each with the sender that was asked for. -/
  handed : List (Address × Nat) := []

namespace Registry

def storeAt (r : Registry) (place : Nat) : Store :=
  r.stores[place]?.getD Store.empty

def hand (r : Registry) (a : Address) (place : Nat) : Registry :=
  { r with handed := r.handed ++ [(a, place)] }

/-- The first half of a call. -/
def look (r : Registry) (a : Address) : Registry :=
  match r.places.get? a with
  | some place => r.hand a place
  | none => { r with missed := r.missed ++ [a] }

def addStore (r : Registry) (a : Address) : Registry :=
  { r with places := r.places.insert a r.stores.length, stores := r.stores ++ [.empty] }

/-- The second half of a call that found no store. It looks again. -/
def bring (r : Registry) (a : Address) : Registry :=
  match r.places.get? a with
  | some place => r.hand a place
  | none => (r.addStore a).hand a r.stores.length

/-- Hands out all stores that there are. -/
def list (r : Registry) : Registry :=
  { r with handed := r.handed ++ r.places.rows }

def work (retention : Nat) (r : Registry) (place : Nat) (op : Operation) : Registry :=
  { r with stores := r.stores.modify place fun s => s.apply retention op }

inductive Move
  | looked (a : Address)
  | brought (a : Address)
  | listed
  | tried (place : Nat) (op : Operation)

inductive Step (retention : Nat) (r : Registry) : Move → Registry → Prop
  | looked (a : Address) : Step retention r (.looked a) (r.look a)
  | brought {before after : List Address} {a : Address} (h : r.missed = before ++ a :: after) :
      Step retention r (.brought a) ({ r with missed := before ++ after }.bring a)
  | listed : Step retention r .listed r.list
  | tried {a : Address} {place : Nat} (h : (a, place) ∈ r.handed) (op : Operation) :
      Step retention r (.tried place op) (r.work retention place op)

/-- The moves of all callers in one order. -/
inductive Run (retention : Nat) (r₀ : Registry) : List Move → Registry → Prop
  | start : Run retention r₀ [] r₀
  | next {moves : List Move} {move : Move} {r r' : Registry} (h : Run retention r₀ moves r)
      (hs : Step retention r move r') : Run retention r₀ (moves ++ [move]) r'

/-- The stores by their senders. -/
def accounts (r : Registry) : Accounts :=
  ⟨⟨r.places.rows.map fun row => (row.1, r.storeAt row.2)⟩⟩

/-- What was tried on the store in a place. -/
def triedAt (place : Nat) (moves : List Move) : List Operation :=
  moves.filterMap fun
    | .tried p op => if p = place then some op else none
    | .looked _ | .brought _ | .listed => none

/-- Every sender has one place and every place one sender, and what was handed out is still
so. -/
structure Sound (r : Registry) : Prop where
  distinct : r.places.keys.Nodup
  places_eq : r.places.rows.map Prod.snd = List.range r.stores.length
  handed : ∀ row ∈ r.handed, row ∈ r.places.rows

variable {retention now : Nat} {r r' r₀ : Registry} {a b : Address} {place : Nat}
  {move : Move} {moves : List Move} {op : Operation} {id hash : String}

theorem sound_empty : Sound {} :=
  ⟨List.nodup_nil, rfl, nofun⟩

theorem Sound.mem_iff (h : r.Sound) : (a, place) ∈ r.places.rows ↔ r.places.get? a = some place :=
  Table.mem_rows_iff h.distinct a place

theorem Sound.sole (h : r.Sound) (ha : (a, place) ∈ r.places.rows)
    (hb : (b, place) ∈ r.places.rows) : a = b := by
  have hnodup : (r.places.rows.map Prod.snd).Nodup := h.places_eq ▸ List.nodup_range
  exact congrArg Prod.fst (List.inj_on_of_nodup_map hnodup ha hb rfl)

theorem Sound.lt (h : r.Sound) (ha : (a, place) ∈ r.places.rows) : place < r.stores.length := by
  have hmem : place ∈ r.places.rows.map Prod.snd := List.mem_map_of_mem ha
  rwa [h.places_eq, List.mem_range] at hmem

theorem keys_accounts (r : Registry) : r.accounts.stores.keys = r.places.keys := by
  simp [accounts, Table.keys]

theorem Sound.store_accounts (h : r.Sound) (ha : (a, place) ∈ r.places.rows) :
    r.accounts.store a = r.storeAt place := by
  have hdistinct : r.accounts.Distinct := by
    rw [Accounts.Distinct, keys_accounts]
    exact h.distinct
  exact Accounts.store_of_mem hdistinct (List.mem_map.mpr ⟨(a, place), ha, rfl⟩)

theorem storeAt_work (hlt : place < r.stores.length) (q : Nat) :
    (r.work retention place op).storeAt q =
      if place = q then (r.storeAt q).apply retention op else r.storeAt q := by
  simp only [storeAt, work, List.getElem?_modify]
  by_cases hq : place = q
  · subst hq
    simp [List.getElem?_eq_getElem hlt]
  · simp [hq]

/-- A new store is as empty as a place that nobody has. -/
theorem storeAt_addStore (r : Registry) (a : Address) : (r.addStore a).storeAt = r.storeAt := by
  funext q
  simp only [storeAt, addStore, List.getElem?_append]
  split
  · rfl
  · rename_i hq
    rw [List.getElem?_eq_none (Nat.le_of_not_lt hq)]
    cases q - r.stores.length <;> rfl

theorem rows_addStore (h : a ∉ r.places.keys) :
    (r.addStore a).places.rows = r.places.rows ++ [(a, r.stores.length)] :=
  Table.rows_insert_of_not_mem h r.stores.length

theorem contains_accounts (r : Registry) (a : Address) :
    r.accounts.stores.contains a = r.places.contains a := by
  rw [Bool.eq_iff_iff, ← Table.mem_keys_iff, ← Table.mem_keys_iff, keys_accounts]

theorem accounts_addStore (h : a ∉ r.places.keys) :
    (r.addStore a).accounts = r.accounts.ensure a := by
  have hcontains : r.accounts.stores.contains a = false := by
    rw [contains_accounts, ← Bool.not_eq_true, ← Table.mem_keys_iff]
    exact h
  have hempty : r.storeAt r.stores.length = .empty := by simp [storeAt]
  have hrows := Table.rows_insert_of_not_mem (r.keys_accounts ▸ h) Store.empty
  rw [accounts, storeAt_addStore, rows_addStore h, Accounts.ensure, hcontains, List.map_append,
    List.map_singleton, hempty]
  exact congrArg (fun rows => Accounts.mk (Table.mk rows)) hrows.symm

theorem Sound.accounts_work (h : r.Sound) (ha : (a, place) ∈ r.places.rows) :
    (r.work retention place op).accounts =
      r.accounts.set a ((r.accounts.store a).apply retention op) := by
  have hmem : a ∈ r.accounts.stores.keys := by
    rw [keys_accounts]
    exact List.mem_map_of_mem ha
  have hrows := Table.rows_insert_of_mem (r.keys_accounts ▸ h.distinct) hmem
    ((r.storeAt place).apply retention op)
  rw [h.store_accounts ha]
  refine congrArg (fun rows => Accounts.mk (Table.mk rows)) (Eq.trans ?_ hrows.symm)
  rw [accounts, List.map_map]
  refine List.map_congr_left fun row hrow => ?_
  rw [Function.comp_apply, storeAt_work (h.lt ha)]
  -- the place changes for this sender alone, since no other has it
  by_cases hr : row.1 = a
  · have hplace : place = row.2 := by
      have hget := h.mem_iff.mp (show (a, row.2) ∈ r.places.rows from hr ▸ hrow)
      rw [h.mem_iff.mp ha, Option.some.injEq] at hget
      exact hget
    rw [if_pos hplace, if_pos hr, hplace, hr]
  · have hplace : place ≠ row.2 := fun hp => hr (h.sole hrow (hp ▸ ha))
    rw [if_neg hplace, if_neg hr]

/-- A step hands out places that there are, adds a store for a sender who has none, or works on
a store that was handed out. -/
theorem Step.cases (h : r.Sound) (hs : Step retention r move r') :
    (∀ q, triedAt q [move] = []) ∧
      ((∃ missed more, (∀ row ∈ more, row ∈ r.places.rows) ∧
        r' = { r with missed := missed, handed := r.handed ++ more }) ∨
      ∃ missed a, a ∉ r.places.keys ∧
        r' = ({ r with missed := missed }.addStore a).hand a r.stores.length) ∨
    ∃ a place op, move = .tried place op ∧ (a, place) ∈ r.handed ∧
      r' = r.work retention place op := by
  have hone {a : Address} {place : Nat} (hp : r.places.get? a = some place) :
      ∀ row ∈ [(a, place)], row ∈ r.places.rows := by
    intro row hrow
    rw [List.mem_singleton.mp hrow]
    exact h.mem_iff.mpr hp
  cases hs with
  | looked a =>
    refine .inl ⟨fun q => rfl, .inl ?_⟩
    unfold look
    split
    · rename_i place hp
      exact ⟨_, _, hone hp, rfl⟩
    · exact ⟨_, [], List.forall_mem_nil _, by rw [List.append_nil]⟩
  | @brought before after a hmissed =>
    refine .inl ⟨fun q => rfl, ?_⟩
    unfold bring
    split
    · rename_i place hp
      exact .inl ⟨_, _, hone hp, rfl⟩
    · rename_i hp
      have hnew : a ∉ r.places.keys := by simpa [Table.mem_keys_iff, Table.contains] using hp
      exact .inr ⟨_, a, hnew, rfl⟩
  | listed => exact .inl ⟨fun q => rfl, .inl ⟨_, _, fun row hrow => hrow, rfl⟩⟩
  | tried hhanded op => exact .inr ⟨_, _, op, rfl, hhanded, rfl⟩

/-- To the stores a step is nothing, or one of those that no other comes between. -/
theorem Step.accounts_cases (h : r.Sound) (hs : Step retention r move r') :
    r'.accounts = r.accounts ∨ (∃ a, r'.accounts = r.accounts.ensure a) ∨
    ∃ a place op, move = .tried place op ∧ (a, place) ∈ r.handed ∧
      r'.accounts = r.accounts.set a ((r.accounts.store a).apply retention op) := by
  rcases hs.cases h with
    ⟨-, ⟨missed, more, -, rfl⟩ | ⟨missed, a, hnew, rfl⟩⟩ | ⟨a, place, op, rfl, hhanded, rfl⟩
  · exact .inl rfl
  · exact .inr (.inl ⟨a, accounts_addStore hnew⟩)
  · exact .inr (.inr ⟨a, place, op, rfl, hhanded, h.accounts_work (h.handed _ hhanded)⟩)

theorem Step.sound (h : r.Sound) (hs : Step retention r move r') : r'.Sound := by
  rcases hs.cases h with
    ⟨-, ⟨missed, more, hmore, rfl⟩ | ⟨missed, a, hnew, rfl⟩⟩ | ⟨a, place, op, rfl, -, rfl⟩
  · refine ⟨h.distinct, h.places_eq, fun row hrow => ?_⟩
    exact (List.mem_append.mp hrow).elim (h.handed row) (hmore row)
  · have hrows : (r.addStore a).places.rows = _ := rows_addStore hnew
    refine ⟨Table.nodup_keys_insert h.distinct a _, ?_, fun row hrow => ?_⟩
    · show (r.addStore a).places.rows.map Prod.snd = List.range (r.stores ++ [_]).length
      simp [hrows, h.places_eq, List.range_succ]
    · show row ∈ (r.addStore a).places.rows
      rw [hrows]
      exact List.mem_append.mpr ((List.mem_append.mp hrow).imp_left (h.handed row))
  · refine ⟨h.distinct, ?_, h.handed⟩
    rw [work, List.length_modify]
    exact h.places_eq

theorem Step.places (h : r.Sound) (hs : Step retention r move r') {row : Address × Nat}
    (hrow : row ∈ r.places.rows) : row ∈ r'.places.rows := by
  rcases hs.cases h with
    ⟨-, ⟨missed, more, -, rfl⟩ | ⟨missed, a, hnew, rfl⟩⟩ | ⟨a, place, op, -, -, rfl⟩
  · exact hrow
  · show row ∈ (r.addStore a).places.rows
    rw [rows_addStore hnew]
    exact List.mem_append_left _ hrow
  · exact hrow

theorem Step.handed (h : r.Sound) (hs : Step retention r move r') {row : Address × Nat}
    (hrow : row ∈ r.handed) : row ∈ r'.handed := by
  rcases hs.cases h with
    ⟨-, ⟨missed, more, -, rfl⟩ | ⟨missed, a, -, rfl⟩⟩ | ⟨a, place, op, -, -, rfl⟩
  · exact List.mem_append_left _ hrow
  · exact List.mem_append_left _ hrow
  · exact hrow

/-- A store is what all that was tried on it has made of it. -/
theorem Step.storeAt_eq (h : r.Sound) (hs : Step retention r move r')
    (hr : ∀ q, r.storeAt q = Store.empty.run retention (triedAt q moves)) (q : Nat) :
    r'.storeAt q = Store.empty.run retention (triedAt q (moves ++ [move])) := by
  have happend : Store.empty.run retention (triedAt q (moves ++ [move])) =
      (r.storeAt q).run retention (triedAt q [move]) := by
    rw [hr, triedAt, List.filterMap_append, Store.run, List.foldl_append]
    rfl
  rw [happend]
  rcases hs.cases h with
    ⟨hnone, ⟨missed, more, -, rfl⟩ | ⟨missed, a, -, rfl⟩⟩ | ⟨a, place, op, rfl, hhanded, rfl⟩
  · rw [hnone]
    rfl
  · rw [hnone]
    exact congrFun (r.storeAt_addStore a) q
  · rw [storeAt_work (h.lt (h.handed _ hhanded))]
    by_cases hq : place = q
    · simp [hq, triedAt, Store.run]
    · simp [hq, triedAt, Store.run]

theorem Run.trans {later : List Move} (hr : Run retention r₀ moves r)
    (h : Run retention r later r') : Run retention r₀ (moves ++ later) r' := by
  induction h with
  | start => rwa [List.append_nil]
  | next _ hs ih =>
    rw [← List.append_assoc]
    exact ih.next hs

theorem Run.sound (hr : Run retention r₀ moves r) (h : r₀.Sound) : r.Sound := by
  induction hr with
  | start => exact h
  | next hr hs ih => exact hs.sound ih

theorem Run.places (hr : Run retention r₀ moves r) (h : r₀.Sound) {row : Address × Nat}
    (hrow : row ∈ r₀.places.rows) : row ∈ r.places.rows := by
  induction hr with
  | start => exact hrow
  | next hr hs ih => exact hs.places (hr.sound h) ih

theorem Run.storeAt_eq (hr : Run retention {} moves r) (place : Nat) :
    r.storeAt place = Store.empty.run retention (triedAt place moves) := by
  induction hr generalizing place with
  | start => rfl
  | next hr hs ih => exact hs.storeAt_eq (hr.sound sound_empty) ih place

theorem Run.kept (hr : Run retention {} moves r) : r.accounts.Kept := by
  have h := hr.sound sound_empty
  have hstore (a : Address) : ∃ ops, r.accounts.store a = Store.empty.run retention ops := by
    cases hp : r.places.get? a with
    | some place =>
      exact ⟨_, (h.store_accounts (h.mem_iff.mpr hp)).trans (hr.storeAt_eq place)⟩
    | none =>
      have hnone : r.accounts.stores.get? a = none := by
        simpa [Table.contains, hp] using r.contains_accounts a
      exact ⟨[], by rw [Accounts.store, hnone]; rfl⟩
  refine ⟨?_, fun a => ?_, fun a => ?_⟩
  · rw [Accounts.Distinct, keys_accounts]
    exact h.distinct
  · obtain ⟨ops, hops⟩ := hstore a
    rw [hops]
    exact Store.consistent_empty.run retention ops
  · obtain ⟨ops, hops⟩ := hstore a
    rw [hops]
    have hempty : Store.empty.hashes.keys.Nodup := List.nodup_nil
    exact Store.nodup_hashes_run hempty retention ops

/-- What is on record under a hash was so before, if nothing was sent under it. -/
theorem Step.records (h : r.Sound) (hs : Step retention r move r')
    (hunsent : ∀ place expiration tx, move ≠ .tried place (.markBroadcasted hash expiration tx))
    (hrecords : r'.accounts.Records a id hash) : r.accounts.Records a id hash := by
  obtain ⟨e', he, hhash⟩ := hrecords
  rcases hs.accounts_cases h with hsame | ⟨b, hensure⟩ | ⟨b, place, op, rfl, -, hset⟩
  · rw [hsame] at he
    exact ⟨e', he, hhash⟩
  · rw [hensure, Accounts.store_ensure] at he
    exact ⟨e', he, hhash⟩
  · rw [hset, Accounts.store_set] at he
    by_cases hb : a = b
    · subst hb
      rw [Function.update_self] at he
      refine Store.hash_of_apply (fun expiration tx hop => ?_) he hhash
      exact hunsent place expiration tx (congrArg _ hop)
    · rw [Function.update_of_ne hb] at he
      exact ⟨e', he, hhash⟩

/-- A pass of the reaper over the stores that there were when it began, with those that it has
still to come to and with what it has evicted. Other callers go on in the meantime. -/
inductive Sweep (retention now : Nat) (r₀ : Registry) :
    List (Address × Nat) → List (Address × String) → List Move → Registry → Prop
  | begun {todo : List (Address × Nat)} (hall : todo.Perm r₀.places.rows) :
      Sweep retention now r₀ todo [] [.listed] r₀.list
  | reaped {a : Address} {place : Nat} {todo : List (Address × Nat)}
      {evicted : List (Address × String)} {moves : List Move} {r : Registry}
      (h : Sweep retention now r₀ ((a, place) :: todo) evicted moves r) :
      Sweep retention now r₀ todo
        (evicted ++ ((r.storeAt place).expired retention now).map fun id => (a, id))
        (moves ++ [.tried place (.reap now)]) (r.work retention place (.reap now))
  | other {todo : List (Address × Nat)} {evicted : List (Address × String)} {moves : List Move}
      {move : Move} {r r' : Registry} (h : Sweep retention now r₀ todo evicted moves r)
      (hs : Step retention r move r') : Sweep retention now r₀ todo evicted (moves ++ [move]) r'

variable {todo : List (Address × Nat)} {evicted : List (Address × String)}

theorem Sweep.run (h : Sweep retention now r₀ todo evicted moves r) (h₀ : r₀.Sound) :
    Run retention r₀ moves r ∧ ∀ row ∈ todo, row ∈ r.handed := by
  induction h with
  | begun hall =>
    exact ⟨.next .start .listed, fun row hrow => List.mem_append_right _ (hall.mem_iff.mp hrow)⟩
  | reaped h ih =>
    obtain ⟨hrun, hhanded⟩ := ih
    exact ⟨hrun.next (.tried (hhanded _ List.mem_cons_self) _),
      fun row hrow => hhanded row (List.mem_cons_of_mem _ hrow)⟩
  | other h hs ih =>
    obtain ⟨hrun, hhanded⟩ := ih
    exact ⟨hrun.next hs, fun row hrow => hs.handed (hrun.sound h₀) (hhanded row hrow)⟩

/-- What is on record under a hash after a pass was so before, and was not evicted. -/
theorem Sweep.records (h : Sweep retention now r₀ todo evicted moves r) (h₀ : r₀.Sound)
    (hunsent : ∀ place expiration tx,
      .tried place (.markBroadcasted hash expiration tx) ∉ moves)
    (hrecords : r.accounts.Records a id hash) :
    r₀.accounts.Records a id hash ∧ (a, id) ∉ evicted := by
  induction h with
  | begun hall => exact ⟨hrecords, List.not_mem_nil⟩
  | @reaped b place todo evicted moves r h ih =>
    have hr := (h.run h₀).1.sound h₀
    have hhanded := (h.run h₀).2 _ List.mem_cons_self
    have hstep : Step retention r _ _ := .tried hhanded (.reap now)
    have hearlier := hstep.records hr nofun hrecords
    obtain ⟨hbefore, hkept⟩ := ih
      (fun p expiration tx hmem => hunsent p expiration tx (List.mem_append_left _ hmem)) hearlier
    refine ⟨hbefore, fun hmem => ?_⟩
    rcases List.mem_append.mp hmem with hmem | hmem
    · exact hkept hmem
    · -- what has expired is gone from the store that was just reaped
      obtain ⟨j, hj, hpair⟩ := List.mem_map.mp hmem
      cases hpair
      obtain ⟨e, he, -⟩ := hrecords
      have hrow := hr.handed _ hhanded
      rw [hr.accounts_work hrow, Accounts.store_set, Function.update_self, hr.store_accounts hrow,
        Store.apply, Store.get?_reap, if_pos hj] at he
      cases he
  | @other todo evicted moves move r r' h hs ih =>
    have hother (place : Nat) (expiration : Int) (tx : Tx) :
        move ≠ .tried place (.markBroadcasted hash expiration tx) := fun hmove =>
      hunsent place expiration tx (List.mem_append_right _ (hmove ▸ List.mem_cons_self))
    exact ih
      (fun p expiration tx hmem => hunsent p expiration tx (List.mem_append_left _ hmem))
      (hs.records ((h.run h₀).1.sound h₀) hother hrecords)

/-- Whoever asks for a sender's store is handed the one place where it is and stays, and what
the store has become is what all of them have done to it. All stores together are told of as
their entries are, in whatever order they come, and no hash outlasts its entries in a pass of the
reaper. -/
theorem one_store_each (hr : Run retention {} moves r) :
    (∀ a place, (a, place) ∈ r.handed →
      (∀ b q, (b, q) ∈ r.handed → (a = b ↔ place = q)) ∧
      (∀ later r', Run retention r later r' → r'.places.get? a = some place) ∧
      r.accounts.store a = Store.empty.run retention (triedAt place moves)) ∧
    (∀ as : Accounts, as.stores.rows.Perm r.accounts.stores.rows →
      (∀ hash, as.hashRows.contains hash = true ↔ ∃ a id, r.accounts.Records a id hash) ∧
      (∀ hash id, as.hashRows.get? hash = some id → ∃ a,
        (r.accounts.store a).entries.contains id = true ∧
          hash ∈ (r.accounts.store a).hashesOf id) ∧
      as.awaitingCount = r.accounts.tracked.countP (fun tx => tx.stage = .broadcasted) ∧
      as.finishedCount = r.accounts.tracked.countP fun tx => tx.stage.isTerminal) ∧
    ∀ now evicted later r', Sweep retention now r [] evicted later r' →
      ∀ hash, (∀ a id, r.accounts.Records a id hash → (a, id) ∈ evicted) →
      (∀ place expiration tx, .tried place (.markBroadcasted hash expiration tx) ∉ later) →
      ∀ as : Accounts, as.stores.rows.Perm r'.accounts.stores.rows →
        as.hashRows.contains hash = false := by
  have h := hr.sound sound_empty
  refine ⟨fun a place hhanded => ⟨fun b q hother => ?_, fun later r' hlater => ?_, ?_⟩,
    fun as hperm => ?_, fun now evicted later r' hsweep hash hall hunsent as hperm => ?_⟩
  · have ha := h.handed _ hhanded
    have hb := h.handed _ hother
    refine ⟨fun hab => ?_, fun hpq => h.sole ha (hpq ▸ hb)⟩
    have hplaces := (h.mem_iff.mp ha).symm.trans (hab ▸ h.mem_iff.mp hb)
    exact Option.some.inj hplaces
  · exact (hlater.sound h).mem_iff.mp (hlater.places h (h.handed _ hhanded))
  · rw [h.store_accounts (h.handed _ hhanded), hr.storeAt_eq]
  · have hkept := hr.kept.perm hperm
    have hstore := Accounts.store_perm hr.kept.distinct hperm
    have htracked (p : Tx → Bool) : as.tracked.countP p = r.accounts.tracked.countP p :=
      (Accounts.tracked_perm hperm).countP_eq p
    simp only [Accounts.Records, ← hstore]
    refine ⟨hkept.contains_hashRows, fun hash id hid => ?_, ?_, ?_⟩
    · obtain ⟨a, hrecords⟩ := hkept.records_of_hashRows hid
      have hhash := hrecords.mem_hashesOf
      obtain ⟨e, he, -⟩ := hrecords
      exact ⟨a, by rw [Table.contains, he, Option.isSome_some], hhash⟩
    · rw [hkept.awaitingCount_eq, htracked]
    · rw [hkept.finishedCount_eq, htracked]
  · have hafter := (hr.trans (hsweep.run h).1).kept
    have hstore := Accounts.store_perm hafter.distinct hperm
    rw [← Bool.not_eq_true, (hafter.perm hperm).contains_hashRows]
    rintro ⟨a, id, hrecords⟩
    rw [Accounts.Records, hstore] at hrecords
    obtain ⟨hbefore, hkept⟩ := hsweep.records h hunsent hrecords
    exact hkept (hall a id hbefore)

/-- Two calls find no store, and both are handed the one that the first of them puts in. What was
sent is given up, and a pass of the reaper evicts it. -/
theorem one_store_each_raceSample : ∃ moves r a,
    Run 60000 {} moves r ∧ r.handed = [(a, 0), (a, 0)] ∧
    r.accounts.store a = Store.empty.run 60000 (triedAt 0 moves) ∧
    r.accounts.hashRows.contains "h" = true ∧
    ∃ later r', Run 60000 r later r' ∧ r'.accounts.hashRows.contains "h" = false := by
  let a := sampleRequest.sender
  let tx := Tx.ofRequest "t" sampleRequest
  have h₁ : Run 60000 {} _ _ := (Run.start.next (.looked a)).next (.looked a)
  have h₂ := h₁.next (@Step.brought _ _ [] [a] a rfl)
  have h₃ := h₂.next (@Step.brought _ _ [] [] a rfl)
  have h₄ := h₃.next (@Step.tried _ _ a 0 List.mem_cons_self (.addPending tx))
  have h₅ := h₄.next (@Step.tried _ _ a 0 List.mem_cons_self (.markBroadcasted "h" 0 tx))
  have h₆ := h₅.next (@Step.tried _ _ a 0 List.mem_cons_self (.markErrored "t"))
  have h₇ := h₆.next (@Step.tried _ _ a 0 List.mem_cons_self (.markFatal "t" 0))
  obtain ⟨hplaces, hindex, hsweep⟩ := one_store_each h₇
  have hstore := (hplaces a 0 List.mem_cons_self).2.2
  have hbefore := ((hindex _ (.refl _)).1 "h").mpr ⟨a, "t", _, rfl, List.mem_cons_self⟩
  have hlater (r : Registry) (hrows : r.places.rows = [(a, 0)]) :=
    Sweep.reaped (@Sweep.begun 60000 60000 r [(a, 0)] (hrows ▸ .refl _))
  have hrun := (hlater _ rfl).run (h₇.sound sound_empty)
  refine ⟨_, _, a, h₇, rfl, hstore, hbefore, _, _, hrun.1, ?_⟩
  refine hsweep 60000 _ _ _ (hlater _ rfl) "h" ?_ (by simp) _ (.refl _)
  rintro b id ⟨e, he, -⟩
  have hrow := List.mem_singleton.mp (Accounts.mem_rows_of_entry he)
  obtain rfl : b = a := congrArg Prod.fst hrow
  have hkey : id ∈ ["t"] := by
    have hcontains : Table.contains _ id = true := Option.isSome_iff_exists.mpr ⟨e, he⟩
    exact (Table.mem_keys_iff _ id).mpr hcontains
  rw [List.mem_singleton.mp hkey]
  exact List.mem_cons_self

end Registry

end TronCourier
