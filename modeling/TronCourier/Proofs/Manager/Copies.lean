import Mathlib
import TronCourier.Proofs.Store.Consistent

/-! Copies of transactions that are on their way to the node. There is to be one of each
transaction that waits to be sent, and none of any other. -/

namespace TronCourier

/-- Whether a transaction is to be sent. -/
def Stage.isOpen : Stage → Bool
  | pending | errored => true
  | broadcasted | confirmed | finalized | fatallyErrored => false

def Tx.SameCounters (tx tx' : Tx) : Prop :=
  tx.attempt = tx'.attempt ∧ tx.energyBumps = tx'.energyBumps ∧ tx.outOfTime = tx'.outOfTime

def Store.isOpen (s : Store) (id : String) : Bool :=
  match s.stage? id with
  | some g => g.isOpen
  | none => false

/-- How many copies of a sender's transaction there are. -/
def held (copies : List Tx) (a : Address) (id : String) : Nat :=
  copies.countP fun tx => tx.sender = a ∧ tx.id = id

/-- Every transaction of a store that is to be sent has one copy, up to date with it. -/
structure Guards (stores : Address → Store) (copies : List Tx) : Prop where
  consistent : ∀ a, (stores a).Consistent
  sender_eq : ∀ {a id e}, (stores a).entries.get? id = some e → e.tx.sender = a
  held_eq : ∀ a id, held copies a id = ((stores a).isOpen id).toNat
  current : ∀ tx ∈ copies, ∃ e, (stores tx.sender).entries.get? tx.id = some e ∧
    tx.SameCounters e.tx ∧ tx.key = e.tx.key

section Held

variable {copies : List Tx} {tx : Tx} {a : Address} {id : String}

theorem held_append (l₁ l₂ : List Tx) (a : Address) (id : String) :
    held (l₁ ++ l₂) a id = held l₁ a id + held l₂ a id :=
  List.countP_append

theorem held_cons_self (tx : Tx) (copies : List Tx) :
    held (tx :: copies) tx.sender tx.id = held copies tx.sender tx.id + 1 := by
  simp [held]

theorem held_pos (h : tx ∈ copies) : 0 < held copies tx.sender tx.id :=
  List.countP_pos_iff.mpr ⟨tx, h, by simp⟩

theorem held_eq_length (h : ∀ tx ∈ copies, tx.sender = a ∧ tx.id = id) :
    held copies a id = copies.length :=
  List.countP_eq_length.mpr fun tx htx => by simpa using h tx htx

theorem held_eq_zero {b : Address} {j : String} (h : ∀ tx ∈ copies, tx.sender = a ∧ tx.id = id)
    (hne : ¬ (a = b ∧ id = j)) : held copies b j = 0 := by
  refine List.countP_eq_zero.mpr fun tx htx hb => hne ?_
  rcases h tx htx with ⟨rfl, rfl⟩
  simpa using hb

end Held

namespace Store

variable {s : Store} {id : String} {e : Entry}

theorem isOpen_of_entry (h : s.entries.get? id = some e) : s.isOpen id = e.tx.stage.isOpen := by
  rw [isOpen, stage?_of_entry h]

theorem isOpen_of_none (h : s.entries.get? id = none) : s.isOpen id = false := by
  rw [isOpen, stage?_eq_none_iff.mpr h]

theorem isOpen_congr {s' : Store} {id : String} (h : s'.entries.get? id = s.entries.get? id) :
    s'.isOpen id = s.isOpen id := by
  rw [isOpen, isOpen, stage?, stage?, h]

end Store

namespace Guards

variable {stores : Address → Store} {copies copies' rest : List Tx} {tx : Tx}
  {a : Address} {id : String} {s : Store} {e e' : Entry}

theorem perm (h : Guards stores copies) (hp : copies.Perm copies') : Guards stores copies' where
  consistent := h.consistent
  sender_eq := h.sender_eq
  held_eq b j := by
    rw [← h.held_eq b j]
    exact (hp.countP_eq _).symm
  current tx htx := h.current tx (hp.mem_iff.mpr htx)

theorem counters (h : Guards stores copies) : ∀ tx ∈ copies,
    ∃ e, (stores tx.sender).entries.get? tx.id = some e ∧ tx.SameCounters e.tx := by
  intro tx htx
  obtain ⟨e, he, hcount, -⟩ := h.current tx htx
  exact ⟨e, he, hcount⟩

theorem key_eq (h : Guards stores copies) (htx : tx ∈ copies)
    (he : (stores tx.sender).entries.get? tx.id = some e) : tx.key = e.tx.key := by
  obtain ⟨d, hd, -, hkey⟩ := h.current tx htx
  rw [he, Option.some.injEq] at hd
  rw [hkey, hd]

theorem of_cons (h : Guards stores (tx :: copies)) :
    ∃ e, (stores tx.sender).entries.get? tx.id = some e ∧ e.tx.stage.isOpen = true ∧
      tx.SameCounters e.tx ∧ held copies tx.sender tx.id = 0 := by
  obtain ⟨e, he, hcount⟩ := h.counters tx List.mem_cons_self
  have hheld := h.held_eq tx.sender tx.id
  rw [held_cons_self, Store.isOpen_of_entry he] at hheld
  cases hopen : e.tx.stage.isOpen with
  | false => simp [hopen] at hheld
  | true =>
    refine ⟨e, he, hopen, hcount, ?_⟩
    simpa [hopen] using hheld

theorem replace (old new : List Tx) (id : String) (e' : Entry)
    (h : Guards stores (old ++ rest)) (hs : s.Consistent)
    (hentries : s.entries = (stores a).entries.insert id e') (hsender : e'.tx.sender = a)
    (hold : ∀ tx ∈ old, tx.sender = a ∧ tx.id = id) (hrest : held rest a id = 0)
    (hnew : ∀ tx ∈ new, (tx.sender = a ∧ tx.id = id) ∧ tx.SameCounters e'.tx ∧
      tx.key = e'.tx.key)
    (hlength : new.length = e'.tx.stage.isOpen.toNat) :
    Guards (Function.update stores a s) (new ++ rest) := by
  have hget (j : String) :
      s.entries.get? j = if id = j then some e' else (stores a).entries.get? j := by
    rw [hentries, Table.get?_insert]
  have hother {b : Address} {j : String} (hne : ¬ (a = b ∧ id = j)) :
      (Function.update stores a s b).entries.get? j = (stores b).entries.get? j := by
    by_cases hb : b = a
    · subst hb
      rw [Function.update_self, hget, if_neg fun hj => hne ⟨rfl, hj⟩]
    · rw [Function.update_of_ne hb]
  have hself : (Function.update stores a s a).entries.get? id = some e' := by
    rw [Function.update_self, hget, if_pos rfl]
  refine ⟨fun b => ?_, fun {b j e} he => ?_, fun b j => ?_, fun tx htx => ?_⟩
  · exact (Function.forall_update_iff stores fun _ s => s.Consistent).mpr
      ⟨hs, fun b _ => h.consistent b⟩ b
  · by_cases hj : a = b ∧ id = j
    · rcases hj with ⟨rfl, rfl⟩
      rw [hself, Option.some.injEq] at he
      exact he ▸ hsender
    · exact h.sender_eq (hother hj ▸ he)
  · rw [held_append]
    by_cases hj : a = b ∧ id = j
    · rcases hj with ⟨rfl, rfl⟩
      rw [held_eq_length fun tx htx => (hnew tx htx).1, hrest, hlength,
        Store.isOpen_of_entry hself, Nat.add_zero]
    · have hheld := h.held_eq b j
      rw [held_append, held_eq_zero hold hj] at hheld
      rw [held_eq_zero (fun tx htx => (hnew tx htx).1) hj, hheld, Store.isOpen_congr (hother hj)]
  · rcases List.mem_append.mp htx with htx | htx
    · rcases hnew tx htx with ⟨⟨rfl, rfl⟩, hcurrent⟩
      exact ⟨e', hself, hcurrent⟩
    · have hj : ¬ (a = tx.sender ∧ id = tx.id) := by
        rintro ⟨rfl, rfl⟩
        have := held_pos htx
        omega
      rw [hother hj]
      exact h.current tx (List.mem_append_right old htx)

theorem replaceClosed (e' : Entry) (h : Guards stores copies) (hs : s.Consistent)
    (hentries : s.entries = (stores a).entries.insert id e') (hsender : e'.tx.sender = a)
    (hbefore : (stores a).isOpen id = false) (hafter : e'.tx.stage.isOpen = false) :
    Guards (Function.update stores a s) copies := by
  have hrest : held copies a id = 0 := by rw [h.held_eq, hbefore]; rfl
  exact replace [] [] id e' h hs hentries hsender (by simp) hrest (by simp)
    (by simp [hafter])

theorem addPending (h : Guards stores copies) (hs : (stores tx.sender).addPending tx = .ok s) :
    Guards (Function.update stores tx.sender s) (tx :: copies) := by
  have hc := (h.consistent tx.sender).addPending hs
  obtain ⟨hnone, -, rfl⟩ := Store.addPending_eq_ok_iff.mp hs
  have hrest : held copies tx.sender tx.id = 0 := by
    rw [h.held_eq, Store.isOpen_of_none hnone]
    rfl
  exact replace [] [tx] tx.id (.ofTx tx) h hc rfl rfl (by simp) hrest
    (by simp [Tx.SameCounters, Entry.ofTx]) rfl

theorem markBroadcasted (h : Guards stores (tx :: copies)) {hash : String} {expiration : Int}
    (hs : (stores tx.sender).markBroadcasted hash expiration tx = .ok s) :
    Guards (Function.update stores tx.sender s) copies := by
  have hc := (h.consistent tx.sender).markBroadcasted hs
  obtain ⟨-, e, he, -, rfl⟩ := Store.markBroadcasted_eq_ok_iff.mp hs
  obtain ⟨-, -, -, -, hrest⟩ := h.of_cons
  exact replace [tx] [] tx.id (e.sentAs hash expiration tx) h hc rfl rfl
    (by simp) hrest (by simp) rfl

theorem markFatal (h : Guards stores (tx :: copies)) (now : Nat) :
    ∃ s, (stores tx.sender).markFatal tx.id now = .ok s ∧
      Guards (Function.update stores tx.sender s) copies := by
  obtain ⟨e, he, hopen, -, hrest⟩ := h.of_cons
  have hmove : e.tx.stage.canMoveTo .fatallyErrored = true := by
    cases hg : e.tx.stage with
    | pending | errored => rfl
    | broadcasted | confirmed | finalized | fatallyErrored =>
      rw [hg] at hopen
      cases hopen
  have hsender : e.tx.sender = tx.sender := h.sender_eq he
  have hs : (stores tx.sender).markFatal tx.id now = .ok _ :=
    Store.finish_eq_ok_iff.mpr ⟨e, he, hmove, rfl⟩
  refine ⟨_, hs, ?_⟩
  exact replace [tx] [] tx.id (e.withStage .fatallyErrored) h
    ((h.consistent tx.sender).finish rfl hs) rfl hsender (by simp) hrest (by simp) rfl

theorem markErrored (h : Guards stores copies)
    (hstage : (stores a).stage? id = some .broadcasted)
    (hs : (stores a).markErrored id = .ok (s, tx)) :
    tx.sender = a ∧ Guards (Function.update stores a s) (tx :: copies) := by
  have hc := (h.consistent a).markErrored hs
  obtain ⟨e, he, -, rfl, rfl⟩ := Store.markErrored_eq_ok_iff.mp hs
  have hsender : e.tx.sender = a := h.sender_eq he
  have hid : e.tx.id = id := (h.consistent a).id_eq he
  have hrest : held copies a id = 0 := by rw [h.held_eq, Store.isOpen, hstage]; rfl
  refine ⟨hsender, ?_⟩
  exact replace [] [_] id (e.withStage .errored) h hc rfl hsender (by simp)
    hrest (by simp [Tx.SameCounters, Entry.withStage, hsender, hid]) rfl

/-- The copy with the next counters takes the place of the one that failed. -/
theorem recordCounters (h : Guards stores (tx :: copies)) (tx' : Tx)
    (hsender : tx'.sender = tx.sender) (hid : tx'.id = tx.id) (hkey : tx'.key = tx.key) :
    ∃ s, (stores tx.sender).recordCounters tx' = .ok s ∧
      Guards (Function.update stores tx.sender s) (tx' :: copies) := by
  obtain ⟨e, he, hopen, -, hrest⟩ := h.of_cons
  have hold : e.tx.sender = tx.sender := h.sender_eq he
  have hs := Store.recordCounters_eq_ok_iff.mpr ⟨e, hid ▸ he, rfl⟩
  refine ⟨_, hs, ?_⟩
  exact replace [tx] [tx'] tx.id (e.withCounters tx') h
    ((h.consistent tx.sender).recordCounters hs) (by rw [hid]; rfl) hold (by simp)
    hrest (by simp [Tx.SameCounters, Entry.withCounters, hsender, hid, hkey,
      h.key_eq List.mem_cons_self he])
    (by simp [Entry.withCounters, hopen])

theorem markConfirmed (h : Guards stores copies) {block : Int}
    (hs : (stores a).markConfirmed id block = .ok s) :
    Guards (Function.update stores a s) copies := by
  have hc := (h.consistent a).markConfirmed hs
  obtain ⟨e, he, hg, rfl⟩ := Store.markConfirmed_eq_ok_iff.mp hs
  have hsender : e.tx.sender = a := h.sender_eq he
  exact replaceClosed (e.confirmedIn block) h hc rfl hsender
    (by rw [Store.isOpen_of_entry he, hg]; rfl) rfl

theorem markReorganized (h : Guards stores copies)
    (hs : (stores a).markReorganized id = .ok s) :
    Guards (Function.update stores a s) copies := by
  have hc := (h.consistent a).markReorganized hs
  obtain ⟨e, he, hg, rfl⟩ := Store.markReorganized_eq_ok_iff.mp hs
  have hsender : e.tx.sender = a := h.sender_eq he
  exact replaceClosed e.displaced h hc rfl hsender
    (by rw [Store.isOpen_of_entry he, hg]; rfl) rfl

theorem markFinalized (h : Guards stores copies) {now : Nat}
    (hs : (stores a).markFinalized id now = .ok s) :
    Guards (Function.update stores a s) copies := by
  have hc := (h.consistent a).finish rfl hs
  obtain ⟨e, he, hmove, rfl⟩ := Store.finish_eq_ok_iff.mp hs
  have hg : e.tx.stage = .confirmed := by
    cases hg : e.tx.stage <;> simp [hg, Stage.canMoveTo] at hmove ⊢
  have hsender : e.tx.sender = a := h.sender_eq he
  exact replaceClosed (e.withStage .finalized) h hc rfl hsender
    (by rw [Store.isOpen_of_entry he, hg]; rfl) rfl

theorem reap (h : Guards stores copies) (a : Address) (retention now : Nat) :
    Guards (Function.update stores a ((stores a).reap retention now).1) copies := by
  have hget (j : String) : ((stores a).reap retention now).1.entries.get? j =
      if j ∈ (stores a).expired retention now then none else (stores a).entries.get? j :=
    Store.get?_reap retention now j
  have hopen (j : String) :
      ((stores a).reap retention now).1.isOpen j = (stores a).isOpen j := by
    by_cases hj : j ∈ (stores a).expired retention now
    · rw [Store.isOpen_of_none (by rw [hget, if_pos hj])]
      cases he : (stores a).entries.get? j with
      | none => rw [Store.isOpen_of_none he]
      | some e =>
        have hend := (h.consistent a).isTerminal_of_mem_expired hj (Store.stage?_of_entry he)
        rw [Store.isOpen_of_entry he]
        cases hg : e.tx.stage <;> simp [hg, Stage.isTerminal, Stage.isOpen] at hend ⊢
    · exact Store.isOpen_congr (by rw [hget, if_neg hj])
  refine ⟨fun b => ?_, fun {b j e} he => ?_, fun b j => ?_, fun tx htx => ?_⟩
  · exact (Function.forall_update_iff stores fun _ s => s.Consistent).mpr
      ⟨(h.consistent a).reap retention now, fun b _ => h.consistent b⟩ b
  · by_cases hb : b = a
    · subst hb
      rw [Function.update_self, hget] at he
      by_cases hj : j ∈ (stores b).expired retention now
      · rw [if_pos hj] at he
        cases he
      · exact h.sender_eq (by rwa [if_neg hj] at he)
    · rw [Function.update_of_ne hb] at he
      exact h.sender_eq he
  · rw [h.held_eq]
    by_cases hb : b = a
    · subst hb
      rw [Function.update_self, hopen]
    · rw [Function.update_of_ne hb]
  · obtain ⟨e, he, hcurrent⟩ := h.current tx htx
    refine ⟨e, ?_, hcurrent⟩
    by_cases hb : tx.sender = a
    · subst hb
      have hheld := held_pos htx
      rw [h.held_eq, ← hopen] at hheld
      rw [Function.update_self, hget]
      by_cases hj : tx.id ∈ (stores tx.sender).expired retention now
      · rw [Store.isOpen_of_none (by rw [hget, if_pos hj])] at hheld
        exact absurd hheld (by simp)
      · rw [if_neg hj, he]
    · rw [Function.update_of_ne hb, he]

end Guards

end TronCourier
