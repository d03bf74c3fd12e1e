import TronCourier.Proofs.Manager.Poll
import TronCourier.Proofs.Manager.System
import TronCourier.Proofs.Store.Rows

/-! What the poller still has to look at in a pass is up to date, although it has read
it a while ago. Nobody else touches a transaction that waits for a receipt, and nobody
else makes one confirmed. -/

namespace TronCourier

namespace Store

/-- A transaction waits for a receipt as its row tells. -/
def Awaits (s : Store) (row : Awaiting) : Prop :=
  ∃ e, s.entries.get? row.id = some e ∧ e.tx.stage = .broadcasted ∧ e.awaiting? row.id = some row

/-- A transaction is confirmed as its row tells, if it is confirmed still. -/
def Settles (s : Store) (row : Settling) : Prop :=
  ∀ e, s.entries.get? row.id = some e → e.tx.stage = .confirmed → e.settling? = some row

/-- A store in which others may have worked while the poller was waiting. -/
structure Keeps (s s' : Store) : Prop where
  consistent : s'.Consistent
  awaits : ∀ {row}, s.Awaits row → s'.Awaits row
  settles : ∀ {row}, s.Settles row → s'.Settles row

variable {s s' : Store} {id : String} {e e' : Entry}

theorem Consistent.keeps_refl (h : s.Consistent) : s.Keeps s :=
  ⟨h, fun h => h, fun h => h⟩

theorem Awaits.insert {row : Awaiting} (h : s.Awaits row)
    (hs : s'.entries = s.entries.insert id e')
    (hsame : ∀ e, id = row.id → s.entries.get? id = some e → e.tx.stage = .broadcasted →
      e'.tx.stage = .broadcasted ∧ e'.awaiting? id = e.awaiting? id) : s'.Awaits row := by
  rcases h with ⟨e, he, hg, hrow⟩
  by_cases hid : id = row.id
  · subst hid
    have hnew := hsame e rfl he hg
    exact ⟨e', by rw [hs, Table.get?_insert, if_pos rfl], hnew.1, by rw [hnew.2, hrow]⟩
  · exact ⟨e, by rw [hs, Table.get?_insert, if_neg hid, he], hg, hrow⟩

theorem Settles.insert {row : Settling} (h : s.Settles row)
    (hs : s'.entries = s.entries.insert id e')
    (hsame : id = row.id → e'.tx.stage = .confirmed → ∃ e, s.entries.get? id = some e ∧
      e.tx.stage = .confirmed ∧ e'.settling? = e.settling?) : s'.Settles row := by
  intro d hd hg
  rw [hs, Table.get?_insert] at hd
  by_cases hid : id = row.id
  · rw [if_pos hid, Option.some.injEq] at hd
    subst hd
    obtain ⟨e, he, hge, heq⟩ := hsame hid hg
    rw [heq]
    exact h e (hid ▸ he) hge
  · rw [if_neg hid] at hd
    exact h d hd hg

/-- A replaced entry does not matter to the poller if it neither waited for a receipt
before nor is confirmed after. -/
theorem keeps_of_insert (h : s'.Consistent) (hs : s'.entries = s.entries.insert id e')
    (hbefore : ∀ e, s.entries.get? id = some e → e.tx.stage ≠ .broadcasted)
    (hafter : e'.tx.stage ≠ .confirmed) : s.Keeps s' where
  consistent := h
  awaits hrow := hrow.insert hs fun e _ he hg => absurd hg (hbefore e he)
  settles hrow := hrow.insert hs fun _ hg => absurd hg hafter

theorem Consistent.keeps_addPending (h : s.Consistent) {tx : Tx}
    (hs : s.addPending tx = .ok s') : s.Keeps s' := by
  have hc := h.addPending hs
  obtain ⟨hnone, -, rfl⟩ := addPending_eq_ok_iff.mp hs
  refine keeps_of_insert hc rfl (fun e he => ?_) ?_
  · rw [hnone] at he
    cases he
  · simp [Entry.ofTx]

theorem Consistent.keeps_markBroadcasted (h : s.Consistent) {hash : String} {expiration : Int}
    {tx : Tx} (hs : s.markBroadcasted hash expiration tx = .ok s') : s.Keeps s' := by
  have hc := h.markBroadcasted hs
  obtain ⟨-, e, he, hg, rfl⟩ := markBroadcasted_eq_ok_iff.mp hs
  refine keeps_of_insert hc rfl (fun d hd hb => ?_) ?_
  · rw [he, Option.some.injEq] at hd
    subst hd
    simp [hb] at hg
  · simp [Entry.sentAs]

theorem Consistent.keeps_markFatal (h : s.Consistent) {now : Nat}
    (hs : s.markFatal id now = .ok s') : s.Keeps s' := by
  have hc := h.finish rfl hs
  obtain ⟨e, he, hg, rfl⟩ := finish_eq_ok_iff.mp hs
  refine keeps_of_insert hc rfl (fun d hd hb => ?_) ?_
  · rw [he, Option.some.injEq] at hd
    subst hd
    simp [hb, Stage.canMoveTo] at hg
  · simp [Entry.withStage]

theorem Consistent.keeps_recordCounters (h : s.Consistent) {tx : Tx}
    (hs : s.recordCounters tx = .ok s') : s.Keeps s' := by
  have hc := h.recordCounters hs
  obtain ⟨e, he, rfl⟩ := recordCounters_eq_ok_iff.mp hs
  refine ⟨hc, fun hrow => hrow.insert rfl fun d _ hd hg => ?_,
    fun hrow => hrow.insert rfl fun _ hg => ⟨e, he, hg, rfl⟩⟩
  rw [he, Option.some.injEq] at hd
  subst hd
  exact ⟨hg, rfl⟩

theorem Consistent.keeps_reap (h : s.Consistent) (retention now : Nat) :
    s.Keeps (s.reap retention now).1 := by
  refine ⟨h.reap retention now, ?_, ?_⟩
  · rintro row ⟨e, he, hg, hrow⟩
    have hnot : row.id ∉ s.expired retention now := by
      intro hid
      have := h.isTerminal_of_mem_expired hid (stage?_of_entry he)
      rw [hg] at this
      cases this
    exact ⟨e, by rw [get?_reap, if_neg hnot, he], hg, hrow⟩
  · intro row hrow e he hg
    rw [get?_reap] at he
    by_cases hid : row.id ∈ s.expired retention now
    · simp [hid] at he
    · exact hrow e (by rwa [if_neg hid] at he) hg

theorem Consistent.markFinalized_settles (h : s.Consistent) {now : Nat}
    (hs : s.markFinalized id now = .ok s') :
    s'.Consistent ∧ ∀ row, s.Settles row → s'.Settles row := by
  have hc := h.finish rfl hs
  obtain ⟨e, he, hg, rfl⟩ := finish_eq_ok_iff.mp hs
  exact ⟨hc, fun row hrow => hrow.insert rfl fun _ hg => by simp [Entry.withStage] at hg⟩

theorem Consistent.markReorganized_settles (h : s.Consistent)
    (hs : s.markReorganized id = .ok s') :
    s'.Consistent ∧ ∀ row, s.Settles row → s'.Settles row := by
  have hc := h.markReorganized hs
  obtain ⟨e, he, hg, rfl⟩ := markReorganized_eq_ok_iff.mp hs
  exact ⟨hc, fun row hrow => hrow.insert rfl fun _ hg => by
    simp [Entry.displaced, Entry.withStage] at hg⟩

theorem Consistent.markConfirmed_awaits (h : s.Consistent) {block : Int}
    (hs : s.markConfirmed id block = .ok s') :
    s'.Consistent ∧ ∀ row : Awaiting, row.id ≠ id → s.Awaits row → s'.Awaits row := by
  have hc := h.markConfirmed hs
  obtain ⟨e, he, hg, rfl⟩ := markConfirmed_eq_ok_iff.mp hs
  exact ⟨hc, fun row hne hrow => hrow.insert rfl fun _ hid => absurd hid.symm hne⟩

theorem Consistent.markErrored_awaits (h : s.Consistent) {tx : Tx}
    (hs : s.markErrored id = .ok (s', tx)) :
    s'.Consistent ∧ ∀ row : Awaiting, row.id ≠ id → s.Awaits row → s'.Awaits row := by
  have hc := h.markErrored hs
  obtain ⟨e, he, hg, rfl, -⟩ := markErrored_eq_ok_iff.mp hs
  exact ⟨hc, fun row hne hrow => hrow.insert rfl fun _ hid => absurd hid.symm hne⟩

theorem Consistent.settles_of_mem (h : s.Consistent) {row : Settling}
    (hrow : row ∈ s.settlingRows) : s.Settles row := by
  obtain ⟨e, he, hrow⟩ := (h.mem_settlingRows row).mp hrow
  intro d hd _
  rw [he, Option.some.injEq] at hd
  exact hd ▸ hrow

theorem Consistent.awaits_of_mem (h : s.Consistent) {row : Awaiting}
    (hrow : row ∈ s.awaitingRows) : s.Awaits row := by
  obtain ⟨hid, e, he, hrow⟩ := (mem_awaitingRows row).mp hrow
  exact ⟨e, he, (h.mem_awaiting_iff he).mp hid, hrow⟩

end Store

namespace Poller

/-- The transactions of a sender whose receipts the poller has still to ask for. -/
def awaiting : Poller → Option (Address × List Awaiting)
  | .asking (.receipt entry rest pass) | .asking (.clock entry rest pass) =>
    some (pass.account, entry :: rest)
  | .failed _ _ _ rest pass | .requeuing _ rest pass | .blocked _ rest pass
  | .granted _ rest pass | .refused _ rest pass => some (pass.account, rest)
  | .absent | .resting | .surveying _ | .collecting _ | .asking (.solid _ _ _)
  | .asking (.tip _ _ _) | .stopped => none

def settling : Poller → Option (Address × List Settling)
  | .asking (.solid entry rest pass) | .asking (.tip entry rest pass) =>
    some (pass.account, entry :: rest)
  | _ => none

theorem awaiting_settling_of_pass? (p : Poller) (h : p.pass? = none) :
    p.awaiting = none ∧ p.settling = none := by
  cases p with
  | absent | resting | surveying | stopped => exact ⟨rfl, rfl⟩
  | collecting | failed | requeuing | blocked | granted | refused => cases h
  | asking q => cases q <;> cases h

variable {p : Poller} {pass : Pass} {a : Address}

theorem awaiting_afterAwaiting {rest rows : List Awaiting}
    (h : (afterAwaiting pass rest).awaiting = some (a, rows)) : a = pass.account ∧ rows = rest := by
  cases rest with
  | nil => cases h
  | cons e rest =>
    cases h
    exact ⟨rfl, rfl⟩

theorem settling_afterAwaiting (pass : Pass) (rest : List Awaiting) :
    (afterAwaiting pass rest).settling = none := by
  cases rest with
  | nil => rfl
  | cons e rest => rfl

theorem settling_afterSettling {rest rows : List Settling}
    (h : (afterSettling pass rest).settling = some (a, rows)) :
    a = pass.account ∧ rows = rest := by
  cases rest with
  | nil => cases h
  | cons e rest =>
    cases h
    exact ⟨rfl, rfl⟩

theorem awaiting_afterSettling (pass : Pass) (rest : List Settling) :
    (afterSettling pass rest).awaiting = none := by
  cases rest with
  | nil => rfl
  | cons e rest => rfl

theorem awaiting_asking {q : Inquiry} {entry : Awaiting} {rest : List Awaiting}
    (h : q.awaiting? = some (entry, rest)) (answer : q.Answer) :
    (asking q).awaiting = some ((q.passAfter answer).account, entry :: rest) := by
  cases q with
  | solid e r pass => cases h
  | tip e r pass => cases h
  | receipt e r pass =>
    cases h
    rfl
  | clock e r pass =>
    cases h
    cases answer with
    | error e => rfl
    | ok block => rfl

theorem settling_asking {q : Inquiry} {entry : Settling} {rest : List Settling}
    (h : q.settling? = some (entry, rest)) (answer : q.Answer) :
    (asking q).settling = some ((q.passAfter answer).account, entry :: rest) := by
  cases q with
  | solid e r pass =>
    cases h
    rfl
  | tip e r pass =>
    cases h
    rfl
  | receipt e r pass => cases h
  | clock e r pass => cases h

theorem awaiting_grant (p : Poller) : p.grant.awaiting = p.awaiting := by
  cases p with
  | blocked tx rest pass => rfl
  | _ => rfl

theorem settling_grant (p : Poller) : p.grant.settling = p.settling := by
  cases p with
  | blocked tx rest pass => rfl
  | _ => rfl

theorem awaiting_refuse (p : Poller) : p.refuse.awaiting = p.awaiting := by
  cases p with
  | blocked tx rest pass => rfl
  | _ => rfl

theorem settling_refuse (p : Poller) : p.refuse.settling = p.settling := by
  cases p with
  | blocked tx rest pass => rfl
  | _ => rfl

end Poller

namespace Manager

/-- The stores are consistent, and what the poller has read of them is true still. -/
structure UpToDate (m : Manager) : Prop where
  consistent : ∀ a, (m.store a).Consistent
  nodup : ∀ {a rows}, m.poller.awaiting = some (a, rows) → (rows.map Awaiting.id).Nodup
  awaits : ∀ {a rows}, m.poller.awaiting = some (a, rows) → ∀ row ∈ rows, (m.store a).Awaits row
  settles : ∀ {a rows}, m.poller.settling = some (a, rows) →
    ∀ row ∈ rows, (m.store a).Settles row

variable {m m' : Manager}

theorem upToDate_of_start (hstart : m.poller.pass? = none)
    (h : ∀ a, ∃ retention ops, m.store a = Store.empty.run retention ops) : m.UpToDate := by
  have hnone := m.poller.awaiting_settling_of_pass? hstart
  refine ⟨fun a => ?_, ?_, ?_, ?_⟩
  · obtain ⟨retention, ops, hstore⟩ := h a
    rw [hstore]
    exact Store.consistent_empty.run retention ops
  · rw [hnone.1]
    nofun
  · rw [hnone.1]
    nofun
  · rw [hnone.2]
    nofun

theorem keeps_refl (h : m.UpToDate) (a : Address) : (m.store a).Keeps (m.store a) :=
  (h.consistent a).keeps_refl

theorem UpToDate.keeps_update (h : m.UpToDate) {a : Address} {s : Store}
    (hs : (m.store a).Keeps s) (b : Address) :
    (m.store b).Keeps (Function.update m.store a s b) :=
  (Function.forall_update_iff m.store fun b s => (m.store b).Keeps s).mpr
    ⟨hs, fun b _ => keeps_refl h b⟩ b

theorem UpToDate.keeps_storesAfter (h : m.UpToDate) {a : Address} {r : Except StoreError Store}
    (hr : ∀ s, r = .ok s → (m.store a).Keeps s) (b : Address) :
    (m.store b).Keeps (m.storesAfter a r b) :=
  h.keeps_update (Store.after_induction (keeps_refl h a) hr) b

theorem UpToDate.of_keeps (h : m.UpToDate)
    (hstore : ∀ a, (m.store a).Keeps (m'.store a))
    (hawaiting : ∀ {a rows}, m'.poller.awaiting = some (a, rows) →
      m.poller.awaiting = some (a, rows))
    (hsettling : ∀ {a rows}, m'.poller.settling = some (a, rows) →
      m.poller.settling = some (a, rows)) : m'.UpToDate where
  consistent a := (hstore a).consistent
  nodup hrows := h.nodup (hawaiting hrows)
  awaits hrows row hrow := (hstore _).awaits (h.awaits (hawaiting hrows) row hrow)
  settles hrows row hrow := (hstore _).settles (h.settles (hsettling hrows) row hrow)

variable {stores : Address → Store}

theorem UpToDate.leaves (h : m.UpToDate) (hm : m.Leaves m' stores)
    (hk : ∀ a, (m.store a).Keeps (stores a)) : m'.UpToDate := by
  rcases hm with ⟨⟨accounts, metrics, events, rfl⟩, rfl⟩
  exact h.of_keeps hk id id

theorem UpToDate.senderLeaves (h : m.UpToDate) {x : Sender} (hm : m.SenderLeaves m' x stores)
    (hk : ∀ a, (m.store a).Keeps (stores a)) : m'.UpToDate := by
  rcases hm with ⟨⟨accounts, estimator, metrics, events, rfl⟩, rfl⟩
  exact h.of_keeps hk id id

theorem UpToDate.pollerLeaves (h : m.UpToDate) {x : Poller} (hm : m.PollerLeaves m' x stores)
    (hk : ∀ a, (m.store a).Keeps (stores a))
    (hawaiting : ∀ {a rows}, x.awaiting = some (a, rows) → m.poller.awaiting = some (a, rows))
    (hsettling : ∀ {a rows}, x.settling = some (a, rows) → m.poller.settling = some (a, rows)) :
    m'.UpToDate := by
  rcases hm with ⟨⟨accounts, metrics, events, rfl⟩, rfl⟩
  exact h.of_keeps hk hawaiting hsettling

theorem UpToDate.queueLeaves (h : m.UpToDate) (hm : m.QueueLeaves m') : m'.UpToDate := by
  rcases hm with ⟨⟨accounts, promised, x, rfl, hx⟩, hstore⟩
  have hpoller : x.awaiting = m.poller.awaiting ∧ x.settling = m.poller.settling := by
    rcases hx with rfl | rfl
    · exact ⟨rfl, rfl⟩
    · exact ⟨m.poller.awaiting_grant, m.poller.settling_grant⟩
  refine h.of_keeps (fun a => ?_) (fun hrows => hpoller.1 ▸ hrows) fun hrows => hpoller.2 ▸ hrows
  rw [hstore]
  exact keeps_refl h a

theorem UpToDate.proceed (h : m.UpToDate) (fresh : String) (q : Submission) (answer : q.Answer) :
    (m.proceed fresh q answer).1.UpToDate := by
  rcases m.proceed_cases fresh q answer with ⟨tx, s, rfl, hs, -, hm⟩ | ⟨tx, rfl, hm⟩ | ⟨-, hm, -⟩
  · exact h.leaves hm (h.keeps_update ((h.consistent tx.sender).keeps_addPending hs))
  · rw [hm]
    exact h.of_keeps (keeps_refl h) id id
  · exact h.queueLeaves hm

theorem UpToDate.answered (h : m.UpToDate) (now : Nat) (a : Attempt) (answer : a.Answer) :
    (m.answered now a answer).UpToDate := by
  rcases m.answered_cases now a answer with
    ⟨x, hm, -⟩ | ⟨p, s, rfl, hs, hm⟩ | ⟨tx, reason, rfl, hm⟩
  · exact h.senderLeaves hm (keeps_refl h)
  · exact h.senderLeaves hm
      (h.keeps_update ((h.consistent p.tx.sender).keeps_markBroadcasted hs))
  · exact h.senderLeaves hm
      (h.keeps_storesAfter fun _ hs => (h.consistent tx.sender).keeps_markFatal hs)

theorem UpToDate.consistent_update (h : m.UpToDate) (a : Address) {s : Store}
    (hs : s.Consistent) (b : Address) : (Function.update m.store a s b).Consistent :=
  (Function.forall_update_iff m.store fun _ s => s.Consistent).mpr
    ⟨hs, fun b _ => h.consistent b⟩ b

/-- The poller goes on with some confirmed transactions, and the store of their sender is
another one now. -/
theorem UpToDate.settlingLeft (h : m.UpToDate) {pass : Pass} {rest : List Settling} {s : Store}
    (hm : m.PollerLeaves m' (.afterSettling pass rest) (Function.update m.store pass.account s))
    (hs : s.Consistent) (hrest : ∀ row ∈ rest, s.Settles row) : m'.UpToDate := by
  rcases hm with ⟨⟨accounts, metrics, events, rfl⟩, hstore⟩
  have hnone := Poller.awaiting_afterSettling pass rest
  refine ⟨fun b => ?_, fun hrows => ?_, fun hrows => ?_, fun hrows row hrow => ?_⟩
  · rw [hstore]
    exact h.consistent_update pass.account hs b
  · exact absurd (hnone.symm.trans hrows) nofun
  · exact absurd (hnone.symm.trans hrows) nofun
  · obtain ⟨rfl, rfl⟩ := Poller.settling_afterSettling hrows
    rw [hstore, Function.update_self]
    exact hrest row hrow

theorem UpToDate.settlingAfter (h : m.UpToDate) {pass : Pass} {rest : List Settling}
    {r : Except StoreError Store}
    (hm : m.PollerLeaves m' (.afterSettling pass rest) (m.storesAfter pass.account r))
    (hrest : ∀ row ∈ rest, (m.store pass.account).Settles row)
    (hr : ∀ s, r = .ok s →
      s.Consistent ∧ ∀ row, (m.store pass.account).Settles row → s.Settles row) :
    m'.UpToDate := by
  have hafter := Store.after_induction (r := r)
    (P := fun s => s.Consistent ∧ ∀ row ∈ rest, s.Settles row) ⟨h.consistent pass.account, hrest⟩
    fun s hs => ⟨(hr s hs).1, fun row hrow => (hr s hs).2 row (hrest row hrow)⟩
  exact h.settlingLeft hm hafter.1 hafter.2

theorem UpToDate.awaitingLeft (h : m.UpToDate) {x : Poller} {a : Address} {rest : List Awaiting}
    {s : Store} (hm : m.PollerLeaves m' x (Function.update m.store a s))
    (hx : ∀ {b rows}, x.awaiting = some (b, rows) → b = a ∧ rows = rest)
    (hnone : x.settling = none) (hs : s.Consistent) (hnodup : (rest.map Awaiting.id).Nodup)
    (hrest : ∀ row ∈ rest, s.Awaits row) : m'.UpToDate := by
  rcases hm with ⟨⟨accounts, metrics, events, rfl⟩, hstore⟩
  refine ⟨fun b => ?_, fun hrows => ?_, fun hrows row hrow => ?_, fun hrows => ?_⟩
  · rw [hstore]
    exact h.consistent_update a hs b
  · obtain ⟨-, rfl⟩ := hx hrows
    exact hnodup
  · obtain ⟨rfl, rfl⟩ := hx hrows
    rw [hstore, Function.update_self]
    exact hrest row hrow
  · exact absurd (hnone.symm.trans hrows) nofun

/-- What the poller has left to look at is not what it has just worked on. -/
theorem UpToDate.informed (h : m.UpToDate) (now : Nat) {q : Inquiry}
    (hq : m.poller = .asking q) (answer : q.Answer) : (m.informed now q answer).UpToDate := by
  obtain ⟨x, stores, hm, hx⟩ := m.heard_informed now q answer
  cases hx with
  | @finalized entry rest pass r hb =>
    have hrest : ∀ row ∈ rest, (m.store pass.account).Settles row := fun row hrow =>
      h.settles (by rw [hq]; rfl) row (List.mem_cons_of_mem entry hrow)
    exact h.settlingAfter hm hrest fun s hs => (h.consistent _).markFinalized_settles hs
  | @displaced entry rest pass answer =>
    have hrest : ∀ row ∈ rest, (m.store pass.account).Settles row := fun row hrow =>
      h.settles (by rw [hq]; rfl) row (List.mem_cons_of_mem entry hrow)
    exact h.settlingAfter hm hrest fun s hs => (h.consistent _).markReorganized_settles hs
  | @unsettled entry rest pass answer =>
    refine h.pollerLeaves hm (keeps_refl h) nofun fun hrows => ?_
    rw [hq]
    exact hrows
  | @stillSettling q answer entry rest hsettling =>
    have hrows : m.poller.settling = some ((q.passAfter answer).account, entry :: rest) := by
      rw [hq]
      exact Poller.settling_asking hsettling answer
    have hrest : ∀ row ∈ rest, (m.store (q.passAfter answer).account).Settles row := fun row hrow =>
      h.settles hrows row (List.mem_cons_of_mem entry hrow)
    rw [← Function.update_eq_self (q.passAfter answer).account m.store] at hm
    exact h.settlingLeft hm (h.consistent _) hrest
  | @confirmed entry rest pass r ho =>
    have hrows : m.poller.awaiting = some (pass.account, entry :: rest) := by rw [hq]; rfl
    have hnodup := List.nodup_cons.mp (h.nodup hrows)
    have hrest : ∀ row ∈ rest, (m.store pass.account).Awaits row := fun row hrow =>
      h.awaits hrows row (List.mem_cons_of_mem entry hrow)
    have hafter := Store.after_induction
      (r := (m.store pass.account).markConfirmed entry.id r.block)
      (P := fun s => s.Consistent ∧ ∀ row ∈ rest, s.Awaits row)
      ⟨h.consistent pass.account, hrest⟩ fun s hs => by
        have hs := (h.consistent pass.account).markConfirmed_awaits hs
        refine ⟨hs.1, fun row hrow => hs.2 row (fun hid => hnodup.1 ?_) (hrest row hrow)⟩
        exact hid ▸ List.mem_map_of_mem hrow
    exact h.awaitingLeft hm Poller.awaiting_afterAwaiting (Poller.settling_afterAwaiting pass rest)
      hafter.1 hnodup.2 hafter.2
  | @undated entry rest pass hc =>
    refine h.pollerLeaves hm (keeps_refl h) (fun hrows => ?_) nofun
    rw [hq]
    exact hrows
  | @failed q answer entry rest hawaiting s tx hs reason next =>
    have hrows : m.poller.awaiting = some ((q.passAfter answer).account, entry :: rest) := by
      rw [hq]
      exact Poller.awaiting_asking hawaiting answer
    have hnodup := List.nodup_cons.mp (h.nodup hrows)
    have hs := (h.consistent _).markErrored_awaits hs
    refine h.awaitingLeft hm (fun hx => by cases hx; exact ⟨rfl, rfl⟩) rfl hs.1 hnodup.2 ?_
    intro row hrow
    refine hs.2 row (fun hid => hnodup.1 ?_) (h.awaits hrows row (List.mem_cons_of_mem entry hrow))
    exact hid ▸ List.mem_map_of_mem hrow
  | @stillAwaiting q answer entry rest hawaiting =>
    have hrows : m.poller.awaiting = some ((q.passAfter answer).account, entry :: rest) := by
      rw [hq]
      exact Poller.awaiting_asking hawaiting answer
    rw [← Function.update_eq_self (q.passAfter answer).account m.store] at hm
    exact h.awaitingLeft hm Poller.awaiting_afterAwaiting (Poller.settling_afterAwaiting _ rest)
      (h.consistent _) (List.nodup_cons.mp (h.nodup hrows)).2
      fun row hrow => h.awaits hrows row (List.mem_cons_of_mem entry hrow)

theorem UpToDate.awaitingRest (h : m.UpToDate) {x : Poller} {pass : Pass} {rest : List Awaiting}
    (hrest : m.poller.awaiting = some (pass.account, rest)) (hm : m.PollerLeaves m' x stores)
    (hx : x = .afterAwaiting pass rest ∨
      x.awaiting = some (pass.account, rest) ∧ x.settling = none)
    (hk : ∀ a, (m.store a).Keeps (stores a)) : m'.UpToDate := by
  refine h.pollerLeaves hm hk (fun hrows => ?_) fun hrows => ?_
  · rcases hx with rfl | ⟨hx, -⟩
    · obtain ⟨rfl, rfl⟩ := Poller.awaiting_afterAwaiting hrows
      exact hrest
    · rw [hrest, ← hrows, hx]
  · have hnone : x.settling = none := by
      rcases hx with rfl | ⟨-, hx⟩
      · exact Poller.settling_afterAwaiting pass rest
      · exact hx
    exact absurd (hnone.symm.trans hrows) nofun

theorem UpToDate.afterFailure (h : m.UpToDate) (now : Nat) {tx : Tx} {reason : String}
    {next : Option RetryKind} {rest : List Awaiting} {pass : Pass}
    (hp : m.poller = .failed tx reason next rest pass) :
    (m.afterFailure now tx reason next rest pass).UpToDate := by
  have hrest : m.poller.awaiting = some (pass.account, rest) := by rw [hp]; rfl
  have hc := h.consistent pass.account
  rcases m.afterFailure_cases now tx reason next rest pass with
    hm | ⟨kind, ⟨s, hs, hm⟩ | ⟨e, -, hm⟩⟩
  · exact h.awaitingRest hrest hm (.inl rfl) (h.keeps_storesAfter fun _ hs => hc.keeps_markFatal hs)
  · exact h.awaitingRest hrest hm (.inr ⟨rfl, rfl⟩)
      (h.keeps_update (hc.keeps_recordCounters hs))
  · exact h.awaitingRest hrest hm (.inl rfl) (keeps_refl h)

theorem UpToDate.withoutPlace (h : m.UpToDate) (now : Nat) {tx : Tx} {rest : List Awaiting}
    {pass : Pass} (hp : m.poller = .refused tx rest pass) :
    (m.withoutPlace now tx rest pass).UpToDate := by
  have hrest : m.poller.awaiting = some (pass.account, rest) := by rw [hp]; rfl
  exact h.awaitingRest hrest ((m.leaves_fail now pass.account tx.id _).withPoller _) (.inl rfl)
    (h.keeps_storesAfter fun _ hs => (h.consistent pass.account).keeps_markFatal hs)

theorem UpToDate.usePlace (h : m.UpToDate) {rest : List Awaiting} {pass : Pass}
    (hrest : m.poller.awaiting = some (pass.account, rest)) (tx : Tx) :
    (m.usePlace tx rest pass).UpToDate := by
  have hqueue : ({ m with queue := m.queue ++ [tx] } : Manager).UpToDate :=
    h.of_keeps (keeps_refl h) id id
  exact hqueue.awaitingRest hrest (pollerLeaves_same _ _) (.inl rfl) (keeps_refl hqueue)

theorem UpToDate.requeue (h : m.UpToDate) {tx : Tx} {rest : List Awaiting} {pass : Pass}
    (hp : m.poller = .requeuing tx rest pass) : (m.requeue tx rest pass).UpToDate := by
  have hrest : m.poller.awaiting = some (pass.account, rest) := by rw [hp]; rfl
  rcases m.requeue_cases tx rest pass with hm | ⟨x, hx, hm⟩
  · rw [hm]
    exact h.usePlace hrest tx
  · rw [hm]
    refine h.awaitingRest hrest (m.pollerLeaves_same x) (.inr ?_) (keeps_refl h)
    rcases hx with rfl | rfl
    · exact ⟨rfl, rfl⟩
    · exact ⟨rfl, rfl⟩

theorem UpToDate.survey (h : m.UpToDate) {pass : Pass} {rows : List Settling}
    (hall : rows.Perm (m.store pass.account).settlingRows) :
    (m.afterSettling rows pass).UpToDate := by
  have hm : m.PollerLeaves (m.afterSettling rows pass) _ _ := m.pollerLeaves_same _
  rw [← Function.update_eq_self pass.account m.store] at hm
  exact h.settlingLeft hm (h.consistent _) fun row hrow =>
    (h.consistent _).settles_of_mem (hall.mem_iff.mp hrow)

theorem UpToDate.collect (h : m.UpToDate) {pass : Pass} {rows : List Awaiting}
    (hall : rows.Perm (m.store pass.account).awaitingRows) :
    (m.afterAwaiting rows pass).UpToDate := by
  have hm : m.PollerLeaves (m.afterAwaiting rows pass) _ _ := m.pollerLeaves_same _
  rw [← Function.update_eq_self pass.account m.store] at hm
  refine h.awaitingLeft hm Poller.awaiting_afterAwaiting (Poller.settling_afterAwaiting pass rows)
    (h.consistent _) ?_ fun row hrow => (h.consistent _).awaits_of_mem (hall.mem_iff.mp hrow)
  exact (hall.map Awaiting.id).nodup_iff.mpr (h.consistent _).nodup_awaitingRows

theorem UpToDate.of_none (h : m.UpToDate) (hstore : m'.store = m.store)
    (ha : m'.poller.awaiting = none) (hs : m'.poller.settling = none) : m'.UpToDate := by
  refine h.of_keeps (fun a => ?_) (fun hrows => ?_) fun hrows => ?_
  · rw [hstore]
    exact keeps_refl h a
  · exact absurd (ha.symm.trans hrows) nofun
  · exact absurd (hs.symm.trans hrows) nofun

theorem UpToDate.take? (h : m.UpToDate) (hm : m.take? = some m') : m'.UpToDate := by
  obtain ⟨tx, rest, metrics, -, -, rfl⟩ := take?_eq_some hm
  refine h.of_keeps (keeps_refl h) (fun hrows => ?_) fun hrows => ?_
  · exact (m.poller.awaiting_grant).symm.trans hrows
  · exact (m.poller.settling_grant).symm.trans hrows

theorem UpToDate.spawn (h : m.UpToDate) (w : Worker) : (m.spawn w).UpToDate := by
  cases w with
  | sender => exact h.of_keeps (keeps_refl h) id id
  | poller => exact h.of_none rfl rfl rfl
  | reaper => exact h.of_keeps (keeps_refl h) id id

theorem UpToDate.halt (h : m.UpToDate) (w : Worker) : (m.halt w).UpToDate := by
  cases w with
  | sender =>
    refine h.of_keeps (keeps_refl h) (fun hrows => ?_) fun hrows => ?_
    · exact (m.poller.awaiting_refuse).symm.trans hrows
    · exact (m.poller.settling_refuse).symm.trans hrows
  | poller => exact h.of_none rfl rfl rfl
  | reaper => exact h.of_keeps (keeps_refl h) id id

end Manager

open Manager

theorem PartStep.upToDate {m m' : Manager} {now : Nat} {act : Act} (h : m.UpToDate)
    (hs : PartStep m now act m') : m'.UpToDate := by
  cases hs with
  | take hm => exact h.take? hm
  | answered ha answer => exact h.answered now _ answer
  | wake | beginSweep | endSweep => exact h.of_keeps (keeps_refl h) id id
  | beginPass | endPass => exact h.of_none rfl rfl rfl
  | survey hp hall => exact h.survey hall
  | collect hp hall => exact h.collect hall
  | informed hp answer => exact h.informed now hp answer
  | afterFailure hp => exact h.afterFailure now hp
  | requeue hp => exact h.requeue hp
  | usePlace hp => exact h.usePlace (by rw [hp]; rfl) _
  | withoutPlace hp => exact h.withoutPlace now hp
  | @sweep begun evicted a later hr =>
    have hreap := (h.consistent a).keeps_reap (m.settings.retentionSecs * 1000) begun
    refine h.of_keeps (fun b => ?_) id id
    rw [store_sweep]
    exact h.keeps_update hreap b

namespace System

theorem Step.upToDate {s s' : System} {act : Act} (h : s.manager.UpToDate) (hs : Step s act s') :
    s'.manager.UpToDate := by
  rcases hs.manager_cases with
    hm | ⟨q, answer, fresh, -, hm⟩ | ⟨w, hm⟩ | ⟨w, hm⟩ | ⟨_, _, _, _, hm⟩
  · exact hm.upToDate h
  · rw [hm]
    exact h.proceed fresh q answer
  · rw [hm]
    exact h.spawn w
  · rw [hm]
    exact h.halt w
  · rw [hm]
    exact h.of_keeps (keeps_refl h) id id

theorem Run.upToDate {s₀ s : System} {acts : List Act} (hr : Run s₀ acts s)
    (h : s₀.manager.UpToDate) : s.manager.UpToDate :=
  hr.induct h Step.upToDate

end System

end TronCourier
