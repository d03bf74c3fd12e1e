import TronCourier.Proofs.Manager.Passage
import TronCourier.Proofs.Manager.Tenure

/-! Looking for a transaction by its id alone. The stores of all senders are asked, in an order
that nobody has a say in, and the first one that has the id answers. -/

namespace TronCourier

/-- No sender has two stores. -/
def Accounts.Distinct (as : Accounts) : Prop :=
  as.stores.keys.Nodup

namespace Accounts

variable {as as' : Accounts} {a : Address} {id : String} {e : Entry}

theorem Distinct.set (h : as.Distinct) (a : Address) (s : Store) : (as.set a s).Distinct :=
  Table.nodup_keys_insert h a s

theorem Distinct.ensure (h : as.Distinct) (a : Address) : (as.ensure a).Distinct := by
  unfold Accounts.ensure
  split
  · exact h
  · exact Table.nodup_keys_insert h a .empty

theorem store_of_mem (h : as.Distinct) {s : Store} (hrow : (a, s) ∈ as.stores.rows) :
    as.store a = s := by
  rw [store, (Table.mem_rows_iff h a s).mp hrow, Option.getD_some]

theorem mem_rows_of_entry (he : (as.store a).entries.get? id = some e) :
    (a, as.store a) ∈ as.stores.rows := by
  have hfound : ∃ s, as.stores.get? a = some s := by
    rw [← Option.ne_none_iff_exists']
    intro hnone
    rw [store, hnone] at he
    cases he
  obtain ⟨s, hs⟩ := hfound
  rw [store, hs, Option.getD_some]
  obtain ⟨row, hrow, rfl⟩ := Option.map_eq_some_iff.mp hs
  obtain rfl : row.1 = a := by simpa using List.find?_some hrow
  exact List.mem_of_find?_eq_some hrow

theorem found_of_find? (h : as.Distinct) (hfind : as.find? id = some a) :
    ∃ e, (as.store a).entries.get? id = some e ∧ as.entry? id = some e := by
  obtain ⟨row, hrow, rfl⟩ := Option.map_eq_some_iff.mp hfind
  have hcontains : row.2.entries.contains id = true :=
    List.find?_some (p := fun row : Address × Store => row.2.entries.contains id) hrow
  have hstore : as.store row.1 = row.2 := store_of_mem h (List.mem_of_find?_eq_some hrow)
  obtain ⟨e, he⟩ := Option.isSome_iff_exists.mp hcontains
  rw [← hstore] at he
  refine ⟨e, he, ?_⟩
  rw [Accounts.entry?, hfind, Option.bind_some, he]

theorem exists_find?_eq_some (he : (as.store a).entries.get? id = some e) :
    ∃ b, as.find? id = some b := by
  have hcontains : (as.store a).entries.contains id = true := by
    rw [Table.contains, he, Option.isSome_some]
  have hsome : (as.stores.rows.find? fun row => row.2.entries.contains id).isSome :=
    List.find?_isSome.mpr ⟨_, mem_rows_of_entry he, hcontains⟩
  obtain ⟨row, hrow⟩ := Option.isSome_iff_exists.mp hsome
  exact ⟨row.1, Option.map_eq_some_iff.mpr ⟨row, hrow, rfl⟩⟩

theorem Distinct.perm (h : as.Distinct) (hperm : as'.stores.rows.Perm as.stores.rows) :
    as'.Distinct :=
  ((hperm.map Prod.fst).nodup_iff).mpr h

theorem store_perm (h : as.Distinct) (hperm : as'.stores.rows.Perm as.stores.rows) :
    as'.store = as.store := by
  have hget (a : Address) (s : Store) : as'.stores.get? a = some s ↔ as.stores.get? a = some s := by
    rw [← Table.mem_rows_iff (h.perm hperm), ← Table.mem_rows_iff h, hperm.mem_iff]
  funext a
  rw [store, store, Option.ext (hget a)]

end Accounts

namespace Manager

variable {m : Manager} (h : m.accounts.Distinct)

include h

theorem distinct_move (a : Address) (id : String) (s : Store) :
    (m.move a id s).accounts.Distinct := by
  unfold move
  split
  · exact h.set a s
  · exact h.set a s

theorem distinct_fail (now : Nat) (a : Address) (id reason : String) :
    (m.fail now a id reason).accounts.Distinct := by
  unfold fail
  split
  · rename_i s _
    exact distinct_move h a id s
  · exact h

theorem distinct_finalize (now : Nat) (a : Address) (id : String) :
    (m.finalize now a id).accounts.Distinct := by
  unfold finalize
  split
  · rename_i s _
    exact distinct_move h a id s
  · exact h

theorem distinct_confirm (a : Address) (id : String) (block : Int) :
    (m.confirm a id block).accounts.Distinct := by
  unfold confirm
  split
  · rename_i s _
    exact distinct_move h a id s
  · exact h

theorem distinct_displace (a : Address) (row : Settling) :
    (m.displace a row).accounts.Distinct := by
  unfold displace
  dsimp only
  split
  · rename_i s _
    exact distinct_move (m := m.record (.displaced row.id row.hash row.block)) h a row.id s
  · exact h

theorem distinct_failAttempt (entry : Awaiting) (rest : List Awaiting) (pass : Pass)
    (reason : String) (next : Option RetryKind) :
    (m.failAttempt entry rest pass reason next).accounts.Distinct := by
  unfold failAttempt
  split
  · exact h
  · rename_i s tx _
    exact distinct_move h pass.account entry.id s

theorem distinct_withoutReceipt (t : Int) (entry : Awaiting) (rest : List Awaiting)
    (pass : Pass) : (m.withoutReceipt t entry rest pass).accounts.Distinct := by
  unfold withoutReceipt
  split
  · exact distinct_failAttempt h ..
  · exact h

theorem distinct_withReceipt (r : Node.Receipt) (entry : Awaiting) (rest : List Awaiting)
    (pass : Pass) : (m.withReceipt r entry rest pass).accounts.Distinct := by
  unfold withReceipt
  split
  · exact distinct_confirm h pass.account entry.id r.block
  all_goals exact distinct_failAttempt h ..

theorem distinct_informed (now : Nat) (q : Inquiry) (answer : q.Answer) :
    (m.informed now q answer).accounts.Distinct := by
  unfold informed
  split
  all_goals try exact h
  · split
    · exact distinct_finalize h ..
    · exact h
  · exact distinct_displace h ..
  · split
    · exact h
    · exact distinct_displace h ..
  · exact distinct_withReceipt h ..
  · split
    · exact distinct_withoutReceipt h ..
    · exact h
  · exact distinct_withoutReceipt h ..

theorem distinct_retry (tx : Tx) (reason : String) (kind : RetryKind) (rest : List Awaiting)
    (pass : Pass) : (m.retry tx reason kind rest pass).accounts.Distinct := by
  have hcount : (if kind = .moreEnergy then
      m.count fun c => { c with energyBumps := c.energyBumps + 1 } else m).accounts =
      m.accounts := by
    split
    · rfl
    · rfl
  unfold retry
  dsimp only
  split
  · rw [← hcount] at h
    exact h
  · rename_i s _
    rw [← hcount] at h
    exact h.set pass.account s

theorem distinct_afterFailure (now : Nat) (tx : Tx) (reason : String) (next : Option RetryKind)
    (rest : List Awaiting) (pass : Pass) :
    (m.afterFailure now tx reason next rest pass).accounts.Distinct := by
  unfold afterFailure
  split
  · exact distinct_fail h ..
  · split
    · exact distinct_fail h ..
    · exact distinct_retry h ..

theorem distinct_requeue (tx : Tx) (rest : List Awaiting) (pass : Pass) :
    (m.requeue tx rest pass).accounts.Distinct := by
  rcases m.requeue_cases tx rest pass with hm | ⟨x, -, hm⟩
  · rw [hm]
    exact h
  · rw [hm]
    exact h

theorem distinct_priced (now : Nat) (tx : Tx) (energy : Int) :
    (m.priced now tx energy).accounts.Distinct := by
  unfold priced
  split
  · exact h
  · exact h

theorem distinct_attempt (tx : Tx) : (m.attempt tx).accounts.Distinct := by
  unfold attempt
  dsimp only
  split
  · exact h.ensure tx.sender
  · exact h.ensure tx.sender

theorem distinct_sent (p : Parcel) : (m.sent p).accounts.Distinct := by
  unfold sent
  split
  · exact h
  · rename_i s _
    exact distinct_move h p.tx.sender p.tx.id s

theorem distinct_judge (now : Nat) (p : Parcel) (v : Node.Verdict) :
    (m.judge now p v).accounts.Distinct := by
  unfold judge
  split
  · exact distinct_sent h p
  · split
    · exact h
    · split
      · exact h
      · exact h

theorem distinct_answered (now : Nat) (a : Attempt) (answer : a.Answer) :
    (m.answered now a answer).accounts.Distinct := by
  unfold answered
  split
  all_goals try exact h
  · exact distinct_attempt h ..
  · dsimp only
    split
    · exact h
    · exact distinct_priced (m := { m with estimator := (m.estimator.afterEstimate _).1 }) h ..
    · exact h
  · split
    · exact distinct_priced h ..
    · exact h
  · split
    · exact h
    · exact h
  · exact distinct_judge h ..
  · exact distinct_fail h ..

theorem distinct_takeIn (tx : Tx) : (m.takeIn tx).1.accounts.Distinct := by
  unfold takeIn
  split
  · exact h
  · exact h
  · rename_i s _
    exact h.set tx.sender s

theorem distinct_proceed (fresh : String) (q : Submission) (answer : q.Answer) :
    (m.proceed fresh q answer).1.accounts.Distinct := by
  unfold proceed
  split
  all_goals try exact h
  · dsimp only
    split
    · split
      · exact h.ensure _
      · exact h.ensure _
    · exact h.ensure _
  · dsimp only
    split
    · exact h
    · exact h
  · unfold reserve
    split
    · exact h
    · split
      · exact h
      · exact h
  · exact distinct_takeIn h _

end Manager

open Manager

theorem PartStep.distinct {m m' : Manager} {now : Nat} {act : Act}
    (hs : PartStep m now act m') (h : m.accounts.Distinct) : m'.accounts.Distinct := by
  cases hs with
  | take hm =>
    obtain ⟨tx, rest, metrics, -, -, rfl⟩ := take?_eq_some hm
    exact h
  | answered _ answer => exact distinct_answered h now _ answer
  | informed _ answer => exact distinct_informed h now _ answer
  | afterFailure => exact distinct_afterFailure h ..
  | requeue => exact distinct_requeue h ..
  | withoutPlace => exact distinct_fail h ..
  | @sweep begun evicted a later _ => exact h.set a _
  | wake | beginPass | survey | collect | endPass | usePlace | beginSweep | endSweep => exact h

/-- Every entry of a store is a transaction of the store's sender. -/
def Manager.Filed (m : Manager) : Prop :=
  ∀ a id e, (m.store a).entries.get? id = some e → e.tx.sender = a

/-- Managers that differ in nothing but in the order of their stores. -/
def Manager.Reorders (m' m : Manager) : Prop :=
  m' = { m with accounts := m'.accounts } ∧
    m'.accounts.stores.rows.Perm m.accounts.stores.rows

/-- What a manager says of an id is what an entry says. -/
structure Manager.Reports (m : Manager) (id : String) (e : Entry) : Prop where
  stage?_eq : m.stage? id = some e.tx.stage
  tx?_eq : m.tx? id = some e.tx
  status_eq : m.status id = .ofStage e.tx.stage

namespace Manager

variable {m m' : Manager} {a b : Address} {id : String} {e d : Entry}

theorem reports_of_found (he : m.accounts.entry? id = some e) : m.Reports id e where
  stage?_eq := by rw [stage?, he, Option.map_some]
  tx?_eq := by rw [tx?, he, Option.map_some]
  status_eq := by rw [status, Accounts.status, he]

theorem reports_of_sole (h : m.accounts.Distinct) (he : (m.store a).entries.get? id = some e)
    (hsole : ∀ b, m.Tracks b id → b = a) (hm : m'.Reorders m) : m'.Reports id e := by
  have hstore : m'.accounts.store = m.accounts.store := Accounts.store_perm h hm.2
  have he' : (m'.accounts.store a).entries.get? id = some e := by
    rw [hstore]
    exact he
  obtain ⟨b, hfind⟩ := Accounts.exists_find?_eq_some he'
  obtain ⟨d, hd, hentry⟩ := Accounts.found_of_find? (h.perm hm.2) hfind
  rw [hstore] at hd
  obtain rfl := hsole b ⟨d, hd⟩
  have hsame : some d = some e := hd.symm.trans he
  cases hsame
  exact reports_of_found hentry

theorem exists_reorders_reports (h : m.accounts.Distinct)
    (hd : (m.store b).entries.get? id = some d) :
    ∃ m' : Manager, m'.Reorders m ∧ m'.Reports id d := by
  have hmem : (b, m.accounts.store b) ∈ m.accounts.stores.rows := Accounts.mem_rows_of_entry hd
  obtain ⟨before, after, hrows⟩ := List.append_of_mem hmem
  have hperm : ((b, m.accounts.store b) :: (before ++ after)).Perm m.accounts.stores.rows := by
    rw [hrows]
    exact List.perm_middle.symm
  have hfind : Accounts.find? ⟨⟨(b, m.accounts.store b) :: (before ++ after)⟩⟩ id = some b := by
    have hcontains : (m.accounts.store b).entries.contains id = true := by
      rw [Table.contains, Option.isSome_iff_exists]
      exact ⟨d, hd⟩
    rw [Accounts.find?, List.find?_cons, hcontains, Option.map_some]
  refine ⟨{ m with accounts := ⟨⟨(b, m.accounts.store b) :: (before ++ after)⟩⟩ }, ⟨rfl, hperm⟩,
    reports_of_found ?_⟩
  obtain ⟨c, hc, hentry⟩ := Accounts.found_of_find? (h.perm hperm) hfind
  rw [Accounts.store_perm h hperm] at hc
  have hsame : some c = some d := hc.symm.trans hd
  cases hsame
  exact hentry

end Manager

namespace System

variable {s₀ s s' : System} {act : Act} {acts earlier later : List Act} {tx : Tx}

theorem Step.distinct (h : s.manager.accounts.Distinct) (hs : Step s act s') :
    s'.manager.accounts.Distinct := by
  rcases hs.manager_cases with
    hm | ⟨q, answer, fresh, -, hm⟩ | ⟨w, hm⟩ | ⟨w, hm⟩ | ⟨_, _, _, _, hm⟩
  · exact hm.distinct h
  · rw [hm]
    exact distinct_proceed h fresh q answer
  · rw [hm]
    cases w <;> exact h
  · rw [hm]
    cases w <;> exact h
  · rw [hm]
    exact h

theorem Run.distinct {settings : Settings} {checks : Bool} {m : Manager} {now : Nat}
    (hr : Run { manager := m, now } acts s) (hm : ofSettings settings checks = .ok m) :
    s.manager.accounts.Distinct := by
  have hstart : m.accounts.Distinct := by
    rw [(ofSettings_eq_ok hm).2]
    exact List.nodup_nil
  exact hr.induct (P := fun s => s.manager.accounts.Distinct) hstart Step.distinct

theorem Step.filed (h : s.manager.Filed) (hs : Step s act s') : s'.manager.Filed := by
  intro a id d hd
  rcases hs.get?_cases hd with he | ⟨op, htouch, hturn⟩
  · exact h a id d he
  · generalize hold : (s.manager.store a).entries.get? id = old at hturn
    cases hturn with
    | addPending tx =>
      cases htouch with
      | admitted => rfl
    | markBroadcasted hash expiration tx hg =>
      cases htouch with
      | sent p answer => rfl
    | markConfirmed | markReorganized | markFinalized | markErrored | recordCounters
    | markFatal =>
      have hsender := h a _ _ hold
      exact hsender

/-- What is asked by the id of a request that is on record is answered by the request's sender
in every order of the stores just if no other sender has something on record under the id. -/
theorem reports_sender_iff {settings : Settings} {checks : Bool} {m : Manager} {now : Nat}
    (hm : ofSettings settings checks = .ok m)
    (ht : Tenure { manager := m, now } tx earlier later s) :
    ∃ e, (s.manager.store tx.sender).entries.get? tx.id = some e ∧ e.tx.sender = tx.sender ∧
      ((∀ m' : Manager, m'.Reorders s.manager → m'.Reports tx.id e) ↔
        ∀ a, s.manager.Tracks a tx.id → a = tx.sender) := by
  obtain ⟨-, rfl⟩ := ofSettings_eq_ok hm
  have hdistinct : s.manager.accounts.Distinct :=
    ht.run.induct (P := fun s => s.manager.accounts.Distinct) List.nodup_nil Step.distinct
  have hfiled : s.manager.Filed := ht.run.induct (P := fun s => s.manager.Filed)
    (fun _ _ _ hnone => nomatch hnone) Step.filed
  obtain ⟨e, he⟩ := ht.tracks
  refine ⟨e, he, hfiled _ _ _ he, ?_, ?_⟩
  · rintro hreports a ⟨d, hd⟩
    obtain ⟨m', hm', hother⟩ := exists_reorders_reports hdistinct hd
    have hsame := hother.tx?_eq
    rw [(hreports m' hm').tx?_eq, Option.some.injEq] at hsame
    rw [← hfiled _ _ _ hd, ← hfiled _ _ _ he, hsame]
  · intro hsole m' hm'
    exact reports_of_sole hdistinct he hsole hm'

section Sample

def rivalSample : Request :=
  { sampleRequest with sender := .ofHash [1] }

theorem run_sample : ∃ m acts s, ofSettings {} false = .ok m ∧
    Run { manager := m, now := 0 } acts s ∧
    .proceed (.delivering (.ofRequest "t" sampleRequest)) () "" ∈ acts ∧
    (s.manager.store sampleRequest.sender).entries.get? "t" =
      some (.ofTx (.ofRequest "t" sampleRequest)) ∧
    (∀ a, a ≠ sampleRequest.sender → s.manager.store a = .empty) ∧
    s.manager.lifecycle = .idle ∧ s.manager.checksMessages = false ∧
    s.manager.queueOpen = true ∧ s.manager.hasRoom = true := by
  have h₀ : Run { manager := { settings := {}, estimator := .ofSettings {} }, now := 0 } [] _ :=
    .start
  have h₁ := h₀.prepare (r := sampleRequest) rfl nofun [] ""
  obtain ⟨accounts, metrics, events, t, ht, hstore, h₂⟩ := h₁.admit rfl rfl rfl nofun ""
  refine ⟨_, _, _, ofSettings_default, h₂, List.mem_append_right _ (by simp [sampleRequest]), ?_,
    ?_, rfl, rfl, rfl, rfl⟩
  · have hown : accounts.store sampleRequest.sender = t := by
      rw [hstore]
      exact Function.update_self ..
    show (accounts.store sampleRequest.sender).entries.get? "t" = _
    rw [hown]
    exact Store.get?_addPending ht
  · intro a ha
    show accounts.store a = _
    rw [hstore]
    exact Function.update_of_ne ha ..

theorem rivalSample_ne : rivalSample.sender ≠ sampleRequest.sender := by decide

theorem run_rivalSample : ∃ m acts s, ofSettings {} false = .ok m ∧
    Run { manager := m, now := 0 } acts s ∧
    .proceed (.delivering (.ofRequest "t" sampleRequest)) () "" ∈ acts ∧
    .proceed (.delivering (.ofRequest "t" rivalSample)) () "" ∈ acts ∧
    (s.manager.store sampleRequest.sender).entries.get? "t" =
      some (.ofTx (.ofRequest "t" sampleRequest)) ∧
    (s.manager.store rivalSample.sender).entries.get? "t" =
      some (.ofTx (.ofRequest "t" rivalSample)) := by
  obtain ⟨m, acts, s, hm, h, hfirst, he, hempty, hidle, hchecks, hopen, hroom⟩ := run_sample
  have hsubmit : s.manager.submit rivalSample = .ok (.probing rivalSample) := by
    rw [submit, hidle, if_neg (by decide)]
    rfl
  have h₁ := h.prepare hsubmit (fun _ => rfl) [] ""
  have hnew : (s.manager.store rivalSample.sender).entries.get? "t" = none := by
    rw [hempty _ rivalSample_ne]
    rfl
  obtain ⟨accounts, metrics, events, t, ht, hstore, h₂⟩ := h₁.admit hopen hroom hnew nofun ""
  refine ⟨m, _, _, hm, h₂, ?_, List.mem_append_right _ (by simp [rivalSample, sampleRequest]), ?_,
    ?_⟩
  · exact List.mem_append_left _ (List.mem_append_left _ hfirst)
  · have hother : accounts.store sampleRequest.sender =
        s.manager.store sampleRequest.sender := by
      rw [hstore]
      exact Function.update_of_ne rivalSample_ne.symm ..
    show (accounts.store sampleRequest.sender).entries.get? "t" = _
    rw [hother, he]
  · have hown : accounts.store rivalSample.sender = t := by
      rw [hstore]
      exact Function.update_self ..
    show (accounts.store rivalSample.sender).entries.get? "t" = _
    rw [hown]
    exact Store.get?_addPending ht

theorem reports_sender_iff_sample : ∃ m acts s e, ofSettings {} false = .ok m ∧
    Run { manager := m, now := 0 } acts s ∧
    .proceed (.delivering (.ofRequest "t" sampleRequest)) () "" ∈ acts ∧
    (s.manager.store sampleRequest.sender).entries.get? "t" = some e ∧
    ∀ m' : Manager, m'.Reorders s.manager → m'.Reports "t" e := by
  obtain ⟨m, acts, s, hm, h, hfirst, he, hempty, -⟩ := run_sample
  have hnone : ¬ m.Tracks sampleRequest.sender "t" := by
    obtain ⟨-, rfl⟩ := ofSettings_eq_ok hm
    rintro ⟨e, hnone⟩
    cases hnone
  obtain ⟨tx, earlier, later, hsender, hid, -, ht⟩ := h.tenure hnone ⟨_, he⟩
  obtain ⟨e, hfound, -, hiff⟩ := reports_sender_iff hm ht
  rw [hsender, hid] at hfound hiff
  refine ⟨m, acts, s, e, hm, h, hfirst, hfound, hiff.mpr fun a ⟨d, hd⟩ => ?_⟩
  by_contra hne
  rw [hempty a hne] at hd
  cases hd

/-- Of two senders with something on record under one id, not both are answered. -/
theorem not_reports_sender :
    ¬ ∀ {settings : Settings} {checks : Bool} {m : Manager} {now : Nat} {acts : List Act}
      {s : System} {tx : Tx} {fresh : String},
      ofSettings settings checks = .ok m → Run { manager := m, now } acts s →
      .proceed (.delivering tx) () fresh ∈ acts → s.manager.Tracks tx.sender tx.id →
      ∃ e, (s.manager.store tx.sender).entries.get? tx.id = some e ∧
        s.manager.Reports tx.id e := by
  intro h
  obtain ⟨m, acts, s, hm, hr, hfirst, hsecond, he, he'⟩ := run_rivalSample
  obtain ⟨e, hfound, hreports⟩ := h hm hr hfirst ⟨_, he⟩
  obtain ⟨e', hfound', hreports'⟩ := h hm hr hsecond ⟨_, he'⟩
  have hown : some e = some _ := hfound.symm.trans he
  have hown' : some e' = some _ := hfound'.symm.trans he'
  cases hown
  cases hown'
  have hsame := hreports.tx?_eq.symm.trans hreports'.tx?_eq
  rw [Option.some.injEq] at hsame
  exact rivalSample_ne (congrArg Tx.sender hsame).symm

end Sample

end System

end TronCourier
