import TronCourier.Proofs.Manager.Rounds
import TronCourier.Proofs.Store.Refusal

/-! No part of a manager ever tries a transition that a store rejects. What the poller has read
of the confirmed transactions of a store holds until it comes to them, since nobody else moves
what is confirmed. -/

namespace TronCourier

namespace Store

variable {s s' : Store} {id : String} {e e' : Entry} {retention : Nat} {op : Operation}

def Confirms (s : Store) (row : Settling) : Prop :=
  ∃ e, s.entries.get? row.id = some e ∧ e.settling? = some row

theorem Confirms.stage {row : Settling} (h : s.Confirms row) :
    ∃ e, s.entries.get? row.id = some e ∧ e.tx.stage = .confirmed := by
  obtain ⟨e, he, hrow⟩ := h
  exact ⟨e, he, (Entry.settling?_eq_some_iff.mp hrow).1⟩

/-- What has not come to its end stays as it is while no operation gives it a turn. -/
theorem Consistent.get?_apply_of_not_turned (h : s.Consistent)
    (he : s.entries.get? id = some e) (ht : e.tx.stage.isTerminal = false)
    (hturn : ∀ e', ¬ op.Turns id (some e) e') :
    (s.apply retention op).entries.get? id = some e := by
  rcases apply_cases retention s op with hs | ⟨j, e', hdoes⟩ | ⟨now, rfl⟩
  · rw [hs, he]
  · by_cases hj : j = id
    · subst hj
      exact absurd (he ▸ hdoes.turns) (hturn e')
    · rw [hdoes.entries_eq, Table.get?_insert, if_neg hj, he]
  · exact h.get?_reap_of_not_isTerminal he ht now

theorem Consistent.confirms_apply (h : s.Consistent) (retention : Nat) (op : Operation)
    {row : Settling} (hrow : s.Confirms row)
    (hturn : ∀ e e', e.tx.stage = .confirmed → s.entries.get? row.id = some e →
      ¬ op.Turns row.id (some e) e') : (s.apply retention op).Confirms row := by
  obtain ⟨e, he, hsettling⟩ := hrow
  have hg := (Entry.settling?_eq_some_iff.mp hsettling).1
  have hend : e.tx.stage.isTerminal = false := by rw [hg]; rfl
  exact ⟨e, h.get?_apply_of_not_turned he hend fun e' => hturn e e' hg he, hsettling⟩

end Store

theorem Poller.tx?_of_settling {p : Poller} {a : Address} {rows : List Settling}
    (h : p.settling = some (a, rows)) : p.tx? = none := by
  cases p with
  | asking q => rfl
  | absent | resting | surveying | collecting | failed | requeuing | blocked | granted | refused
  | stopped => cases h

namespace Manager

theorem poller_proceed (m : Manager) (fresh : String) (q : Submission) (answer : q.Answer) :
    (m.proceed fresh q answer).1.poller = m.poller ∨
      (m.proceed fresh q answer).1.poller = m.poller.grant := by
  rcases m.proceed_cases fresh q answer with
    ⟨tx, t, -, -, -, ⟨_, _, _, hm⟩, -⟩ | ⟨tx, -, hm⟩ | ⟨-, ⟨⟨_, _, x, hm, hx⟩, -⟩, -⟩
  · rw [hm]
    exact .inl rfl
  · rw [hm]
    exact .inl rfl
  · rw [hm]
    exact hx

/-- The confirmed transactions that the poller has still to look at are confirmed, and it looks
at each of them once. -/
structure Watches (m : Manager) : Prop where
  nodup : ∀ {a rows}, m.poller.settling = some (a, rows) → (rows.map Settling.id).Nodup
  confirms : ∀ {a rows}, m.poller.settling = some (a, rows) →
    ∀ row ∈ rows, (m.store a).Confirms row

variable {m m' : Manager} {now : Nat}

theorem watches_of_none (h : m.poller.settling = none) : m.Watches := by
  refine ⟨?_, ?_⟩
  · rw [h]
    nofun
  · rw [h]
    nofun

theorem Watches.of_same (h : m.Watches) (hpoller : m'.poller.settling = m.poller.settling)
    (hkeep : ∀ {a rows}, m.poller.settling = some (a, rows) → ∀ row,
      (m.store a).Confirms row → (m'.store a).Confirms row) : m'.Watches := by
  refine ⟨fun hnext => ?_, fun hnext row hrow => ?_⟩
  · rw [hpoller] at hnext
    exact h.nodup hnext
  · rw [hpoller] at hnext
    exact hkeep hnext row (h.confirms hnext row hrow)

theorem Watches.rest (h : m.Watches) {entry : Settling} {rest : List Settling} {pass : Pass}
    (hrows : m.poller.settling = some (pass.account, entry :: rest)) {s : Store}
    (hm : m.PollerLeaves m' (.afterSettling pass rest) (Function.update m.store pass.account s))
    (hkeep : ∀ row : Settling, row.id ≠ entry.id → (m.store pass.account).Confirms row →
      s.Confirms row) : m'.Watches := by
  obtain ⟨⟨accounts, metrics, events, rfl⟩, hstore⟩ := hm
  have hnodup := List.nodup_cons.mp (h.nodup hrows)
  refine ⟨fun hnext => ?_, fun hnext row hrow => ?_⟩
  · obtain ⟨rfl, rfl⟩ := Poller.settling_afterSettling hnext
    exact hnodup.2
  · obtain ⟨rfl, rfl⟩ := Poller.settling_afterSettling hnext
    have hne : row.id ≠ entry.id := fun hid => hnodup.1 (hid ▸ List.mem_map_of_mem hrow)
    rw [hstore, Function.update_self]
    exact hkeep row hne (h.confirms hrows row (List.mem_cons_of_mem entry hrow))

theorem PollerLeaves.watches {x : Poller} {stores : Address → Store}
    (hm : m.PollerLeaves m' x stores) (hx : x.settling = none) : m'.Watches := by
  obtain ⟨⟨accounts, metrics, events, rfl⟩, -⟩ := hm
  exact watches_of_none hx

theorem watches_afterFailure (m : Manager) (now : Nat) (tx : Tx) (reason : String)
    (next : Option RetryKind) (rest : List Awaiting) (pass : Pass) :
    (m.afterFailure now tx reason next rest pass).Watches := by
  rcases m.afterFailure_cases now tx reason next rest pass with
    hm | ⟨kind, ⟨t, -, hm⟩ | ⟨e, -, hm⟩⟩
  · exact hm.watches (Poller.settling_afterAwaiting _ _)
  · exact hm.watches rfl
  · exact hm.watches (Poller.settling_afterAwaiting _ _)

theorem watches_requeue (m : Manager) (tx : Tx) (rest : List Awaiting) (pass : Pass) :
    (m.requeue tx rest pass).Watches := by
  rcases m.requeue_cases tx rest pass with hm | ⟨x, rfl | rfl, hm⟩
  · rw [hm]
    exact watches_of_none (Poller.settling_afterAwaiting _ _)
  · rw [hm]
    exact watches_of_none rfl
  · rw [hm]
    exact watches_of_none rfl

theorem Watches.survey {pass : Pass} {rows : List Settling} (hc : ∀ a, (m.store a).Consistent)
    (hall : rows.Perm (m.store pass.account).settlingRows) :
    (m.afterSettling rows pass).Watches := by
  refine ⟨fun hnext => ?_, fun hnext row hrow => ?_⟩
  · obtain ⟨rfl, rfl⟩ := Poller.settling_afterSettling hnext
    exact (hall.map Settling.id).nodup_iff.mpr (hc _).nodup_settlingRows
  · obtain ⟨rfl, rfl⟩ := Poller.settling_afterSettling hnext
    exact ((hc _).mem_settlingRows row).mp (hall.mem_iff.mp hrow)

theorem Watches.informed (h : m.Watches) (hc : ∀ a, (m.store a).Consistent) (now : Nat)
    {q : Inquiry} (hq : m.poller = .asking q) (answer : q.Answer) :
    (m.informed now q answer).Watches := by
  obtain ⟨x, stores, hm, hx⟩ := m.heard_informed now q answer
  cases hx with
  | @finalized entry rest pass r hb =>
    have hrows : m.poller.settling = some (pass.account, entry :: rest) := by rw [hq]; rfl
    refine h.rest hrows hm fun row hne hrow => ?_
    refine (hc _).confirms_apply 0 (.markFinalized entry.id now) hrow ?_
    intro e e' _ _ hturn
    exact hne (Option.some.inj (Store.id?_of_turns hturn)).symm
  | @displaced entry rest pass answer =>
    have hrows : m.poller.settling = some (pass.account, entry :: rest) := by rw [hq]; rfl
    refine h.rest hrows hm fun row hne hrow => ?_
    refine (hc _).confirms_apply 0 (.markReorganized entry.id) hrow ?_
    intro e e' _ _ hturn
    exact hne (Option.some.inj (Store.id?_of_turns hturn)).symm
  | @stillSettling q answer entry rest hsettling =>
    have hrows : m.poller.settling = some ((q.passAfter answer).account, entry :: rest) := by
      rw [hq]
      exact Poller.settling_asking hsettling answer
    rw [← Function.update_eq_self (q.passAfter answer).account m.store] at hm
    exact h.rest hrows hm fun _ _ hrow => hrow
  | @unsettled entry rest pass answer =>
    obtain ⟨⟨accounts, metrics, events, hm⟩, hstore⟩ := hm
    refine h.of_same (by rw [hm, hq]; rfl) fun _ _ hrow => ?_
    rwa [hstore]
  | confirmed | stillAwaiting => exact hm.watches (Poller.settling_afterAwaiting _ _)
  | undated | failed => exact hm.watches rfl

end Manager

open Manager

/-- Who is not asked anything by the poller leaves alone what is confirmed, unless the poller
has an attempt at hand that failed. -/
theorem Touches.turns_of_confirmed {m : Manager} {now : Nat} {act : Act} {a : Address}
    {op : Operation} (ht : Touches m now act a op) (hact : ∀ q answer, act ≠ .informed q answer)
    (hpoller : m.poller.tx? = none) {id : String} {e e' : Entry} (hg : e.tx.stage = .confirmed)
    (hturn : op.Turns id (some e) e') :
    ∃ tx reason, act = .answered (.failing tx reason) () ∧ tx.sender = a ∧ tx.id = id := by
  cases ht with
  | abandoned tx reason =>
    exact ⟨tx, reason, rfl, rfl, Option.some.inj (Store.id?_of_turns hturn)⟩
  | admitted tx fresh => cases hturn
  | sent p answer =>
    cases hturn with
    | markBroadcasted _ _ _ hother => simp [hg] at hother
  | finalized | displaced | confirmed | failed => exact (hact _ _ rfl).elim
  | repeated hp | ended hp =>
    rw [hpoller] at hp
    cases hp
  | evicted => cases hturn

/-- The poller has seen to what it has to look at, or what it has to look at has stayed. -/
theorem PartStep.watches_cases {m m' : Manager} {now : Nat} {act : Act}
    (hm : PartStep m now act m') (h : m.Watches) (hc : ∀ a, (m.store a).Consistent) :
    m'.Watches ∨ (∀ q answer, act ≠ .informed q answer) ∧
      m'.poller.settling = m.poller.settling := by
  have hsilent : ∀ q answer, Act.silent ≠ .informed q answer := by
    intro q answer heq
    cases heq
  cases hm with
  | take hm =>
    obtain ⟨tx, rest, metrics, -, -, rfl⟩ := take?_eq_some hm
    exact .inr ⟨hsilent, Poller.settling_grant _⟩
  | @answered a ha answer =>
    obtain ⟨x, stores, ⟨⟨_, _, _, _, hm⟩, -⟩⟩ := m.answered_leaves now a answer
    refine .inr ⟨fun q answer heq => ?_, by rw [hm]⟩
    cases heq
  | wake | beginSweep | sweep | endSweep => exact .inr ⟨hsilent, rfl⟩
  | beginPass | endPass => exact .inl (watches_of_none rfl)
  | survey hp hall => exact .inl (.survey hc hall)
  | collect | usePlace | withoutPlace =>
    exact .inl (watches_of_none (Poller.settling_afterAwaiting _ _))
  | informed hq answer => exact .inl (h.informed hc now hq answer)
  | afterFailure => exact .inl (m.watches_afterFailure now _ _ _ _ _)
  | requeue => exact .inl (m.watches_requeue _ _ _)

namespace System

variable {s s' s₀ : System} {act : Act} {acts : List Act}

theorem Guarded.at_sender (hg : s.Guarded) {tx : Tx} (htx : s.manager.sender.tx? = some tx) :
    ∃ e, (s.manager.store tx.sender).entries.get? tx.id = some e ∧ e.tx.stage.isOpen = true := by
  obtain ⟨dropped, hc, -⟩ := hg.custody
  have hguards := hc.guards
  rw [Manager.copies, htx] at hguards
  obtain ⟨e, he, hopen, -⟩ := (hguards.perm (perm_sender ..)).of_cons
  exact ⟨e, he, hopen⟩

theorem Step.confirms (hs : Step s act s') (hg : s.Guarded)
    (hact : ∀ q answer, act ≠ .informed q answer) (hpoller : s.manager.poller.tx? = none)
    {a : Address} {row : Settling} (hrow : (s.manager.store a).Confirms row) :
    (s'.manager.store a).Confirms row := by
  rcases hs.touched with hstore | ⟨b, op, ht, hstore⟩
  · rwa [hstore]
  · rw [hstore]
    by_cases hb : a = b
    · subst hb
      rw [Function.update_self]
      refine (hg.consistent a).confirms_apply _ op hrow fun e e' hstage he hturn => ?_
      obtain ⟨tx, reason, rfl, rfl, hid⟩ := ht.turns_of_confirmed hact hpoller hstage hturn
      -- what the sender gives up was still to be sent
      have htx : s.manager.sender.tx? = some tx := by rw [hs.attempting]; rfl
      obtain ⟨d, hd, hopen⟩ := hg.at_sender htx
      rw [hid, he, Option.some.injEq] at hd
      rw [← hd, hstage] at hopen
      cases hopen
    · rwa [Function.update_of_ne hb]

theorem Step.watches (hs : Step s act s') (h : s.manager.Watches) (hg : s.Guarded) :
    s'.manager.Watches := by
  have hsame (hact : ∀ q answer, act ≠ .informed q answer)
      (hpoller : s'.manager.poller.settling = s.manager.poller.settling) : s'.manager.Watches :=
    h.of_same hpoller fun hrows _ hrow =>
      hs.confirms hg hact (Poller.tx?_of_settling hrows) hrow
  rcases hs.manager_cases with
    hm | ⟨q, answer, fresh, rfl, hm⟩ | ⟨w, hm⟩ | ⟨w, hm⟩ | ⟨_, _, _, _, hm⟩
  · rcases hm.watches_cases h hg.consistent with h' | ⟨hact, hpoller⟩
    · exact h'
    · exact hsame hact hpoller
  · refine hsame (fun q answer heq => by cases heq) ?_
    rw [hm]
    rcases s.manager.poller_proceed fresh q answer with hp | hp
    · rw [hp]
    · rw [hp, Poller.settling_grant]
  · rw [hm]
    cases w with
    | sender | reaper => exact h.of_same rfl fun _ _ hrow => hrow
    | poller => exact watches_of_none rfl
  · rw [hm]
    cases w with
    | sender => exact h.of_same (Poller.settling_refuse _) fun _ _ hrow => hrow
    | poller => exact watches_of_none rfl
    | reaper => exact h.of_same rfl fun _ _ hrow => hrow
  · rw [hm]
    exact h.of_same rfl fun _ _ hrow => hrow

theorem Run.watches (hr : Run s₀ acts s) (hg : s₀.Guarded) (h : s₀.manager.Watches) :
    s.manager.Watches := by
  induction hr with
  | start => exact h
  | next hr hs ih => exact hs.watches ih (hr.guarded hg)

theorem Guarded.markFatal_sender (hg : s.Guarded) {tx : Tx}
    (htx : s.manager.sender.tx? = some tx) (now : Nat) :
    ∃ t, (s.manager.store tx.sender).markFatal tx.id now = .ok t := by
  obtain ⟨dropped, hc, -⟩ := hg.custody
  have hguards := hc.guards
  rw [Manager.copies, htx] at hguards
  obtain ⟨t, ht, -⟩ := (hguards.perm (perm_sender ..)).markFatal now
  exact ⟨t, ht⟩

theorem Guarded.poller_guards (hg : s.Guarded) {tx : Tx} (htx : s.manager.poller.tx? = some tx)
    {pass : Pass} (hpass : s.manager.poller.pass? = some pass) :
    tx.sender = pass.account ∧ ∃ copies, Guards s.manager.store (tx :: copies) := by
  obtain ⟨dropped, hc, -⟩ := hg.custody
  refine ⟨?_, _, hc.guards_poller htx⟩
  have hrows : ∃ rest, s.manager.poller.awaiting = some (pass.account, rest) := by
    cases hp : s.manager.poller with
    | failed | requeuing | blocked | granted | refused =>
      rw [hp] at hpass
      cases hpass
      exact ⟨_, rfl⟩
    | absent | resting | surveying | collecting | asking | stopped =>
      rw [hp] at htx
      cases htx
  obtain ⟨rest, hrows⟩ := hrows
  exact hc.account htx hrows

/-- What a part of a manager tries on a store is carried out. A transaction that was sent may
have a hash that the store knows. -/
theorem Step.carried_out (hs : Step s act s') (hg : s.Guarded) (hw : s.manager.Watches)
    {a : Address} {op : Operation} (ht : Touches s.manager s.now act a op) (retention : Nat) :
    (∃ tx, op = .addPending tx) ∨ (∃ t, (s.manager.store a).outcome retention op = .ok t) ∨
      ∃ hash expiration tx, op = .markBroadcasted hash expiration tx ∧
        (s.manager.store a).outcome retention op = .error (.duplicateHash hash) := by
  cases ht with
  | admitted tx fresh => exact .inl ⟨tx, rfl⟩
  | sent p answer =>
    have htx : s.manager.sender.tx? = some p.tx := by rw [hs.attempting]; rfl
    obtain ⟨e, he, hopen⟩ := hg.at_sender htx
    have hstage : e.tx.stage = .pending ∨ e.tx.stage = .errored := by
      cases hg : e.tx.stage <;> simp [hg, Stage.isOpen] at hopen ⊢
    refine .inr ?_
    -- nothing but the hash can stand in the way
    obtain hnew | ⟨owner, hknown⟩ :=
      Option.eq_none_or_eq_some ((s.manager.store p.tx.sender).hashes.get? p.signed.id)
    · exact .inl ⟨_, Store.markBroadcasted_eq_ok_iff.mpr ⟨hnew, e, he, hstage, rfl⟩⟩
    · refine .inr ⟨_, _, _, rfl, ?_⟩
      have hcontains : (s.manager.store p.tx.sender).hashes.contains p.signed.id = true := by
        rw [Table.contains, hknown, Option.isSome_some]
      exact if_pos hcontains
  | abandoned tx reason =>
    exact .inr (.inl (hg.markFatal_sender (by rw [hs.attempting]; rfl) s.now))
  | @finalized entry rest pass r hb =>
    have hrows : s.manager.poller.settling = some (pass.account, entry :: rest) := by
      rw [hs.asking]
      rfl
    obtain ⟨e, he, hstage⟩ := (hw.confirms hrows entry List.mem_cons_self).stage
    exact .inr (.inl ⟨_, Store.finish_eq_ok_iff.mpr ⟨e, he, by rw [hstage]; rfl, rfl⟩⟩)
  | @displaced entry rest pass answer =>
    have hrows : s.manager.poller.settling = some (pass.account, entry :: rest) := by
      rw [hs.asking]
      rfl
    obtain ⟨e, he, hstage⟩ := (hw.confirms hrows entry List.mem_cons_self).stage
    exact .inr (.inl ⟨_, Store.markReorganized_eq_ok_iff.mpr ⟨e, he, hstage, rfl⟩⟩)
  | @confirmed entry rest pass r ho =>
    have hrows : s.manager.poller.awaiting = some (pass.account, entry :: rest) := by
      rw [hs.asking]
      rfl
    obtain ⟨e, he, hstage, -⟩ := hg.upToDate.awaits hrows entry List.mem_cons_self
    exact .inr (.inl ⟨_, Store.markConfirmed_eq_ok_iff.mpr ⟨e, he, hstage, rfl⟩⟩)
  | @failed q answer entry rest hq =>
    have hrows : s.manager.poller.awaiting =
        some ((q.passAfter answer).account, entry :: rest) := by
      rw [hs.asking]
      exact Poller.awaiting_asking hq answer
    obtain ⟨e, he, hstage, -⟩ := hg.upToDate.awaits hrows entry List.mem_cons_self
    have herrored := Store.markErrored_eq_ok_iff.mpr ⟨e, he, .inr hstage, rfl, rfl⟩
    exact .inr (.inl ⟨_, Store.map_markErrored_eq_ok_iff.mpr ⟨_, herrored⟩⟩)
  | @repeated tx hp pass hpass kind =>
    obtain ⟨hsender, copies, hguards⟩ := hg.poller_guards hp hpass
    obtain ⟨t, ht, -⟩ := hguards.recordCounters (tx.nextAttempt kind) rfl rfl rfl
    rw [hsender] at ht
    exact .inr (.inl ⟨t, ht⟩)
  | @ended tx hp pass hpass =>
    obtain ⟨hsender, copies, hguards⟩ := hg.poller_guards hp hpass
    obtain ⟨t, ht, -⟩ := hguards.markFatal s.now
    rw [hsender] at ht
    exact .inr (.inl ⟨t, ht⟩)
  | evicted a begun => exact .inr (.inl ⟨_, rfl⟩)

/-- In whatever state a manager is, and whatever answers come in whatever order, a step changes
the stores by no more than one of the operations that it may do, and each of these succeeds if
it does not bring in a request. Only a transaction that the node took may be refused, for a hash
that is on record. -/
theorem never_rejected {settings : Settings} {on : Bool} {m : Manager} {now : Nat}
    (hm : ofSettings settings on = .ok m) (hr : Run { manager := m, now } acts s)
    (hs : Step s act s') :
    Touched s.manager s'.manager s.now act ∧
    ∀ a op, Touches s.manager s.now act a op →
      let outcome := (s.manager.store a).outcome (s.manager.settings.retentionSecs * 1000) op
      (∃ tx, op = .addPending tx) ∨ (∃ t, outcome = .ok t) ∨
        ∃ hash expiration tx, op = .markBroadcasted hash expiration tx ∧
          outcome = .error (.duplicateHash hash) := by
  have hg₀ := guarded_initial hm now
  have hw₀ : m.Watches := by
    obtain ⟨-, rfl⟩ := ofSettings_eq_ok hm
    exact watches_of_none rfl
  have hw := hr.watches hg₀ hw₀
  exact ⟨hs.touched, fun a op ht => hs.carried_out (hr.guarded hg₀) hw ht _⟩

/-- What was confirmed is finalized. Of two alike transactions the second one is refused. -/
theorem never_rejected_oneSample :
    (∃ m acts s act s' t, ofSettings {} false = .ok m ∧ Run { manager := m, now := 0 } acts s ∧
      Step s act s' ∧ (s.manager.store sampleRequest.sender).stage? "t" = some .confirmed ∧
      (s.manager.store sampleRequest.sender).markFinalized "t" s.now = .ok t) ∧
    ∃ m acts s s' p verdict, ofSettings {} false = .ok m ∧
      Run { manager := m, now := 0 } acts s ∧
      Step s (.answered (.sending p) (.ok verdict)) s' ∧
      (s.manager.store p.tx.sender).markBroadcasted p.signed.id p.signed.raw.expiration p.tx =
        .error (.duplicateHash p.signed.id) := by
  constructor
  · obtain ⟨m, acts, s, hash, later, s', hm, hr, hs, hconfirmed, -⟩ := run_oneFinalized
    obtain ⟨-, hall⟩ := never_rejected hm hr hs
    rcases hall _ _ (.finalized rfl) with ⟨tx, hop⟩ | ⟨t, ht⟩ | ⟨_, _, _, hop, -⟩
    · cases hop
    · exact ⟨m, acts, s, _, s', t, hm, hr, hs, hconfirmed, ht⟩
    · cases hop
  · obtain ⟨m, acts, s, u, hm, hr, hsender, hknown⟩ := run_knownSample
    have hs := Step.part (.answered hsender (.ok (.success "")))
    obtain ⟨-, hall⟩ := never_rejected hm hr hs
    rcases hall _ _ (.sent _ _) with ⟨tx, hop⟩ | ⟨t, ht⟩ | ⟨_, _, _, hop, hrefused⟩
    · cases hop
    · have hnew := (Store.markBroadcasted_eq_ok_iff.mp ht).1
      have hc := (hr.guarded (guarded_initial hm 0)).consistent sampleRequest.sender
      exact absurd hknown ((hc.not_knows_iff _).mpr hnew)
    · cases hop
      exact ⟨m, acts, s, _, _, _, hm, hr, hs, hrefused⟩

end System

end TronCourier
