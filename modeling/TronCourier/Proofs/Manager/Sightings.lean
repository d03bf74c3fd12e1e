import TronCourier.Proofs.Manager.Course
import TronCourier.Proofs.Manager.Finality

/-! A transaction is seen twice before it is final, in two passes. A pass looks for the confirmed
transactions of a store before it asks how those ended that were sent, so whatever it finds
confirmed was so before it began. -/

namespace TronCourier

/-- A transaction was sent with a hash, and the hash has not been replaced. -/
def Store.SentAs (s : Store) (id hash : String) : Prop :=
  ∃ e, s.entries.get? id = some e ∧ e.tx.stage = .broadcasted ∧ e.currentHash = some hash

/-- A block is on record only for what is confirmed or has ended. -/
def Entry.NoStaleBlock (e : Entry) : Prop :=
  e.tx.stage ≠ .confirmed → e.tx.stage.isTerminal = false → e.confirmedBlock = none

theorem Operation.Turns.noStaleBlock {op : Operation} {id : String} {old : Option Entry}
    {e' : Entry} (hturn : op.Turns id old e') (h : ∀ e, old = some e → e.NoStaleBlock) :
    e'.NoStaleBlock := by
  intro hstage hopen
  cases hturn with
  | addPending | markBroadcasted | markReorganized => rfl
  | markConfirmed => exact absurd rfl hstage
  | markFinalized | markFatal => cases hopen
  | @markErrored _ e hbefore =>
    refine h e rfl ?_ ?_
    · rcases hbefore with hg | hg
      · simp [hg]
      · simp [hg]
    · rcases hbefore with hg | hg
      · rw [hg]
        rfl
      · rw [hg]
        rfl
  | @recordCounters tx e => exact h e rfl hstage hopen

namespace System

open Manager

variable {s₀ s s' : System} {act : Act} {acts : List Act} {a : Address} {id hash : String}
  {block : Int}

/-- A success is shown for what was sent, under the hash that it was sent with last. -/
theorem Step.shows_sent (hu : s.manager.UpToDate) (hs : Step s act s') {codes : ResultCodes}
    (hshows : act.Shows codes a id hash block) :
    (s.manager.store a).SentAs id hash := by
  obtain ⟨entry, rest, pass, r, rfl, rfl, rfl, rfl, -, -⟩ := hshows
  have hrows : s.manager.poller.awaiting = some (pass.account, entry :: rest) := by
    rw [hs.asking]
    rfl
  obtain ⟨e, he, hstage, hrow⟩ := hu.awaits hrows entry List.mem_cons_self
  obtain ⟨-, hhash, -⟩ := Entry.awaiting?_eq_some_iff.mp hrow
  exact ⟨e, he, hstage, hhash⟩

/-- When a success is shown, the pass has done with what is confirmed in the store. -/
theorem Step.shows_settled (hnodup : s.manager.poller.accounts.Nodup) (hs : Step s act s')
    {codes : ResultCodes} (hshows : act.Shows codes a id hash block) :
    a ∉ s'.manager.poller.unsettled := by
  obtain ⟨entry, rest, pass, r, rfl, rfl, -⟩ := hshows
  have hasking := hs.asking
  rcases hs.continues with hc | ⟨hrest, -⟩
  · rw [hasking] at hnodup hc
    intro ha
    exact (List.nodup_cons.mp hnodup).1 (hc.unsettled.subset ha)
  · rw [hasking] at hrest
    cases hrest

/-- A pass that began after the earlier acts has not ended. -/
structure Passing (s₀ : System) (earlier within : List Act) (b s : System) : Prop where
  run : Run s₀ earlier b
  resting : b.manager.poller = .resting
  since : RunOf (fun _ x => x.manager.poller.IsPassing) b within s

/-- The last of the acts, in a pass, has shown that a transaction succeeded under the hash
that it was sent with, and has confirmed it. -/
def Confirms (s₀ : System) (a : Address) (id hash : String) (block : Int) (acts : List Act)
    (s : System) : Prop :=
  ∃ earlier within act b c, acts = earlier ++ within ++ [act] ∧ Passing s₀ earlier within b c ∧
    (c.manager.store a).SentAs id hash ∧ Step c act s ∧
    act.Shows s₀.manager.settings.resultCodes a id hash block ∧
    (s.manager.store a).ConfirmedAs id hash block

/-- The pass that goes on began with a transaction that an earlier pass had confirmed, and
nothing has happened to it since. -/
def ConfirmedBefore (s₀ : System) (a : Address) (id hash : String) (block : Int)
    (acts : List Act) (s : System) : Prop :=
  ∃ earlier between within c b, acts = earlier ++ between ++ within ∧
    Confirms s₀ a id hash block earlier c ∧
    RunOf (fun _ x => (x.manager.store a).ConfirmedAs id hash block) c between b ∧
    (b.manager.store a).ConfirmedAs id hash block ∧ b.manager.poller = .resting ∧
    RunOf (fun _ x => x.manager.poller.IsPassing ∧
      (x.manager.store a).ConfirmedAs id hash block) b within s

section Run

variable {settings : Settings} {checks : Bool} {m : Manager} {now : Nat}

theorem Run.passing (hr : Run s₀ acts s) (hstart : ¬ s₀.manager.poller.IsPassing)
    (h : s.manager.poller.IsPassing) :
    ∃ earlier within b, acts = earlier ++ within ∧ Passing s₀ earlier within b s := by
  induction hr with
  | start => exact absurd h hstart
  | @next acts act s s' hr hs ih =>
    rcases hs.continues with hc | ⟨hrest, -⟩
    · obtain ⟨earlier, within, b, rfl, hp⟩ := ih (hc.passing h)
      exact ⟨earlier, within ++ [act], b, List.append_assoc .., hp.run, hp.resting,
        hp.since.next hs h⟩
    · exact ⟨acts, [act], s, rfl, hr, hrest, RunOf.start.next hs h⟩

/-- What is confirmed was confirmed at some time of the run and has been since. -/
theorem Run.confirms (hr : Run { manager := m, now } acts s)
    (hm : ofSettings settings checks = .ok m)
    (h : (s.manager.store a).ConfirmedAs id hash block) :
    ∃ earlier later c, acts = earlier ++ later ∧
      Confirms { manager := m, now } a id hash block earlier c ∧
      RunOf (fun _ x => (x.manager.store a).ConfirmedAs id hash block) c later s := by
  have hu := upToDate_initial hm
  induction hr with
  | start =>
    obtain ⟨e, he, -⟩ := h
    rw [store_initial hm] at he
    cases he
  | @next acts act s s' hr hs ih =>
    rcases hs.confirmed_cases (hr.upToDate hu) h with hbefore | hshows
    · obtain ⟨earlier, later, c, rfl, hc, hsince⟩ := ih hbefore
      exact ⟨earlier, later ++ [act], c, List.append_assoc .., hc, hsince.next hs h⟩
    · have hsent := hs.shows_sent (hr.upToDate hu) hshows
      have hpassing : s.manager.poller.IsPassing := by
        obtain ⟨entry, rest, pass, r, rfl, -⟩ := hshows
        rw [hs.asking]
        trivial
      have hstart : ¬ m.poller.IsPassing := by
        rw [(ofSettings_eq_ok hm).2]
        exact not_false
      obtain ⟨earlier, within, b, rfl, hp⟩ := hr.passing hstart hpassing
      rw [hr.settings] at hshows
      exact ⟨_, [], s', (List.append_nil _).symm,
        ⟨earlier, within, act, b, s, rfl, hp, hsent, hs, hshows, h⟩, .start⟩

/-- What is confirmed in a store that the pass has not done with was so when it began. -/
theorem Run.confirmedBefore (hr : Run { manager := m, now } acts s)
    (hm : ofSettings settings checks = .ok m)
    (ha : a ∈ s.manager.poller.unsettled)
    (h : (s.manager.store a).ConfirmedAs id hash block) :
    ConfirmedBefore { manager := m, now } a id hash block acts s := by
  have hu := upToDate_initial hm
  induction hr with
  | start =>
    obtain ⟨e, he, -⟩ := h
    rw [store_initial hm] at he
    cases he
  | @next acts act s s' hr hs ih =>
    have hpassing := Poller.isPassing_of_unsettled ha
    -- to confirm it now, the poller would have to be past its store
    have hbefore : (s.manager.store a).ConfirmedAs id hash block := by
      rcases hs.confirmed_cases (hr.upToDate hu) h with hbefore | hshows
      · exact hbefore
      · exact absurd ha (hs.shows_settled (hr.nodup_accounts hm) hshows)
    rcases hs.continues with hc | ⟨hrest, -⟩
    · obtain ⟨earlier, between, within, c, b, rfl, hconfirms, hbetween, hb, hrest, hsince⟩ :=
        ih (hc.unsettled.subset ha) hbefore
      exact ⟨earlier, between, within ++ [act], c, b, List.append_assoc .., hconfirms, hbetween,
        hb, hrest, hsince.next hs ⟨hpassing, h⟩⟩
    · obtain ⟨earlier, between, c, rfl, hconfirms, hbetween⟩ := hr.confirms hm hbefore
      exact ⟨earlier, between, [act], c, s, rfl, hconfirms, hbetween, hbefore, hrest,
        RunOf.start.next hs ⟨hpassing, h⟩⟩

theorem Run.noStaleBlock (hr : Run { manager := m, now } acts s)
    (hm : ofSettings settings checks = .ok m) {e : Entry}
    (he : (s.manager.store a).entries.get? id = some e) : e.NoStaleBlock := by
  induction hr generalizing e with
  | start =>
    rw [store_initial hm] at he
    cases he
  | next hr hs ih =>
    rcases hs.get?_cases he with hsame | ⟨op, -, hturn⟩
    · exact ih hsame
    · exact hturn.noStaleBlock fun d hd => ih hd

/-- A transaction becomes final in a pass that began with it confirmed, when a solid block of
the recorded number has its current hash. An earlier pass had confirmed it in that block, from
a receipt of that hash that shows a success, and nothing has happened to it since. A block
goes off the record as soon as what it was recorded for is displaced or sent again. -/
theorem finalized_by_second_pass (hm : ofSettings settings checks = .ok m)
    (hr : Run { manager := m, now } acts s) :
    (∀ {a id e}, (s.manager.store a).entries.get? id = some e → e.NoStaleBlock) ∧
    ∀ {act s' a id}, Step s act s' → (s.manager.store a).stage? id ≠ some .finalized →
      (s'.manager.store a).stage? id = some .finalized →
      ∃ entry rest pass r, act = .informed (.solid entry rest pass) (.ok (some r)) ∧
        pass.account = a ∧ entry.id = id ∧
        ConfirmedBefore { manager := m, now } a id entry.hash r.block acts s := by
  refine ⟨hr.noStaleBlock hm, ?_⟩
  intro act s' a id hs hbefore hafter
  obtain ⟨entry, rest, pass, r, rfl, rfl, rfl, hconfirmed⟩ :=
    hs.finalized_cases (hr.upToDate (upToDate_initial hm)) hbefore hafter
  have ha : pass.account ∈ s.manager.poller.unsettled := by
    rw [hs.asking]
    exact List.mem_cons_self
  exact ⟨entry, rest, pass, r, rfl, rfl, rfl, hr.confirmedBefore hm ha hconfirmed⟩

end Run

section Sample

theorem finalized_by_second_pass_oneSample : ∃ m acts s act s' hash,
    ofSettings {} false = .ok m ∧ Run { manager := m, now := 0 } acts s ∧ Step s act s' ∧
    (s'.manager.store sampleRequest.sender).stage? "t" = some .finalized ∧
    ConfirmedBefore { manager := m, now := 0 } sampleRequest.sender "t" hash 7 acts s := by
  obtain ⟨m, acts, s, hash, later, s', hm, h, hs, hconfirmed, hfinal⟩ := run_oneFinalized
  have hbefore : (s.manager.store sampleRequest.sender).stage? "t" ≠ some .finalized := by
    rw [hconfirmed]
    decide
  obtain ⟨entry, rest, pass, r, hact, -, -, hseen⟩ :=
    (finalized_by_second_pass hm h).2 hs hbefore hfinal
  cases hact
  exact ⟨m, acts, s, _, s', hash, hm, h, hs, hfinal, hseen⟩

end Sample

end System

end TronCourier
