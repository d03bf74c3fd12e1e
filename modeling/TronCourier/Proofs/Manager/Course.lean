import TronCourier.Proofs.Manager.Lookup
import TronCourier.Proofs.Manager.Pass

/-! How the poller goes by the stores in a pass, among all that goes on beside it. It is done with
what is confirmed in a store before it comes to what waits there for a receipt, and comes by no
store twice. -/

namespace TronCourier

namespace Poller

/-- Whether the poller is in a pass, be it that it waits for a place in the queue. -/
def IsPassing : Poller → Prop
  | .surveying _ | .collecting _ | .asking _ | .failed _ _ _ _ _ | .requeuing _ _ _
  | .blocked _ _ _ | .granted _ _ _ | .refused _ _ _ => True
  | .absent | .resting | .stopped => False

/-- The senders in whose stores a pass has not done with the confirmed transactions. -/
def unsettled : Poller → List Address
  | .surveying later => later
  | .asking (.solid _ _ pass) | .asking (.tip _ _ pass) => pass.account :: pass.later
  | .collecting pass | .asking (.receipt _ _ pass) | .asking (.clock _ _ pass)
  | .failed _ _ _ _ pass | .requeuing _ _ pass | .blocked _ _ pass | .granted _ _ pass
  | .refused _ _ pass => pass.later
  | .absent | .resting | .stopped => []

/-- The poller is where it was or has gone on, and is not in another pass than before. -/
structure Continues (p x : Poller) : Prop where
  passing : x.IsPassing → p.IsPassing
  accounts : x.accounts <:+ p.accounts
  unsettled : x.unsettled <:+ p.unsettled

variable {p x : Poller} {pass : Pass}

theorem isPassing_of_accounts {a : Address} {later : List Address}
    (h : p.accounts = a :: later) : p.IsPassing := by
  cases p with
  | absent | resting | stopped => cases h
  | surveying | collecting | asking | failed | requeuing | blocked | granted | refused => trivial

theorem isPassing_of_unsettled {a : Address} (h : a ∈ p.unsettled) : p.IsPassing := by
  cases p with
  | absent | resting | stopped => cases h
  | surveying | collecting | asking | failed | requeuing | blocked | granted | refused => trivial

theorem unsettled_afterAwaiting (pass : Pass) (rest : List Awaiting) :
    (afterAwaiting pass rest).unsettled = pass.later := by
  cases rest with
  | nil => rfl
  | cons e rest => rfl

theorem unsettled_afterSettling (pass : Pass) (rest : List Settling) :
    (afterSettling pass rest).unsettled <:+ pass.account :: pass.later := by
  cases rest with
  | nil => exact List.suffix_cons _ _
  | cons e rest => exact List.suffix_rfl

theorem later_unsettled_asking (q : Inquiry) (answer : q.Answer) :
    (q.passAfter answer).later <:+ (asking q).unsettled := by
  cases q with
  | solid | tip => exact List.suffix_cons _ _
  | receipt => exact List.suffix_rfl
  | clock entry rest pass =>
    cases answer with
    | error e => exact List.suffix_rfl
    | ok block => exact List.suffix_rfl

theorem unsettled_asking_settling {q : Inquiry} {entry : Settling} {rest : List Settling}
    (h : q.settling? = some (entry, rest)) (answer : q.Answer) :
    (asking q).unsettled = (q.passAfter answer).account :: (q.passAfter answer).later := by
  cases q with
  | solid | tip => rfl
  | receipt | clock => cases h

theorem Continues.refl (p : Poller) : p.Continues p :=
  ⟨id, List.suffix_rfl, List.suffix_rfl⟩

theorem continues_of_not_passing (p : Poller) (hx : ¬ x.IsPassing) : p.Continues x := by
  cases x with
  | absent | resting | stopped =>
    exact ⟨fun h => h.elim, List.nil_suffix, List.nil_suffix⟩
  | surveying | collecting | asking | failed | requeuing | blocked | granted | refused =>
    exact absurd trivial hx

theorem continues_grant (p : Poller) : p.Continues p.grant := by
  cases p with
  | blocked tx rest pass => exact ⟨id, List.suffix_rfl, List.suffix_rfl⟩
  | _ => exact .refl _

theorem continues_refuse (p : Poller) : p.Continues p.refuse := by
  cases p with
  | blocked tx rest pass | granted tx rest pass =>
    exact ⟨id, List.suffix_rfl, List.suffix_rfl⟩
  | _ => exact .refl _

theorem continues_afterSettling (hp : p.accounts = pass.account :: pass.later)
    (hu : p.unsettled = pass.account :: pass.later) (rest : List Settling) :
    p.Continues (.afterSettling pass rest) where
  passing _ := isPassing_of_accounts hp
  accounts := by rw [hp, accounts_afterSettling]
  unsettled := hu ▸ unsettled_afterSettling pass rest

/-- The confirmed transactions of the store at hand have been seen to. -/
theorem continues_awaiting (hp : p.accounts = pass.account :: pass.later)
    (hlater : pass.later <:+ p.unsettled) (hx : x.accounts <:+ pass.account :: pass.later)
    (hu : x.unsettled = pass.later) : p.Continues x where
  passing _ := isPassing_of_accounts hp
  accounts := hp ▸ hx
  unsettled := hu ▸ hlater

theorem continues_afterAwaiting (hp : p.accounts = pass.account :: pass.later)
    (hlater : pass.later <:+ p.unsettled) (rest : List Awaiting) :
    p.Continues (.afterAwaiting pass rest) :=
  continues_awaiting hp hlater (accounts_afterAwaiting pass rest)
    (unsettled_afterAwaiting pass rest)

end Poller

namespace Manager

variable {m m' : Manager} {now : Nat} {act : Act}

theorem continues_informed (m : Manager) (now : Nat) (q : Inquiry) (answer : q.Answer) :
    (Poller.asking q).Continues (m.informed now q answer).poller := by
  obtain ⟨x, stores, ⟨⟨_, _, _, hm⟩, -⟩, hx⟩ := m.heard_informed now q answer
  rw [hm]
  cases hx with
  | finalized | displaced => exact Poller.continues_afterSettling rfl rfl _
  | unsettled | undated => exact ⟨id, List.suffix_rfl, List.suffix_rfl⟩
  | stillSettling answer hq =>
    exact Poller.continues_afterSettling (Poller.accounts_asking q answer)
      (Poller.unsettled_asking_settling hq answer) _
  | confirmed => exact Poller.continues_afterAwaiting rfl List.suffix_rfl _
  | failed answer =>
    exact Poller.continues_awaiting (Poller.accounts_asking q answer)
      (Poller.later_unsettled_asking q answer) List.suffix_rfl rfl
  | stillAwaiting answer =>
    exact Poller.continues_afterAwaiting (Poller.accounts_asking q answer)
      (Poller.later_unsettled_asking q answer) _

theorem continues_afterFailure (m : Manager) (now : Nat) (tx : Tx) (reason : String)
    (next : Option RetryKind) (rest : List Awaiting) (pass : Pass) :
    (Poller.failed tx reason next rest pass).Continues
      (m.afterFailure now tx reason next rest pass).poller := by
  rcases m.afterFailure_cases now tx reason next rest pass with
    ⟨⟨_, _, _, hm⟩, -⟩ | ⟨kind, ⟨_, -, ⟨_, _, _, hm⟩, -⟩ | ⟨_, -, ⟨_, _, _, hm⟩, -⟩⟩
  · rw [hm]
    exact Poller.continues_afterAwaiting rfl List.suffix_rfl _
  · rw [hm]
    exact ⟨id, List.suffix_rfl, List.suffix_rfl⟩
  · rw [hm]
    exact Poller.continues_afterAwaiting rfl List.suffix_rfl _

theorem continues_requeue (m : Manager) (tx : Tx) (rest : List Awaiting) (pass : Pass) :
    (Poller.requeuing tx rest pass).Continues (m.requeue tx rest pass).poller := by
  rcases m.requeue_cases tx rest pass with hm | ⟨x, rfl | rfl, hm⟩
  · rw [hm]
    exact Poller.continues_afterAwaiting rfl List.suffix_rfl _
  · rw [hm]
    exact ⟨id, List.suffix_rfl, List.suffix_rfl⟩
  · rw [hm]
    exact ⟨id, List.suffix_rfl, List.suffix_rfl⟩

end Manager

open Manager

/-- The poller of a part's step goes on, or it begins a pass over all stores. -/
theorem PartStep.continues {m m' : Manager} {now : Nat} {act : Act}
    (hs : PartStep m now act m') : m.poller.Continues m'.poller ∨
      m.poller = .resting ∧ ∃ accounts, accounts.Perm m.accounts.stores.keys ∧
        m' = m.beginPass accounts := by
  cases hs with
  | take hm =>
    obtain ⟨tx, rest, metrics, -, -, rfl⟩ := take?_eq_some hm
    exact .inl (Poller.continues_grant _)
  | @answered a ha answer =>
    obtain ⟨x, stores, ⟨⟨_, _, _, _, hm⟩, -⟩⟩ := m.answered_leaves now a answer
    rw [hm]
    exact .inl (.refl _)
  | wake | beginSweep | sweep | endSweep => exact .inl (.refl _)
  | beginPass hp hall => exact .inr ⟨hp, _, hall, rfl⟩
  | survey hp hall =>
    rw [hp]
    exact .inl (Poller.continues_afterSettling rfl rfl _)
  | collect hp hall =>
    rw [hp]
    exact .inl (Poller.continues_afterAwaiting rfl List.suffix_rfl _)
  | endPass hp => exact .inl (Poller.continues_of_not_passing _ id)
  | @informed q hp answer =>
    rw [hp]
    exact .inl (m.continues_informed now q answer)
  | afterFailure hp =>
    rw [hp]
    exact .inl (m.continues_afterFailure now ..)
  | requeue hp =>
    rw [hp]
    exact .inl (m.continues_requeue ..)
  | usePlace hp | withoutPlace hp =>
    rw [hp]
    exact .inl (Poller.continues_afterAwaiting rfl List.suffix_rfl _)

namespace System

variable {s₀ s s' : System} {act : Act} {acts : List Act} {a : Address} {id : String}

theorem Step.continues (hs : Step s act s') :
    s.manager.poller.Continues s'.manager.poller ∨
      s.manager.poller = .resting ∧ ∃ accounts,
        accounts.Perm s.manager.accounts.stores.keys ∧
        s'.manager = s.manager.beginPass accounts := by
  rcases hs.manager_cases with
    hm | ⟨q, answer, fresh, -, hm⟩ | ⟨w, hm⟩ | ⟨w, hm⟩ | ⟨_, _, _, _, hm⟩
  · exact hm.continues
  · rw [hm]
    rcases s.manager.poller_proceed fresh q answer with hp | hp
    · rw [hp]
      exact .inl (.refl _)
    · rw [hp]
      exact .inl (Poller.continues_grant _)
  · rw [hm]
    cases w with
    | sender | reaper => exact .inl (.refl _)
    | poller => exact .inl (Poller.continues_of_not_passing _ id)
  · rw [hm]
    cases w with
    | sender => exact .inl (Poller.continues_refuse _)
    | poller => exact .inl (Poller.continues_of_not_passing _ id)
    | reaper => exact .inl (.refl _)
  · rw [hm]
    exact .inl (.refl _)

theorem Step.nodup_accounts (hdistinct : s.manager.accounts.Distinct)
    (h : s.manager.poller.accounts.Nodup) (hs : Step s act s') :
    s'.manager.poller.accounts.Nodup := by
  rcases hs.continues with hc | ⟨-, accounts, hall, hm⟩
  · exact h.sublist hc.accounts.sublist
  · rw [hm]
    exact hall.nodup_iff.mpr hdistinct

section Run

variable {settings : Settings} {checks : Bool} {m : Manager} {now : Nat}

theorem Run.nodup_accounts (hr : Run { manager := m, now } acts s)
    (hm : ofSettings settings checks = .ok m) : s.manager.poller.accounts.Nodup := by
  have hstart : m.poller.accounts.Nodup := by
    rw [(ofSettings_eq_ok hm).2]
    exact List.nodup_nil
  induction hr with
  | start => exact hstart
  | next hr hs ih => exact hs.nodup_accounts (hr.distinct hm) ih

end Run

end System

end TronCourier
