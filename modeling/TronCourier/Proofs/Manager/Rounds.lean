import TronCourier.Proofs.Manager.Acceptance
import TronCourier.Proofs.Manager.Lookup

/-! Runs in which the poller makes its rounds and nobody is in the way. It goes by the stores,
hears what became of what was sent, and puts a failed attempt into the queue once more. -/

namespace TronCourier.System

open Manager

variable {s₀ s : System} {acts : List Act} {a : Address} {id : String}

theorem Run.begin_at (hr : Run s₀ acts s) (hrest : s.manager.poller = .resting)
    (hdistinct : s.manager.accounts.Distinct) {e : Entry}
    (he : (s.manager.store a).entries.get? id = some e) :
    ∃ later, (∀ b ∈ later, b ≠ a) ∧
      Run s₀ (acts ++ [Act.silent]) { s with manager := s.manager.beginPass (a :: later) } := by
  have ha : a ∈ s.manager.accounts.stores.keys :=
    List.mem_map_of_mem (Accounts.mem_rows_of_entry he)
  have hothers (b : Address) (hb : b ∈ s.manager.accounts.stores.keys.erase a) : b ≠ a :=
    ((List.Nodup.mem_erase_iff hdistinct).mp hb).1
  exact ⟨_, hothers, hr.next (.part (.beginPass hrest (List.perm_cons_erase ha).symm))⟩

/-- Nothing is confirmed in the next store. -/
theorem Run.collect (hr : Run s₀ acts s) {later : List Address}
    (hp : s.manager.poller = .surveying (a :: later))
    (hsettling : [].Perm (s.manager.store a).settlingRows) {rows : List Awaiting}
    (hawaiting : rows.Perm (s.manager.store a).awaitingRows) :
    Run s₀ (acts ++ [Act.silent] ++ [Act.silent]) { s with
      manager := { s.manager with poller := .afterAwaiting { account := a, later } rows } } := by
  have hcollecting : (s.manager.afterSettling [] { account := a, later }).poller =
      .collecting { account := a, later } := rfl
  exact (hr.next (.part (.survey hp hsettling))).next (.part (.collect hcollecting hawaiting))

/-- There is nothing to look at in the stores that are left. -/
theorem Run.skip {later : List Address} (hr : Run s₀ acts s)
    (hp : s.manager.poller = .surveying later) (hempty : ∀ b ∈ later, s.manager.store b = .empty) :
    ∃ acts, Run s₀ acts { s with manager := { s.manager with poller := .surveying [] } } := by
  induction later generalizing s acts with
  | nil =>
    rw [← hp]
    exact ⟨acts, hr⟩
  | cons b later ih =>
    have hb := hempty b List.mem_cons_self
    have hsettling : [].Perm (s.manager.store b).settlingRows := by rw [hb]; exact .refl _
    have hawaiting : [].Perm (s.manager.store b).awaitingRows := by rw [hb]; exact .refl _
    have h := hr.collect hp hsettling hawaiting
    obtain ⟨acts', h'⟩ := ih h rfl fun b hb => hempty b (List.mem_cons_of_mem _ hb)
    exact ⟨acts', h'⟩

/-- The last receipt of a store shows a success. -/
theorem Run.confirm (hr : Run s₀ acts s) {entry : Awaiting} {pass : Pass} {r : Node.Receipt}
    (hasking : s.manager.poller = .asking (.receipt entry [] pass))
    (hsuccess : Outcome.ofReceipt s.manager.settings.resultCodes r = .success) {t : Store}
    (ht : (s.manager.store pass.account).markConfirmed entry.id r.block = .ok t) :
    ∃ accounts metrics events,
      accounts.store = Function.update s.manager.store pass.account t ∧
      Run s₀ (acts ++ [.informed (.receipt entry [] pass) (.ok (some r))]) { s with
        manager := { s.manager with
          accounts := accounts, metrics := metrics, events := events,
          poller := .surveying pass.later } } := by
  obtain ⟨⟨accounts, metrics, events, hconfirm⟩, hstore⟩ :=
    s.manager.leaves_confirm pass.account entry.id r.block
  rw [storesAfter_ok ht, hconfirm] at hstore
  have hm : s.manager.informed s.now (.receipt entry [] pass) (.ok (some r)) =
      (s.manager.confirm pass.account entry.id r.block).afterAwaiting [] pass := by
    simp only [informed, withReceipt, hsuccess]
  rw [hconfirm] at hm
  have h := hr.next (.part (.informed hasking (.ok (some r))))
  rw [hm] at h
  exact ⟨accounts, metrics, events, hstore, h⟩

theorem exists_step_finalize {entry : Settling} {pass : Pass} {r : Node.Receipt}
    (hasking : s.manager.poller = .asking (.solid entry [] pass)) (hblock : r.block = entry.block)
    {t : Store} (ht : (s.manager.store pass.account).markFinalized entry.id s.now = .ok t) :
    ∃ s', Step s (.informed (.solid entry [] pass) (.ok (some r))) s' ∧
      s'.manager.store pass.account = t := by
  refine ⟨_, .part (.informed hasking (.ok (some r))), ?_⟩
  have hm : s.manager.informed s.now (.solid entry [] pass) (.ok (some r)) =
      (s.manager.finalize s.now pass.account entry.id).afterSettling [] pass := if_pos hblock
  have hstore := (s.manager.leaves_finalize s.now pass.account entry.id).2
  rw [storesAfter_ok ht] at hstore
  rw [hm]
  show (s.manager.finalize s.now pass.account entry.id).store pass.account = t
  rw [hstore, Function.update_self]

/-- The last receipt of a store shows that the energy did not suffice. -/
theorem Run.outOfEnergy (hr : Run s₀ acts s) {entry : Awaiting} {pass : Pass} {r : Node.Receipt}
    (hasking : s.manager.poller = .asking (.receipt entry [] pass))
    (houtcome : Outcome.ofReceipt s.manager.settings.resultCodes r = .outOfEnergy) {t : Store}
    {tx : Tx} (ht : (s.manager.store pass.account).markErrored entry.id = .ok (t, tx)) :
    ∃ accounts metrics events,
      accounts.store = Function.update s.manager.store pass.account t ∧
      Run s₀ (acts ++ [.informed (.receipt entry [] pass) (.ok (some r))]) { s with
        manager := { s.manager with
          accounts := accounts, metrics := metrics, events := events,
          poller := .failed tx Outcome.outOfEnergyCode (some .moreEnergy) [] pass } } := by
  obtain ⟨⟨accounts, metrics, events, hmove⟩, hstore⟩ :=
    s.manager.leaves_move pass.account entry.id t
  rw [hmove] at hstore
  have hm : s.manager.informed s.now (.receipt entry [] pass) (.ok (some r)) = { s.manager with
      accounts := accounts, metrics := metrics, events := events,
      poller := .failed tx Outcome.outOfEnergyCode (some .moreEnergy) [] pass } := by
    simp only [informed, withReceipt, houtcome, failAttempt, ht, hmove]
  have h := hr.next (.part (.informed hasking (.ok (some r))))
  rw [hm] at h
  exact ⟨accounts, metrics, events, hstore, h⟩

/-- The limits allow another attempt, and there is room in the queue. -/
theorem Run.tryAgain (hr : Run s₀ acts s) {tx : Tx} {reason : String} {kind : RetryKind}
    {pass : Pass} (hfailed : s.manager.poller = .failed tx reason (some kind) [] pass)
    (hceiling : s.manager.ceiling? tx kind = none) {t : Store}
    (ht : (s.manager.store pass.account).recordCounters (tx.nextAttempt kind) = .ok t)
    (hopen : s.manager.queueOpen = true) (hroom : s.manager.hasRoom = true) :
    ∃ accounts metrics events,
      accounts.store = Function.update s.manager.store pass.account t ∧
      Run s₀ (acts ++ [Act.silent] ++ [Act.silent]) { s with
        manager := { s.manager with
          accounts := accounts, metrics := metrics, events := events,
          queue := s.manager.queue ++ [tx.nextAttempt kind],
          poller := .surveying pass.later } } := by
  have hretry : s.manager.PollerLeaves (s.manager.afterFailure s.now tx reason (some kind) [] pass)
      (.requeuing (tx.nextAttempt kind) [] pass)
      (Function.update s.manager.store pass.account t) := by
    have hm : s.manager.afterFailure s.now tx reason (some kind) [] pass =
        s.manager.retry tx reason kind [] pass := by simp only [afterFailure, hceiling]
    rw [hm]
    rcases s.manager.retry_cases tx reason kind [] pass with ⟨t', ht', hleaves⟩ | ⟨e, he, -⟩
    · cases ht.symm.trans ht'
      exact hleaves
    · cases ht.symm.trans he
  obtain ⟨⟨accounts, metrics, events, hretry⟩, hstore⟩ := hretry
  rw [hretry] at hstore
  have h₁ := hr.next (.part (.afterFailure hfailed))
  rw [hretry] at h₁
  have h₂ := h₁.next (.part (.requeue rfl))
  have hroom : ({ s.manager with
      poller := .requeuing (tx.nextAttempt kind) [] pass, accounts := accounts,
      metrics := metrics, events := events } : Manager).hasRoom = true := by
    rw [← hroom, hasRoom, hasRoom, queueLength, queueLength, hfailed]
  rw [requeue_of_hasRoom hroom hopen] at h₂
  exact ⟨accounts, metrics, events, hstore, h₂⟩

section Sample

/-- The stores when the sample is all that came in, and this was done to it. -/
def oneSample (ops : List Operation) : Address → Store :=
  Function.update (fun _ => .empty) sampleRequest.sender
    (Store.empty.run 0 (.addPending (.ofRequest "t" sampleRequest) :: ops))

/-- A manager by default, whose reaper was not set going, has only the sample on record. -/
structure HasSample (s : System) (ops : List Operation) : Prop where
  settings : s.manager.settings = {}
  estimator : s.manager.estimator = .ofSettings {}
  promised : s.manager.promised = 0
  isOpen : s.manager.queueOpen = true
  reaper : s.manager.reaper = .absent
  submissions : s.submissions = []
  now : s.now = 0
  store : s.manager.store = oneSample ops

theorem run_oneSending : ∃ m acts s u, ofSettings {} false = .ok m ∧
    Run { manager := m, now := 0 } acts s ∧
    s.manager.sender = .busy (.sending (sampleParcel "t" u)) ∧ s.manager.queue = [] ∧
    s.calls = [.spawning [.poller, .reaper]] ∧ s.HasSample [] := by
  obtain ⟨u, hu⟩ := unsigned_sample
  obtain ⟨call, hcall⟩ : ∃ call, Fee.simulated (.ofRequest "t" sampleRequest) = .ok call :=
    ⟨_, rfl⟩
  obtain ⟨m, acts, s, hm, h, hs⟩ := run_estimating (r := sampleRequest) rfl hcall
  obtain ⟨later, h₁⟩ := h.sendingFree hs.sender hs.estimator hs.settings rfl
    (hu _ "t" hs.settings)
  have hnone : s.submissions = [] := by rw [submissions, hs.calls]; rfl
  refine ⟨m, _, _, u, hm, h₁, ?_, hs.queue, hs.calls, hs.settings, hs.estimator, hs.promised,
    hs.isOpen, hs.reaper, hnone, hs.now, hs.store⟩
  rw [hs.now]
  rfl

/-- The sample was sent, and the poller has not looked at it yet. -/
theorem run_oneSent : ∃ m acts s hash expiration, ofSettings {} false = .ok m ∧
    Run { manager := m, now := 0 } acts s ∧ s.manager.poller = .resting ∧
    s.manager.sender = .idle ∧ s.manager.queue = [] ∧
    s.HasSample [.markBroadcasted hash expiration (.ofRequest "t" sampleRequest)] := by
  obtain ⟨m, acts, s, u, hm, h, hsender, hqueue, hcalls, hs⟩ := run_oneSending
  have ht : ∃ t, (s.manager.store (sampleParcel "t" u).tx.sender).markBroadcasted
      (sampleParcel "t" u).signed.id (sampleParcel "t" u).signed.raw.expiration
      (sampleParcel "t" u).tx = .ok t ∧ Function.update (oneSample []) sampleRequest.sender t =
      oneSample [.markBroadcasted (sampleParcel "t" u).signed.id
        (sampleParcel "t" u).signed.raw.expiration (.ofRequest "t" sampleRequest)] := by
    rw [hs.store]
    exact ⟨_, rfl, Function.update_idem ..⟩
  obtain ⟨t, ht, hsent⟩ := ht
  obtain ⟨accounts, metrics, events, haccounts, h₁⟩ :=
    h.accepted hsender (show (Node.Verdict.success "").accepted = true from rfl) ht
  have h₂ := h₁.next (@Step.spawn _ [] [] .poller [.reaper] hcalls)
  rw [hs.store] at haccounts
  exact ⟨m, _, _, (sampleParcel "t" u).signed.id, (sampleParcel "t" u).signed.raw.expiration, hm,
    h₂, rfl, rfl, hqueue, { hs with submissions := rfl, store := haccounts.trans hsent }⟩

/-- It asks for the receipt. -/
theorem run_oneAsking : ∃ m acts s hash expiration later, ofSettings {} false = .ok m ∧
    Run { manager := m, now := 0 } acts s ∧ s.manager.poller =
      .asking (.receipt ⟨"t", hash, expiration⟩ [] { account := sampleRequest.sender, later }) ∧
    (∀ b ∈ later, b ≠ sampleRequest.sender) ∧ s.manager.sender = .idle ∧ s.manager.queue = [] ∧
    s.HasSample [.markBroadcasted hash expiration (.ofRequest "t" sampleRequest)] := by
  obtain ⟨m, acts, s, hash, expiration, hm, h, hrest, hidle, hqueue, hs⟩ := run_oneSent
  have he : ∃ e, (s.manager.store sampleRequest.sender).entries.get? "t" = some e := by
    rw [hs.store]
    exact ⟨_, rfl⟩
  obtain ⟨e, he⟩ := he
  obtain ⟨later, hlater, h₁⟩ := h.begin_at hrest (h.distinct hm) he
  have hsettling : [].Perm (s.manager.store sampleRequest.sender).settlingRows := by
    rw [hs.store]
    exact .refl _
  have hawaiting : [Awaiting.mk "t" hash expiration].Perm
      (s.manager.store sampleRequest.sender).awaitingRows := by
    rw [hs.store]
    exact .refl _
  have h₂ := h₁.collect rfl hsettling hawaiting
  exact ⟨m, _, _, hash, expiration, later, hm, h₂, rfl, hlater, hidle, hqueue, { hs with }⟩

def successSample (hash : String) : Node.Receipt :=
  { id := hash, block := 7, code := some "SUCCESS" }

/-- In its first pass the poller finds that the sample has succeeded in block 7. -/
theorem run_oneConfirmed : ∃ m acts s hash expiration, ofSettings {} false = .ok m ∧
    Run { manager := m, now := 0 } acts s ∧ s.manager.poller = .resting ∧
    s.HasSample [.markBroadcasted hash expiration (.ofRequest "t" sampleRequest),
      .markConfirmed "t" 7] := by
  obtain ⟨m, acts, s, hash, expiration, later, hm, h, hasking, hlater, -, -, hs⟩ := run_oneAsking
  have ht : ∃ t, (s.manager.store sampleRequest.sender).markConfirmed "t" 7 = .ok t ∧
      Function.update s.manager.store sampleRequest.sender t = oneSample [
        .markBroadcasted hash expiration (.ofRequest "t" sampleRequest),
        .markConfirmed "t" 7] := by
    rw [hs.store]
    exact ⟨_, rfl, Function.update_idem ..⟩
  obtain ⟨t, ht, hconfirmed⟩ := ht
  have hsuccess : Outcome.ofReceipt s.manager.settings.resultCodes (successSample hash) =
      .success := by
    rw [hs.settings]
    rfl
  obtain ⟨accounts, metrics, events, haccounts, h₁⟩ := h.confirm hasking hsuccess ht
  rw [hconfirmed] at haccounts
  have hothers (b : Address) (hb : b ∈ later) : accounts.store b = .empty := by
    rw [haccounts]
    exact Function.update_of_ne (hlater b hb) ..
  obtain ⟨acts, h₂⟩ := h₁.skip rfl hothers
  exact ⟨m, _, _, hash, expiration, hm, h₂.next (.part (.endPass rfl)), rfl,
    { hs with store := haccounts }⟩

/-- In its second pass it asks whether a solid block has the sample. -/
theorem run_oneSettling : ∃ m acts s hash expiration later, ofSettings {} false = .ok m ∧
    Run { manager := m, now := 0 } acts s ∧ s.manager.poller =
      .asking (.solid ⟨"t", hash, 7⟩ [] { account := sampleRequest.sender, later }) ∧
    s.HasSample [.markBroadcasted hash expiration (.ofRequest "t" sampleRequest),
      .markConfirmed "t" 7] := by
  obtain ⟨m, acts, s, hash, expiration, hm, h, hrest, hs⟩ := run_oneConfirmed
  have he : ∃ e, (s.manager.store sampleRequest.sender).entries.get? "t" = some e := by
    rw [hs.store]
    exact ⟨_, rfl⟩
  obtain ⟨e, he⟩ := he
  obtain ⟨later, -, h₁⟩ := h.begin_at hrest (h.distinct hm) he
  have hsettling : [Settling.mk "t" hash 7].Perm
      (s.manager.store sampleRequest.sender).settlingRows := by
    rw [hs.store]
    exact .refl _
  exact ⟨m, _, _, hash, expiration, later, hm, h₁.next (.part (.survey rfl hsettling)), rfl,
    { hs with }⟩

/-- It hears that a solid block has it. -/
theorem run_oneFinalized : ∃ m acts s hash later s', ofSettings {} false = .ok m ∧
    Run { manager := m, now := 0 } acts s ∧
    Step s (.informed (.solid ⟨"t", hash, 7⟩ [] { account := sampleRequest.sender, later })
      (.ok (some (successSample hash)))) s' ∧
    (s.manager.store sampleRequest.sender).stage? "t" = some .confirmed ∧
    (s'.manager.store sampleRequest.sender).stage? "t" = some .finalized := by
  obtain ⟨m, acts, s, hash, expiration, later, hm, h, hasking, hs⟩ := run_oneSettling
  have hbefore : (s.manager.store sampleRequest.sender).stage? "t" = some .confirmed := by
    rw [hs.store]
    rfl
  have ht : ∃ t, (s.manager.store sampleRequest.sender).markFinalized "t" s.now = .ok t ∧
      t.stage? "t" = some .finalized := by
    rw [hs.store]
    exact ⟨_, rfl, rfl⟩
  obtain ⟨t, ht, hfinal⟩ := ht
  obtain ⟨s', hstep, hafter⟩ := exists_step_finalize (r := successSample hash) hasking rfl ht
  rw [← hafter] at hfinal
  exact ⟨m, acts, s, hash, later, s', hm, h, hstep, hbefore, hfinal⟩

end Sample

end TronCourier.System
