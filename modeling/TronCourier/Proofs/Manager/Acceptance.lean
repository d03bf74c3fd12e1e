import TronCourier.Proofs.Manager.Budget
import TronCourier.Proofs.Manager.Passage
import TronCourier.Proofs.Transaction.Mirror

/-! What becomes of a transaction that the node accepts. It goes on record with the hash and
the time of what was signed, unless the store knows the hash already. -/

namespace TronCourier

/-- Some transaction of a store was sent under a hash. -/
def Store.Knows (s : Store) (hash : String) : Prop :=
  ∃ id e, s.entries.get? id = some e ∧ hash ∈ e.hashes

theorem Store.Consistent.not_knows_iff {s : Store} (h : s.Consistent) (hash : String) :
    ¬ s.Knows hash ↔ s.hashes.get? hash = none := by
  constructor
  · intro hnot
    by_contra hne
    obtain ⟨id, hid⟩ := Option.ne_none_iff_exists'.mp hne
    obtain ⟨e, he, hmem⟩ := (h.hashes_iff hash id).mp hid
    exact hnot ⟨id, e, he, hmem⟩
  · rintro hnone ⟨id, e, he, hmem⟩
    rw [(h.hashes_iff hash id).mpr ⟨e, he, hmem⟩] at hnone
    cases hnone

/-- The octets of a signed transaction are its raw data, with the same time of expiration, and
its id is their hash. -/
def SignedTransaction.Faithful (t : SignedTransaction) : Prop :=
  ∃ w, t.raw.toWire = .ok w ∧ w.expiration = t.raw.expiration ∧ t.rawHex = Text.hex w.encode ∧
    t.id = Text.hex (sha256 w.encode)

namespace UnsignedTransaction

variable {u : UnsignedTransaction}

theorem faithful_withSignature (hu : ofRaw u.raw = .ok u) (signature : Bytes) :
    (u.withSignature signature).Faithful := by
  obtain ⟨w, hw, hu⟩ := ofRaw_eq_ok_iff.mp hu
  refine ⟨w, hw, RawJson.toWire_expiration hw, ?_, ?_⟩
  · show Text.hex u.octets = _
    rw [hu]
  · show Text.hex u.id = _
    rw [hu]

end UnsignedTransaction

/-- What the sender has signed, or is about to sign, is made of raw data that can be sent. -/
def Sender.Faithful : Sender → Prop
  | .busy (.signing _ _ u) => UnsignedTransaction.ofRaw u.raw = .ok u
  | .busy (.sending p) | .asleep p _ => p.signed.Faithful
  | _ => True

namespace Manager

variable {m : Manager} {tx : Tx}

theorem unsigned_eq_ok {feeLimit : Int} {block : Node.Block} {u : UnsignedTransaction}
    (h : m.unsigned tx feeLimit block = .ok u) : UnsignedTransaction.ofRaw u.raw = .ok u := by
  simp only [unsigned, bind_eq_ok_iff, mapError_eq_ok_iff] at h
  obtain ⟨data, -, ref, -, h⟩ := h
  obtain ⟨w, -, hu⟩ := UnsignedTransaction.ofRaw_eq_ok_iff.mp h
  have hraw : u.raw = _ := congrArg UnsignedTransaction.raw hu
  rw [hraw]
  exact h

theorem faithful_attempt (m : Manager) (tx : Tx) : (m.attempt tx).sender.Faithful := by
  unfold attempt
  split
  · trivial
  · show Sender.Faithful (.busy (if m.estimator.estimates then _ else _))
    split <;> trivial

theorem faithful_priced (m : Manager) (now : Nat) (tx : Tx) (energy : Int) :
    (m.priced now tx energy).sender.Faithful := by
  unfold priced
  split <;> trivial

theorem faithful_judge (m : Manager) (now : Nat) {p : Parcel} (hp : p.signed.Faithful)
    (v : Node.Verdict) : (m.judge now p v).sender.Faithful := by
  unfold judge
  split
  · unfold sent
    split <;> trivial
  · split
    · trivial
    · split
      · trivial
      · exact hp

theorem faithful_answered {now : Nat} {a : Attempt} (h : (Sender.busy a).Faithful)
    (answer : a.Answer) : (m.answered now a answer).sender.Faithful := by
  cases a with
  | beginning tx => exact m.faithful_attempt tx
  | estimating tx call =>
    simp only [answered]
    split
    · trivial
    · exact faithful_priced ..
    · trivial
  | simulating tx call =>
    simp only [answered]
    split
    · exact faithful_priced ..
    · trivial
  | pricing tx energy => trivial
  | referring tx feeLimit =>
    cases answer with
    | error e => trivial
    | ok block =>
      simp only [answered]
      split
      · trivial
      · rename_i hu
        exact unsigned_eq_ok hu
  | signing tx feeLimit unsigned =>
    cases answer with
    | error e => trivial
    | ok signature => exact UnsignedTransaction.faithful_withSignature h signature
  | sending p =>
    cases answer with
    | error e => trivial
    | ok verdict => exact m.faithful_judge now h verdict
  | failing tx reason => trivial

theorem sent_of_ok {p : Parcel} {t : Store} (ht : (m.store p.tx.sender).markBroadcasted
    p.signed.id p.signed.raw.expiration p.tx = .ok t) :
    (m.sent p).sender = .idle ∧ (m.sent p).store = Function.update m.store p.tx.sender t := by
  rw [sent, ht]
  exact ⟨rfl, (m.leaves_move p.tx.sender p.tx.id t).2⟩

theorem sender_proceed (m : Manager) (fresh : String) (q : Submission) (answer : q.Answer) :
    (m.proceed fresh q answer).1.sender = m.sender := by
  rcases m.proceed_cases fresh q answer with
    ⟨tx, s, -, -, -, ⟨_, _, _, hm⟩, -⟩ | ⟨tx, -, hm⟩ | ⟨-, ⟨⟨_, _, _, hm, -⟩, -⟩, -⟩
  · rw [hm]
  · rw [hm]
    rfl
  · rw [hm]

end Manager

open Manager in
/-- The sender takes a transaction, hears an answer or wakes up, or another part has worked. -/
theorem PartStep.sender_cases {m m' : Manager} {now : Nat} {act : Act}
    (hs : PartStep m now act m') : m'.sender = m.sender ∨
      (∃ tx, m'.sender = .busy (.beginning tx)) ∨
      (∃ a answer, act = .answered a answer ∧ m.sender = .busy a ∧
        m' = m.answered now a answer) ∨
      ∃ p due, m.sender = .asleep p due ∧ m'.sender = .busy (.sending p) := by
  rcases hs.owner_cases with
    hm | hanswered | ⟨p, due, -, -, ha, rfl⟩ | ⟨-, _, _, _, _, _, rfl⟩ | ⟨-, _, _, _, rfl⟩
  · obtain ⟨tx, rest, metrics, -, -, rfl⟩ := take?_eq_some hm
    exact .inr (.inl ⟨tx, rfl⟩)
  · exact .inr (.inr (.inl hanswered))
  · exact .inr (.inr (.inr ⟨p, due, ha, rfl⟩))
  · exact .inl rfl
  · exact .inl rfl

namespace System

open Manager

variable {s₀ s s' : System} {act : Act} {acts : List Act}

/-- What holds of a sender that has nothing at hand or has just begun, and is kept by every
answer, is kept by every step. -/
theorem Step.sender_induct {P : Sender → Prop} (hidle : P .idle) (hstopped : P .stopped)
    (hbegun : ∀ tx, P (.busy (.beginning tx)))
    (hwake : ∀ {p due}, P (.asleep p due) → P (.busy (.sending p)))
    (hanswered : ∀ {m : Manager} {now : Nat} {a : Attempt}, P (.busy a) → ∀ answer : a.Answer,
      P (m.answered now a answer).sender)
    (h : P s.manager.sender) (hs : Step s act s') : P s'.manager.sender := by
  rcases hs.manager_cases with
    hm | ⟨q, answer, fresh, rfl, hm⟩ | ⟨w, hm⟩ | ⟨w, hm⟩ | ⟨_, _, _, _, hm⟩
  · rcases hm.sender_cases with
      hsame | ⟨tx, hbusy⟩ | ⟨a, answer, -, ha, hm⟩ | ⟨p, due, ha, hsending⟩
    · rwa [hsame]
    · rw [hbusy]
      exact hbegun tx
    · rw [hm]
      exact hanswered (ha ▸ h) answer
    · rw [ha] at h
      rw [hsending]
      exact hwake h
  · rw [hm, sender_proceed]
    exact h
  · rw [hm]
    cases w with
    | sender => exact hidle
    | poller | reaper => exact h
  · rw [hm]
    cases w with
    | sender => exact hstopped
    | poller | reaper => exact h
  · rw [hm]
    exact h

theorem Step.faithful (h : s.manager.sender.Faithful) (hs : Step s act s') :
    s'.manager.sender.Faithful :=
  hs.sender_induct trivial trivial (fun _ => trivial) id faithful_answered h

theorem Step.accepted_eq {p : Parcel} {verdict : Node.Verdict}
    (hs : Step s (.answered (.sending p) (.ok verdict)) s') (hv : verdict.accepted = true) :
    s'.manager = s.manager.sent p := by
  rw [hs.answered_eq]
  exact if_pos hv

/-- What the node accepts goes on record if the store does not know its hash. -/
theorem Step.recorded (hg : s.Guarded) {p : Parcel} {verdict : Node.Verdict}
    (hs : Step s (.answered (.sending p) (.ok verdict)) s') (hv : verdict.accepted = true)
    (hnew : ¬ (s.manager.store p.tx.sender).Knows p.signed.id) :
    s'.manager.sender = .idle ∧
      ∃ e, (s'.manager.store p.tx.sender).entries.get? p.tx.id = some e ∧
        e.tx.stage = .broadcasted ∧ e.currentHash = some p.signed.id ∧
        e.expiration = p.signed.raw.expiration := by
  obtain ⟨dropped, hc, -⟩ := hg.custody
  obtain ⟨e, he, hopen, -, -⟩ :=
    hc.of_sender (show s.manager.sender.tx? = some p.tx by rw [hs.attempting]; rfl)
  have hstage : e.tx.stage = .pending ∨ e.tx.stage = .errored := by
    cases hg : e.tx.stage <;> simp [hg, Stage.isOpen] at hopen ⊢
  have hnone := ((hg.consistent p.tx.sender).not_knows_iff _).mp hnew
  have ht : (s.manager.store p.tx.sender).markBroadcasted p.signed.id p.signed.raw.expiration
      p.tx = .ok _ := Store.markBroadcasted_eq_ok_iff.mpr ⟨hnone, e, he, hstage, rfl⟩
  obtain ⟨hsender, hstore⟩ := s.manager.sent_of_ok ht
  rw [hs.accepted_eq hv, hstore, Function.update_self]
  refine ⟨hsender, e.sentAs p.signed.id p.signed.raw.expiration p.tx, ?_, rfl, rfl, rfl⟩
  show (Table.insert _ _ _).get? p.tx.id = _
  rw [Table.get?_insert, if_pos rfl]

/-- What the node accepts under a hash that the store knows is given up. -/
theorem Step.refused (hg : s.Guarded) {p : Parcel} {verdict : Node.Verdict}
    (hs : Step s (.answered (.sending p) (.ok verdict)) s') (hv : verdict.accepted = true)
    (hknown : (s.manager.store p.tx.sender).Knows p.signed.id) :
    s'.manager.sender = .busy (.failing p.tx (StoreError.duplicateHash p.signed.id).message) ∧
      s'.manager.store = s.manager.store := by
  obtain ⟨id, e, he, hmem⟩ := hknown
  have hhash := (hg.consistent p.tx.sender).hashes_iff p.signed.id id |>.mpr ⟨e, he, hmem⟩
  have ht : (s.manager.store p.tx.sender).markBroadcasted p.signed.id p.signed.raw.expiration
      p.tx = .error (.duplicateHash p.signed.id) := by
    simp [Store.markBroadcasted, Table.contains, hhash]
  rw [hs.accepted_eq hv, sent, ht]
  exact ⟨rfl, rfl⟩

/-- What the node accepts is made of what was signed. It is on record afterwards with its id as
the hash and with its time of expiration, provided that no transaction of the same sender has
been sent under the same hash, itself in an earlier attempt included. Otherwise it comes to a
bad end, though the node has it. -/
theorem accepted_recorded_or_ended {settings : Settings} {checks : Bool} {m : Manager} {now : Nat}
    {p : Parcel} {verdict : Node.Verdict} (hm : ofSettings settings checks = .ok m)
    (hr : Run { manager := m, now } acts s)
    (hs : Step s (.answered (.sending p) (.ok verdict)) s') (hv : verdict.accepted = true) :
    p.signed.Faithful ∧
    (¬ (s.manager.store p.tx.sender).Knows p.signed.id →
      s'.manager.sender = .idle ∧
      ∃ e, (s'.manager.store p.tx.sender).entries.get? p.tx.id = some e ∧
        e.tx.stage = .broadcasted ∧ e.currentHash = some p.signed.id ∧
        e.expiration = p.signed.raw.expiration) ∧
    ((s.manager.store p.tx.sender).Knows p.signed.id →
      s'.manager.sender = .busy (.failing p.tx (StoreError.duplicateHash p.signed.id).message) ∧
      s'.manager.store = s.manager.store ∧
      ∀ reason s'', Step s' (.answered (.failing p.tx reason) ()) s'' →
        (s''.manager.store p.tx.sender).stage? p.tx.id = some .fatallyErrored) := by
  have hg := hr.guarded (guarded_initial hm now)
  refine ⟨?_, hs.recorded hg hv, fun hknown => ?_⟩
  · have hfaithful : s.manager.sender.Faithful :=
      hr.induct (by rw [(ofSettings_eq_ok hm).2]; trivial) Step.faithful
    rw [hs.attempting] at hfaithful
    exact hfaithful
  · obtain ⟨hsender, hstore⟩ := hs.refused hg hv hknown
    exact ⟨hsender, hstore, fun reason s'' hfail => hfail.fatal (hs.guarded hg)⟩

section Sample

theorem Run.accepted (hr : Run s₀ acts s) {p : Parcel}
    (hsender : s.manager.sender = .busy (.sending p)) {verdict : Node.Verdict}
    (hv : verdict.accepted = true) {t : Store}
    (ht : (s.manager.store p.tx.sender).markBroadcasted p.signed.id p.signed.raw.expiration
      p.tx = .ok t) :
    ∃ accounts metrics events,
      accounts.store = Function.update s.manager.store p.tx.sender t ∧
      Run s₀ (acts ++ [.answered (.sending p) (.ok verdict)]) { s with
        manager := { s.manager with
          accounts := accounts, metrics := metrics, events := events, sender := .idle } } := by
  obtain ⟨⟨accounts, metrics, events, hmove⟩, hstore⟩ := s.manager.leaves_move p.tx.sender p.tx.id t
  have hm : s.manager.answered s.now (.sending p) (.ok verdict) = s.manager.sent p := if_pos hv
  rw [hmove] at hstore
  simp only [sent, ht, hmove] at hm
  exact ⟨accounts, _, _, hstore, hr.answered hsender hm⟩

def sampleBlock : Node.Block where
  number := 0
  id := "0000000000000000000000000000000000000000000000000000000000000000"
  timestamp := 0

/-- What is to be signed does not depend on a manager but for its settings. -/
theorem exists_unsigned {tx : Tx} {feeLimit : Int} {block : Node.Block}
    (h : (Manager.unsigned { settings := {}, estimator := .ofSettings {} }
      tx feeLimit block).toOption.isSome = true) :
    ∃ u, ∀ m : Manager, m.settings = {} → m.unsigned tx feeLimit block = .ok u := by
  obtain ⟨u, hu⟩ := Option.isSome_iff_exists.mp h
  refine ⟨u, fun m hm => ?_⟩
  have hsame : m.unsigned tx feeLimit block =
      Manager.unsigned { settings := {}, estimator := .ofSettings {} } tx feeLimit block := by
    rw [unsigned, hm]
    rfl
  rw [hsame]
  cases hu' : Manager.unsigned { settings := {}, estimator := .ofSettings {} }
      tx feeLimit block with
  | error reason =>
    rw [hu'] at hu
    cases hu
  | ok u' =>
    rw [hu'] at hu
    cases hu
    rfl

/-- What is signed does not depend on the id of the request. -/
theorem unsigned_sample : ∃ u, ∀ (m : Manager) (id : String), m.settings = {} →
    m.unsigned (.ofRequest id sampleRequest) 0 sampleBlock = .ok u := by
  have hsome : (Manager.unsigned { settings := {}, estimator := .ofSettings {} }
      (.ofRequest "t" sampleRequest) 0 sampleBlock).toOption.isSome = true := by decide +kernel
  obtain ⟨u, hu⟩ := exists_unsigned hsome
  exact ⟨u, fun m id hm => hu m hm⟩

/-- Two requests differ only in their ids. The node takes what is sent of the first. -/
def samplePending : Store :=
  Store.empty.run 0 [.addPending (.ofRequest "t" sampleRequest),
    .addPending (.ofRequest "u" sampleRequest)]

def sampleParcel (id : String) (u : UnsignedTransaction) : Parcel where
  tx := .ofRequest id sampleRequest
  feeLimit := 0
  signed := u.withSignature []
  since := 0

/-- The sender has one of two transactions at hand, and the other one is to follow. -/
theorem run_sendingSample : ∃ m acts s u, ofSettings {} false = .ok m ∧
    Run { manager := m, now := 0 } acts s ∧
    s.manager.sender = .busy (.sending (sampleParcel "t" u)) ∧
    s.manager.queue = [.ofRequest "u" sampleRequest] ∧ s.manager.settings = {} ∧
    s.manager.estimator = .ofSettings {} ∧ s.now = 0 ∧
    s.manager.store sampleRequest.sender = samplePending ∧
    ∀ (m : Manager) (id : String), m.settings = {} →
      m.unsigned (.ofRequest id sampleRequest) 0 sampleBlock = .ok u := by
  obtain ⟨u, hu⟩ := unsigned_sample
  have h₀ : Run { manager := { settings := {}, estimator := .ofSettings {} }, now := 0 } [] _ :=
    .start
  obtain ⟨_, accounts, metrics, events, t, ht, hstore, h₁⟩ :=
    h₀.request (r := sampleRequest) rfl (fun hon => by cases hon) rfl rfl "" rfl
  have hfirst : t = Store.empty.run 0 [.addPending (.ofRequest "t" sampleRequest)] := by
    rw [← Except.ok.injEq, ← ht]
    rfl
  have hid : (accounts.store sampleRequest.sender).entries.get? "u" = none := by
    rw [hstore, Function.update_self, hfirst]
    rfl
  obtain ⟨_, accounts', metrics', events', t', ht', hstore', h₂⟩ :=
    h₁.request (r := { sampleRequest with id := some "u" }) rfl (fun hon => by cases hon) rfl rfl
      "" hid
  obtain ⟨accounts'', metrics'', hstore'', h₃⟩ := (h₂.launch rfl rfl).estimating rfl rfl
    (show Fee.simulated (.ofRequest "t" sampleRequest) = .ok _ from rfl) rfl
  obtain ⟨later, h₄⟩ := h₃.sendingFree rfl rfl rfl rfl (hu _ "t" rfl)
  refine ⟨_, _, _, u, ofSettings_default, h₄, rfl, rfl, rfl, rfl, rfl, ?_, hu⟩
  have hboth : t' = samplePending := by
    have hbefore : (accounts.store sampleRequest.sender).addPending (.ofRequest "u" sampleRequest) =
        .ok samplePending := by
      rw [hstore, Function.update_self, hfirst]
      rfl
    exact Except.ok.inj (ht'.symm.trans hbefore)
  show accounts''.store sampleRequest.sender = samplePending
  rw [hstore'']
  show accounts'.store sampleRequest.sender = samplePending
  rw [hstore', Function.update_self, hboth]

/-- The second transaction is sent under the hash of the first. -/
theorem run_knownSample : ∃ m acts s u, ofSettings {} false = .ok m ∧
    Run { manager := m, now := 0 } acts s ∧
    s.manager.sender = .busy (.sending (sampleParcel "u" u)) ∧
    (s.manager.store sampleRequest.sender).Knows (sampleParcel "u" u).signed.id := by
  obtain ⟨m, acts, s, u, hm, h, hsender, hqueue, hsettings, hestimator, hnow, hstore, hu⟩ :=
    run_sendingSample
  have ht : ∃ t, (s.manager.store sampleRequest.sender).markBroadcasted
      (sampleParcel "t" u).signed.id (sampleParcel "t" u).signed.raw.expiration
      (sampleParcel "t" u).tx = .ok t ∧ t.Knows (sampleParcel "t" u).signed.id := by
    rw [hstore]
    refine ⟨_, Store.markBroadcasted_eq_ok_iff.mpr ⟨rfl, _, rfl, .inl rfl, rfl⟩, "t", _, rfl, ?_⟩
    exact List.mem_append_right _ (List.mem_singleton_self _)
  obtain ⟨t, ht, hknows⟩ := ht
  obtain ⟨accounts, metrics, events, haccounts, h₁⟩ :=
    h.accepted hsender (show (Node.Verdict.success "").accepted = true from rfl) ht
  have hestimates : s.manager.estimator.estimates = true := by
    rw [hestimator]
    rfl
  obtain ⟨accounts', metrics', haccounts', h₂⟩ := h₁.estimating rfl hqueue
    (show Fee.simulated (.ofRequest "u" sampleRequest) = .ok _ from rfl) hestimates
  obtain ⟨later, h₃⟩ := h₂.sendingFree rfl hestimator hsettings rfl (hu _ "u" hsettings)
  refine ⟨m, _, _, u, hm, h₃, ?_, ?_⟩
  · simp only [hnow]
    rfl
  · show (accounts'.store sampleRequest.sender).Knows _
    rw [haccounts']
    show (accounts.store sampleRequest.sender).Knows _
    rw [haccounts]
    show (Function.update s.manager.store sampleRequest.sender t sampleRequest.sender).Knows _
    rw [Function.update_self]
    exact hknows

theorem accepted_recorded_or_ended_sample : ∃ m acts s s' u, ofSettings {} false = .ok m ∧
    Run { manager := m, now := 0 } acts s ∧
    Step s (.answered (.sending (sampleParcel "t" u)) (.ok (.success ""))) s' ∧
    ∃ e, (s'.manager.store sampleRequest.sender).entries.get? "t" = some e ∧
      e.tx.stage = .broadcasted ∧ e.currentHash = some (sampleParcel "t" u).signed.id := by
  obtain ⟨m, acts, s, u, hm, h, hsender, -, -, -, -, hstore, -⟩ := run_sendingSample
  have hs := Step.part (.answered hsender (.ok (.success "")))
  obtain ⟨-, hrecorded, -⟩ := accepted_recorded_or_ended hm h hs rfl
  have hnew : ¬ (s.manager.store sampleRequest.sender).Knows (sampleParcel "t" u).signed.id := by
    rw [hstore]
    have hc := Store.consistent_empty.run 0 [.addPending (.ofRequest "t" sampleRequest),
      .addPending (.ofRequest "u" sampleRequest)]
    exact (hc.not_knows_iff _).mpr rfl
  obtain ⟨-, e, he, hstage, hhash, -⟩ := hrecorded hnew
  exact ⟨m, acts, s, _, u, hm, h, hs, e, he, hstage, hhash⟩

/-- The second of two alike transactions comes to a bad end though the node accepts it: it is
not on record with its hash when the attempt is over. -/
theorem not_accepted_recorded :
    ¬ ∀ {settings : Settings} {checks : Bool} {m : Manager} {now : Nat} {acts : List Act}
      {s s' s'' : System} {p : Parcel} {verdict : Node.Verdict},
      ofSettings settings checks = .ok m → Run { manager := m, now } acts s →
      Step s (.answered (.sending p) (.ok verdict)) s' → verdict.accepted = true →
      (s'.manager.sender = .idle ∧ s'' = s' ∨
        ∃ reason, Step s' (.answered (.failing p.tx reason) ()) s'') →
      ∃ e, (s''.manager.store p.tx.sender).entries.get? p.tx.id = some e ∧
        e.tx.stage = .broadcasted ∧ e.currentHash = some p.signed.id ∧
        e.expiration = p.signed.raw.expiration := by
  intro h
  obtain ⟨m, acts, s, u, hm, hr, hsender, hknown⟩ := run_knownSample
  have hs := Step.part (.answered hsender (.ok (.success "")))
  have hg := hr.guarded (guarded_initial hm 0)
  obtain ⟨hfailing, -⟩ := hs.refused hg rfl hknown
  have hfail := Step.part (.answered hfailing ())
  obtain ⟨e, he, hstage, -⟩ := h hm hr hs rfl (.inr ⟨_, hfail⟩)
  have hfatal := hfail.fatal (hs.guarded hg)
  rw [Store.stage?_of_entry he, hstage] at hfatal
  cases hfatal

end Sample

end System

end TronCourier
