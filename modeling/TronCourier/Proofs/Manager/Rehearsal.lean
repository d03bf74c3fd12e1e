import TronCourier.Proofs.Manager.Acceptance

/-! A call is simulated before it is sent. Both times it has the same accounts, the same value
and the same arguments. The node makes the first octets of a simulated call of the method's
text as it gets it, while those that are sent are made of the text without its blanks. -/

namespace TronCourier

/-- The call that a node simulates. -/
def Node.Simulated.call? (q : Node.Simulated) : Option ContractCall :=
  (Text.unhex q.parameter).toOption.map fun arguments => {
    owner := q.owner
    contract := q.contract
    callValue := q.callValue
    data := (keccak256 (Text.utf8 q.method)).take 4 ++ arguments }

/-- The call that a transaction makes, if it makes one only. -/
def RawJson.call? (raw : RawJson) : Option ContractCall :=
  match raw.contracts with
  | [c] => (Text.unhex c.trigger.data).toOption.map fun data => {
      owner := c.trigger.owner
      contract := c.trigger.contract
      callValue := c.trigger.callValue
      data }
  | _ => none

/-- The call of a transaction that names its method by some octets. -/
def Tx.callBy (tx : Tx) (start arguments : Bytes) : ContractCall where
  owner := tx.sender
  contract := tx.contract
  callValue := 0
  data := start ++ arguments

/-- What is signed for a transaction calls its method with its arguments. -/
def RawJson.Serves (raw : RawJson) (tx : Tx) : Prop :=
  ∃ arguments, Abi.encodeParams tx.params = .ok arguments ∧
    raw.call? = some (tx.callBy (Abi.selector tx.method) arguments)

/-- What the sender has asked to be simulated, or has signed, is the call of its transaction. -/
def Sender.Prepared : Sender → Prop
  | .busy (.estimating tx call) | .busy (.simulating tx call) => Fee.simulated tx = .ok call
  | .busy (.signing tx _ u) => u.raw.Serves tx
  | .busy (.sending p) | .asleep p _ => p.signed.raw.Serves p.tx
  | _ => True

variable {tx : Tx}

theorem Fee.simulated_eq_ok_iff {call : Node.Simulated} : Fee.simulated tx = .ok call ↔
    ∃ arguments, Abi.encodeParams tx.params = .ok arguments ∧ call = {
      owner := tx.sender, contract := tx.contract, method := tx.method,
      parameter := Text.hex arguments } := by
  simp only [simulated, bind_eq_ok_iff, pure, Except.pure, Except.ok.injEq, eq_comm (b := call)]

theorem Fee.call?_simulated {call : Node.Simulated} (h : Fee.simulated tx = .ok call)
    {arguments : Bytes} (hparams : Abi.encodeParams tx.params = .ok arguments) :
    call.method = tx.method ∧
      call.call? = some (tx.callBy ((keccak256 (Text.utf8 tx.method)).take 4) arguments) := by
  obtain ⟨arguments', hparams', rfl⟩ := simulated_eq_ok_iff.mp h
  rw [hparams, Except.ok.injEq] at hparams'
  subst hparams'
  refine ⟨rfl, ?_⟩
  simp only [Node.Simulated.call?, Text.unhex_hex, Except.toOption, Option.map_some]
  rfl

theorem RawJson.call?_ofCall (call : ContractCall) (block : BlockRef) (feeLimit timestamp : Int)
    (expiration : Option Int) :
    (ofCall call block feeLimit timestamp expiration).call? = some call := by
  simp only [call?, ofCall, Text.unhex_hex, Except.toOption, Option.map_some]

namespace Manager

variable {m : Manager}

theorem serves_unsigned {feeLimit : Int} {block : Node.Block} {u : UnsignedTransaction}
    (h : m.unsigned tx feeLimit block = .ok u) : u.raw.Serves tx := by
  simp only [unsigned, Abi.encodeCall, bind_eq_ok_iff, mapError_eq_ok_iff] at h
  obtain ⟨data, ⟨arguments, hparams, hdata⟩, ref, -, h⟩ := h
  obtain ⟨w, -, rfl⟩ := UnsignedTransaction.ofRaw_eq_ok_iff.mp h
  cases hdata
  exact ⟨arguments, hparams, RawJson.call?_ofCall ..⟩

theorem prepared_attempt (m : Manager) (tx : Tx) : (m.attempt tx).sender.Prepared := by
  unfold attempt
  split
  · trivial
  · rename_i call hcall
    show Sender.Prepared (.busy (if m.estimator.estimates then _ else _))
    split
    · exact hcall
    · exact hcall

theorem prepared_priced (m : Manager) (now : Nat) (tx : Tx) (energy : Int) :
    (m.priced now tx energy).sender.Prepared := by
  unfold priced
  split
  · trivial
  · trivial

theorem prepared_judge (m : Manager) (now : Nat) {p : Parcel} (hp : p.signed.raw.Serves p.tx)
    (v : Node.Verdict) : (m.judge now p v).sender.Prepared := by
  unfold judge
  split
  · unfold sent
    split
    · trivial
    · trivial
  · split
    · trivial
    · split
      · trivial
      · exact hp

theorem prepared_answered {now : Nat} {a : Attempt} (h : (Sender.busy a).Prepared)
    (answer : a.Answer) : (m.answered now a answer).sender.Prepared := by
  cases a with
  | beginning tx => exact m.prepared_attempt tx
  | estimating tx call =>
    simp only [answered]
    split
    · exact h
    · exact prepared_priced ..
    · trivial
  | simulating tx call =>
    simp only [answered]
    split
    · exact prepared_priced ..
    · trivial
  | pricing tx energy => trivial
  | referring tx feeLimit =>
    cases answer with
    | error e => trivial
    | ok block =>
      simp only [answered]
      split
      · trivial
      · rename_i hu
        exact serves_unsigned hu
  | signing tx feeLimit unsigned =>
    cases answer with
    | error e => trivial
    | ok signature => exact h
  | sending p =>
    cases answer with
    | error e => trivial
    | ok verdict => exact m.prepared_judge now h verdict
  | failing tx reason => trivial

end Manager

namespace Text

theorem squeeze_eq_self_iff {s : String} :
    s = squeeze s ↔ ∀ c ∈ s.toList, isBlank c = false := by
  have hchars : s = squeeze s ↔ s.toList.filter (fun c => !isBlank c) = s.toList := by
    rw [squeeze, ← String.toList_inj, String.toList_ofList, eq_comm]
  rw [hchars, List.filter_eq_self]
  simp only [Bool.not_eq_true']

end Text

namespace System

open Manager

variable {s₀ s s' : System} {act : Act} {acts later : List Act}

theorem Step.prepared (h : s.manager.sender.Prepared) (hs : Step s act s') :
    s'.manager.sender.Prepared :=
  hs.sender_induct trivial trivial (fun _ => trivial) id prepared_answered h

theorem Run.prepared {settings : Settings} {checks : Bool} {m : Manager} {now : Nat}
    (hr : Run { manager := m, now } acts s) (hm : ofSettings settings checks = .ok m) :
    s.manager.sender.Prepared := by
  refine hr.induct ?_ Step.prepared
  rw [(ofSettings_eq_ok hm).2]
  trivial

/-- The call that is asked for and the one that is sent say the same but for the first four
octets, which are made of the method's text in one case, and of the text without its blanks in
the other. They are the same if these hashes start the same, as they do for a text that has no
blanks. -/
theorem simulated_as_sent_iff {settings : Settings} {checks : Bool} {m : Manager} {now : Nat}
    {p : Parcel} {call : Node.Simulated} (hm : ofSettings settings checks = .ok m)
    (hr : Run { manager := m, now } acts s)
    (hasked : s.manager.sender = .busy (.estimating p.tx call) ∨
      s.manager.sender = .busy (.simulating p.tx call))
    (hlater : Run s later s') (hsent : s'.manager.sender = .busy (.sending p)) :
    ∃ asked sent, call.call? = some asked ∧ p.signed.raw.call? = some sent ∧
      asked.owner = sent.owner ∧ asked.contract = sent.contract ∧
      asked.callValue = sent.callValue ∧ asked.data.drop 4 = sent.data.drop 4 ∧
      (asked = sent ↔ (keccak256 (Text.utf8 p.tx.method)).take 4 =
        (keccak256 (Text.utf8 (Text.squeeze p.tx.method))).take 4) ∧
      (call.method = Text.squeeze p.tx.method ↔
        ∀ c ∈ p.tx.method.toList, Text.isBlank c = false) := by
  have hprepared := hr.prepared hm
  have hcall : Fee.simulated p.tx = .ok call := by
    rcases hasked with hasked | hasked
    · rwa [hasked] at hprepared
    · rwa [hasked] at hprepared
  have hserves : p.signed.raw.Serves p.tx := by
    have hprepared := hlater.induct hprepared Step.prepared
    rwa [hsent] at hprepared
  obtain ⟨arguments, hparams, hsent⟩ := hserves
  obtain ⟨hmethod, hasked⟩ := Fee.call?_simulated hcall hparams
  have hstarts (text : Bytes) : ((keccak256 text).take 4).length = 4 := by
    rw [List.length_take, length_keccak256]
    rfl
  refine ⟨_, _, hasked, hsent, rfl, rfl, rfl, ?_, ?_, ?_⟩
  · simp only [Tx.callBy, Abi.selector, List.drop_left' (hstarts _)]
  · simp only [Tx.callBy, Abi.selector, ContractCall.mk.injEq, true_and, List.append_cancel_right_eq]
  · rw [hmethod]
    exact Text.squeeze_eq_self_iff

section Sample

/-- The method takes nothing and says so with a blank. -/
def blankRequest : Request :=
  { sampleRequest with method := "f( )" }

def blankParcel (u : UnsignedTransaction) : Parcel where
  tx := .ofRequest "t" blankRequest
  feeLimit := 0
  signed := u.withSignature []
  since := 0

theorem run_blankSample : ∃ m acts s call later s' u, ofSettings {} false = .ok m ∧
    Run { manager := m, now := 0 } acts s ∧
    s.manager.sender = .busy (.estimating (blankParcel u).tx call) ∧
    Run s later s' ∧ s'.manager.sender = .busy (.sending (blankParcel u)) := by
  have hsome : (Manager.unsigned { settings := {}, estimator := .ofSettings {} }
      (.ofRequest "t" blankRequest) 0 sampleBlock).toOption.isSome = true := by decide +kernel
  obtain ⟨u, hu⟩ := exists_unsigned hsome
  obtain ⟨call, hcall⟩ : ∃ call, Fee.simulated (.ofRequest "t" blankRequest) = .ok call :=
    ⟨_, rfl⟩
  obtain ⟨m, acts, s, hm, hr, hs⟩ := run_estimating (r := blankRequest) rfl hcall
  obtain ⟨later, hlater⟩ := Run.start.sendingFree hs.sender hs.estimator hs.settings rfl
    (hu _ hs.settings)
  refine ⟨m, acts, s, call, _, _, u, hm, hr, hs.sender, hlater, ?_⟩
  rw [hs.now]
  rfl

theorem take_hash_blank_ne : (keccak256 (Text.utf8 blankRequest.method)).take 4 ≠
    (keccak256 (Text.utf8 (Text.squeeze blankRequest.method))).take 4 := by
  decide +kernel

theorem simulated_as_sent_iff_blankSample : ∃ m acts s call later s' u,
    ofSettings {} false = .ok m ∧ Run { manager := m, now := 0 } acts s ∧
    s.manager.sender = .busy (.estimating (blankParcel u).tx call) ∧
    Run s later s' ∧ s'.manager.sender = .busy (.sending (blankParcel u)) ∧
    ∃ asked sent : ContractCall, call.call? = some asked ∧
      (blankParcel u).signed.raw.call? = some sent ∧
      asked.data.drop 4 = sent.data.drop 4 ∧ asked ≠ sent := by
  obtain ⟨m, acts, s, call, later, s', u, hm, hr, hasked, hlater, hsent⟩ := run_blankSample
  obtain ⟨asked, sent, hcall, hraw, -, -, -, harguments, hsame, -⟩ :=
    simulated_as_sent_iff hm hr (.inl hasked) hlater hsent
  exact ⟨m, acts, s, call, later, s', u, hm, hr, hasked, hlater, hsent, asked, sent, hcall, hraw,
    harguments, fun h => take_hash_blank_ne (hsame.mp h)⟩

/-- The call that is sent is not the one that was asked for, since the blank counts in one of
them only. -/
theorem not_simulated_as_sent :
    ¬ ∀ {settings : Settings} {checks : Bool} {m : Manager} {now : Nat} {acts later : List Act}
      {s s' : System} {p : Parcel} {call : Node.Simulated},
      ofSettings settings checks = .ok m → Run { manager := m, now } acts s →
      s.manager.sender = .busy (.estimating p.tx call) → Run s later s' →
      s'.manager.sender = .busy (.sending p) →
      ∃ c, call.call? = some c ∧ p.signed.raw.call? = some c := by
  intro h
  obtain ⟨m, acts, s, call, later, s', u, hm, hr, hasked, hlater, hsent⟩ := run_blankSample
  obtain ⟨c, hcall, hraw⟩ := h hm hr hasked hlater hsent
  have hprepared : s.manager.sender.Prepared := hr.prepared hm
  have hserves : s'.manager.sender.Prepared := hlater.induct hprepared Step.prepared
  rw [hasked] at hprepared
  rw [hsent] at hserves
  obtain ⟨arguments, hparams, hraw'⟩ := hserves
  have hcall' := (Fee.call?_simulated hprepared hparams).2
  have hdata := congrArg ContractCall.data
    (Option.some.inj ((hcall'.symm.trans hcall).trans (hraw.symm.trans hraw')))
  exact take_hash_blank_ne (List.append_cancel_right hdata)

end Sample

end System

end TronCourier
