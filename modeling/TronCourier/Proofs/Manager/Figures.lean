import Mathlib
import TronCourier.Proofs.Fee.Latch
import TronCourier.Proofs.Fee.Price
import TronCourier.Proofs.Manager.Acceptance

/-! The figures of a transaction: its fee limit, the block that it refers to and its times. They
are computed from what the node says, whatever that is. What cannot be sent is given up. -/

namespace TronCourier

theorem Binary64.floorWithin_mem {low high : Int} (hlow : low ≤ 0) (hhigh : 0 ≤ high)
    (x : Binary64) : low ≤ floorWithin low high x ∧ floorWithin low high x ≤ high := by
  unfold floorWithin
  split
  · exact ⟨hlow, hhigh⟩
  · split
    · split <;> omega
    · exact clamp_mem (by omega)

theorem Settings.pos_of_fault? {settings : Settings} (h : settings.fault? = none) :
    0 < settings.defaultPrice ∧ 0 < settings.lifetime := by
  unfold fault? at h
  grind

/-- A time that is in range, and a while later. -/
theorem addClamped_of_pos {time wait : Int} (htime : Wire.IsInt64 time) (hwait : 0 < wait) :
    addClamped time wait = min (time + wait) int64Max ∧ time ≤ addClamped time wait := by
  obtain ⟨hlow, hhigh⟩ := htime
  unfold addClamped clamp
  omega

theorem isInt64_clamp (i : Int) : Wire.IsInt64 (clamp int64Min int64Max i) :=
  clamp_mem (by decide)

theorem Fee.isInt64_padded {feeLimit : Int} (h : Wire.IsInt64 feeLimit) (multiplier : Binary64)
    (bumps : Nat) : Wire.IsInt64 (Fee.padded feeLimit multiplier bumps) := by
  unfold padded
  split
  · exact h
  · exact Binary64.floorWithin_mem (by decide) (by decide) _

namespace Act

def Opens : Act → Prop
  | .answered (.beginning _) _ => True
  | _ => False

/-- The integers in an answer of the node have 64 bits. -/
def Fits : Act → Prop
  | .answered (.estimating _ _) answer => ∀ energy, answer = .ok energy → Wire.IsInt64 energy
  | .answered (.simulating _ _) answer => ∀ run, answer = .ok run →
    Wire.IsInt64 run.energyUsed ∧ Wire.IsInt64 run.energyPenalty
  | .answered (.referring _ _) answer => ∀ block, answer = .ok block →
    Wire.IsInt64 block.number ∧ Wire.IsInt64 block.timestamp
  | _ => True

end Act

/-- The sender was told so in the attempt that it makes now. -/
def Told (acts : List Act) (act : Act) : Prop :=
  ∃ before later, acts = before ++ act :: later ∧ ∀ other ∈ later, ¬ other.Opens

/-- The energy of a transaction's call: an estimate, or what a dry run that was not reverted has
used. -/
inductive Costs (acts : List Act) (tx : Tx) : Int → Prop
  | estimated {call : Node.Simulated} {energy : Int}
      (h : Told acts (.answered (.estimating tx call) (.ok energy))) : Costs acts tx energy
  | simulated {call : Node.Simulated} {run : Node.DryRun}
      (h : Told acts (.answered (.simulating tx call) (.ok run))) (hrun : run.revert = none) :
      Costs acts tx (addClamped run.energyUsed run.energyPenalty)

/-- A price of energy: the one by default, or one that a feed has quoted. -/
def Charges (settings : Settings) (acts : List Act) (price : Int) : Prop :=
  price = settings.defaultPrice ∨ ∃ tx energy feed,
    Act.answered (.pricing tx energy) (.ok feed) ∈ acts ∧ Fee.Quotes feed price

def Limits (settings : Settings) (acts : List Act) (tx : Tx) (feeLimit : Int) : Prop :=
  ∃ energy price, Costs acts tx energy ∧ Charges settings acts price ∧
    feeLimit = Fee.padded (mulClamped energy price) settings.energyMultiplier tx.energyBumps

/-- What is signed refers to a block, and is dated by it. -/
structure Node.Block.Dates (block : Node.Block) (settings : Settings) (feeLimit : Int)
    (raw : RawJson) : Prop where
  number_nonneg : 0 ≤ block.number
  refBlockBytes : ∃ bs, Text.unhex raw.refBlockBytes = .ok bs ∧ bs.length = 2 ∧
    (Bytes.toNat bs : Int) = block.number % 65536
  refBlockHash : ∃ bs, Text.unhex block.id = .ok bs ∧ bs.length = 32 ∧
    Text.unhex raw.refBlockHash = .ok ((bs.drop 8).take 8)
  feeLimit_eq : raw.feeLimit = feeLimit
  feeLimit_nonneg : 0 ≤ feeLimit
  timestamp_eq : raw.timestamp = block.timestamp
  expiration_eq : raw.expiration = addClamped block.timestamp settings.lifetime

/-- The fee limit is negative, or the block has a negative number or an id that is not one of 32
octets. -/
def Spoilt (feeLimit : Int) (answer : Except Node.Error Node.Block) : Prop :=
  feeLimit < 0 ∨ ∃ block, answer = .ok block ∧
    (block.number < 0 ∨ ∀ bs, Text.unhex block.id = .ok bs → bs.length ≠ 32)

def Drafts (settings : Settings) (acts : List Act) (tx : Tx) (feeLimit : Int) (raw : RawJson) :
    Prop :=
  Limits settings acts tx feeLimit ∧ ∃ block,
    Told acts (.answered (.referring tx feeLimit) (.ok block)) ∧ block.Dates settings feeLimit raw

/-- The figures of what the sender has at hand come from what it was told. -/
def Sender.Grounded (settings : Settings) (acts : List Act) : Sender → Prop
  | .busy (.pricing tx energy) => Costs acts tx energy
  | .busy (.referring tx feeLimit) => Limits settings acts tx feeLimit
  | .busy (.signing tx feeLimit u) => Drafts settings acts tx feeLimit u.raw
  | .busy (.sending p) | .asleep p _ => Drafts settings acts p.tx p.feeLimit p.signed.raw
  | _ => True

/-- The figures that the sender works with. -/
def Sender.figures : Sender → List Int
  | .busy (.pricing _ energy) => [energy]
  | .busy (.referring _ feeLimit) => [feeLimit]
  | .busy (.signing _ feeLimit u) =>
    [feeLimit, u.raw.feeLimit, u.raw.timestamp, u.raw.expiration]
  | .busy (.sending p) | .asleep p _ =>
    [p.feeLimit, p.signed.raw.feeLimit, p.signed.raw.timestamp, p.signed.raw.expiration]
  | _ => []

structure Manager.Grounded (m : Manager) (acts : List Act) : Prop where
  sender : m.sender.Grounded m.settings acts
  defaultPrice : m.estimator.defaultPrice = m.settings.defaultPrice
  cached : ∀ c, m.estimator.cached = some c → Charges m.settings acts c.price

section History

variable {settings : Settings} {acts : List Act} {act other : Act} {tx : Tx}
  {energy price feeLimit : Int} {raw : RawJson} {x : Sender}

theorem told_last (acts : List Act) (act : Act) : Told (acts ++ [act]) act :=
  ⟨acts, [], rfl, by simp⟩

theorem Told.append (h : Told acts other) (hact : ¬ act.Opens) : Told (acts ++ [act]) other := by
  obtain ⟨before, later, rfl, hlater⟩ := h
  refine ⟨before, later ++ [act], by simp, fun b hb => ?_⟩
  rcases List.mem_append.mp hb with hb | hb
  · exact hlater b hb
  · rwa [List.mem_singleton.mp hb]

theorem Told.mem (h : Told acts act) : act ∈ acts := by
  obtain ⟨before, later, rfl, -⟩ := h
  exact List.mem_append_right _ List.mem_cons_self

theorem Costs.append (h : Costs acts tx energy) (hact : ¬ act.Opens) :
    Costs (acts ++ [act]) tx energy := by
  cases h with
  | estimated h => exact .estimated (h.append hact)
  | simulated h hrun => exact .simulated (h.append hact) hrun

theorem Charges.append (h : Charges settings acts price) (act : Act) :
    Charges settings (acts ++ [act]) price := by
  rcases h with h | ⟨tx, energy, feed, hmem, hquotes⟩
  · exact .inl h
  · exact .inr ⟨tx, energy, feed, List.mem_append_left _ hmem, hquotes⟩

theorem Limits.append (h : Limits settings acts tx feeLimit) (hact : ¬ act.Opens) :
    Limits settings (acts ++ [act]) tx feeLimit := by
  obtain ⟨energy, price, hcosts, hcharges, heq⟩ := h
  exact ⟨energy, price, hcosts.append hact, hcharges.append act, heq⟩

theorem Drafts.append (h : Drafts settings acts tx feeLimit raw) (hact : ¬ act.Opens) :
    Drafts settings (acts ++ [act]) tx feeLimit raw := by
  obtain ⟨hlimits, block, htold, hdates⟩ := h
  exact ⟨hlimits.append hact, block, htold.append hact, hdates⟩

theorem Sender.Grounded.append (h : x.Grounded settings acts) (hact : ¬ act.Opens) :
    x.Grounded settings (acts ++ [act]) := by
  cases x with
  | busy a =>
    cases a with
    | pricing tx energy => exact Costs.append h hact
    | referring tx feeLimit => exact Limits.append h hact
    | signing tx feeLimit u => exact Drafts.append h hact
    | sending p => exact Drafts.append h hact
    | beginning | estimating | simulating | failing => trivial
  | asleep p due => exact Drafts.append h hact
  | absent | idle | stopped => trivial

theorem Costs.isInt64 (h : Costs acts tx energy) (hacts : ∀ act ∈ acts, act.Fits) :
    Wire.IsInt64 energy := by
  cases h with
  | estimated h => exact hacts _ h.mem _ rfl
  | simulated h hrun => exact isInt64_clamp _

theorem Charges.bounds (h : Charges settings acts price) (hpos : 0 < settings.defaultPrice)
    (hle : settings.defaultPrice ≤ int64Max) : 0 < price ∧ price ≤ int64Max := by
  rcases h with rfl | ⟨tx, energy, feed, -, hquotes⟩
  · exact ⟨hpos, hle⟩
  · obtain ⟨-, -, -, -, -, -, -, -, -, hpos, hle⟩ := hquotes
    exact ⟨hpos, hle⟩

theorem Limits.isInt64 (h : Limits settings acts tx feeLimit) : Wire.IsInt64 feeLimit := by
  obtain ⟨energy, price, -, -, rfl⟩ := h
  exact Fee.isInt64_padded (isInt64_clamp _) _ _

theorem Drafts.isInt64 (h : Drafts settings acts tx feeLimit raw)
    (hacts : ∀ act ∈ acts, act.Fits) :
    ∀ i ∈ [feeLimit, raw.feeLimit, raw.timestamp, raw.expiration], Wire.IsInt64 i := by
  obtain ⟨hlimits, block, htold, hdates⟩ := h
  have hfee := hlimits.isInt64
  obtain ⟨-, htime⟩ := hacts _ htold.mem block rfl
  have hexpiration := isInt64_clamp (block.timestamp + settings.lifetime)
  simp only [List.forall_mem_cons, List.not_mem_nil, false_implies, implies_true, and_true,
    hdates.feeLimit_eq, hdates.timestamp_eq, hdates.expiration_eq]
  exact ⟨hfee, hfee, htime, hexpiration⟩

theorem Sender.Grounded.isInt64 (h : x.Grounded settings acts) (hacts : ∀ act ∈ acts, act.Fits) :
    ∀ i ∈ x.figures, Wire.IsInt64 i := by
  cases x with
  | busy a =>
    cases a with
    | pricing tx energy => exact List.forall_mem_singleton.mpr (Costs.isInt64 h hacts)
    | referring tx feeLimit => exact List.forall_mem_singleton.mpr (Limits.isInt64 h)
    | signing tx feeLimit u => exact Drafts.isInt64 h hacts
    | sending p => exact Drafts.isInt64 h hacts
    | beginning | estimating | simulating | failing => exact List.forall_mem_nil _
  | asleep p due => exact Drafts.isInt64 h hacts
  | absent | idle | stopped => exact List.forall_mem_nil _

end History

namespace Manager

variable {m : Manager} {acts : List Act} {act : Act} {tx : Tx} {energy price feeLimit : Int}
  {block : Node.Block}

theorem dates_unsigned {u : UnsignedTransaction} (h : m.unsigned tx feeLimit block = .ok u) :
    block.Dates m.settings feeLimit u.raw := by
  simp only [unsigned, bind_eq_ok_iff, mapError_eq_ok_iff] at h
  obtain ⟨data, -, ref, href, h⟩ := h
  obtain ⟨w, hw, rfl⟩ := UnsignedTransaction.ofRaw_eq_ok_iff.mp h
  obtain ⟨_, _, _, _, -, -, -, -, -, -, -, hfee, -⟩ := RawJson.toWire_eq_ok_iff.mp hw
  unfold BlockRef.ofBlock at href
  split at href
  · cases href
  · rename_i hnumber
    split at href
    · cases href
    · rename_i bs hbs
      split at href
      · rename_i hlength
        cases href
        refine ⟨by omega, ⟨Bytes.ofInt 2 block.number, Text.unhex_hex _, by simp, ?_⟩,
          ⟨bs, hbs, hlength, Text.unhex_hex _⟩, rfl, hfee, rfl, rfl⟩
        have hpower : ((Nat.pow 256 2 : Nat) : Int) = 65536 := by decide
        rw [Bytes.ofInt, Bytes.toNat_ofNat, Int.natCast_emod, hpower,
          Int.toNat_of_nonneg (by omega), Int.emod_emod]
      · cases href

theorem unsigned_of_spoilt (h : Spoilt feeLimit (.ok block)) :
    ∃ reason, m.unsigned tx feeLimit block = .error reason := by
  cases hu : m.unsigned tx feeLimit block with
  | error reason => exact ⟨reason, rfl⟩
  | ok u =>
    have hdates := dates_unsigned hu
    rcases h with hfee | ⟨_, ⟨rfl⟩, hnumber | hid⟩
    · exact absurd hdates.feeLimit_nonneg (by omega)
    · exact absurd hdates.number_nonneg (by omega)
    · obtain ⟨bs, hbs, hlength, -⟩ := hdates.refBlockHash
      exact absurd hlength (hid bs hbs)

theorem grounded_busy (h : m.Grounded acts) {a : Attempt}
    (ha : (Sender.busy a).Grounded m.settings acts) : (m.busy a).Grounded acts :=
  ⟨ha, h.defaultPrice, h.cached⟩

theorem grounded_limited (h : m.Grounded acts) (henergy : Costs acts tx energy)
    (hprice : Charges m.settings acts price) : (m.limited tx energy price).Grounded acts :=
  grounded_busy h ⟨energy, price, henergy, hprice, rfl⟩

theorem grounded_priced (h : m.Grounded acts) (now : Nat) (henergy : Costs acts tx energy) :
    (m.priced now tx energy).Grounded acts := by
  unfold priced
  split
  · rename_i price hprice
    obtain ⟨c, hc, -, rfl⟩ := Fee.Estimator.freshPrice?_eq_some_iff.mp hprice
    exact grounded_limited h henergy (h.cached c hc)
  · exact grounded_busy h henergy

theorem charges_priceOfFeed (h : m.Grounded acts) {feed : String}
    (hmem : Act.answered (.pricing tx energy) (.ok feed) ∈ acts) :
    Charges m.settings acts (m.estimator.priceOfFeed feed) := by
  by_cases hquotes : ∃ p, Fee.Quotes feed p
  · obtain ⟨p, hp⟩ := hquotes
    rw [Fee.Estimator.priceOfFeed_of_quotes hp]
    exact .inr ⟨tx, energy, feed, hmem, hp⟩
  · rw [Fee.Estimator.priceOfFeed_of_not_quotes fun p hp => hquotes ⟨p, hp⟩]
    exact .inl h.defaultPrice

theorem Grounded.append (h : m.Grounded acts) (hact : ¬ act.Opens) : m.Grounded (acts ++ [act]) :=
  ⟨h.sender.append hact, h.defaultPrice, fun c hc => (h.cached c hc).append act⟩

theorem grounded_idle (h : m.Grounded acts) {m' : Manager} {stores : Address → Store}
    (hm : m.Leaves m' stores) : Grounded { m' with sender := .idle } acts := by
  obtain ⟨⟨accounts, metrics, events, rfl⟩, -⟩ := hm
  exact ⟨trivial, h.defaultPrice, h.cached⟩

theorem grounded_judge (h : m.Grounded acts) (now : Nat) {p : Parcel}
    (hp : Drafts m.settings acts p.tx p.feeLimit p.signed.raw) (v : Node.Verdict) :
    (m.judge now p v).Grounded acts := by
  unfold judge
  split
  · unfold sent
    split
    · exact grounded_busy h trivial
    · rename_i t ht
      exact grounded_idle h (((m.leaves_move p.tx.sender p.tx.id t).count _).record _)
  · split
    · exact grounded_busy h trivial
    · split
      · exact grounded_busy h trivial
      · exact ⟨hp, h.defaultPrice, h.cached⟩

/-- The estimator learns from an estimate only whether there are any. -/
theorem grounded_estimated {call : Node.Simulated} (h : m.Grounded acts) (now : Nat)
    (answer : Except Node.Error Int)
    (htold : Told acts (.answered (.estimating tx call) answer)) :
    (m.answered now (.estimating tx call) answer).Grounded acts := by
  cases answer with
  | ok energy => exact grounded_priced h now (.estimated htold)
  | error e => cases e <;> exact ⟨trivial, h.defaultPrice, h.cached⟩

theorem grounded_simulated {call : Node.Simulated} (h : m.Grounded acts) (now : Nat)
    (answer : Except Node.Error Node.DryRun)
    (htold : Told acts (.answered (.simulating tx call) answer)) :
    (m.answered now (.simulating tx call) answer).Grounded acts := by
  simp only [answered]
  split
  · rename_i energy henergy
    obtain ⟨run, rfl, hrun, rfl⟩ := Fee.Estimator.energyOfDryRun_eq_ok_iff.mp henergy
    exact grounded_priced h now (.simulated htold hrun)
  · exact grounded_busy h trivial

theorem grounded_charged (h : m.Grounded acts) (henergy : Costs acts tx energy) (now : Nat)
    (answer : Except Node.Error String)
    (htold : Told acts (.answered (.pricing tx energy) answer)) :
    (m.answered now (.pricing tx energy) answer).Grounded acts := by
  cases answer with
  | ok feed =>
    have hprice := charges_priceOfFeed h htold.mem
    refine ⟨⟨energy, _, henergy, hprice, rfl⟩, h.defaultPrice, ?_⟩
    rintro c ⟨⟩
    exact hprice
  | error e =>
    refine grounded_limited h henergy ?_
    cases hc : m.estimator.cached with
    | none => exact .inl h.defaultPrice
    | some c => exact h.cached c hc

theorem grounded_referred (h : m.Grounded acts) (hlimit : Limits m.settings acts tx feeLimit)
    (now : Nat) (answer : Except Node.Error Node.Block)
    (htold : Told acts (.answered (.referring tx feeLimit) answer)) :
    (m.answered now (.referring tx feeLimit) answer).Grounded acts := by
  cases answer with
  | error e => exact grounded_busy h trivial
  | ok block =>
    simp only [answered]
    split
    · exact grounded_busy h trivial
    · rename_i u hu
      exact grounded_busy h ⟨hlimit, block, htold, dates_unsigned hu⟩

/-- What the sender makes of an answer comes from what it was told before and from the answer. -/
theorem grounded_answered (h : m.Grounded acts) {a : Attempt} (ha : m.sender = .busy a) (now : Nat)
    (answer : a.Answer) : (m.answered now a answer).Grounded (acts ++ [Act.answered a answer]) := by
  have hsender := h.sender
  rw [ha] at hsender
  have htold := told_last acts (Act.answered a answer)
  cases a with
  | beginning tx =>
    have hcached : ∀ c, m.estimator.cached = some c →
        Charges m.settings (acts ++ [Act.answered (.beginning tx) answer]) c.price :=
      fun c hc => (h.cached c hc).append _
    show (m.attempt tx).Grounded _
    unfold attempt
    split
    · exact ⟨trivial, h.defaultPrice, hcached⟩
    · show Grounded (busy _ (if m.estimator.estimates then _ else _)) _
      split <;> exact ⟨trivial, h.defaultPrice, hcached⟩
  | estimating tx call => exact grounded_estimated (h.append id) now answer htold
  | simulating tx call => exact grounded_simulated (h.append id) now answer htold
  | pricing tx energy =>
    exact grounded_charged (h.append id) (Costs.append hsender id) now answer htold
  | referring tx feeLimit =>
    exact grounded_referred (h.append id) (Limits.append hsender id) now answer htold
  | signing tx feeLimit u =>
    have hdrafts : Drafts m.settings (acts ++ [Act.answered (.signing tx feeLimit u) answer]) tx
        feeLimit u.raw := Drafts.append hsender id
    cases answer with
    | error e => exact grounded_busy (h.append id) trivial
    | ok signature => exact grounded_busy (h.append id) hdrafts
  | sending p =>
    have hdrafts : Drafts m.settings (acts ++ [Act.answered (.sending p) answer]) p.tx p.feeLimit
        p.signed.raw := Drafts.append hsender id
    cases answer with
    | error e => exact grounded_busy (h.append id) trivial
    | ok verdict => exact grounded_judge (h.append id) now hdrafts verdict
  | failing tx reason =>
    exact grounded_idle (h.append id) (m.leaves_fail now tx.sender tx.id reason)

end Manager

/-- The sender has made no use of an answer. What it has at hand is the same, or it has begun, has
nothing at hand or has woken up. -/
structure Manager.Quiet (m m' : Manager) : Prop where
  settings : m'.settings = m.settings
  estimator : m'.estimator = m.estimator
  sender : m'.sender = m.sender ∨ m'.sender = .idle ∨ m'.sender = .stopped ∨
    (∃ tx, m'.sender = .busy (.beginning tx)) ∨
    ∃ p due, m.sender = .asleep p due ∧ m'.sender = .busy (.sending p)

theorem Manager.Quiet.grounded {m m' : Manager} {acts : List Act} {act : Act} (hq : m.Quiet m')
    (h : m.Grounded acts) (hact : ¬ act.Opens) : m'.Grounded (acts ++ [act]) := by
  have h' := h.append hact
  refine ⟨?_, ?_, ?_⟩
  · rw [hq.settings]
    rcases hq.sender with hx | hx | hx | ⟨tx, hx⟩ | ⟨p, due, ha, hx⟩
    · rw [hx]
      exact h'.sender
    · rw [hx]
      trivial
    · rw [hx]
      trivial
    · rw [hx]
      trivial
    · have hdrafts := h'.sender
      rw [ha] at hdrafts
      rw [hx]
      exact hdrafts
  · rw [hq.estimator, hq.settings, h'.defaultPrice]
  · rw [hq.estimator, hq.settings]
    exact h'.cached

open Manager in
theorem PartStep.answer_cases {m m' : Manager} {now : Nat} {act : Act}
    (hs : PartStep m now act m') :
    (∃ a answer, act = .answered a answer ∧ m.sender = .busy a ∧ m' = m.answered now a answer) ∨
    ¬ act.Opens ∧ m.Quiet m' := by
  have hact : (∃ a answer, act = .answered a answer ∧ m.sender = .busy a ∧
      m' = m.answered now a answer) ∨ ¬ act.Opens := by
    cases hs with
    | answered ha answer => exact .inl ⟨_, answer, rfl, ha, rfl⟩
    | _ => exact .inr id
  rcases hact with hanswered | hact
  · exact .inl hanswered
  · rcases hs.owner_cases with
      hm | hanswered | ⟨p, due, -, -, ha, rfl⟩ | ⟨-, _, _, _, _, _, rfl⟩ | ⟨-, _, _, _, rfl⟩
    · obtain ⟨tx, rest, metrics, -, -, rfl⟩ := take?_eq_some hm
      exact .inr ⟨hact, rfl, rfl, .inr (.inr (.inr (.inl ⟨tx, rfl⟩)))⟩
    · exact .inl hanswered
    · exact .inr ⟨hact, rfl, rfl, .inr (.inr (.inr (.inr ⟨p, due, ha, rfl⟩)))⟩
    · exact .inr ⟨hact, rfl, rfl, .inl rfl⟩
    · exact .inr ⟨hact, rfl, rfl, .inl rfl⟩

namespace Manager

theorem quiet_proceed (m : Manager) (fresh : String) (q : Submission) (answer : q.Answer) :
    m.Quiet (m.proceed fresh q answer).1 := by
  rcases m.proceed_cases fresh q answer with
    ⟨tx, s, -, -, -, ⟨_, _, _, hm⟩, -⟩ | ⟨tx, -, hm⟩ | ⟨-, ⟨⟨_, _, _, hm, -⟩, -⟩, -⟩
  · rw [hm]
    exact ⟨rfl, rfl, .inl rfl⟩
  · rw [hm]
    exact ⟨rfl, rfl, .inl rfl⟩
  · rw [hm]
    exact ⟨rfl, rfl, .inl rfl⟩

theorem quiet_spawn (m : Manager) (w : Worker) : m.Quiet (m.spawn w) := by
  cases w with
  | sender => exact ⟨rfl, rfl, .inr (.inl rfl)⟩
  | poller | reaper => exact ⟨rfl, rfl, .inl rfl⟩

theorem quiet_halt (m : Manager) (w : Worker) : m.Quiet (m.halt w) := by
  cases w with
  | sender => exact ⟨rfl, rfl, .inr (.inr (.inl rfl))⟩
  | poller | reaper => exact ⟨rfl, rfl, .inl rfl⟩

end Manager

namespace System

open Manager

variable {s₀ s s' : System} {act : Act} {acts : List Act} {tx : Tx} {reason : String}

/-- The sender hears an answer, or the step makes no use of one. -/
theorem Step.answer_cases (hs : Step s act s') :
    (∃ a answer, act = .answered a answer ∧ s.manager.sender = .busy a ∧
      s'.manager = s.manager.answered s.now a answer) ∨
    ¬ act.Opens ∧ s.manager.Quiet s'.manager := by
  cases hs with
  | part hm => exact hm.answer_cases
  | proceed _ answer fresh => exact .inr ⟨id, quiet_proceed _ fresh _ answer⟩
  | @spawn _ _ w => exact .inr ⟨id, quiet_spawn _ w⟩
  | @halt w => exact .inr ⟨id, quiet_halt _ w⟩
  | begin hm =>
    obtain ⟨-, rfl⟩ := begin_eq_ok_iff.mp hm
    exact .inr ⟨id, rfl, rfl, .inl rfl⟩
  | takeOutlet _ hm =>
    obtain ⟨-, rfl⟩ := takeOutlet_eq_ok_iff.mp hm
    exact .inr ⟨id, rfl, rfl, .inl rfl⟩
  | _ => exact .inr ⟨id, rfl, rfl, .inl rfl⟩

theorem Step.grounded (h : s.manager.Grounded acts) (hs : Step s act s') :
    s'.manager.Grounded (acts ++ [act]) := by
  rcases hs.answer_cases with ⟨a, answer, rfl, ha, hm⟩ | ⟨hact, hq⟩
  · rw [hm]
    exact grounded_answered h ha s.now answer
  · exact hq.grounded h hact

theorem Run.grounded {settings : Settings} {checks : Bool} {m : Manager} {now : Nat}
    (hm : ofSettings settings checks = .ok m) (hr : Run { manager := m, now } acts s) :
    s.manager.Grounded acts := by
  induction hr with
  | start =>
    obtain ⟨-, rfl⟩ := ofSettings_eq_ok hm
    exact ⟨trivial, rfl, by rintro c ⟨⟩⟩
  | next _ hs ih => exact hs.grounded ih

theorem Step.given_up {feeLimit : Int} {answer : Except Node.Error Node.Block}
    (hs : Step s (.answered (.referring tx feeLimit) answer) s') (h : Spoilt feeLimit answer) :
    ∃ reason, s'.manager.sender = .busy (.failing tx reason) := by
  rw [hs.answered_eq]
  cases answer with
  | error e => exact ⟨_, rfl⟩
  | ok block =>
    obtain ⟨reason, hreason⟩ := @unsigned_of_spoilt s.manager tx feeLimit block h
    refine ⟨reason, ?_⟩
    simp only [answered, hreason]
    rfl

/-- What is given up stays at hand until its end is on record. The sender does not listen
meanwhile. -/
theorem Step.failing_cases (hl : s.Launched)
    (hsender : s.manager.sender = .busy (.failing tx reason)) (hs : Step s act s') :
    act = .answered (.failing tx reason) () ∨
      s'.manager.sender = .busy (.failing tx reason) := by
  cases hs with
  | part hm =>
    rcases hm.owner_cases with
      htake | ⟨a, answer, rfl, ha, -⟩ | ⟨p, due, -, -, ha, -⟩ | ⟨-, _, _, _, _, _, rfl⟩ |
      ⟨-, _, _, _, rfl⟩
    · obtain ⟨other, rest, metrics, hidle, -, -⟩ := take?_eq_some htake
      rw [hsender] at hidle
      cases hidle
    · rw [hsender] at ha
      cases ha
      exact .inl rfl
    · rw [hsender] at ha
      cases ha
    · exact .inr hsender
    · exact .inr hsender
  | proceed _ answer fresh =>
    right
    rw [← hsender]
    exact sender_proceed ..
  | @spawn before after v parts hc =>
    right
    have hv : s.manager.isAbsent v := hl.absent v (by simp [unlaunched, hc, Call.parts])
    cases v with
    | sender =>
      rw [show s.manager.sender = .absent from hv] at hsender
      cases hsender
    | poller | reaper => exact hsender
  | @halt v _ hlistens =>
    right
    cases v with
    | sender =>
      simp only [listens, hsender] at hlistens
      cases hlistens
    | poller | reaper => exact hsender
  | begin hm =>
    obtain ⟨-, rfl⟩ := begin_eq_ok_iff.mp hm
    exact .inr hsender
  | takeOutlet _ hm =>
    obtain ⟨-, rfl⟩ := takeOutlet_eq_ok_iff.mp hm
    exact .inr hsender
  | _ => exact .inr hsender

theorem Run.failing (hg : s₀.Guarded)
    (hsender : s₀.manager.sender = .busy (.failing tx reason)) (hr : Run s₀ acts s) :
    s.manager.sender = .busy (.failing tx reason) ∨
    ∃ before later mid mid', acts = before ++ Act.answered (.failing tx reason) () :: later ∧
      Run s₀ before mid ∧ mid.manager.sender = .busy (.failing tx reason) ∧
      Step mid (.answered (.failing tx reason) ()) mid' ∧ Run mid' later s := by
  induction hr with
  | start => exact .inl hsender
  | @next acts act s s' hr hs ih =>
    rcases ih with hfailing | ⟨before, later, mid, mid', rfl, hbefore, hmid, hend, hlater⟩
    · rcases hs.failing_cases (hr.guarded hg).launched hfailing with rfl | hfailing'
      · exact .inr ⟨acts, [], s, s', rfl, hr, hfailing, hs, .start⟩
      · exact .inl hfailing'
    · refine .inr ⟨before, later ++ [act], mid, mid', ?_, hbefore, hmid, hend, hlater.next hs⟩
      rw [List.append_assoc, List.cons_append]

/-- What has come to its end is not at hand. -/
theorem Guarded.not_at_hand (hg : s.Guarded) {a : Address} {id : String} {g : Stage}
    (hstage : (s.manager.store a).stage? id = some g) (ht : g.isTerminal = true)
    (htx : s.manager.sender.tx? = some tx) : ¬ (tx.sender = a ∧ tx.id = id) := by
  rintro ⟨rfl, rfl⟩
  obtain ⟨dropped, hc, -⟩ := hg.custody
  obtain ⟨e, he, hopen, -, -⟩ := hc.of_sender htx
  rw [Store.stage?_of_entry he, Option.some.injEq] at hstage
  rw [hstage] at hopen
  cases g <;> simp [Stage.isOpen, Stage.isTerminal] at hopen ht

/-- Whatever integers of 64 bits the node says, the sender works with integers of 64 bits. A fee
limit is the energy times the price, kept within bounds and padded; without a bump it is not
padded. What goes out to the node has a fee limit that is not negative, refers to a block whose
number is not negative, and expires after the time of the block, by the lifetime or at the upper
bound. If the fee limit or the block does not allow that, the transaction is given up: the
sender has it at hand until its bad end is on record, and sends nothing of it. -/
theorem figures_hold {settings : Settings} {checks : Bool} {m : Manager} {now : Nat}
    (hm : ofSettings settings checks = .ok m) (hprice : settings.defaultPrice ≤ int64Max)
    (hr : Run { manager := m, now } acts s) (hacts : ∀ act ∈ acts, act.Fits) :
    (∀ i ∈ s.manager.sender.figures, Wire.IsInt64 i) ∧
    (∀ tx feeLimit, s.manager.sender = .busy (.referring tx feeLimit) →
      ∃ energy price, Costs acts tx energy ∧ Wire.IsInt64 energy ∧
        Charges settings acts price ∧ 0 < price ∧ price ≤ int64Max ∧
        feeLimit = Fee.padded (clamp int64Min int64Max (energy * price))
          settings.energyMultiplier tx.energyBumps ∧
        (tx.energyBumps = 0 → feeLimit = clamp int64Min int64Max (energy * price))) ∧
    (∀ p, s.manager.sender = .busy (.sending p) →
      Limits settings acts p.tx p.feeLimit ∧ p.signed.Faithful ∧
      p.signed.raw.feeLimit = p.feeLimit ∧ 0 ≤ p.feeLimit ∧
      ∃ block, Told acts (.answered (.referring p.tx p.feeLimit) (.ok block)) ∧
        p.signed.raw.timestamp = block.timestamp ∧
        p.signed.raw.expiration = min (block.timestamp + settings.lifetime) int64Max ∧
        p.signed.raw.timestamp ≤ p.signed.raw.expiration ∧ 0 ≤ block.number ∧
        ∃ bs, Text.unhex p.signed.raw.refBlockBytes = .ok bs ∧ bs.length = 2 ∧
          (Bytes.toNat bs : Int) = block.number % 2 ^ 16) ∧
    ∀ tx feeLimit answer s', Step s (.answered (.referring tx feeLimit) answer) s' →
      Spoilt feeLimit answer →
      ∃ reason, s'.manager.sender = .busy (.failing tx reason) ∧
        ∀ later t, Run s' later t →
          (t.manager.sender = .busy (.failing tx reason) ∧
            ∃ t', Step t (.answered (.failing tx reason) ()) t') ∨
          ∃ before rest mid mid',
            later = before ++ Act.answered (.failing tx reason) () :: rest ∧
            Run s' before mid ∧ mid.manager.sender = .busy (.failing tx reason) ∧
            Step mid (.answered (.failing tx reason) ()) mid' ∧ Run mid' rest t ∧
            (mid'.manager.store tx.sender).stage? tx.id = some .fatallyErrored ∧
            ((t.manager.store tx.sender).stage? tx.id = some .fatallyErrored →
              ∀ p, t.manager.sender = .busy (.sending p) →
                ¬ (p.tx.sender = tx.sender ∧ p.tx.id = tx.id)) := by
  have hg := hr.guarded (guarded_initial hm now)
  have hgrounded := hr.grounded hm
  have hsettings : s.manager.settings = settings := by
    rw [hr.settings, (ofSettings_eq_ok hm).2]
  obtain ⟨hpos, hlifetime⟩ := Settings.pos_of_fault? (ofSettings_eq_ok hm).1
  have hsender := hgrounded.sender
  rw [hsettings] at hsender
  refine ⟨hsender.isInt64 hacts, fun tx feeLimit htx => ?_, fun p hp => ?_, ?_⟩
  · rw [htx] at hsender
    obtain ⟨energy, price, hcosts, hcharges, rfl⟩ := hsender
    obtain ⟨hlow, hhigh⟩ := hcharges.bounds hpos hprice
    refine ⟨energy, price, hcosts, hcosts.isInt64 hacts, hcharges, hlow, hhigh, rfl, ?_⟩
    intro hbumps
    rw [Fee.padded, if_pos hbumps]
    rfl
  · have hfaithful : s.manager.sender.Faithful :=
      hr.induct (by rw [(ofSettings_eq_ok hm).2]; trivial) Step.faithful
    rw [hp] at hsender hfaithful
    obtain ⟨hlimits, block, htold, hdates⟩ := hsender
    obtain ⟨-, htime⟩ := hacts _ htold.mem block rfl
    obtain ⟨hexpiration, hlater⟩ := addClamped_of_pos htime hlifetime
    obtain ⟨bs, hbs, hlength, hvalue⟩ := hdates.refBlockBytes
    refine ⟨hlimits, hfaithful, hdates.feeLimit_eq, hdates.feeLimit_nonneg, block, htold,
      hdates.timestamp_eq, ?_, ?_, hdates.number_nonneg, bs, hbs, hlength, ?_⟩
    · rw [hdates.expiration_eq, hexpiration]
    · rwa [hdates.expiration_eq, hdates.timestamp_eq]
    · rw [hvalue]
      norm_num
  · intro tx feeLimit answer s' hs hspoilt
    have hg' := hs.guarded hg
    obtain ⟨reason, hreason⟩ := hs.given_up hspoilt
    refine ⟨reason, hreason, fun later t hlater => ?_⟩
    rcases hlater.failing hg' hreason with
      hfailing | ⟨before, rest, mid, mid', heq, hbefore, hmid, hend, hrest⟩
    · exact .inl ⟨hfailing, _, .part (.answered hfailing ())⟩
    · have hgmid := hend.guarded (hbefore.guarded hg')
      refine .inr ⟨before, rest, mid, mid', heq, hbefore, hmid, hend, hrest,
        hend.fatal (hbefore.guarded hg'), fun hstage p hp => ?_⟩
      exact (hrest.guarded hgmid).not_at_hand hstage rfl (by rw [hp]; rfl)

section Sample

def laterBlock : Node.Block :=
  { sampleBlock with number := 70000, timestamp := 1000 }

def negativeBlock : Node.Block :=
  { sampleBlock with number := -1 }

/-- The first transaction needs 100 units of energy, and the node is about to tell of a block. -/
theorem run_referringSample : ∃ m acts s, ofSettings {} false = .ok m ∧
    Run { manager := m, now := 0 } acts s ∧ (∀ act ∈ acts, act.Fits) ∧
    s.manager.sender = .busy (.referring (.ofRequest "t" sampleRequest) 42000) ∧
    s.manager.settings = {} := by
  have h₀ : Run { manager := { settings := {}, estimator := .ofSettings {} }, now := 0 } [] _ :=
    .start
  have hprepared := h₀.prepare (r := sampleRequest) rfl (fun hon => by cases hon) [] ""
  obtain ⟨_, _, _, _, -, -, hentered⟩ := hprepared.admit rfl rfl rfl nofun ""
  obtain ⟨_, _, -, hestimating⟩ := (hentered.launch rfl rfl).estimating rfl rfl
    (show Fee.simulated (.ofRequest "t" sampleRequest) = .ok _ from rfl) rfl
  have hpricing := hestimating.answered rfl
    (show Manager.answered _ _ (.estimating _ _) (.ok 100) = _ from rfl)
  have hreferring := hpricing.answered rfl
    (show Manager.answered _ _ (.pricing _ 100) (.error (.http "prices" 503)) = _ from rfl)
  have hfits : ∀ energy, (.ok 100 : Except Node.Error Int) = .ok energy → Wire.IsInt64 energy := by
    rintro energy ⟨⟩
    exact ⟨by decide, by decide⟩
  refine ⟨_, _, _, ofSettings_default, hreferring, ?_, rfl, rfl⟩
  simp only [List.forall_mem_append, List.forall_mem_cons, List.not_mem_nil, false_implies,
    implies_true, Act.Fits, and_true, true_and]
  exact hfits

/-- The node tells of a later block, and the keystore signs. -/
theorem run_chargedSample : ∃ m acts s p, ofSettings {} false = .ok m ∧
    Run { manager := m, now := 0 } acts s ∧ (∀ act ∈ acts, act.Fits) ∧
    s.manager.sender = .busy (.sending p) ∧ p.feeLimit = 42000 := by
  obtain ⟨m, acts, s, hm, hr, hacts, hsender, hsettings⟩ := run_referringSample
  have hsome : (Manager.unsigned { settings := {}, estimator := .ofSettings {} }
      (.ofRequest "t" sampleRequest) 42000 laterBlock).toOption.isSome = true := by decide +kernel
  obtain ⟨u, hu⟩ := exists_unsigned hsome
  have hsigning : s.manager.answered s.now (.referring (.ofRequest "t" sampleRequest) 42000)
      (.ok laterBlock) = s.manager.busy (.signing (.ofRequest "t" sampleRequest) 42000 u) := by
    simp only [Manager.answered, hu _ hsettings]
  have hsent := (hr.answered hsender hsigning).answered rfl
    (show Manager.answered _ s.now (.signing _ 42000 u) (.ok []) = _ from rfl)
  have hfits : ∀ block, (.ok laterBlock : Except Node.Error Node.Block) = .ok block →
      Wire.IsInt64 block.number ∧ Wire.IsInt64 block.timestamp := by
    rintro block ⟨⟩
    exact ⟨⟨by decide, by decide⟩, by decide, by decide⟩
  refine ⟨m, _, _, _, hm, hsent, ?_, rfl, rfl⟩
  simp only [List.forall_mem_append, List.forall_mem_cons, List.not_mem_nil, false_implies,
    implies_true, Act.Fits, and_true]
  exact ⟨hacts, hfits⟩

/-- With a sound block the transaction goes out at its price, and a block with a negative number
is its end. -/
theorem figures_hold_sample :
    (∃ m acts s p block bs, ofSettings {} false = .ok m ∧ Run { manager := m, now := 0 } acts s ∧
      (∀ act ∈ acts, act.Fits) ∧ s.manager.sender = .busy (.sending p) ∧
      p.signed.raw.feeLimit = 42000 ∧
      Told acts (.answered (.referring p.tx p.feeLimit) (.ok block)) ∧
      p.signed.raw.expiration = min (block.timestamp + 30000) int64Max ∧
      Text.unhex p.signed.raw.refBlockBytes = .ok bs ∧
      (Bytes.toNat bs : Int) = block.number % 2 ^ 16) ∧
    ∃ m acts s s' reason, ofSettings {} false = .ok m ∧
      Run { manager := m, now := 0 } acts s ∧ (∀ act ∈ acts, act.Fits) ∧
      Step s (.answered (.referring (.ofRequest "t" sampleRequest) 42000) (.ok negativeBlock)) s' ∧
      (∃ energy price, Costs acts (.ofRequest "t" sampleRequest) energy ∧
        42000 = clamp int64Min int64Max (energy * price)) ∧
      s'.manager.sender = .busy (.failing (.ofRequest "t" sampleRequest) reason) ∧
      ∃ t, Step s' (.answered (.failing (.ofRequest "t" sampleRequest) reason) ()) t := by
  have hprice : ({} : Settings).defaultPrice ≤ int64Max := by decide
  constructor
  · obtain ⟨m, acts, s, p, hm, hr, hacts, hsender, hfee⟩ := run_chargedSample
    obtain ⟨-, -, hsound, -⟩ := figures_hold hm hprice hr hacts
    obtain ⟨-, -, hlimit, -, block, htold, -, hexpiration, -, -, bs, hbs, -, hnumber⟩ :=
      hsound p hsender
    exact ⟨m, acts, s, p, block, bs, hm, hr, hacts, hsender, hlimit.trans hfee, htold,
      hexpiration, hbs, hnumber⟩
  · obtain ⟨m, acts, s, hm, hr, hacts, hsender, -⟩ := run_referringSample
    have hs := Step.part (.answered hsender (.ok negativeBlock))
    obtain ⟨-, hlimit, -, hend⟩ := figures_hold hm hprice hr hacts
    obtain ⟨energy, price, hcosts, -, -, -, -, -, heq⟩ := hlimit _ _ hsender
    have hspoilt : Spoilt 42000 (.ok negativeBlock) := .inr ⟨negativeBlock, rfl, .inl (by decide)⟩
    obtain ⟨reason, hfailing, hlater⟩ := hend _ _ _ _ hs hspoilt
    have hnext : ∃ t, Step _ (.answered (.failing (.ofRequest "t" sampleRequest) reason) ()) t :=
      ⟨_, .part (.answered hfailing ())⟩
    exact ⟨m, acts, s, _, reason, hm, hr, hacts, hs, ⟨energy, price, hcosts, heq rfl⟩, hfailing,
      hnext⟩

end Sample

end System

end TronCourier
