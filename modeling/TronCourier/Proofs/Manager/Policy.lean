import Mathlib
import TronCourier.Manager.Confirm
import TronCourier.Manager.Surroundings

/-! What a pass of the poller is to make of a transaction, told from its entry, from what is
heard of its latest attempt and from the time of the ledger. -/

namespace TronCourier

/-- What a pass does for a transaction besides changing its entry. -/
inductive Deed
  | finalized
  | displaced
  | confirmed
  | ended
  | moreEnergy
  | repeated
  | requeued (tx : Tx)

def Deed.tx? : Deed → Option Tx
  | .requeued tx => some tx
  | .finalized | .displaced | .confirmed | .ended | .moreEnergy | .repeated => none

/-- The counts after a deed. The queue has no part in them here. -/
def Metrics.after (c : Metrics) : Deed → Metrics
  | .finalized => { c with finalized := c.finalized + 1 }
  | .displaced => { c with reorgs := c.reorgs + 1 }
  | .confirmed => { c with confirmed := c.confirmed + 1 }
  | .ended => { c with fatal := c.fatal + 1 }
  | .moreEnergy => { c with energyBumps := c.energyBumps + 1 }
  | .repeated => { c with retries := c.retries + 1 }
  | .requeued _ => c

instance Metrics.rightCommutative_after : RightCommutative Metrics.after where
  right_comm c d d' := by cases d <;> cases d' <;> rfl

/-- What becomes of a transaction: its entry, and what is done for it on the way. -/
structure Fate where
  entry : Entry
  deeds : List Deed := []

def Fate.after (deeds : List Deed) (f : Fate) : Fate :=
  { f with deeds := deeds ++ f.deeds }

theorem Fate.after_append (ds ds' : List Deed) (f : Fate) :
    f.after (ds ++ ds') = (f.after ds').after ds := by
  rw [after, after, after, List.append_assoc]

/-- What can be heard of one attempt, and of the time of the ledger. -/
structure Tidings where
  solid : Except Node.Error (Option Node.Receipt)
  tip : Except Node.Error (Option Node.Receipt)
  clock : Except Node.Error Node.Block

def Surroundings.tidings (w : Surroundings Unit) (hash : String) : Tidings where
  solid := (w.receipt hash .solid ()).1
  tip := (w.receipt hash .tip ()).1
  clock := (w.block ()).1

def Surroundings.tidings? (w : Surroundings Unit) (e : Entry) : Option Tidings :=
  e.currentHash.map w.tidings

namespace Entry

variable (settings : Settings) (heard : Tidings)

/-- Whether a receipt is of the block that the entry was confirmed in. -/
def isIn (e : Entry) (receipt : Option Node.Receipt) : Bool :=
  receipt.any fun r => e.confirmedBlock = some r.block

/-- Whether the limits keep a failed transaction from another attempt. -/
def isSpent (e : Entry) (kind : RetryKind) : Prop :=
  settings.maxAttempts ≤ e.tx.attempt ∨
    kind = .moreTime ∧ settings.maxOutOfTime ≤ e.tx.outOfTime

instance (e : Entry) (kind : RetryKind) : Decidable (e.isSpent settings kind) :=
  inferInstanceAs (Decidable (_ ∨ _))

def ifEnded (e : Entry) : Fate :=
  ⟨e.withStage .fatallyErrored, [.ended]⟩

def ifRepeated (e : Entry) (kind : RetryKind) : Fate :=
  let tx := e.tx.nextAttempt kind
  ⟨e.withCounters tx,
    (if kind = .moreEnergy then [.moreEnergy] else []) ++ [.repeated, .requeued tx]⟩

def ifErrored (e : Entry) : Option RetryKind → Fate
  | none => e.ifEnded
  | some kind => if e.isSpent settings kind then e.ifEnded else e.ifRepeated kind

def ifFailed (e : Entry) (next : Option RetryKind) : Fate :=
  (e.withStage .errored).ifErrored settings next

def byClock (e : Entry) : Fate :=
  match heard.clock with
  | .error _ => ⟨e, []⟩
  | .ok block =>
    if e.expiration < block.timestamp then e.ifFailed settings (some .plain) else ⟨e, []⟩

def byOutcome (e : Entry) (receipt : Node.Receipt) : Fate :=
  match Outcome.ofReceipt settings.resultCodes receipt with
  | .success => ⟨e.confirmedIn receipt.block, [.confirmed]⟩
  | .outOfEnergy => e.ifFailed settings (some .moreEnergy)
  | .outOfTime => e.ifFailed settings (some .moreTime)
  | .fatal _ => e.ifFailed settings none
  | .unknown _ => e.ifFailed settings (some .plain)

def byReceipt (e : Entry) : Fate :=
  if e.tx.stage = .broadcasted then
    match heard.tip with
    | .error _ => ⟨e, []⟩
    | .ok none => e.byClock settings heard
    | .ok (some receipt) => e.byOutcome settings receipt
  else ⟨e, []⟩

/-- What becomes of a confirmed transaction that no solid block has. When its block is gone, it
waits for a receipt again in the same pass. -/
def byTip (e : Entry) : Fate :=
  match heard.tip with
  | .error _ => ⟨e, []⟩
  | .ok receipt =>
    if e.isIn receipt then ⟨e, []⟩ else (e.displaced.byReceipt settings heard).after [.displaced]

def bySolid (e : Entry) : Fate :=
  if e.tx.stage = .confirmed then
    match heard.solid with
    | .error _ => ⟨e, []⟩
    | .ok receipt =>
      if e.isIn receipt then ⟨e.withStage .finalized, [.finalized]⟩ else e.byTip settings heard
  else e.byReceipt settings heard

/-- What a pass makes of an entry. One that was never sent has nothing to be asked for. -/
def policy (e : Entry) : Option Tidings → Fate
  | none => ⟨e, []⟩
  | some heard => e.bySolid settings heard

variable {settings heard} {e : Entry}

theorem byReceipt_of_ne (h : e.tx.stage ≠ .broadcasted) : e.byReceipt settings heard = ⟨e, []⟩ :=
  if_neg h

/-- What a pass asks about the entry is answered with an error. When the question about the
solid blocks is, there is no other one. -/
def Unheard (e : Entry) (tidings : Option Tidings) : Prop :=
  ∀ heard, tidings = some heard →
    (e.tx.stage = .confirmed → ∃ error, heard.solid = .error error) ∧
    (e.tx.stage = .broadcasted → ∃ error, heard.tip = .error error)

theorem Unheard.policy_eq {tidings : Option Tidings} (h : e.Unheard tidings) :
    e.policy settings tidings = ⟨e, []⟩ := by
  cases tidings with
  | none => rfl
  | some heard =>
    obtain ⟨hsolid, htip⟩ := h heard rfl
    by_cases hc : e.tx.stage = .confirmed
    · obtain ⟨error, herror⟩ := hsolid hc
      simp only [policy, bySolid, if_pos hc, herror]
    · by_cases hb : e.tx.stage = .broadcasted
      · obtain ⟨error, herror⟩ := htip hb
        simp only [policy, bySolid, if_neg hc, byReceipt, if_pos hb, herror]
      · simp only [policy, bySolid, if_neg hc, byReceipt_of_ne hb]

end Entry

/-- What is still to be done for a transaction in a pass. -/
inductive Errand
  | nothing
  /-- It is looked for in a solid block, if it is confirmed, and in the newest blocks. -/
  | all
  | tip
  | wait
  /-- It has no receipt, and the time of the ledger is to decide. -/
  | date
  | fail (next : Option RetryKind)
  | requeue (tx : Tx)

namespace Errand

def fateBy (settings : Settings) (heard : Tidings) (e : Entry) : Errand → Fate
  | nothing => ⟨e, []⟩
  | all => e.bySolid settings heard
  | tip => e.byTip settings heard
  | wait => e.byReceipt settings heard
  | date => e.byClock settings heard
  | fail next => e.ifErrored settings next
  | requeue tx => ⟨e, [.requeued tx]⟩

def fate (settings : Settings) (e : Entry) (x : Errand) : Option Tidings → Fate
  | none => ⟨e, []⟩
  | some heard => x.fateBy settings heard e

end Errand

end TronCourier
