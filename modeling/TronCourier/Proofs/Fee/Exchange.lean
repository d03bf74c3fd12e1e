import Mathlib
import TronCourier.Fee.Estimator

/-! An estimator at work with a node. What it asks is put on record with the answers, and each of
its two questions goes one of a few ways. -/

namespace TronCourier

namespace Node

/-- A question to a node with its answer. -/
inductive Exchange
  | estimate (call : Simulated) (answer : Except Error Int)
  | dryRun (call : Simulated) (answer : Except Error DryRun)
  | prices (answer : Except Error String)
  | block (answer : Except Error Block)
  | broadcast (tx : SignedTransaction) (answer : Except Error Verdict)
  | receipt (hash : String) (view : View) (answer : Except Error (Option Receipt))

variable {σ α : Type}

def logged (ask : StateM σ α) (entry : α → Exchange) : StateM (σ × List Exchange) α := fun s =>
  ((ask.run s.1).1, (ask.run s.1).2, s.2 ++ [entry (ask.run s.1).1])

/-- The same node with a record of what it is asked. -/
def Service.recorded (node : Service σ) : Service (σ × List Exchange) where
  estimate call := logged (node.estimate call) (.estimate call)
  dryRun call := logged (node.dryRun call) (.dryRun call)
  prices := logged node.prices .prices
  block := logged node.block .block
  broadcast tx := logged (node.broadcast tx) (.broadcast tx)
  receipt hash view := logged (node.receipt hash view) (.receipt hash view)

theorem run_estimate_recorded {node : Service σ} {call : Simulated} {w : σ}
    {past : List Exchange} :
    StateT.run (node.recorded.estimate call) (w, past) =
      (((node.estimate call).run w).1, ((node.estimate call).run w).2,
        past ++ [.estimate call ((node.estimate call).run w).1]) :=
  rfl

end Node

namespace Fee.Estimator

variable {σ : Type} {node : Node.Service σ} {clock : σ → Nat} {e e' : Estimator}
  {past past' : List Node.Exchange}

/-- What is asked for the energy of a call, and what comes of it. -/
inductive Weighs (e : Estimator) (tx : Tx) :
    List Node.Exchange → Estimator → Except EstimateError Int → Prop
  | unencoded {cause : Abi.Error} (h : simulated tx = .error cause) :
      Weighs e tx [] e (.error (.encoding cause))
  | estimated {call : Node.Simulated} (h : simulated tx = .ok call) (on : e.estimates = true)
      (energy : Int) : Weighs e tx [.estimate call (.ok energy)] e (.ok energy)
  | failed {call : Node.Simulated} (h : simulated tx = .ok call) (on : e.estimates = true)
      {cause : Node.Error} (other : cause ≠ .estimateUnsupported) :
      Weighs e tx [.estimate call (.error cause)] e (.error (.node cause))
  | turned {call : Node.Simulated} (h : simulated tx = .ok call) (on : e.estimates = true)
      (answer : Except Node.Error Node.DryRun) :
      Weighs e tx [.estimate call (.error .estimateUnsupported), .dryRun call answer]
        { e with estimates := false } (energyOfDryRun answer)
  | simulated {call : Node.Simulated} (h : simulated tx = .ok call) (off : e.estimates = false)
      (answer : Except Node.Error Node.DryRun) :
      Weighs e tx [.dryRun call answer] e (energyOfDryRun answer)

/-- Without a question the surroundings stay as they are too. -/
theorem energy_weighs {tx : Tx} {w w' : σ} {r : Except EstimateError Int}
    (h : (e.energy node.recorded tx).run (w, past) = ((e', r), (w', past'))) :
    ∃ news, past' = past ++ news ∧ Weighs e tx news e' r ∧ (news = [] → w' = w) := by
  unfold energy at h
  cases hs : simulated tx with
  | error cause =>
    rw [hs] at h
    cases h
    exact ⟨[], (List.append_nil past).symm, .unencoded hs, fun _ => rfl⟩
  | ok call =>
    rw [hs] at h
    cases on : e.estimates with
    | false =>
      simp only [on, Bool.false_eq_true, if_false] at h
      cases h
      exact ⟨[_], rfl, .simulated hs on _, nofun⟩
    | true =>
      simp only [on, if_true, StateT.run_bind, StateT.run_map, Node.run_estimate_recorded] at h
      cases answer : ((node.estimate call).run w).1 with
      | ok energy =>
        rw [answer] at h
        cases h
        exact ⟨[_], rfl, .estimated hs on energy, nofun⟩
      | error cause =>
        rw [answer] at h
        cases cause with
        | estimateUnsupported =>
          cases h
          exact ⟨[_, _], List.append_assoc .., .turned hs on _, nofun⟩
        | _ =>
          cases h
          exact ⟨[_], rfl, .failed hs on (by rintro ⟨⟩), nofun⟩

/-- What is asked for the price between two times, and what comes of it. -/
inductive Prices (e : Estimator) (asked told : Nat) :
    List Node.Exchange → Estimator → Int → Prop
  | kept {p : Int} (fresh : e.freshPrice? asked = some p) : Prices e asked told [] e p
  | fetched (stale : e.freshPrice? asked = none) {answer : Except Node.Error String}
      {e' : Estimator} {p : Int} (h : e.afterPrices told answer = (e', p)) :
      Prices e asked told [.prices answer] e' p

theorem run_price {s : σ} :
    (e.price node clock).run s =
      match e.freshPrice? (clock s) with
      | some p => ((e, p), s)
      | none =>
        (e.afterPrices (clock (node.prices.run s).2) (node.prices.run s).1,
          (node.prices.run s).2) := by
  change (match e.freshPrice? (clock s) with
    | some p => (pure (e, p) : StateM σ _)
    | none => do
      let answer ← node.prices
      return e.afterPrices (clock (← get)) answer).run s = _
  cases e.freshPrice? (clock s) with
  | some p => rfl
  | none => rfl

theorem price_prices {w w' : σ} {p : Int}
    (h : (e.price node.recorded (clock ∘ Prod.fst)).run (w, past) = ((e', p), (w', past'))) :
    ∃ news, past' = past ++ news ∧ Prices e (clock w) (clock w') news e' p ∧
      (news = [] → w' = w) := by
  rw [run_price] at h
  simp only [Function.comp] at h
  cases fresh : e.freshPrice? (clock w) with
  | some kept =>
    rw [fresh] at h
    cases h
    exact ⟨[], (List.append_nil past).symm, .kept fresh, fun _ => rfl⟩
  | none =>
    rw [fresh] at h
    obtain ⟨out, world⟩ := Prod.mk.inj h
    obtain ⟨rfl, rfl⟩ := Prod.mk.inj world
    exact ⟨[_], rfl, .fetched fresh out, nofun⟩

/-- The record and the estimator after any questions. The surroundings may have changed in any
way before each of them. -/
inductive Run (node : Node.Service σ) (clock : σ → Nat) (e₀ : Estimator) :
    List Node.Exchange → Estimator → Prop
  | start : Run node clock e₀ [] e₀
  | energy {past past' : List Node.Exchange} {e e' : Estimator}
      (h : Run node clock e₀ past e) (tx : Tx) {w w' : σ} {r : Except EstimateError Int}
      (hr : (e.energy node.recorded tx).run (w, past) = ((e', r), (w', past'))) :
      Run node clock e₀ past' e'
  | price {past past' : List Node.Exchange} {e e' : Estimator}
      (h : Run node clock e₀ past e) {w w' : σ} {p : Int}
      (hr : (e.price node.recorded (clock ∘ Prod.fst)).run (w, past) = ((e', p), (w', past'))) :
      Run node clock e₀ past' e'

def freshSample : Estimator where
  refreshMs := 60000
  defaultPrice := 420

/-- A node that cannot estimate and takes five moments for every answer. -/
def slowSample : Node.Service Nat where
  estimate _ := fun now => (.error .estimateUnsupported, now + 5)
  dryRun _ := fun now => (.ok { energyUsed := 10000, energyPenalty := 250 }, now + 5)
  prices := fun now => (.ok "0:100,1:210", now + 5)
  block := fun now => (.error (.transport "" ""), now + 5)
  broadcast _ := fun now => (.error (.transport "" ""), now + 5)
  receipt _ _ := fun now => (.error (.transport "" ""), now + 5)

end Fee.Estimator

end TronCourier
