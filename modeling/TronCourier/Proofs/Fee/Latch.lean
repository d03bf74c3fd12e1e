import TronCourier.Proofs.Fee.Exchange

/-! Estimates and dry runs. A node that once said that it cannot estimate is never asked for an
estimate again, and nothing else keeps it from being asked. -/

namespace TronCourier

namespace Node.Exchange

def IsEstimate (x : Exchange) : Prop :=
  ∃ call answer, x = .estimate call answer

/-- The answer that puts an end to estimates. -/
def IsRefusal (x : Exchange) : Prop :=
  ∃ call, x = .estimate call (.error .estimateUnsupported)

end Node.Exchange

namespace Fee

theorem simulated_of_error {tx : Tx} {cause : Abi.Error}
    (h : Abi.encodeParams tx.params = .error cause) : simulated tx = .error cause := by
  rw [simulated, h]
  rfl

namespace Estimator

variable {σ : Type} {node : Node.Service σ} {clock : σ → Nat} {e₀ e e' : Estimator}
  {past past' news : List Node.Exchange} {tx : Tx} {r : Except EstimateError Int}

/-- No estimate is asked for after one was refused. -/
def RefusedLast (past : List Node.Exchange) : Prop :=
  past.Pairwise fun x y => x.IsRefusal → ¬y.IsEstimate

/-- One question closes the latch just if an estimate is refused in it, and asks for no estimate
when the latch is closed. -/
structure Latches (e : Estimator) (news : List Node.Exchange) (e' : Estimator) : Prop where
  closes : e'.estimates = true ↔ e.estimates = true ∧ ∀ x ∈ news, ¬x.IsRefusal
  silent : e.estimates = false → ∀ x ∈ news, ¬x.IsEstimate
  last : RefusedLast news

theorem Weighs.latches (h : Weighs e tx news e' r) : Latches e news e' := by
  cases h with
  | unencoded => exact ⟨by simp, by simp, .nil⟩
  | estimated _ on _ =>
    refine ⟨?_, by simp [on], List.pairwise_singleton ..⟩
    simp [Node.Exchange.IsRefusal]
  | failed _ on other =>
    refine ⟨?_, by simp [on], List.pairwise_singleton ..⟩
    simp [Node.Exchange.IsRefusal, other]
  | turned _ on _ =>
    refine ⟨?_, by simp [on], ?_⟩
    · simp [Node.Exchange.IsRefusal]
    · simp [RefusedLast, Node.Exchange.IsEstimate]
  | simulated _ off _ =>
    refine ⟨?_, ?_, List.pairwise_singleton ..⟩
    · simp [Node.Exchange.IsRefusal]
    · simp [Node.Exchange.IsEstimate]

theorem Prices.latches {asked told : Nat} {p : Int} (h : Prices e asked told news e' p) :
    Latches e news e' := by
  have same : e'.estimates = e.estimates := by
    cases h with
    | kept => rfl
    | @fetched _ answer _ _ told =>
      cases answer <;> cases told <;> rfl
  cases h with
  | kept => exact ⟨by simp, by simp, .nil⟩
  | fetched =>
    refine ⟨?_, ?_, List.pairwise_singleton ..⟩
    · simp [same, Node.Exchange.IsRefusal]
    · simp [Node.Exchange.IsEstimate]

theorem Latches.append (h : Latches e₀ past e) (h' : Latches e news e') :
    Latches e₀ (past ++ news) e' := by
  refine ⟨?_, ?_, ?_⟩
  · rw [h'.closes, h.closes, and_assoc, List.forall_mem_append]
  · intro off
    have stays : e.estimates = false := by
      rw [← Bool.not_eq_true, h.closes, off]
      simp
    exact List.forall_mem_append.mpr ⟨h.silent off, h'.silent stays⟩
  · refine List.pairwise_append.mpr ⟨h.last, h'.last, fun x hx y hy refused => ?_⟩
    have closed : e.estimates = false := by
      rw [← Bool.not_eq_true, h.closes]
      exact fun none => none.2 x hx refused
    exact h'.silent closed y hy

theorem Run.latches (h : Run node clock e₀ past e) : Latches e₀ past e := by
  induction h with
  | start => exact ⟨by simp, by simp, .nil⟩
  | energy _ tx hr ih =>
    obtain ⟨_, rfl, course, _⟩ := energy_weighs hr
    exact ih.append course.latches
  | price _ hr ih =>
    obtain ⟨_, rfl, course, _⟩ := price_prices hr
    exact ih.append course.latches

theorem energyOfDryRun_eq_ok_iff {answer : Except Node.Error Node.DryRun} {energy : Int} :
    energyOfDryRun answer = .ok energy ↔ ∃ run, answer = .ok run ∧ run.revert = none ∧
      energy = addClamped run.energyUsed run.energyPenalty := by
  cases answer with
  | error cause => simp [energyOfDryRun]
  | ok run =>
    cases hr : run.revert with
    | some reason => simp [energyOfDryRun, hr]
    | none => simp [energyOfDryRun, hr, eq_comm]

/-- Once an estimate was refused, none is asked for any more, and nothing else stops them. A call
that cannot be encoded asks for nothing; else its energy is what the node estimates, or what a
dry run that was not reverted has used. -/
theorem estimates_until_refused (h : Run node clock e₀ past e) :
    past.Pairwise (fun x y => x.IsRefusal → ¬y.IsEstimate) ∧
    (e.estimates = true ↔ e₀.estimates = true ∧ ∀ x ∈ past, ¬x.IsRefusal) ∧
    ∀ (tx : Tx) (w w' : σ) (e' : Estimator) (r : Except EstimateError Int)
      (past' : List Node.Exchange),
      (e.energy node.recorded tx).run (w, past) = ((e', r), (w', past')) →
        (∀ cause, Abi.encodeParams tx.params = .error cause →
          r = .error (.encoding cause) ∧ e' = e ∧ w' = w ∧ past' = past) ∧
        (∀ energy, r = .ok energy → ∃ call, simulated tx = .ok call ∧
          ((e.estimates = true ∧ past' = past ++ [Node.Exchange.estimate call (.ok energy)]) ∨
            ∃ front run, past' = past ++ (front ++ [Node.Exchange.dryRun call (.ok run)]) ∧
              run.revert = none ∧ energy = addClamped run.energyUsed run.energyPenalty)) ∧
        ∀ news call run reason, past' = past ++ news →
          Node.Exchange.dryRun call (.ok run) ∈ news →
          run.revert = some reason → r = .error (.reverted reason) := by
  refine ⟨h.latches.last, h.latches.closes, fun tx w w' e' r past' hr => ?_⟩
  obtain ⟨news, rfl, course, silent⟩ := energy_weighs hr
  refine ⟨fun cause failed => ?_, fun energy told => ?_,
    fun news' call run reason same hmem hrev => ?_⟩
  · have unencoded := simulated_of_error failed
    cases course with
    | unencoded h =>
      cases h.symm.trans unencoded
      exact ⟨rfl, rfl, silent rfl, List.append_nil past⟩
    | estimated h | failed h | turned h | simulated h => cases h.symm.trans unencoded
  · cases course with
    | unencoded | failed => cases told
    | @estimated call hs on _ =>
      cases told
      exact ⟨call, hs, .inl ⟨on, rfl⟩⟩
    | @turned call hs on answer =>
      obtain ⟨run, rfl, unreverted, value⟩ := energyOfDryRun_eq_ok_iff.mp told
      exact ⟨call, hs, .inr ⟨[_], run, rfl, unreverted, value⟩⟩
    | @simulated call hs off answer =>
      obtain ⟨run, rfl, unreverted, value⟩ := energyOfDryRun_eq_ok_iff.mp told
      exact ⟨call, hs, .inr ⟨[], run, rfl, unreverted, value⟩⟩
  · obtain rfl := List.append_cancel_left same
    cases course with
    | unencoded | estimated | failed => simp at hmem
    | turned | simulated =>
      simp only [List.mem_cons, reduceCtorEq, Node.Exchange.dryRun.injEq, List.not_mem_nil,
        or_false, false_or] at hmem
      obtain ⟨rfl, rfl⟩ := hmem
      simp [energyOfDryRun, hrev]

def plainSample : Tx :=
  .ofRequest "t" { sender := .ofHash [], contract := .ofHash [], method := "f()" }

def callSample : Node.Simulated where
  owner := .ofHash []
  contract := .ofHash []
  method := "f()"
  parameter := ""

/-- The second call costs as much as the first, and only a dry run is asked for. -/
theorem estimates_until_refused_plainSample :
    ∃ past e, Run slowSample id freshSample past e ∧
      past = [.estimate callSample (.error .estimateUnsupported),
        .dryRun callSample (.ok { energyUsed := 10000, energyPenalty := 250 })] ∧
      ¬e.estimates = true ∧
      ∃ w', (e.energy slowSample.recorded plainSample).run (10, past) =
        ((e, .ok 10250), (w', past ++
          [Node.Exchange.dryRun callSample (.ok { energyUsed := 10000, energyPenalty := 250 })])) := by
  have asked : (freshSample.energy slowSample.recorded plainSample).run (0, []) =
      (({ freshSample with estimates := false }, .ok 10250),
        (10, [.estimate callSample (.error .estimateUnsupported),
          .dryRun callSample (.ok { energyUsed := 10000, energyPenalty := 250 })])) := rfl
  have run : Run slowSample id freshSample _ _ := .energy .start plainSample asked
  obtain ⟨_, latch, _⟩ := estimates_until_refused run
  refine ⟨_, _, run, rfl, ?_, _, rfl⟩
  rw [latch]
  exact fun unrefused => unrefused.2 _ List.mem_cons_self ⟨_, rfl⟩

end Estimator

end Fee

end TronCourier
