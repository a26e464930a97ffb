import PolicyVerifier.Core.Proofs.SignalProofs
import PolicyVerifier.Server.Proofs.DecideProofs

/-!
# Cancellation across the two pipelines

A decision settles on the failure of one pipeline, and it aborts nothing itself: each fan-out aborts
for its own reasons. What the other one still invokes is decided by where it was when the decision
settled.
-/

namespace PolicyVerifier.Server

open Js PolicyVerifier.Core

namespace Deciding

variable {cfg : DeciderConfig} {entry : DecisionRequest} {input : DecisionInput} {s : Deciding}

/-- Both fan-outs have aborted, or have no collector left to invoke and only aborted ones in
flight. -/
def BothCancelled (cfg : DeciderConfig) (s : Deciding) : Prop :=
  FanOut.Cancelled cfg.attributePipeline.fanOut s.attributeFanOut ∧
    FanOut.Cancelled cfg.rulePipeline.fanOut s.ruleFanOut

/-- The step does not settle the decision on a failure while a fan-out goes on. -/
def SettlesCancelled (cfg : DeciderConfig) (s : Deciding) : DecideEvent → Prop
  | .proceed _ => ∀ cause, s.joined = some (.error cause) → BothCancelled cfg s
  | _ => True

/-- A fan-out whose collectors all resolved has none left and none in flight. -/
theorem cancelled_of_resolved {α : Type} {c : FanOutConfig α} {f : FanOut α} {values : List α}
    (hi : FanOut.Inv c f) (h : FanOut.AllResolved c f values) : FanOut.Cancelled c f := by
  obtain ⟨_, hall⟩ := h
  refine Or.inr ⟨?_, fun i hi' => ?_⟩
  · by_contra hne
    have hlt : f.next < c.count := lt_of_le_of_ne hi.wired.next_le hne
    obtain ⟨call, _, hc, _⟩ := hall f.next hlt
    exact absurd (hi.wired.call_lt _ call hc) (lt_irrefl _)
  · obtain ⟨call, hc, hp⟩ := (FanOut.mem_inFlight hi.wired).1 hi'
    obtain ⟨d, v, hd, hdp, _⟩ :=
      hall i (lt_of_lt_of_le (hi.wired.call_lt i call hc) hi.wired.next_le)
    obtain rfl := Option.some.inj (hc.symm.trans hd)
    rw [hp] at hdp
    exact absurd hdp (by simp)

/-- The invariant, with the signals of both fan-outs. -/
structure SignalledInv (cfg : DeciderConfig) (entry : DecisionRequest) (input : DecisionInput)
    (s : Deciding) : Prop where
  inv : Inv cfg entry input s
  attributes : FanOut.Signalled s.attributeFanOut
  rules : FanOut.Signalled s.ruleFanOut

theorem Advance.signals {α : Type} {c : FanOutConfig α} {f f' : FanOut α} (h : Advance c f f')
    (hi : FanOut.Inv c f) (hs : FanOut.Signalled f) : FanOut.Signalled f' := by
  rcases h with rfl | ⟨e, he⟩
  · exact hs
  · exact (FanOut.step_signals hi hs he).1

theorem Advance.cancelled {α : Type} {c : FanOutConfig α} {f f' : FanOut α} (h : Advance c f f')
    (hi : FanOut.Inv c f) (hs : FanOut.Signalled f) (hc : FanOut.Cancelled c f) :
    FanOut.Cancelled c f' ∧ f'.calls = f.calls := by
  rcases h with rfl | ⟨e, he⟩
  · exact ⟨hc, rfl⟩
  · exact hc.step hi hs he

/-- A step other than of a fan-out leaves both as they are. -/
theorem StepCase.sameFanOuts {e : DecideEvent} {s' : Deciding} (h : StepCase cfg entry input s e s') :
    (∃ f g failures, Advance cfg.attributePipeline.fanOut s.attributeFanOut f ∧
      Advance cfg.rulePipeline.fanOut s.ruleFanOut g ∧
      s' = { s with attributeFanOut := f, ruleFanOut := g, failures := failures }) ∨
    (s'.attributeFanOut = s.attributeFanOut ∧ s'.ruleFanOut = s.ruleFanOut) := by
  cases h with
  | fanOuts _ f g failures hf hg => exact Or.inl ⟨f, g, failures, hf, hg, rfl⟩
  | proceed world o hj he hs =>
    obtain ⟨_, _, _, _, _, _, heq⟩ := proceed_eq cfg entry input s world o
    rw [heq]
    exact Or.inr ⟨rfl, rfl⟩
  | attributesCollected o ho hn => exact Or.inr ⟨rfl, rfl⟩
  | rulesCollected o ho hn => exact Or.inr ⟨rfl, rfl⟩
  | seeAttributes a ha => exact Or.inr ⟨by simp, by simp⟩
  | seeRules r hr => exact Or.inr ⟨by simp, by simp⟩
  | attributesFailed e he => exact Or.inr ⟨rfl, rfl⟩
  | rulesFailed e he => exact Or.inr ⟨rfl, rfl⟩

theorem step_signalledInv {e : DecideEvent} {s' : Deciding} (h : SignalledInv cfg entry input s)
    (hs : step cfg entry input s e = some s') : SignalledInv cfg entry input s' := by
  refine ⟨step_inv h.inv hs, ?_, ?_⟩
  · rcases (step_cases hs).sameFanOuts with ⟨f, g, failures, hf, hg, rfl⟩ | ⟨hf, hg⟩
    · exact hf.signals h.inv.attributeFanOut h.attributes
    · rw [hf]
      exact h.attributes
  · rcases (step_cases hs).sameFanOuts with ⟨f, g, failures, hf, hg, rfl⟩ | ⟨hf, hg⟩
    · exact hg.signals h.inv.ruleFanOut h.rules
    · rw [hg]
      exact h.rules

/-- Cancelled fan-outs stay so, and invoke nothing. -/
theorem step_bothCancelled {e : DecideEvent} {s' : Deciding} (h : SignalledInv cfg entry input s)
    (hc : BothCancelled cfg s) (hs : step cfg entry input s e = some s') : BothCancelled cfg s' ∧
      s'.attributeFanOut.calls = s.attributeFanOut.calls ∧
      s'.ruleFanOut.calls = s.ruleFanOut.calls := by
  rcases (step_cases hs).sameFanOuts with ⟨f, g, failures, hf, hg, rfl⟩ | ⟨hf, hg⟩
  · obtain ⟨hcf, hcalls⟩ := hf.cancelled h.inv.attributeFanOut h.attributes hc.1
    obtain ⟨hcg, hcalls'⟩ := hg.cancelled h.inv.ruleFanOut h.rules hc.2
    exact ⟨⟨hcf, hcg⟩, hcalls, hcalls'⟩
  · rw [BothCancelled, hf, hg]
    exact ⟨hc, rfl, rfl⟩

/-- Until its body goes on a decision is not settled. -/
theorem StepCase.settled {e : DecideEvent} {s' : Deciding} (h : StepCase cfg entry input s e s') :
    s'.settled = s.settled ∨ ∃ world o, e = .proceed world ∧ s.joined = some o ∧
      s'.attributeFanOut = s.attributeFanOut ∧ s'.ruleFanOut = s.ruleFanOut := by
  cases h with
  | proceed world o hj he hs =>
    obtain ⟨_, _, _, _, _, _, heq⟩ := proceed_eq cfg entry input s world o
    exact Or.inr ⟨world, o, rfl, hj, by rw [heq], by rw [heq]⟩
  | seeAttributes a ha =>
    left
    simp only [joinBoth]
    split <;> rfl
  | seeRules r hr =>
    left
    simp only [joinBoth]
    split <;> rfl
  | fanOuts _ f g failures hf hg => exact Or.inl rfl
  | attributesCollected o ho hn => exact Or.inl rfl
  | rulesCollected o ho hn => exact Or.inl rfl
  | attributesFailed e he => exact Or.inl rfl
  | rulesFailed e he => exact Or.inl rfl

/-- A decision that settles only on cancelled fan-outs leaves them cancelled. -/
theorem step_settlesCancelled {e : DecideEvent} {s' : Deciding} (h : SignalledInv cfg entry input s)
    (hc : s.settled.isSome = true → BothCancelled cfg s) (hg : SettlesCancelled cfg s e)
    (hs : step cfg entry input s e = some s') :
    s'.settled.isSome = true → BothCancelled cfg s' := by
  intro hsome
  rcases (step_cases hs).settled with hsame | ⟨world, o, rfl, hj, hf, hg'⟩
  · exact (step_bothCancelled h (hc (hsame ▸ hsome)) hs).1
  · have hboth : BothCancelled cfg s := by
      cases o with
      | error cause => exact hg cause hj
      | ok collected =>
        obtain ⟨maps, lists, hmaps, hlists, _⟩ := h.inv.joined_whole hj
        exact ⟨cancelled_of_resolved h.inv.attributeFanOut hmaps,
          cancelled_of_resolved h.inv.ruleFanOut hlists⟩
    rw [BothCancelled, hf, hg']
    exact hboth

theorem start_signalledInv (cfg : DeciderConfig) (entry : DecisionRequest) (input : DecisionInput)
    (caller : Option Thrown) : SignalledInv cfg entry input (start cfg caller) :=
  ⟨start_inv cfg entry input caller, FanOut.start_signalled _ caller, FanOut.start_signalled _ caller⟩

/-- In a run that settles the decision only on cancelled fan-outs, once it has settled no collector of
either pipeline is invoked, and the signals of those in flight have aborted. -/
theorem settled_cancels (cfg : DeciderConfig) (entry : DecisionRequest) (input : DecisionInput)
    (caller : Option Thrown) (es fs : List DecideEvent) (s t : Deciding)
    (hg : ∀ a e b, Machine.Occurs (step cfg entry input) (start cfg caller) (es ++ fs) a e b →
      SettlesCancelled cfg a e)
    (hs : Machine.run (step cfg entry input) (start cfg caller) es = some s)
    (hsettled : s.settled.isSome = true) (ht : Machine.run (step cfg entry input) s fs = some t) :
    t.attributeFanOut.calls = s.attributeFanOut.calls ∧ t.ruleFanOut.calls = s.ruleFanOut.calls ∧
    (∀ i ∈ t.attributeFanOut.inFlight, ∃ c, t.attributeFanOut.call i = some c ∧
      c.own.isSome = true) ∧
    ∀ i ∈ t.ruleFanOut.inFlight, ∃ c, t.ruleFanOut.call i = some c ∧ c.own.isSome = true := by
  obtain ⟨hsig, hcan⟩ := Machine.run_invariant_of_guard
    (I := fun u => SignalledInv cfg entry input u ∧ (u.settled.isSome = true → BothCancelled cfg u))
    (G := SettlesCancelled cfg)
    (fun a e b hi hk he => ⟨step_signalledInv hi.1 he, step_settlesCancelled hi.1 hi.2 hk he⟩)
    ⟨start_signalledInv cfg entry input caller, by simp [start]⟩
    (fun a e b h => hg a e b (h.append fs)) hs
  obtain ⟨htsig, htcan, hcalls, hcalls'⟩ := Machine.run_invariant
    (I := fun u => SignalledInv cfg entry input u ∧ BothCancelled cfg u ∧
      u.attributeFanOut.calls = s.attributeFanOut.calls ∧ u.ruleFanOut.calls = s.ruleFanOut.calls)
    (fun a e b hi he => by
      obtain ⟨hcan', hf, hg'⟩ := step_bothCancelled hi.1 hi.2.1 he
      exact ⟨step_signalledInv hi.1 he, hcan', hf.trans hi.2.2.1, hg'.trans hi.2.2.2⟩)
    ⟨hsig, hcan hsettled, rfl, rfl⟩ ht
  exact ⟨hcalls, hcalls', htcan.1.signals htsig.inv.attributeFanOut htsig.attributes,
    htcan.2.signals htsig.inv.ruleFanOut htsig.rules⟩

/-- The event is the body going on. -/
def isProceed : DecideEvent → Bool
  | .proceed _ => true
  | _ => false

/-- The attribute collector overruns when the rule collector has answered, and answers later. -/
theorem settled_cancels_overrun : ∃ s t,
    Machine.run (step pairConfig readOrder alice) (start pairConfig none) attributeOverruns = some s ∧
    s.settled.isSome = true ∧
    Machine.run (step pairConfig readOrder alice) s [.attributes (.settle 0 (.ok ∅))] = some t ∧
    t.attributeFanOut.calls = s.attributeFanOut.calls ∧
    t.ruleFanOut.calls = s.ruleFanOut.calls := by
  obtain ⟨s, t, hs, hsettled, ht⟩ : ∃ s t,
      Machine.run (step pairConfig readOrder alice) (start pairConfig none) attributeOverruns =
        some s ∧ s.settled.isSome = true ∧
      Machine.run (step pairConfig readOrder alice) s [.attributes (.settle 0 (.ok ∅))] = some t :=
    ⟨_, _, rfl, rfl, rfl⟩
  have hg : ∀ a e b, Machine.Occurs (step pairConfig readOrder alice) (start pairConfig none)
      (attributeOverruns ++ [.attributes (.settle 0 (.ok ∅))]) a e b →
      SettlesCancelled pairConfig a e := by
    intro a e b hstep
    cases e with
    | proceed world =>
      have hmem := (List.mem_filter (p := fun x => isProceed x.2)).2 ⟨hstep.mem_trace, rfl⟩
      obtain ⟨rfl, -⟩ := Prod.mk.injEq .. ▸ List.mem_singleton.1 hmem
      exact fun cause _ => ⟨Or.inl rfl, Or.inr ⟨rfl, fun i hi => (List.not_mem_nil (a := i) hi).elim⟩⟩
    | attributes e => trivial
    | rules e => trivial
    | callerAbort reason => trivial
    | attributesCollected => trivial
    | rulesCollected => trivial
    | joinAttributes => trivial
    | joinRules => trivial
  obtain ⟨hcalls, hcalls', -, -⟩ := settled_cancels pairConfig readOrder alice none
    attributeOverruns [.attributes (.settle 0 (.ok ∅))] s t hg hs hsettled ht
  exact ⟨s, t, hs, hsettled, ht, hcalls, hcalls'⟩

/-- Two rule collectors that run one after the other. -/
def queuedRules : DeciderConfig :=
  { pairConfig with
    rulePipeline :=
      { fanOut := { pipeline := .rules, count := 2, className := fun _ => .undefined,
                    atOnce := fun _ => none,
                    limits := { collectorTimeoutMs := 2000, deadlineMs := 5000, concurrency := 1 } }
        kind_eq := rfl
        positive := by decide } }

/-- The attribute collector rejects while the first rule collector is out. -/
def attributeRejects : List DecideEvent :=
  [DecideEvent.attributes .startLane, .rules .startLane, .attributes .job, .rules .job,
    .attributes (.settle 0 (.error (.other (.str (js "ECONNRESET")))))] ++
    List.replicate 7 (DecideEvent.attributes .job) ++
    [DecideEvent.attributesCollected, .joinAttributes, .proceed quietWorld]

/-- The decision has settled with a fault, the rule collector in flight was not told, and when it
answers the next one is invoked. -/
theorem settled_decision_invokes : ∃ es fs s t,
    Machine.run (step queuedRules readOrder alice) (start queuedRules none) es = some s ∧
    s.settled.isSome = true ∧
    (∃ i ∈ s.ruleFanOut.inFlight, ∃ c, s.ruleFanOut.call i = some c ∧ c.own = none) ∧
    Machine.run (step queuedRules readOrder alice) s fs = some t ∧
    t.ruleFanOut.calls ≠ s.ruleFanOut.calls := by
  obtain ⟨s, t, hs, hsettled, hflight, hcall, ht, hcalls, hcalls'⟩ : ∃ s t,
      Machine.run (step queuedRules readOrder alice) (start queuedRules none) attributeRejects =
        some s ∧ s.settled.isSome = true ∧ s.ruleFanOut.inFlight = [0] ∧
      (∃ c, s.ruleFanOut.call 0 = some c ∧ c.own = none) ∧
      Machine.run (step queuedRules readOrder alice) s
        (.rules (.settle 0 (.ok [])) :: List.replicate 5 (.rules .job)) = some t ∧
      s.ruleFanOut.calls = [0] ∧ t.ruleFanOut.calls = [0, 1] :=
    ⟨_, _, rfl, rfl, rfl, ⟨_, rfl, rfl⟩, rfl, rfl, rfl⟩
  refine ⟨_, _, s, t, hs, hsettled, ⟨0, by simp [hflight], hcall⟩, ht, ?_⟩
  rw [hcalls, hcalls']
  decide

end Deciding

end PolicyVerifier.Server
