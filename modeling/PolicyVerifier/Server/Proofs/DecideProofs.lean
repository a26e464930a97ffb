import PolicyVerifier.Core.Proofs.MergeProofs
import PolicyVerifier.Core.Proofs.RunCollectorsProofs
import PolicyVerifier.Server.Decide

/-!
# A decision fails closed

Where a `decide` call is, as one of four places, and what each of its fields holds there. Everything
the decision answers and reports is read off the place it is in.
-/

namespace PolicyVerifier.Server

open Js PolicyVerifier.Core

/-- The three classes a decision is denied on. -/
def isDenied : Thrown → Bool
  | .collectorTimeout _ _ => true
  | .ruleTimeout _ _ => true
  | .attributeConflict _ _ => true
  | _ => false

/-- A failure is answered with a deny exactly when its class is one of the three. -/
theorem deniedFailures_isSome (cause : Thrown) (failures : FailureRecord) :
    (deniedFailures (classifyFailure cause failures).category).isSome = isDenied cause := by
  cases cause <;> simp only [classifyFailure, isDenied] <;> first | rfl | (split <;> rfl)

namespace Deciding

variable {cfg : DeciderConfig} {entry : DecisionRequest} {input : DecisionInput} {s : Deciding}

/-- What the catch block leaves of a failure, under the failures recorded by then. -/
def FailedWith (cfg : DeciderConfig) (entry : DecisionRequest) (input : DecisionInput)
    (cause : Thrown) (failures : FailureRecord) (s : Deciding) : Prop :=
  let failure := classifyFailure cause failures
  match deniedFailures failure.category with
  | none => s.logs = [] ∧ s.observations = [] ∧
      s.settled = some (.error { original := cause, failure })
  | some denial =>
    let decision : Decision := .deny denial.code denial.message { groups := [] }
    s.logs = [.failure denial.code (loggableError cause failure) entry.resource entry.action
        input.requestId failure,
      .decision (decisionEvent decision (subjectId input) entry.resource entry.action
        input.requestId)] ∧
    s.observations = countCollectorFailure cfg.metrics failure ++ observe cfg.metrics decision ∧
    s.settled = some (.ok (toResponse (subjectId input) entry decision cfg.includeEvaluation))

theorem FailedWith.settled {cause : Thrown} {failures : FailureRecord}
    (h : FailedWith cfg entry input cause failures s) : s.settled.isSome = true := by
  simp only [FailedWith] at h
  split at h <;> simp [h.2.2]

/-- Where the call is: collecting; evaluating; answered by the evaluator; or past its catch block. -/
inductive Place (cfg : DeciderConfig) (entry : DecisionRequest) (input : DecisionInput)
    (s : Deciding) : Prop where
  | collecting (he : s.evaluated = []) (hc : s.caught = none) (hl : s.logs = [])
      (ho : s.observations = []) (hs : s.settled = none)
  | evaluating (attrs : Attributes) (rules : List AnyRule) (hj : s.joined = some (.ok (attrs, rules)))
      (he : s.evaluated = [(attrs, rules)]) (hc : s.caught = none) (hl : s.logs = [])
      (ho : s.observations = []) (hs : s.settled = none)
  | decided (attrs : Attributes) (rules : List AnyRule) (world : World) (failures : FailureRecord)
      (final : EvalState) (decision : Decision) (hj : s.joined = some (.ok (attrs, rules)))
      (he : s.evaluated = [(attrs, rules)])
      (hrun : evaluate world attrs rules cfg.evaluateOptions failures = (final, .done decision))
      (hc : s.caught = none)
      (hl : s.logs = [.decision (decisionEvent decision (subjectId input) entry.resource
        entry.action input.requestId)])
      (ho : s.observations = observe cfg.metrics decision)
      (hs : s.settled =
        some (.ok (toResponse (subjectId input) entry decision cfg.includeEvaluation)))
  | collectFailed (cause : Thrown) (failures : FailureRecord) (hj : s.joined = some (.error cause))
      (he : s.evaluated = []) (hc : s.caught = some cause)
      (hf : FailedWith cfg entry input cause failures s)
  | evaluateFailed (attrs : Attributes) (rules : List AnyRule) (world : World) (cause : Thrown)
      (failures : FailureRecord) (final : EvalState) (hj : s.joined = some (.ok (attrs, rules)))
      (he : s.evaluated = [(attrs, rules)])
      (hrun : evaluate world attrs rules cfg.evaluateOptions failures = (final, .threw cause))
      (hc : s.caught = some cause) (hf : FailedWith cfg entry input cause final.failures s)

/-- What the two collects and `Promise.all` hold comes from the fan-outs. -/
structure Collected (cfg : DeciderConfig) (s : Deciding) : Prop where
  attrs : ∀ o, s.attrs = some o → ∃ r, s.attributeFanOut.outcome = some r ∧ o = collectAttributes r
  rules : ∀ o, s.rules = some o → ∃ r, s.ruleFanOut.outcome = some r ∧ o = collectRules r
  seenAttrs : ∀ a, s.seenAttrs = some a → s.attrs = some (.ok a)
  seenRules : ∀ r, s.seenRules = some r → s.rules = some (.ok r)
  joined : ∀ a r, s.joined = some (.ok (a, r)) → s.attrs = some (.ok a) ∧ s.rules = some (.ok r)
  broken : ∀ e, s.joined = some (.error e) → s.attrs = some (.error e) ∨ s.rules = some (.error e)

/-- The invariant of a decision. -/
structure Inv (cfg : DeciderConfig) (entry : DecisionRequest) (input : DecisionInput)
    (s : Deciding) : Prop where
  attributeFanOut : FanOut.Inv cfg.attributePipeline.fanOut s.attributeFanOut
  attributeOverrun : FanOut.Overrun s.attributeFanOut
  ruleFanOut : FanOut.Inv cfg.rulePipeline.fanOut s.ruleFanOut
  ruleOverrun : FanOut.Overrun s.ruleFanOut
  collected : Collected cfg s
  place : Place cfg entry input s

theorem start_inv (cfg : DeciderConfig) (entry : DecisionRequest) (input : DecisionInput)
    (caller : Option Thrown) : Inv cfg entry input (start cfg caller) where
  attributeFanOut := FanOut.start_inv _ caller cfg.attributePipeline.positive
  attributeOverrun := FanOut.start_overrun _ caller
  ruleFanOut := FanOut.start_inv _ caller cfg.rulePipeline.positive
  ruleOverrun := FanOut.start_overrun _ caller
  collected := ⟨by simp [start], by simp [start], by simp [start], by simp [start], by simp [start],
    by simp [start]⟩
  place := .collecting rfl rfl rfl rfl rfl

/-- The place depends on what the body has done, and on what it was given once it was given it. -/
theorem Place.frame {s' : Deciding} (h : Place cfg entry input s)
    (hj : ∀ o, s.joined = some o → s'.joined = some o) (he : s'.evaluated = s.evaluated)
    (hc : s'.caught = s.caught) (hl : s'.logs = s.logs) (ho : s'.observations = s.observations)
    (hs : s'.settled = s.settled) : Place cfg entry input s' := by
  have failed : ∀ cause failures, FailedWith cfg entry input cause failures s →
      FailedWith cfg entry input cause failures s' := by
    intro cause failures hf
    unfold FailedWith at hf ⊢
    rw [hl, ho, hs]
    exact hf
  cases h with
  | collecting he' hc' hl' ho' hs' =>
    exact .collecting (he.trans he') (hc.trans hc') (hl.trans hl') (ho.trans ho') (hs.trans hs')
  | evaluating a r hj' he' hc' hl' ho' hs' =>
    exact .evaluating a r (hj _ hj') (he.trans he') (hc.trans hc') (hl.trans hl') (ho.trans ho')
      (hs.trans hs')
  | decided a r w f final d hj' he' hrun hc' hl' ho' hs' =>
    exact .decided a r w f final d (hj _ hj') (he.trans he') hrun (hc.trans hc') (hl.trans hl')
      (ho.trans ho') (hs.trans hs')
  | collectFailed cause f hj' he' hc' hf =>
    exact .collectFailed cause f (hj _ hj') (he.trans he') (hc.trans hc') (failed cause f hf)
  | evaluateFailed a r w cause f final hj' he' hrun hc' hf =>
    exact .evaluateFailed a r w cause f final (hj _ hj') (he.trans he') hrun (hc.trans hc')
      (failed cause _ hf)

/-! ## What a step can do -/

/-- The fan-out took a step, or none. -/
def Advance {α : Type} (cfg : FanOutConfig α) (f f' : FanOut α) : Prop :=
  f' = f ∨ ∃ e, FanOut.step cfg f e = some f'

/-- What a step of a decision can be. -/
inductive StepCase (cfg : DeciderConfig) (entry : DecisionRequest) (input : DecisionInput)
    (s : Deciding) : DecideEvent → Deciding → Prop where
  | fanOuts (e : DecideEvent) (f : FanOut Attributes) (g : FanOut (List AnyRule))
      (failures : FailureRecord) (hf : Advance cfg.attributePipeline.fanOut s.attributeFanOut f)
      (hg : Advance cfg.rulePipeline.fanOut s.ruleFanOut g) :
      StepCase cfg entry input s e
        { s with attributeFanOut := f, ruleFanOut := g, failures := failures }
  | attributesCollected (o : Except Thrown (List (Option Attributes)))
      (ho : s.attributeFanOut.outcome = some o) (hn : s.attrs = none) :
      StepCase cfg entry input s .attributesCollected { s with attrs := some (collectAttributes o) }
  | rulesCollected (o : Except Thrown (List (Option (List AnyRule))))
      (ho : s.ruleFanOut.outcome = some o) (hn : s.rules = none) :
      StepCase cfg entry input s .rulesCollected { s with rules := some (collectRules o) }
  | seeAttributes (a : Attributes) (ha : s.attrs = some (.ok a)) :
      StepCase cfg entry input s .joinAttributes (joinBoth { s with seenAttrs := some a })
  | seeRules (r : List AnyRule) (hr : s.rules = some (.ok r)) :
      StepCase cfg entry input s .joinRules (joinBoth { s with seenRules := some r })
  | attributesFailed (e : Thrown) (he : s.attrs = some (.error e)) :
      StepCase cfg entry input s .joinAttributes (s.join (.error e))
  | rulesFailed (e : Thrown) (he : s.rules = some (.error e)) :
      StepCase cfg entry input s .joinRules (s.join (.error e))
  | proceed (world : World) (o : Except Thrown (Attributes × List AnyRule)) (hj : s.joined = some o)
      (he : s.evaluated = []) (hs : s.settled = none) :
      StepCase cfg entry input s (.proceed world) (Deciding.proceed cfg entry input s world o)

theorem record_eq (s : Deciding) (failure : Option (Thrown × FailureSource)) :
    ∃ failures, s.record failure = { s with failures := failures } := by
  cases failure with
  | none => exact ⟨s.failures, rfl⟩
  | some f => exact ⟨_, rfl⟩

theorem step_cases {e : DecideEvent} {s' : Deciding} (hs : step cfg entry input s e = some s') :
    StepCase cfg entry input s e s' := by
  have h := hs
  cases e with
  | attributes e =>
    have hstep : (FanOut.step cfg.attributePipeline.fanOut s.attributeFanOut e).map (fun f =>
        { s.record (FanOut.records cfg.attributePipeline.fanOut s.attributeFanOut e) with
          attributeFanOut := f }) = some s' := by
      cases e <;> first | exact h | exact absurd h (by simp [step])
    obtain ⟨f, hf, rfl⟩ := Option.map_eq_some_iff.1 hstep
    obtain ⟨failures, hr⟩ := record_eq s
      (FanOut.records cfg.attributePipeline.fanOut s.attributeFanOut e)
    rw [hr]
    exact .fanOuts _ f s.ruleFanOut failures (Or.inr ⟨e, hf⟩) (Or.inl rfl)
  | rules e =>
    have hstep : (FanOut.step cfg.rulePipeline.fanOut s.ruleFanOut e).map (fun f =>
        { s.record (FanOut.records cfg.rulePipeline.fanOut s.ruleFanOut e) with
          ruleFanOut := f }) = some s' := by
      cases e <;> first | exact h | exact absurd h (by simp [step])
    obtain ⟨g, hg, rfl⟩ := Option.map_eq_some_iff.1 hstep
    obtain ⟨failures, hr⟩ := record_eq s (FanOut.records cfg.rulePipeline.fanOut s.ruleFanOut e)
    rw [hr]
    exact .fanOuts _ s.attributeFanOut g failures (Or.inl rfl) (Or.inr ⟨e, hg⟩)
  | callerAbort reason =>
    simp only [step] at h
    obtain ⟨f, hf, h⟩ := Option.bind_eq_some_iff.1 h
    obtain ⟨g, hg, rfl⟩ := Option.map_eq_some_iff.1 h
    exact .fanOuts _ f g s.failures (Or.inr ⟨_, hf⟩) (Or.inr ⟨_, hg⟩)
  | attributesCollected =>
    simp only [step] at h
    split at h
    · rename_i o ho hn
      exact Option.some.inj h ▸ .attributesCollected o ho hn
    · exact absurd h (by simp)
  | rulesCollected =>
    simp only [step] at h
    split at h
    · rename_i o ho hn
      exact Option.some.inj h ▸ .rulesCollected o ho hn
    · exact absurd h (by simp)
  | joinAttributes =>
    simp only [step] at h
    cases ha : s.attrs with
    | none => simp [ha] at h
    | some o =>
      cases o with
      | error e =>
        simp only [ha, Option.some.injEq] at h
        exact h ▸ .attributesFailed e ha
      | ok a =>
        cases hn : s.seenAttrs with
        | some b => simp [ha, hn] at h
        | none =>
          have hstep : step cfg entry input s .joinAttributes =
              some (joinBoth { s with seenAttrs := some a }) := by simp only [step, ha, hn]
          exact Option.some.inj (hstep.symm.trans hs) ▸ .seeAttributes a ha
  | joinRules =>
    simp only [step] at h
    cases hr : s.rules with
    | none => simp [hr] at h
    | some o =>
      cases o with
      | error e =>
        simp only [hr, Option.some.injEq] at h
        exact h ▸ .rulesFailed e hr
      | ok r =>
        cases hn : s.seenRules with
        | some b => simp [hr, hn] at h
        | none =>
          have hstep : step cfg entry input s .joinRules =
              some (joinBoth { s with seenRules := some r }) := by simp only [step, hr, hn]
          exact Option.some.inj (hstep.symm.trans hs) ▸ .seeRules r hr
  | proceed world =>
    simp only [step] at h
    split at h
    · rename_i o hj he hs
      exact Option.some.inj h ▸ .proceed world o hj he hs
    · exact absurd h (by simp)

/-! ## The invariant is kept -/

theorem Advance.inv {α : Type} {c : FanOutConfig α} {f f' : FanOut α} (h : Advance c f f')
    (hi : FanOut.Inv c f) (ho : FanOut.Overrun f) :
    FanOut.Inv c f' ∧ FanOut.Overrun f' ∧ ∀ r, f.outcome = some r → f'.outcome = some r := by
  rcases h with rfl | ⟨e, he⟩
  · exact ⟨hi, ho, fun _ => id⟩
  · refine ⟨FanOut.step_inv hi he, FanOut.step_overrun hi ho he, fun r hr => ?_⟩
    rw [FanOut.step_outcome hi he (by simp [hr]), hr]

/-- The catch block is entered from a place where nothing was reported. -/
theorem fail_failedWith (cfg : DeciderConfig) (entry : DecisionRequest) (input : DecisionInput)
    (s : Deciding) (cause : Thrown) (hl : s.logs = []) (ho : s.observations = []) :
    FailedWith cfg entry input cause s.failures (fail cfg entry input s cause) ∧
    (fail cfg entry input s cause).caught = some cause ∧
    (fail cfg entry input s cause).joined = s.joined ∧
    (fail cfg entry input s cause).evaluated = s.evaluated := by
  cases hd : deniedFailures (classifyFailure cause s.failures).category with
  | none =>
    simp only [FailedWith, fail, hd]
    simp [hl, ho]
  | some denial =>
    simp only [FailedWith, fail, hd]
    refine ⟨⟨?_, ?_, rfl⟩, rfl, rfl, rfl⟩
    · simp [finish, hl]
    · simp [finish, ho]

theorem fail_caught (cfg : DeciderConfig) (entry : DecisionRequest) (input : DecisionInput)
    (s : Deciding) (cause : Thrown) : (fail cfg entry input s cause).caught = some cause := by
  simp only [fail]
  split <;> rfl

theorem proceed_place (world : World) (o : Except Thrown (Attributes × List AnyRule))
    (h : Place cfg entry input s) (hj : s.joined = some o) (he : s.evaluated = [])
    (hs : s.settled = none) : Place cfg entry input (proceed cfg entry input s world o) := by
  obtain ⟨hc, hl, ho⟩ : s.caught = none ∧ s.logs = [] ∧ s.observations = [] := by
    cases h with
    | collecting _ hc hl ho _ => exact ⟨hc, hl, ho⟩
    | evaluating a r _ he' => rw [he] at he'; exact absurd he' (by simp)
    | decided a r w f final d _ he' => rw [he] at he'; exact absurd he' (by simp)
    | collectFailed cause f _ _ _ hf =>
      have hsome := hf.settled
      rw [hs] at hsome
      exact absurd hsome (by simp)
    | evaluateFailed a r w cause f final _ he' => rw [he] at he'; exact absurd he' (by simp)
  cases o with
  | error cause =>
    obtain ⟨hf, hc', hj', he'⟩ := fail_failedWith cfg entry input s cause hl ho
    exact .collectFailed cause s.failures (hj'.trans hj) (he'.trans he) hc' hf
  | ok collected =>
    obtain ⟨attrs, rules⟩ := collected
    simp only [proceed, he, List.nil_append]
    rcases hrun : evaluate world attrs rules cfg.evaluateOptions s.failures with ⟨final, outcome⟩
    cases outcome with
    | done decision =>
      refine .decided attrs rules world s.failures final decision hj rfl hrun hc ?_ ?_ rfl
      · simp [finish, hl]
      · simp [finish, ho]
    | threw cause =>
      obtain ⟨hf, hc', hj', he'⟩ := fail_failedWith cfg entry input
        { s with evaluated := [(attrs, rules)], failures := final.failures } cause hl ho
      exact .evaluateFailed attrs rules world cause s.failures final (hj'.trans hj) he' hrun hc' hf
    | pending => exact .evaluating attrs rules hj rfl hc hl ho hs

theorem Collected.frame {s' : Deciding} (h : Collected cfg s)
    (hf : ∀ r, s.attributeFanOut.outcome = some r → s'.attributeFanOut.outcome = some r)
    (hg : ∀ r, s.ruleFanOut.outcome = some r → s'.ruleFanOut.outcome = some r)
    (ha : s'.attrs = s.attrs) (hr : s'.rules = s.rules) (hsa : s'.seenAttrs = s.seenAttrs)
    (hsr : s'.seenRules = s.seenRules) (hj : s'.joined = s.joined) : Collected cfg s' where
  attrs o ho := by
    obtain ⟨r, hr, he⟩ := h.attrs o (ha ▸ ho)
    exact ⟨r, hf r hr, he⟩
  rules o ho := by
    obtain ⟨r, hr, he⟩ := h.rules o (hr ▸ ho)
    exact ⟨r, hg r hr, he⟩
  seenAttrs a hs := ha ▸ h.seenAttrs a (hsa ▸ hs)
  seenRules r hs := hr ▸ h.seenRules r (hsr ▸ hs)
  joined a r hs := by
    rw [ha, hr]
    exact h.joined a r (hj ▸ hs)
  broken e hs := by
    rw [ha, hr]
    exact h.broken e (hj ▸ hs)

/-- `Promise.all` settles with what the collects came to. -/
theorem Collected.join (h : Collected cfg s) {o : Except Thrown (Attributes × List AnyRule)}
    (hok : ∀ a r, o = .ok (a, r) → s.attrs = some (.ok a) ∧ s.rules = some (.ok r))
    (herr : ∀ e, o = .error e → s.attrs = some (.error e) ∨ s.rules = some (.error e)) :
    Collected cfg (s.join o) := by
  have hjoined : ∀ p, (s.join o).joined = some p → s.joined = some p ∨ o = p := by
    intro p hp
    cases hj : s.joined with
    | none => right; simpa [Deciding.join, hj] using hp
    | some q => left; simpa [Deciding.join, hj] using hp
  refine ⟨h.attrs, h.rules, h.seenAttrs, h.seenRules, fun a r hj => ?_, fun e hj => ?_⟩
  · rcases hjoined _ hj with hj | hj
    · exact h.joined a r hj
    · exact hok a r hj
  · rcases hjoined _ hj with hj | hj
    · exact h.broken e hj
    · exact herr e hj

theorem Collected.joinBoth (h : Collected cfg s) : Collected cfg s.joinBoth := by
  unfold Deciding.joinBoth
  split
  · rename_i a r ha hr
    refine h.join (fun a' r' he => ?_) (fun e he => absurd he (by simp))
    obtain ⟨rfl, rfl⟩ := Prod.mk.injEq .. ▸ Except.ok.inj he
    exact ⟨h.seenAttrs a ha, h.seenRules r hr⟩
  · exact h

/-- Settling `Promise.all` leaves the body where it is. -/
theorem Place.join (h : Place cfg entry input s) (o : Except Thrown (Attributes × List AnyRule)) :
    Place cfg entry input (s.join o) :=
  h.frame (fun p hp => by simp [Deciding.join, hp]) rfl rfl rfl rfl rfl

theorem Place.joinBoth (h : Place cfg entry input s) : Place cfg entry input s.joinBoth := by
  unfold Deciding.joinBoth
  split
  · exact h.join _
  · exact h

@[simp] theorem joinBoth_attributeFanOut (s : Deciding) :
    s.joinBoth.attributeFanOut = s.attributeFanOut := by
  unfold joinBoth
  split <;> rfl

@[simp] theorem joinBoth_ruleFanOut (s : Deciding) : s.joinBoth.ruleFanOut = s.ruleFanOut := by
  unfold joinBoth
  split <;> rfl

/-- The body's own turn changes what the body holds. -/
theorem proceed_eq (cfg : DeciderConfig) (entry : DecisionRequest) (input : DecisionInput)
    (s : Deciding) (world : World) (o : Except Thrown (Attributes × List AnyRule)) :
    ∃ evaluated caught failures logs observations settled, proceed cfg entry input s world o =
      { s with evaluated, caught, failures, logs, observations, settled } := by
  have failed : ∀ (u : Deciding) (cause : Thrown), ∃ caught logs observations settled,
      fail cfg entry input u cause = { u with caught, logs, observations, settled } := by
    intro u cause
    simp only [fail]
    split
    · exact ⟨_, _, _, _, rfl⟩
    · exact ⟨_, _, _, _, rfl⟩
  cases o with
  | error cause =>
    obtain ⟨c, l, o, st, heq⟩ := failed s cause
    exact ⟨s.evaluated, c, s.failures, l, o, st, heq⟩
  | ok collected =>
    obtain ⟨attrs, rules⟩ := collected
    simp only [proceed]
    split
    · exact ⟨_, _, _, _, _, _, rfl⟩
    · rename_i final cause _
      obtain ⟨c, l, o, st, heq⟩ := failed
        { s with evaluated := s.evaluated ++ [(attrs, rules)], failures := final.failures } cause
      exact ⟨_, c, _, l, o, st, heq⟩
    · exact ⟨_, _, _, _, _, _, rfl⟩

theorem step_inv {e : DecideEvent} {s' : Deciding} (h : Inv cfg entry input s)
    (hs : step cfg entry input s e = some s') : Inv cfg entry input s' := by
  obtain ⟨hfi, hfo, hgi, hgo, hcol, hplace⟩ := h
  cases step_cases hs with
  | fanOuts _ f g failures hf hg =>
    obtain ⟨hfi', hfo', hfs⟩ := hf.inv hfi hfo
    obtain ⟨hgi', hgo', hgs⟩ := hg.inv hgi hgo
    exact ⟨hfi', hfo', hgi', hgo', hcol.frame hfs hgs rfl rfl rfl rfl rfl,
      hplace.frame (fun _ => id) rfl rfl rfl rfl rfl⟩
  | attributesCollected o ho hn =>
    refine ⟨hfi, hfo, hgi, hgo, ⟨?_, hcol.rules, ?_, hcol.seenRules, ?_, ?_⟩,
      hplace.frame (fun _ => id) rfl rfl rfl rfl rfl⟩
    · intro p hp
      exact ⟨o, ho, (Option.some.inj hp).symm⟩
    · intro a ha
      exact absurd (hcol.seenAttrs a ha) (by simp [hn])
    · intro a r hj
      exact absurd (hcol.joined a r hj).1 (by simp [hn])
    · intro e he
      rcases hcol.broken e he with he | he
      · exact absurd he (by simp [hn])
      · exact Or.inr he
  | rulesCollected o ho hn =>
    refine ⟨hfi, hfo, hgi, hgo, ⟨hcol.attrs, ?_, hcol.seenAttrs, ?_, ?_, ?_⟩,
      hplace.frame (fun _ => id) rfl rfl rfl rfl rfl⟩
    · intro p hp
      exact ⟨o, ho, (Option.some.inj hp).symm⟩
    · intro r hr
      exact absurd (hcol.seenRules r hr) (by simp [hn])
    · intro a r hj
      exact absurd (hcol.joined a r hj).2 (by simp [hn])
    · intro e he
      rcases hcol.broken e he with he | he
      · exact Or.inl he
      · exact absurd he (by simp [hn])
  | seeAttributes a ha =>
    have hseen : Collected cfg { s with seenAttrs := some a } :=
      ⟨hcol.attrs, hcol.rules, fun b hb => Option.some.inj hb ▸ ha, hcol.seenRules, hcol.joined,
        hcol.broken⟩
    have hpl : Place cfg entry input { s with seenAttrs := some a } :=
      hplace.frame (fun _ => id) rfl rfl rfl rfl rfl
    exact ⟨by simpa using hfi, by simpa using hfo, by simpa using hgi, by simpa using hgo,
      hseen.joinBoth, hpl.joinBoth⟩
  | seeRules r hr =>
    have hseen : Collected cfg { s with seenRules := some r } :=
      ⟨hcol.attrs, hcol.rules, hcol.seenAttrs, fun b hb => Option.some.inj hb ▸ hr, hcol.joined,
        hcol.broken⟩
    have hpl : Place cfg entry input { s with seenRules := some r } :=
      hplace.frame (fun _ => id) rfl rfl rfl rfl rfl
    exact ⟨by simpa using hfi, by simpa using hfo, by simpa using hgi, by simpa using hgo,
      hseen.joinBoth, hpl.joinBoth⟩
  | attributesFailed e he =>
    refine ⟨hfi, hfo, hgi, hgo, hcol.join (fun _ _ h => absurd h (by simp)) ?_, hplace.join _⟩
    intro e' heq
    exact Or.inl (Except.error.inj heq ▸ he)
  | rulesFailed e he =>
    refine ⟨hfi, hfo, hgi, hgo, hcol.join (fun _ _ h => absurd h (by simp)) ?_, hplace.join _⟩
    intro e' heq
    exact Or.inr (Except.error.inj heq ▸ he)
  | proceed world o hj he hn =>
    have hplace' := proceed_place world o hplace hj he hn
    obtain ⟨ev, c, fs, l, ob, st, heq⟩ := proceed_eq cfg entry input s world o
    rw [heq] at hplace' ⊢
    exact ⟨hfi, hfo, hgi, hgo, hcol.frame (fun _ => id) (fun _ => id) rfl rfl rfl rfl rfl, hplace'⟩

theorem run_inv {caller : Option Thrown} {es : List DecideEvent}
    (h : Machine.run (step cfg entry input) (start cfg caller) es = some s) :
    Inv cfg entry input s :=
  Machine.run_invariant (fun _ _ _ => step_inv) (start_inv cfg entry input caller) h

/-! ## What the decision stands on -/

theorem Inv.attributes_resolved (h : Inv cfg entry input s) {rs : List (Option Attributes)}
    (hrs : s.attributeFanOut.outcome = some (.ok rs)) : ∃ maps, rs = maps.map some ∧
      FanOut.AllResolved cfg.attributePipeline.fanOut s.attributeFanOut maps :=
  FanOut.resolved_all cfg.attributePipeline.positive h.attributeFanOut h.attributeOverrun hrs

theorem Inv.rules_resolved (h : Inv cfg entry input s) {rs : List (Option (List AnyRule))}
    (hrs : s.ruleFanOut.outcome = some (.ok rs)) : ∃ lists, rs = lists.map some ∧
      FanOut.AllResolved cfg.rulePipeline.fanOut s.ruleFanOut lists :=
  FanOut.resolved_all cfg.rulePipeline.positive h.ruleFanOut h.ruleOverrun hrs

/-- What both collects came to is what all the collectors came to. -/
theorem Inv.joined_whole (h : Inv cfg entry input s) {attrs : Attributes} {rules : List AnyRule}
    (hj : s.joined = some (.ok (attrs, rules))) : ∃ maps lists,
      FanOut.AllResolved cfg.attributePipeline.fanOut s.attributeFanOut maps ∧
      FanOut.AllResolved cfg.rulePipeline.fanOut s.ruleFanOut lists ∧
      merge maps = .ok attrs ∧ rules = lists.flatten := by
  obtain ⟨ha, hr⟩ := h.collected.joined attrs rules hj
  obtain ⟨o, ho, hao⟩ := h.collected.attrs _ ha
  obtain ⟨p, hp, hrp⟩ := h.collected.rules _ hr
  cases o with
  | error e => exact absurd hao (by simp [collectAttributes])
  | ok rs =>
    cases p with
    | error e => exact absurd hrp (by simp [collectRules])
    | ok qs =>
      obtain ⟨maps, rfl, hmaps⟩ := h.attributes_resolved ho
      obtain ⟨lists, rfl, hlists⟩ := h.rules_resolved hp
      rw [collectAttributes_whole] at hao
      rw [collectRules_whole] at hrp
      exact ⟨maps, lists, hmaps, hlists, hao.symm, Except.ok.inj hrp⟩

/-- A joined failure is a fan-out's, or the merge's over the maps of all collectors. -/
theorem Inv.joined_broken (h : Inv cfg entry input s) {cause : Thrown}
    (hj : s.joined = some (.error cause)) : s.attributeFanOut.outcome = some (.error cause) ∨
      s.ruleFanOut.outcome = some (.error cause) ∨ ∃ maps,
        FanOut.AllResolved cfg.attributePipeline.fanOut s.attributeFanOut maps ∧
        merge maps = .error cause := by
  rcases h.collected.broken cause hj with ha | hr
  · obtain ⟨o, ho, hao⟩ := h.collected.attrs _ ha
    cases o with
    | error e => exact Or.inl (by rw [ho, Except.error.inj hao])
    | ok rs =>
      obtain ⟨maps, rfl, hmaps⟩ := h.attributes_resolved ho
      rw [collectAttributes_whole] at hao
      exact Or.inr (Or.inr ⟨maps, hmaps, hao.symm⟩)
  · obtain ⟨o, ho, hro⟩ := h.collected.rules _ hr
    cases o with
    | error e => exact Or.inr (Or.inl (by rw [ho, Except.error.inj hro]))
    | ok rs => exact absurd hro (by simp [collectRules])

/-- A decision is answered with an allow, a deny or a fault by what it stands on, and reported when
it is made and not when it fails. -/
structure FailClosed (cfg : DeciderConfig) (s : Deciding) : Prop where
  /-- `evaluate` is called at most once. -/
  evaluated_once : s.evaluated.length ≤ 1
  /-- What is evaluated is what all the collectors of both pipelines resolved with. -/
  evaluated_all : ∀ attrs rules, (attrs, rules) ∈ s.evaluated → ∃ maps lists,
    FanOut.AllResolved cfg.attributePipeline.fanOut s.attributeFanOut maps ∧
    FanOut.AllResolved cfg.rulePipeline.fanOut s.ruleFanOut lists ∧
    merge maps = .ok attrs ∧ rules = lists.flatten
  /-- An allow is the evaluator's. -/
  allow : ∀ response, s.settled = some (.ok response) → response.decision.isAllow = true →
    ∃ attrs rules world failures final decision, s.evaluated = [(attrs, rules)] ∧
      evaluate world attrs rules cfg.evaluateOptions failures = (final, .done decision) ∧
      decision.isAllow = true
  /-- What is caught is what a fan-out, the merge or the evaluator failed with. -/
  cause : ∀ cause, s.caught = some cause → s.attributeFanOut.outcome = some (.error cause) ∨
    s.ruleFanOut.outcome = some (.error cause) ∨
    (∃ maps, FanOut.AllResolved cfg.attributePipeline.fanOut s.attributeFanOut maps ∧
      merge maps = .error cause) ∨
    ∃ attrs rules world failures final, s.evaluated = [(attrs, rules)] ∧
      evaluate world attrs rules cfg.evaluateOptions failures = (final, .threw cause)
  /-- A timeout and a conflict are denied, on no group. -/
  denied : ∀ cause, s.caught = some cause → isDenied cause = true → ∃ response code message,
    s.settled = some (.ok response) ∧ response.decision = .deny code message { groups := [] }
  /-- Every other failure is a fault. -/
  fault : ∀ cause, s.caught = some cause → isDenied cause = false → ∃ failure,
    s.settled = some (.error { original := cause, failure })
  /-- A fault is a failure that was caught. -/
  faulted : ∀ thrown, s.settled = some (.error thrown) → s.caught = some thrown.original ∧
    isDenied thrown.original = false
  /-- A decision is one `decision` line when it was made, and none otherwise. -/
  reported : (s.logs.filter LogLine.isDecision).length =
    if s.settled.any Except.isOk then 1 else 0
  /-- And one observation, when anybody counts. -/
  counted : (s.observations.filter Observation.isDecision).length =
    if s.settled.any Except.isOk && cfg.metrics.isSome then 1 else 0

theorem observe_isDecision (metrics : Option DecisionMetrics) (decision : Decision) :
    ((observe metrics decision).filter Observation.isDecision).length =
      if metrics.isSome then 1 else 0 := by
  cases metrics <;> cases decision <;> rfl

theorem countCollectorFailure_isDecision (metrics : Option DecisionMetrics)
    (failure : ClassifiedFailure) :
    (countCollectorFailure metrics failure).filter Observation.isDecision = [] := by
  unfold countCollectorFailure
  split
  · split <;> rfl
  · rfl

theorem toResponse_isAllow (subject : Option Str) (entry : DecisionRequest) (decision : Decision)
    (includeEvaluation : Bool) :
    (toResponse subject entry decision includeEvaluation).decision.isAllow = decision.isAllow := by
  cases decision <;> rfl

/-- A deny built on no group reaches the caller on no group. -/
theorem toResponse_noGroups (subject : Option Str) (entry : DecisionRequest) (code message : Str)
    (includeEvaluation : Bool) :
    (toResponse subject entry (.deny code message { groups := [] }) includeEvaluation).decision =
      .deny code message { groups := [] } := by
  cases includeEvaluation <;> rfl

theorem FailedWith.denied {cause : Thrown} {failures : FailureRecord}
    (h : FailedWith cfg entry input cause failures s) (hd : isDenied cause = true) :
    (∃ response code message, s.settled = some (.ok response) ∧
      response.decision = .deny code message { groups := [] }) ∧
    (s.logs.filter LogLine.isDecision).length = 1 ∧
    (s.observations.filter Observation.isDecision).length = if cfg.metrics.isSome then 1 else 0 := by
  rw [← deniedFailures_isSome cause failures] at hd
  obtain ⟨denial, hdenial⟩ := Option.isSome_iff_exists.1 hd
  simp only [FailedWith, hdenial] at h
  obtain ⟨hl, ho, hs⟩ := h
  refine ⟨⟨_, denial.code, denial.message, hs, toResponse_noGroups ..⟩, ?_, ?_⟩
  · rw [hl]
    rfl
  · rw [ho, List.filter_append, countCollectorFailure_isDecision, List.nil_append,
      observe_isDecision]

theorem FailedWith.fault {cause : Thrown} {failures : FailureRecord}
    (h : FailedWith cfg entry input cause failures s) (hd : isDenied cause = false) :
    (∃ failure, s.settled = some (.error { original := cause, failure })) ∧ s.logs = [] ∧
    s.observations = [] := by
  rw [← deniedFailures_isSome cause failures, Option.isSome_eq_false_iff, Option.isNone_iff_eq_none]
    at hd
  simp only [FailedWith, hd] at h
  exact ⟨⟨_, h.2.2⟩, h.1, h.2.1⟩

/-- A call past its catch block has failed closed, whatever it caught. -/
theorem FailedWith.failClosed {cause : Thrown} {failures : FailureRecord}
    (h : FailedWith cfg entry input cause failures s) (hc : s.caught = some cause)
    (hcause : s.attributeFanOut.outcome = some (.error cause) ∨
      s.ruleFanOut.outcome = some (.error cause) ∨
      (∃ maps, FanOut.AllResolved cfg.attributePipeline.fanOut s.attributeFanOut maps ∧
        merge maps = .error cause) ∨
      ∃ attrs rules world failures final, s.evaluated = [(attrs, rules)] ∧
        evaluate world attrs rules cfg.evaluateOptions failures = (final, .threw cause))
    (honce : s.evaluated.length ≤ 1)
    (hall : ∀ attrs rules, (attrs, rules) ∈ s.evaluated → ∃ maps lists,
      FanOut.AllResolved cfg.attributePipeline.fanOut s.attributeFanOut maps ∧
      FanOut.AllResolved cfg.rulePipeline.fanOut s.ruleFanOut lists ∧
      merge maps = .ok attrs ∧ rules = lists.flatten) : FailClosed cfg s := by
  cases hd : isDenied cause with
  | true =>
    obtain ⟨⟨response, code, message, hs, hdeny⟩, hl, ho⟩ := h.denied hd
    refine ⟨honce, hall, fun r hr ha => ?_, fun c hc' => ?_, fun c hc' _ => ⟨_, _, _, hs, hdeny⟩,
      fun c hc' hd' => ?_, fun f hf => ?_, ?_, ?_⟩
    · rw [hs] at hr
      obtain rfl := Except.ok.inj (Option.some.inj hr)
      rw [hdeny] at ha
      exact absurd ha (by simp [Decision.isAllow])
    · obtain rfl := Option.some.inj (hc.symm.trans hc')
      exact hcause
    · obtain rfl := Option.some.inj (hc.symm.trans hc')
      rw [hd] at hd'
      exact absurd hd' (by simp)
    · rw [hs] at hf
      exact absurd hf (by simp)
    · rw [hl, hs]
      rfl
    · rw [ho, hs]
      rfl
  | false =>
    obtain ⟨⟨failure, hs⟩, hl, ho⟩ := h.fault hd
    refine ⟨honce, hall, fun r hr => ?_, fun c hc' => ?_, fun c hc' hd' => ?_, fun c hc' _ => ?_,
      fun f hf => ?_, ?_, ?_⟩
    · rw [hs] at hr
      exact absurd hr (by simp)
    · obtain rfl := Option.some.inj (hc.symm.trans hc')
      exact hcause
    · obtain rfl := Option.some.inj (hc.symm.trans hc')
      rw [hd] at hd'
      exact absurd hd' (by simp)
    · obtain rfl := Option.some.inj (hc.symm.trans hc')
      exact ⟨failure, hs⟩
    · rw [hs] at hf
      obtain rfl := Except.error.inj (Option.some.inj hf)
      exact ⟨hc, hd⟩
    · rw [hl, hs]
      rfl
    · rw [ho, hs]
      rfl

/-- A call that has neither caught anything nor settled has failed closed. -/
theorem failClosed_of_open (hc : s.caught = none) (hl : s.logs = []) (ho : s.observations = [])
    (hs : s.settled = none) (honce : s.evaluated.length ≤ 1)
    (hall : ∀ attrs rules, (attrs, rules) ∈ s.evaluated → ∃ maps lists,
      FanOut.AllResolved cfg.attributePipeline.fanOut s.attributeFanOut maps ∧
      FanOut.AllResolved cfg.rulePipeline.fanOut s.ruleFanOut lists ∧
      merge maps = .ok attrs ∧ rules = lists.flatten) : FailClosed cfg s := by
  have hnone : ∀ c, s.caught ≠ some c := by simp [hc]
  refine ⟨honce, hall, fun r hr => ?_, fun c hc' => absurd hc' (hnone c),
    fun c hc' => absurd hc' (hnone c), fun c hc' => absurd hc' (hnone c), fun f hf => ?_,
    by simp [hl, hs], by simp [ho, hs]⟩
  · rw [hs] at hr
    exact absurd hr (by simp)
  · rw [hs] at hf
    exact absurd hf (by simp)

/-- Every place of a decision fails closed. -/
theorem Inv.failClosed (h : Inv cfg entry input s) : FailClosed cfg s := by
  have hall : ∀ attrs rules, s.evaluated = [(attrs, rules)] →
      s.joined = some (.ok (attrs, rules)) → ∀ attrs' rules', (attrs', rules') ∈ s.evaluated →
      ∃ maps lists, FanOut.AllResolved cfg.attributePipeline.fanOut s.attributeFanOut maps ∧
        FanOut.AllResolved cfg.rulePipeline.fanOut s.ruleFanOut lists ∧
        merge maps = .ok attrs' ∧ rules' = lists.flatten := by
    intro attrs rules he hj attrs' rules' hm
    rw [he, List.mem_singleton] at hm
    obtain ⟨rfl, rfl⟩ := Prod.mk.injEq .. ▸ hm
    exact h.joined_whole hj
  cases h.place with
  | collecting he hc hl ho hs => exact failClosed_of_open hc hl ho hs (by simp [he]) (by simp [he])
  | evaluating attrs rules hj he hc hl ho hs =>
    exact failClosed_of_open hc hl ho hs (by simp [he]) (hall attrs rules he hj)
  | decided attrs rules world failures final decision hj he hrun hc hl ho hs =>
    refine ⟨by simp [he], hall attrs rules he hj, fun r hr ha => ?_, fun c hc' => ?_,
      fun c hc' => ?_, fun c hc' => ?_, fun f hf => ?_, ?_, ?_⟩
    · rw [hs] at hr
      obtain rfl := Except.ok.inj (Option.some.inj hr)
      exact ⟨attrs, rules, world, failures, final, decision, he, hrun,
        (toResponse_isAllow ..).symm.trans ha⟩
    · rw [hc] at hc'
      exact absurd hc' (by simp)
    · rw [hc] at hc'
      exact absurd hc' (by simp)
    · rw [hc] at hc'
      exact absurd hc' (by simp)
    · rw [hs] at hf
      exact absurd hf (by simp)
    · rw [hl, hs]
      rfl
    · rw [ho, hs, observe_isDecision]
      rfl
  | collectFailed cause failures hj he hc hf =>
    refine hf.failClosed hc ?_ (by simp [he]) (by simp [he])
    rcases h.joined_broken hj with h | h | h
    · exact Or.inl h
    · exact Or.inr (Or.inl h)
    · exact Or.inr (Or.inr (Or.inl h))
  | evaluateFailed attrs rules world cause failures final hj he hrun hc hf =>
    exact hf.failClosed hc
      (Or.inr (Or.inr (Or.inr ⟨attrs, rules, world, failures, final, he, hrun⟩))) (by simp [he])
      (hall attrs rules he hj)

/-! ## A failed pipeline settles the decision -/

/-- The event is a job of `decide`'s own. -/
def isOwn : DecideEvent → Bool
  | .attributesCollected => true
  | .rulesCollected => true
  | .joinAttributes => true
  | .joinRules => true
  | .proceed _ => true
  | _ => false

/-- A turn in which nothing happens. -/
def quietWorld : World := { startedAt := 0, turn := fun _ _ => { now := 0, events := [] } }

/-- One of the two collects has failed, or will as soon as it is looked at. -/
def CollectFails (s : Deciding) : Prop :=
  (∃ o e, s.attributeFanOut.outcome = some o ∧ collectAttributes o = .error e) ∨
    ∃ e, s.ruleFanOut.outcome = some (.error e)

/-- A `collect` that rejected is caught, once the jobs that carry it run. -/
theorem rejected_settles (h : Inv cfg entry input s) (hs : s.settled = none) {e : Thrown}
    (hr : s.attrs = some (.error e) ∨ s.rules = some (.error e)) :
    ∃ es s', (∀ e ∈ es, isOwn e = true) ∧ Machine.run (step cfg entry input) s es = some s' ∧
      s'.caught.isSome = true := by
  obtain ⟨join, hown, hjoin⟩ : ∃ join, isOwn join = true ∧
      step cfg entry input s join = some (s.join (.error e)) := by
    rcases hr with ha | hr
    · exact ⟨.joinAttributes, rfl, by simp only [step, ha]⟩
    · exact ⟨.joinRules, rfl, by simp only [step, hr]⟩
  have hinv := step_inv h hjoin
  have hneither : ∀ a r, ¬ (s.attrs = some (.ok a) ∧ s.rules = some (.ok r)) := by
    rintro a r ⟨ha, hr'⟩
    rcases hr with hr | hr
    · rw [ha] at hr; exact absurd hr (by simp)
    · rw [hr'] at hr; exact absurd hr (by simp)
  have hevaluated : s.evaluated = [] := by
    cases h.place with
    | collecting he => exact he
    | evaluating a r hj => exact absurd (h.collected.joined a r hj) (hneither a r)
    | decided a r _ _ _ _ hj => exact absurd (h.collected.joined a r hj) (hneither a r)
    | collectFailed _ _ _ he => exact he
    | evaluateFailed a r _ _ _ _ hj => exact absurd (h.collected.joined a r hj) (hneither a r)
  obtain ⟨cause, hcause⟩ : ∃ cause, (s.join (.error e)).joined = some (.error cause) := by
    cases hj : (s.join (.error e)).joined with
    | none => cases hs : s.joined <;> simp [Deciding.join, hs] at hj
    | some o =>
      cases o with
      | error cause => exact ⟨cause, rfl⟩
      | ok collected => exact absurd (hinv.collected.joined _ _ hj) (hneither _ _)
  refine ⟨[join, .proceed quietWorld], fail cfg entry input (s.join (.error e)) cause, ?_, ?_, ?_⟩
  · intro e he
    rcases List.mem_cons.1 he with rfl | he
    · exact hown
    · rw [List.mem_singleton.1 he]
      rfl
  · have hs' : (s.join (.error e)).settled = none := hs
    have hev : (s.join (.error e)).evaluated = [] := hevaluated
    have hproceed : step cfg entry input (s.join (.error e)) (.proceed quietWorld) =
        some (fail cfg entry input (s.join (.error e)) cause) := by
      simp only [step, hcause, hev, hs', proceed]
    simp [Machine.run_cons, hjoin, hproceed]
  · rw [(fail_caught cfg entry input _ cause)]
    rfl

/-- A pipeline that failed settles the decision, whatever the other is doing. -/
theorem collectFails_settles (h : Inv cfg entry input s) (hs : s.settled = none)
    (hf : CollectFails s) : ∃ es s', (∀ e ∈ es, isOwn e = true) ∧
      Machine.run (step cfg entry input) s es = some s' ∧ s'.caught.isSome = true := by
  -- the collect settles first, if it has not
  have after : ∀ collected s₁, isOwn collected = true → step cfg entry input s collected = some s₁ →
      s₁.settled = none → (∃ e, s₁.attrs = some (.error e) ∨ s₁.rules = some (.error e)) →
      ∃ es s', (∀ e ∈ es, isOwn e = true) ∧
        Machine.run (step cfg entry input) s es = some s' ∧ s'.caught.isSome = true := by
    rintro collected s₁ hown hstep hs₁ ⟨e, he⟩
    obtain ⟨es, s', hes, hrun, hc⟩ := rejected_settles (step_inv h hstep) hs₁ he
    refine ⟨collected :: es, s', fun e he => ?_, ?_, hc⟩
    · rcases List.mem_cons.1 he with rfl | he
      · exact hown
      · exact hes e he
    · rw [Machine.run_cons, hstep]
      exact hrun
  rcases hf with ⟨o, e, ho, he⟩ | ⟨e, ho⟩
  · cases ha : s.attrs with
    | none =>
      exact after .attributesCollected { s with attrs := some (collectAttributes o) } rfl
        (by simp only [step, ho, ha]) hs ⟨e, Or.inl (by rw [he])⟩
    | some p =>
      obtain ⟨r, hr, rfl⟩ := h.collected.attrs p ha
      obtain rfl := Option.some.inj (ho.symm.trans hr)
      exact rejected_settles h hs (Or.inl (he ▸ ha))
  · cases hr : s.rules with
    | none =>
      exact after .rulesCollected { s with rules := some (collectRules (.error e)) } rfl
        (by simp only [step, ho, hr]) hs ⟨e, Or.inr rfl⟩
    | some p =>
      obtain ⟨q, hq, rfl⟩ := h.collected.rules p hr
      obtain rfl := Option.some.inj (ho.symm.trans hq)
      exact rejected_settles h hs (Or.inr hr)

/-- In every run a decision fails closed, and a pipeline that failed settles it. -/
theorem decide_fails_closed (cfg : DeciderConfig) (entry : DecisionRequest) (input : DecisionInput)
    (caller : Option Thrown) (es : List DecideEvent) (s : Deciding)
    (h : Machine.run (step cfg entry input) (start cfg caller) es = some s) :
    FailClosed cfg s ∧ (s.settled = none → CollectFails s → ∃ fs t, (∀ e ∈ fs, isOwn e = true) ∧
      Machine.run (step cfg entry input) s fs = some t ∧ t.caught.isSome = true ∧
      FailClosed cfg t) := by
  have hinv := run_inv h
  refine ⟨hinv.failClosed, fun hs hf => ?_⟩
  obtain ⟨fs, t, hown, hrun, hc⟩ := collectFails_settles hinv hs hf
  exact ⟨fs, t, hown, hrun, hc,
    (Machine.run_invariant (fun _ _ _ => step_inv) hinv hrun).failClosed⟩

/-- One attribute collector and one rule collector, allowed on an empty rule set. -/
def pairConfig : DeciderConfig where
  attributePipeline :=
    { fanOut := { pipeline := .attributes, count := 1, className := fun _ => .undefined,
                  atOnce := fun _ => none,
                  limits := { collectorTimeoutMs := 2000, deadlineMs := 5000, concurrency := 8 } }
      kind_eq := rfl
      positive := by decide }
  rulePipeline :=
    { fanOut := { pipeline := .rules, count := 1, className := fun _ => .undefined,
                  atOnce := fun _ => none,
                  limits := { collectorTimeoutMs := 2000, deadlineMs := 5000, concurrency := 8 } }
      kind_eq := rfl
      positive := by decide }
  onEmptyRuleSet := .str (js "allow")
  ruleTimeoutMs := .rat 2000
  evaluateDeadlineMs := .rat 5000
  metrics := some { observesCollectorFailures := true }

def readOrder : DecisionRequest := { resource := js "order", action := js "read" }

def alice : DecisionInput := { subject := fun _ => .str (js "alice") }

/-- The rule collector answers with no rule, and the attribute collector overruns its budget. -/
def attributeOverruns : List DecideEvent :=
  [DecideEvent.attributes .startLane, .rules .startLane, .attributes .job, .rules .job, .rules (.settle 0 (.ok []))]
    ++ List.replicate 7 (DecideEvent.rules .job) ++ [DecideEvent.attributes (.timeout 0)] ++
    List.replicate 5 (DecideEvent.attributes .job) ++
    [DecideEvent.rulesCollected, .attributesCollected, .joinRules, .joinAttributes, .proceed quietWorld]

theorem decide_fails_closed_timeout : ∃ s response,
    Machine.run (step pairConfig readOrder alice) (start pairConfig none) attributeOverruns = some s ∧
    s.settled = some (.ok response) ∧ response.decision.isAllow = false ∧ s.evaluated = [] ∧
    (s.logs.filter LogLine.isDecision).length = 1 ∧
    (s.observations.filter Observation.isDecision).length = 1 := by
  obtain ⟨s, hs, response, hsettled, he, hdeny⟩ : ∃ s,
      Machine.run (step pairConfig readOrder alice) (start pairConfig none) attributeOverruns =
        some s ∧ ∃ response, s.settled = some (.ok response) ∧ s.evaluated = [] ∧
        response.decision.isAllow = false := ⟨_, rfl, _, rfl, rfl, rfl⟩
  have h := (decide_fails_closed pairConfig readOrder alice none attributeOverruns s hs).1
  refine ⟨s, response, hs, hsettled, hdeny, he, ?_, ?_⟩
  · rw [h.reported, hsettled]
    rfl
  · rw [h.counted, hsettled]
    rfl

end Deciding

end PolicyVerifier.Server
