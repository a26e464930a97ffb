import Mathlib.Logic.Function.Iterate
import PolicyVerifier.Core.CollectorLimits
import PolicyVerifier.Js.Proofs.JsonProofs
import PolicyVerifier.Lib.Grouping

/-!
# What a failure record holds

The first source recorded for a value stands. The evaluator records at most the value it ends with, under
the names of the rule that raised it; a collector's name says its pipeline and its position.
-/

namespace PolicyVerifier.Core

open Js

/-! ## Recording -/

namespace FailureRecord

theorem get?_record (r : FailureRecord) (error : Thrown) (source : FailureSource) (k : Thrown) :
    (r.record error source).sources.get? k =
      (r.sources.get? k).or (if error.key = k then some source else none) := by
  unfold record
  split
  · rename_i hhas
    by_cases hk : error.key = k
    · subst hk
      obtain ⟨first, hfirst⟩ := Option.isSome_iff_exists.1 hhas
      rw [hfirst]
      rfl
    · rw [if_neg hk, Option.or_none]
  · rename_i hhas
    have hnone : r.sources.get? error.key = none := by
      unfold OrderedMap.has at hhas
      exact Option.not_isSome_iff_eq_none.1 hhas
    show (r.sources.set error.key source).get? k = _
    rw [OrderedMap.get?_set]
    by_cases hk : error.key = k
    · subst hk
      rw [if_pos rfl, if_pos rfl, hnone]
      rfl
    · rw [if_neg hk, if_neg hk, Option.or_none]

end FailureRecord

/-! ## What the evaluator records -/

/-- The value is one the rule raises: what it throws, what its answer comes to after some of its acts,
the error of its budget, or what a group is refused with that mixes it with the other kind. -/
inductive Raised (rule : AnyRule) (attrs : Attributes) : Thrown → Prop where
  | verify (e : Thrown) (h : readRun (rule.verify attrs) = .error e) : Raised rule attrs e
  | rejected (e : Thrown) (acts : Nat)
      (h : (Race.act^[acts] { acts := rule.decide attrs }).settled = some (.error e)) :
      Raised rule attrs e
  | refused (e : Thrown) (acts : Nat) (answer : Value)
      (hs : (Race.act^[acts] { acts := rule.decide attrs }).settled = some (.ok answer))
      (h : (Race.act^[acts] { acts := rule.decide attrs }).invocation.conclude answer = .error e) :
      Raised rule attrs e
  | expired (budget : RuleBudget) (remaining : ℚ) (call : Nat) (started : Bool) :
      Raised rule attrs (expired rule budget remaining call started)
  | mixed : Raised rule attrs mixedGroup

/-- A run recorded nothing, or it ended with what it recorded: a value one of the rules raised, under
the rule's own names. -/
def Recorded {α : Type} (rules : List AnyRule) (attrs : Attributes) (r : FailureRecord)
    (run : EvalState × Outcome α) : Prop :=
  run.1.failures = r ∨ ∃ e, run.2 = .threw e ∧
    ∃ rule ∈ rules, Raised rule attrs e ∧ run.1.failures = r.record e (ruleSource rule)

namespace Recorded

variable {α : Type} {rules : List AnyRule} {attrs : Attributes} {r : FailureRecord}

theorem mono {more : List AnyRule} {run : EvalState × Outcome α} (h : Recorded rules attrs r run)
    (hsub : ∀ rule ∈ rules, rule ∈ more) : Recorded more attrs r run := by
  rcases h with h | ⟨e, he, rule, hrule, hraised, hrecord⟩
  · exact Or.inl h
  · exact Or.inr ⟨e, he, rule, hsub rule hrule, hraised, hrecord⟩

/-- A run that answered recorded nothing. -/
theorem done {s : EvalState} {a : α} (h : Recorded rules attrs r (s, .done a)) : s.failures = r := by
  rcases h with h | ⟨e, he, -⟩
  · exact h
  · exact absurd he (by simp)

/-- A run that ends as another did, on what it recorded. -/
theorem threw {β : Type} {s : EvalState} {e : Thrown}
    (h : Recorded rules attrs r ((s, .threw e) : EvalState × Outcome α)) :
    Recorded rules attrs r ((s, .threw e) : EvalState × Outcome β) := by
  rcases h with h | ⟨e', he, hrule⟩
  · exact Or.inl h
  · obtain rfl := Outcome.threw.inj he
    exact Or.inr ⟨e, rfl, hrule⟩

theorem pending {β : Type} {s : EvalState}
    (h : Recorded rules attrs r ((s, .pending) : EvalState × Outcome α)) :
    Recorded rules attrs r ((s, .pending) : EvalState × Outcome β) := by
  rcases h with h | ⟨e, he, -⟩
  · exact Or.inl h
  · exact absurd he (by simp)

end Recorded

section Evaluate

variable {world : World} {attrs : Attributes} {budget : RuleBudget}

theorem act_own (r : Race) (own : Option Thrown) :
    Race.act { r with own } = { r.act with own } := by
  unfold Race.act
  dsimp only
  split <;> rfl

theorem readAnswer_recorded {rule : AnyRule} {r : Race} {acts : Nat} {own : Option Thrown}
    (hr : r = { Race.act^[acts] { acts := rule.decide attrs } with own })
    {o : Except Thrown Value} (ho : r.settled = some o) (s : EvalState) :
    Recorded [rule] attrs s.failures (readAnswer rule r o s) := by
  unfold readAnswer
  split
  · exact Or.inl rfl
  · dsimp only
    split
    · exact Or.inl rfl
    · rename_i e he
      refine Or.inr ⟨e, rfl, rule, by simp, ?_, rfl⟩
      subst hr
      cases o with
      | ok answer => exact .refused e acts answer ho he
      | error e' =>
        obtain rfl := Except.error.inj he
        exact .rejected e' acts ho

/-- Whatever the caller's signal did to the race, the rule is where its acts brought it. -/
theorem race_recorded (rule : AnyRule) (budget : RuleBudget) (remaining : ℚ) (call : Nat)
    (es : List RaceEvent) {r : Race} {acts : Nat} {own : Option Thrown}
    (hr : r = { Race.act^[acts] { acts := rule.decide attrs } with own }) (s : EvalState) :
    Recorded [rule] attrs s.failures (race rule budget remaining call es r s) := by
  induction es generalizing r acts own with
  | nil => exact Or.inl rfl
  | cons e es ih =>
    cases e with
    | act =>
      have hact : r.act = { Race.act^[acts + 1] { acts := rule.decide attrs } with own := own } := by
        rw [hr, act_own, Function.iterate_succ_apply']
      exact ih hact
    | answerJob =>
      rw [race]
      split
      · exact ih hr
      · rename_i o ho
        exact readAnswer_recorded hr ho s
    | timeout =>
      rw [race]
      split
      · exact Or.inr ⟨_, rfl, rule, by simp, .expired budget remaining call true, rfl⟩
      · exact ih hr
    | callerAbort reason =>
      rw [race]
      split
      · exact Or.inl rfl
      · have hown : { r with own := r.own.or (some reason) } =
            { Race.act^[acts] { acts := rule.decide attrs } with own := r.own.or (some reason) } := by
          rw [hr]
        exact ih hown
    | abortJob =>
      rw [race]
      split
      · exact ih hr
      · exact Or.inl rfl

theorem askRule_recorded (rule : AnyRule) (s : EvalState) :
    Recorded [rule] attrs s.failures (askRule world rule attrs budget s) := by
  unfold askRule
  split
  · unfold runAsyncRule
    dsimp only
    split
    · exact Or.inl rfl
    split
    · exact Or.inr ⟨_, rfl, rule, by simp, .expired budget _ s.asyncCalls false, rfl⟩
    · set started : EvalState := EvalState.log { s with asyncCalls := s.asyncCalls + 1 } (.start rule
        (if budget.deadlineAt - (world.turn s.asyncCalls rule).now < budget.ruleTimeoutMs then
          budget.deadlineAt - (world.turn s.asyncCalls rule).now else budget.ruleTimeoutMs))
      have hstart : ({ acts := rule.decide attrs } : Race) =
          { Race.act^[0] { acts := rule.decide attrs } with own := none } := rfl
      have hrace : Recorded [rule] attrs started.failures (race rule budget
          (budget.deadlineAt - (world.turn s.asyncCalls rule).now) s.asyncCalls
          (world.turn s.asyncCalls rule).events { acts := rule.decide attrs } started) :=
        race_recorded rule budget _ s.asyncCalls _ hstart started
      split
      · rename_i s' hs'
        rw [hs'] at hrace
        exact hrace
      · rename_i s' settled _ hs'
        rw [hs'] at hrace
        exact hrace
  · unfold verifyRule
    split
    · exact Or.inl rfl
    · rename_i e he
      exact Or.inr ⟨e, rfl, rule, by simp, .verify e he, rfl⟩

theorem evaluateGroup_recorded {ruleType : Str} {restricts : Bool} (rules : List AnyRule)
    (evaluated : List RuleOutcome) (s : EvalState) :
    Recorded rules attrs s.failures
      (evaluateGroup world ruleType restricts attrs budget rules evaluated s) := by
  induction rules generalizing evaluated s with
  | nil => exact Or.inl rfl
  | cons rule rules ih =>
    have hask : Recorded (rule :: rules) attrs s.failures (askRule world rule attrs budget s) := by
      refine (askRule_recorded rule s).mono fun other hother => ?_
      rw [List.mem_singleton.1 hother]
      exact List.mem_cons_self
    rw [evaluateGroup]
    split
    · rename_i s' result hs'
      rw [hs'] at hask
      dsimp only
      split
      · exact Or.inl hask.done
      · have hrest := ih (evaluated ++ [outcomeOf rule result]) s'
        rw [hask.done] at hrest
        exact hrest.mono fun other hother => List.mem_cons_of_mem _ hother
    · rename_i s' e hs'
      rw [hs'] at hask
      exact hask.threw
    · rename_i s' hs'
      rw [hs'] at hask
      exact hask.pending

theorem evaluateGroups_recorded {types : List Str} {rules : List AnyRule}
    {groups : List (Str × List AnyRule)} (hgroups : ∀ g ∈ groups, ∀ rule ∈ g.2, rule ∈ rules)
    (s : EvalState) :
    Recorded rules attrs s.failures (evaluateGroups world types attrs budget groups s) := by
  induction groups generalizing s with
  | nil => exact Or.inl rfl
  | cons g groups ih =>
    obtain ⟨ruleType, groupRules⟩ := g
    have hgroup : Recorded rules attrs s.failures (evaluateGroup world ruleType
        (decide (ruleType ∈ types)) attrs budget groupRules [] s) :=
      (evaluateGroup_recorded groupRules [] s).mono (hgroups _ List.mem_cons_self)
    rw [evaluateGroups]
    split
    · rename_i s' outcome hs'
      rw [hs'] at hgroup
      have hrest := ih (fun g hg => hgroups g (List.mem_cons_of_mem _ hg)) s'
      rw [hgroup.done] at hrest
      split
      · rename_i s'' outcomes hs''
        rw [hs''] at hrest
        exact Or.inl hrest.done
      · rename_i s'' e hs''
        rw [hs''] at hrest
        exact hrest.threw
      · rename_i s'' hs''
        rw [hs''] at hrest
        exact hrest.pending
    · rename_i s' e hs'
      rw [hs'] at hgroup
      exact hgroup.threw
    · rename_i s' hs'
      rw [hs'] at hgroup
      exact hgroup.pending

/-- A mixed group is recorded under the names of its first rule: its key is the rule's type. -/
theorem restrictingGroups_recorded {rules : List AnyRule} {groups : List (Str × List AnyRule)}
    (hgroups : ∀ g ∈ groups, ∀ rule ∈ g.2, rule ∈ rules ∧ rule.ruleType = g.1) (s : EvalState) :
    Recorded rules attrs s.failures (restrictingGroups groups s) := by
  induction groups generalizing s with
  | nil => exact Or.inl rfl
  | cons g groups ih =>
    obtain ⟨ruleType, groupRules⟩ := g
    have hrest := ih (fun g hg => hgroups g (List.mem_cons_of_mem _ hg)) s
    rw [restrictingGroups]
    dsimp only
    split
    · rename_i hmixed
      cases groupRules with
      | nil => exact absurd hmixed.2 (by simp)
      | cons first others =>
        obtain ⟨hfirst, htype⟩ := hgroups _ List.mem_cons_self first List.mem_cons_self
        have hsource : ruleSource first = .rule ruleType
            (((first :: others).head?.map AnyRule.code).getD []) := by
          rw [ruleSource, htype]
          rfl
        rw [← hsource]
        exact Or.inr ⟨mixedGroup, rfl, first, hfirst, .mixed, rfl⟩
    · split
      · rename_i s' types hs'
        rw [hs'] at hrest
        exact Or.inl hrest.done
      · rename_i s' refused _ hs'
        rw [hs'] at hrest
        exact hrest

theorem evaluateWithin_recorded (rules : List AnyRule) (onEmptyRuleSet : Value) (s : EvalState) :
    Recorded rules attrs s.failures (evaluateWithin world attrs rules onEmptyRuleSet budget s) := by
  have hmixed : Recorded rules attrs s.failures
      (restrictingGroups (OrderedMap.groupBy AnyRule.ruleType rules).entries s) :=
    restrictingGroups_recorded (fun g hg rule hrule => OrderedMap.mem_group AnyRule.ruleType rules hg hrule) s
  unfold evaluateWithin
  dsimp only
  split
  · rename_i s' e hs'
    rw [hs'] at hmixed
    exact hmixed.threw
  · rename_i s' hs'
    rw [hs'] at hmixed
    exact hmixed.pending
  · rename_i s' types hs'
    rw [hs'] at hmixed
    split
    · exact Or.inl hmixed.done
    have hgroups : Recorded rules attrs s'.failures (evaluateGroups world types attrs budget
        (OrderedMap.groupBy AnyRule.ruleType rules).entries s') :=
      evaluateGroups_recorded (fun g hg rule hrule => (OrderedMap.mem_group AnyRule.ruleType rules hg hrule).1) s'
    rw [hmixed.done] at hgroups
    split
    · rename_i s'' outcomes hs''
      rw [hs''] at hgroups
      exact Or.inl hgroups.done
    · rename_i s'' e hs''
      rw [hs''] at hgroups
      exact hgroups.threw
    · rename_i s'' hs''
      rw [hs''] at hgroups
      exact hgroups.pending

/-- The evaluator records at most the value it ends with, when one of its rules raised it. -/
theorem evaluate_recorded (world : World) (attrs : Attributes) (rules : List AnyRule)
    (options : EvaluateOptions) (failures : FailureRecord) :
    Recorded rules attrs failures (evaluate world attrs rules options failures) := by
  unfold evaluate
  split
  · exact Or.inl rfl
  split
  · exact Or.inl rfl
  · exact evaluateWithin_recorded rules options.onEmptyRuleSet { failures }

end Evaluate

/-! ## The name of a collector -/

theorem describeCollector_eq (className : Value) (i : Nat) (p : CollectorPipeline) :
    ∃ suffix, describeCollector className i p =
      p.name ++ (js ".collectors" ++ (js "[" ++ (decimal i ++ (js "]" ++ suffix)))) := by
  have hposition : p.name ++ js ".collectors[" ++ decimal i ++ js "]" =
      p.name ++ (js ".collectors" ++ (js "[" ++ (decimal i ++ js "]"))) := by
    rw [show js ".collectors[" = js ".collectors" ++ js "[" from rfl]
    simp only [List.append_assoc]
  unfold describeCollector
  dsimp only
  split
  · rename_i name
    split
    · exact ⟨js " (" ++ name ++ js ")", by rw [hposition]; simp only [List.append_assoc]⟩
    · exact ⟨[], by rw [hposition, List.append_nil]⟩
  · exact ⟨[], by rw [hposition, List.append_nil]⟩

/-- The words for the two pipelines begin with different letters. -/
theorem pipeline_of_name {p q : CollectorPipeline} {u v : Str} (h : p.name ++ u = q.name ++ v) :
    p = q ∧ u = v := by
  have hattribute : ∃ rest, CollectorPipeline.attributes.name = 0x61 :: rest := ⟨_, rfl⟩
  have hrule : ∃ rest, CollectorPipeline.rules.name = 0x72 :: rest := ⟨_, rfl⟩
  obtain ⟨letters, hattribute⟩ := hattribute
  obtain ⟨others, hrule⟩ := hrule
  cases p with
  | attributes =>
    cases q with
    | attributes => exact ⟨rfl, List.append_cancel_left h⟩
    | rules =>
      rw [hattribute, hrule] at h
      exact absurd (List.cons.inj h).1 (by decide)
  | rules =>
    cases q with
    | attributes =>
      rw [hattribute, hrule] at h
      exact absurd (List.cons.inj h).1 (by decide)
    | rules => exact ⟨rfl, List.append_cancel_left h⟩

/-- The name of a collector says its pipeline and its position. -/
theorem describeCollector_inj {c d : Value} {i j : Nat} {p q : CollectorPipeline}
    (h : describeCollector c i p = describeCollector d j q) : p = q ∧ i = j := by
  obtain ⟨u, hu⟩ := describeCollector_eq c i p
  obtain ⟨v, hv⟩ := describeCollector_eq d j q
  rw [hu, hv] at h
  obtain ⟨hpipeline, h⟩ := pipeline_of_name h
  have hends : ∀ suffix : Str, Json.EndsNumber (js "]" ++ suffix) := by
    intro suffix c hc
    rw [show (js "]" ++ suffix).head? = some 0x5D from rfl] at hc
    rw [← Option.mem_some.1 hc]
    decide
  exact ⟨hpipeline, (Json.decimal_append_inj (hends u) (hends v)
    (List.append_cancel_left (List.append_cancel_left h))).1⟩

/-- It is no name of a whole list. -/
theorem describeCollector_ne_list (c : Value) (i : Nat) (p q : CollectorPipeline) :
    describeCollector c i p ≠ q.name ++ js ".collectors" := by
  intro h
  obtain ⟨u, hu⟩ := describeCollector_eq c i p
  rw [hu] at h
  obtain ⟨-, h⟩ := pipeline_of_name h
  have hnil := List.append_cancel_left (h.trans (List.append_nil _).symm)
  exact absurd hnil (by simp [js, units])

end PolicyVerifier.Core
