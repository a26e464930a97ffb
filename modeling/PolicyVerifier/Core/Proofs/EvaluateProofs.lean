import Mathlib.Tactic.Linarith
import PolicyVerifier.Core.Reference

/-!
# What the evaluator computes

One spec lemma for each function of the evaluator on rules that answer, and from them the decision
of a whole rule list.
-/

namespace PolicyVerifier.Core

open Js OrderedMap

/-! ## One rule -/

theorem race_acts (rule : AnyRule) (budget : RuleBudget) (remaining : ℚ) (call acts : Nat)
    (es : List RaceEvent) (r : Race) (s : EvalState) :
    race rule budget remaining call (List.replicate acts .act ++ es) r s =
      race rule budget remaining call es (Race.act^[acts] r) s := by
  induction acts generalizing r with
  | zero => rfl
  | succ n ih =>
    rw [List.replicate_succ, List.cons_append, race, ih, Function.iterate_succ_apply]

/-- No act of a rule aborts its signal. -/
@[simp] theorem own_act (r : Race) : r.act.own = r.own := by
  unfold Race.act
  split <;> rfl

theorem own_acts (acts : Nat) (r : Race) : (Race.act^[acts] r).own = r.own := by
  induction acts generalizing r with
  | zero => rfl
  | succ n ih => rw [Function.iterate_succ_apply, ih, own_act]

/-- An asynchronous rule that answers in time gives its result. -/
theorem runAsyncRule_done {world : World} {rule : AnyRule} {attrs : Attributes}
    {budget : RuleBudget} {result : RuleResult} (s : EvalState) (ha : isAsyncRule rule = true)
    (hans : Answers attrs rule result)
    (htime : InTime attrs rule budget.deadlineAt (world.turn s.asyncCalls rule)) :
    ∃ s', runAsyncRule world rule attrs budget s = (s', .done result) := by
  obtain ⟨hcaller, hnow, acts, rest, hevents, hsettled⟩ := htime
  obtain ⟨o, ho⟩ := Option.isSome_iff_exists.1 hsettled
  rw [Answers, if_pos ha] at hans
  obtain ⟨answer, rfl, hread⟩ := hans acts o ho
  have hleft : ¬ (budget.deadlineAt - (world.turn s.asyncCalls rule).now ≤ 0) :=
    not_le.2 (by linarith)
  simp only [runAsyncRule, hcaller, hleft, if_false, hevents, race_acts, race, ho, readAnswer, own_acts,
    hread]
  exact ⟨_, rfl⟩

/-- A rule of either kind that answers, in time when it is asynchronous, gives its result. -/
theorem askRule_done {world : World} {rule : AnyRule} {attrs : Attributes} {budget : RuleBudget}
    {result : RuleResult} (s : EvalState) (hans : Answers attrs rule result)
    (htime : isAsyncRule rule = true → ∀ call,
      InTime attrs rule budget.deadlineAt (world.turn call rule)) :
    ∃ s', askRule world rule attrs budget s = (s', .done result) := by
  by_cases ha : isAsyncRule rule = true
  · obtain ⟨s', hs'⟩ := runAsyncRule_done s ha hans (htime ha s.asyncCalls)
    exact ⟨s', by rw [askRule, if_pos ha, hs']⟩
  · rw [Answers, if_neg ha] at hans
    exact ⟨s.log (.verify rule), by rw [askRule, if_neg ha, verifyRule, hans]⟩

/-! ## One group -/

/-- The rules of a group that are asked: up to and including the first that passes. -/
def askedIn : List Answered → List Answered
  | [] => []
  | r :: rs => if r.passed then [r] else r :: askedIn rs

@[simp] theorem passed_of (ans : AnyRule → RuleResult) (rule : AnyRule) :
    (Answered.of ans rule).passed = (ans rule).passed := rfl

@[simp] theorem outcomeOf_eq (ans : AnyRule → RuleResult) (rule : AnyRule) :
    outcomeOf rule (ans rule) = (Answered.of ans rule).outcome := rfl

/-- The outcome of a group of answered rules. -/
def groupOutcome (ruleType : Str) (restricts : Bool) (group : List Answered) : RuleGroupOutcome :=
  { ruleType, evaluated := (askedIn group).map Answered.outcome,
    satisfiedBy := (group.find? Answered.passed).map Answered.outcome, restricts }

theorem groupOutcome_spec (ruleType : Str) (restricts : Bool) (group : List Answered) :
    IsGroupOutcome group (groupOutcome ruleType restricts group) := by
  by_cases h : ∃ r ∈ group, r.passed = true
  · obtain ⟨rule, hfind⟩ : ∃ rule, group.find? Answered.passed = some rule := by
      obtain ⟨r, hr, hp⟩ := h
      exact Option.isSome_iff_exists.1 (List.find?_isSome.2 ⟨r, hr, hp⟩)
    obtain ⟨hp, failing, rest, hsplit, hfail⟩ := List.find?_eq_some_iff_append.1 hfind
    have hfail' : ∀ r ∈ failing, r.passed = false := fun r hr => by simpa using hfail r hr
    have hasked : askedIn group = failing ++ [rule] := by
      rw [hsplit]
      clear hsplit hfind hfail
      induction failing with
      | nil => simp [askedIn, hp]
      | cons r rs ih =>
        have hr := hfail' r List.mem_cons_self
        simp [askedIn, hr, ih fun q hq => hfail' q (List.mem_cons_of_mem _ hq)]
    exact .passed failing rule rest hsplit hfail' hp (by simp [groupOutcome, hasked])
      (by simp [groupOutcome, hfind])
  · have hfail : ∀ r ∈ group, r.passed = false := fun r hr => by
      simpa using fun hp => h ⟨r, hr, hp⟩
    have hasked : askedIn group = group := by
      clear h
      induction group with
      | nil => rfl
      | cons r rs ih =>
        have hr := hfail r List.mem_cons_self
        simp [askedIn, hr, ih fun q hq => hfail q (List.mem_cons_of_mem _ hq)]
    have hfind : group.find? Answered.passed = none := by
      rw [List.find?_eq_none]
      intro r hr
      simp [hfail r hr]
    exact .failed hfail (by simp [groupOutcome, hasked]) (by simp [groupOutcome, hfind])

/-- The evaluator's group loop computes the group's outcome. -/
theorem evaluateGroup_done {world : World} {attrs : Attributes} {budget : RuleBudget}
    {ans : AnyRule → RuleResult} (ruleType : Str) (restricts : Bool) (rules : List AnyRule)
    (hans : ∀ r ∈ rules, Answers attrs r (ans r))
    (htime : ∀ r ∈ rules, isAsyncRule r = true → ∀ call,
      InTime attrs r budget.deadlineAt (world.turn call r))
    (evaluated : List RuleOutcome) (s : EvalState) :
    ∃ s', evaluateGroup world ruleType restricts attrs budget rules evaluated s =
      (s', .done { groupOutcome ruleType restricts (rules.map (Answered.of ans)) with
        evaluated := evaluated ++
          (askedIn (rules.map (Answered.of ans))).map Answered.outcome }) := by
  induction rules generalizing evaluated s with
  | nil => exact ⟨s, by simp [evaluateGroup, groupOutcome, askedIn]⟩
  | cons rule rules ih =>
    obtain ⟨s', hask⟩ := askRule_done s (hans rule List.mem_cons_self)
      (htime rule List.mem_cons_self)
    by_cases hp : (ans rule).passed = true
    · exact ⟨s', by simp [evaluateGroup, hask, hp, groupOutcome, askedIn]⟩
    · obtain ⟨s'', hrest⟩ := ih (fun r hr => hans r (List.mem_cons_of_mem _ hr))
        (fun r hr => htime r (List.mem_cons_of_mem _ hr))
        (evaluated ++ [outcomeOf rule (ans rule)]) s'
      rw [outcomeOf_eq] at hrest
      exact ⟨s'', by simp [evaluateGroup, hask, hp, hrest, groupOutcome, askedIn]⟩

/-! ## All groups -/

theorem evaluateGroups_done {world : World} {attrs : Attributes} {budget : RuleBudget}
    {ans : AnyRule → RuleResult} (types : List Str) (groups : List (Str × List AnyRule))
    (hans : ∀ g ∈ groups, ∀ r ∈ g.2, Answers attrs r (ans r))
    (htime : ∀ g ∈ groups, ∀ r ∈ g.2, isAsyncRule r = true → ∀ call,
      InTime attrs r budget.deadlineAt (world.turn call r)) (s : EvalState) :
    ∃ s', evaluateGroups world types attrs budget groups s =
      (s', .done (groups.map fun g =>
        groupOutcome g.1 (decide (g.1 ∈ types)) (g.2.map (Answered.of ans)))) := by
  induction groups generalizing s with
  | nil => exact ⟨s, rfl⟩
  | cons g groups ih =>
    obtain ⟨s', hg⟩ := evaluateGroup_done g.1 (decide (g.1 ∈ types)) g.2
      (hans g List.mem_cons_self) (htime g List.mem_cons_self) [] s
    obtain ⟨s'', hrest⟩ := ih (fun g' h => hans g' (List.mem_cons_of_mem _ h))
      (fun g' h => htime g' (List.mem_cons_of_mem _ h)) s'
    exact ⟨s'', by simp [evaluateGroups, hg, hrest, groupOutcome]⟩

/-- Where no group mixes the two kinds, the restricting groups are the ones that hold a restricting
rule, and nothing is recorded. -/
theorem restrictingGroups_done (groups : List (Str × List AnyRule)) (s : EvalState)
    (h : ∀ g ∈ groups, (∀ r ∈ g.2, isRestrictingRule r = true) ∨
      ∀ r ∈ g.2, isRestrictingRule r = false) :
    restrictingGroups groups s =
      (s, .done ((groups.filter fun g => g.2.any isRestrictingRule).map Prod.fst)) := by
  induction groups with
  | nil => rfl
  | cons g groups ih =>
    obtain ⟨ruleType, rules⟩ := g
    have hrest := ih fun g' hg' => h g' (List.mem_cons_of_mem _ hg')
    rcases h _ List.mem_cons_self with hall | hnone
    · have hlen : rules.filter isRestrictingRule = rules := List.filter_eq_self.2 hall
      have hany : rules.any isRestrictingRule = decide (0 < rules.length) := by
        cases rules with
        | nil => rfl
        | cons r rs => simp [hall r List.mem_cons_self]
      by_cases hpos : 0 < rules.length <;>
        simp [restrictingGroups, hlen, hrest, hany, hpos]
    · have hlen : rules.filter isRestrictingRule = [] := by
        rw [List.filter_eq_nil_iff]
        intro r hr
        simp [hnone r hr]
      have hany : rules.any isRestrictingRule = false := by
        rw [List.any_eq_false]
        intro r hr
        simp [hnone r hr]
      simp [restrictingGroups, hlen, hrest, hany]

/-! ## What a decision lists -/

/-- What a group says of its rules, whatever they answered: the last one asked passed and no earlier
one did, or every one of them was asked and none passed. -/
inductive ListsRules (rules : List AnyRule) (g : RuleGroupOutcome) : Prop where
  | passed (failed : List RuleOutcome) (last : RuleOutcome)
      (evaluated : g.evaluated = failed ++ [last]) (satisfiedBy : g.satisfiedBy = some last)
      (refused : ∀ o ∈ failed, o.passed = false) (passes : last.passed = true)
      (codes : g.evaluated.map RuleOutcome.code <+: rules.map AnyRule.code)
  | failed (satisfiedBy : g.satisfiedBy = none) (refused : ∀ o ∈ g.evaluated, o.passed = false)
      (codes : g.evaluated.map RuleOutcome.code = rules.map AnyRule.code)

theorem evaluateGroup_lists {world : World} {ruleType : Str} {restricts : Bool} {attrs : Attributes}
    {budget : RuleBudget} (asked : List AnyRule) {rules : List AnyRule}
    {evaluated : List RuleOutcome} {s s' : EvalState} {g : RuleGroupOutcome}
    (hcodes : evaluated.map RuleOutcome.code = asked.map AnyRule.code)
    (hrefused : ∀ o ∈ evaluated, o.passed = false)
    (h : evaluateGroup world ruleType restricts attrs budget rules evaluated s = (s', .done g)) :
    g.ruleType = ruleType ∧ g.restricts = restricts ∧ ListsRules (asked ++ rules) g := by
  induction rules generalizing asked evaluated s with
  | nil =>
    rw [evaluateGroup] at h
    obtain ⟨-, hg⟩ := Prod.mk.inj h
    obtain rfl := Outcome.done.inj hg
    exact ⟨rfl, rfl, .failed rfl hrefused (by rw [List.append_nil]; exact hcodes)⟩
  | cons rule rules ih =>
    rw [evaluateGroup] at h
    split at h
    · rename_i u result hask
      split at h
      · rename_i hpass
        obtain ⟨-, hg⟩ := Prod.mk.inj h
        obtain rfl := Outcome.done.inj hg
        refine ⟨rfl, rfl, .passed evaluated (outcomeOf rule result) rfl rfl hrefused hpass ?_⟩
        refine ⟨rules.map AnyRule.code, ?_⟩
        simp [hcodes, outcomeOf]
      · rename_i hfail
        have hrest := ih (asked ++ [rule]) (by simp [hcodes, outcomeOf])
          (fun o ho => ?_) h
        · rw [List.append_assoc] at hrest
          exact hrest
        · rcases List.mem_append.1 ho with ho | ho
          · exact hrefused o ho
          · obtain rfl := List.mem_singleton.1 ho
            exact Bool.eq_false_iff.2 hfail
    · exact absurd h (by simp)
    · exact absurd h (by simp)

theorem evaluateGroups_lists {world : World} {types : List Str} {attrs : Attributes}
    {budget : RuleBudget} {groups : List (Str × List AnyRule)} {s s' : EvalState}
    {outcomes : List RuleGroupOutcome}
    (h : evaluateGroups world types attrs budget groups s = (s', .done outcomes)) :
    List.Forall₂ (fun g o => o.ruleType = g.1 ∧ o.restricts = decide (g.1 ∈ types) ∧
      ListsRules g.2 o) groups outcomes := by
  induction groups generalizing s s' outcomes with
  | nil =>
    rw [evaluateGroups] at h
    obtain rfl := Outcome.done.inj (Prod.mk.inj h).2
    exact .nil
  | cons g groups ih =>
    rw [evaluateGroups] at h
    split at h
    · rename_i u outcome hgroup
      split at h
      · rename_i w rest hrest
        obtain rfl := Outcome.done.inj (Prod.mk.inj h).2
        exact .cons (evaluateGroup_lists [] rfl (by simp) hgroup) (ih hrest)
      · exact absurd h (by simp)
      · exact absurd h (by simp)
    · exact absurd h (by simp)
    · exact absurd h (by simp)

/-- A decision is the default deny, or what its groups come to, each saying what there is to say of
its rules. -/
theorem evaluate_lists {world : World} {attrs : Attributes} {rules : List AnyRule}
    {options : EvaluateOptions} {failures : FailureRecord} {s' : EvalState} {d : Decision}
    (h : evaluate world attrs rules options failures = (s', .done d)) :
    d = noApplicableRule ∨ ∃ outcomes, d = conclude outcomes ∧
      List.Forall₂ (fun g o => o.ruleType = g.1 ∧ ListsRules g.2 o)
        (groupBy AnyRule.ruleType rules).entries outcomes := by
  rw [evaluate] at h
  split at h
  · exact absurd h (by simp)
  · split at h
    · exact absurd h (by simp)
    · simp only [evaluateWithin] at h
      split at h
      · exact absurd h (by simp)
      · exact absurd h (by simp)
      · split at h
        · exact Or.inl (Outcome.done.inj (Prod.mk.inj h).2).symm
        · split at h
          · rename_i u outcomes hgroups
            obtain rfl := Outcome.done.inj (Prod.mk.inj h).2
            exact Or.inr ⟨outcomes, rfl,
              (evaluateGroups_lists hgroups).imp fun _ _ hg => ⟨hg.1, hg.2.2⟩⟩
          · exact absurd h (by simp)
          · exact absurd h (by simp)

end PolicyVerifier.Core
