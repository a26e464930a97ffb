import PolicyVerifier.Core.Proofs.EvaluateProofs

/-!
# The evaluator meets its reference semantics

On rules that answer in time the evaluator computes `referenceDecision`, a function of the answered
rules alone, and that function is the reference decision.
-/

namespace PolicyVerifier.Core

open Js OrderedMap

/-- The outcomes of the groups of a list of answered rules, in first-appearance order. -/
def referenceGroups (rules : List Answered) : List RuleGroupOutcome :=
  (firsts Answered.ruleType rules).map fun t =>
    groupOutcome t ((groupOf t rules).any Answered.restricts) (groupOf t rules)

/-- The decision the evaluator computes from the answered rules. -/
def referenceDecision (onEmptyRuleSet : Value) (rules : List Answered) : Decision :=
  if rules.all Answered.restricts = true ∧ onEmptyRuleSet ≠ .str (js "allow") then noApplicableRule
  else conclude (referenceGroups rules)

/-! ## The evaluator computes it -/

section

variable {ans : AnyRule → RuleResult} {rules : List AnyRule}

theorem firsts_answered (ans : AnyRule → RuleResult) (rules : List AnyRule) :
    firsts Answered.ruleType (rules.map (Answered.of ans)) = firsts AnyRule.ruleType rules := by
  simp only [firsts, List.map_map]
  rfl

theorem groupOf_answered (ans : AnyRule → RuleResult) (rules : List AnyRule) (t : Str) :
    groupOf t (rules.map (Answered.of ans)) =
      (rules.filter fun r => r.ruleType = t).map (Answered.of ans) := by
  simp only [groupOf, List.filter_map]
  rfl

/-- The groups of a list that mixes no group are of one kind each. -/
theorem group_kinds (hmix : NoMixedGroup rules) (g : Str × List AnyRule)
    (hg : g ∈ (groupBy AnyRule.ruleType rules).entries) :
    (∀ r ∈ g.2, isRestrictingRule r = true) ∨ ∀ r ∈ g.2, isRestrictingRule r = false := by
  rw [entries_groupBy] at hg
  obtain ⟨t, _, rfl⟩ := List.mem_map.1 hg
  have hmem : ∀ r ∈ rules.filter fun r => r.ruleType = t, r ∈ rules ∧ r.ruleType = t := by
    intro r hr
    simpa using List.mem_filter.1 hr
  by_cases hex : ∃ r ∈ rules.filter fun r => r.ruleType = t, isRestrictingRule r = true
  · obtain ⟨r, hr, hrestr⟩ := hex
    left
    intro q hq
    rw [hmix q (hmem q hq).1 r (hmem r hr).1 ((hmem q hq).2.trans (hmem r hr).2.symm)]
    exact hrestr
  · right
    intro r hr
    simpa using fun h => hex ⟨r, hr, h⟩

/-- Whether a group of the list restricts is whether it holds a restricting rule. -/
theorem mem_restrictingTypes (t : Str) :
    t ∈ ((groupBy AnyRule.ruleType rules).entries.filter fun g => g.2.any isRestrictingRule).map
        Prod.fst ↔ (rules.filter fun r => r.ruleType = t).any isRestrictingRule = true := by
  rw [entries_groupBy]
  constructor
  · intro h
    obtain ⟨g, hg, rfl⟩ := List.mem_map.1 h
    obtain ⟨hg, hany⟩ := List.mem_filter.1 hg
    obtain ⟨t', _, rfl⟩ := List.mem_map.1 hg
    exact hany
  · intro h
    obtain ⟨r, hr, _⟩ := List.any_eq_true.1 h
    have hr' : r ∈ rules ∧ r.ruleType = t := by simpa using List.mem_filter.1 hr
    refine List.mem_map.2 ⟨(t, rules.filter fun r => r.ruleType = t), ?_, rfl⟩
    refine List.mem_filter.2 ⟨List.mem_map.2 ⟨t, ?_, rfl⟩, h⟩
    exact (mem_firsts _ _ _).2 ⟨r, hr'.1, hr'.2⟩

/-- Some group grants exactly when some rule does. -/
theorem granting_iff (ans : AnyRule → RuleResult) (hmix : NoMixedGroup rules) :
    (((groupBy AnyRule.ruleType rules).entries.filter fun g => g.2.any isRestrictingRule).map
        Prod.fst).length < (groupBy AnyRule.ruleType rules).entries.length ↔
      ¬ (rules.map (Answered.of ans)).all Answered.restricts = true := by
  rw [List.length_map, List.length_filter_lt_length_iff_exists]
  constructor
  · rintro ⟨g, hg, hnone⟩ hall
    have hne := group_ne_nil _ _ (k := g.1) (g := g.2) hg
    rw [entries_groupBy] at hg
    obtain ⟨t, _, rfl⟩ := List.mem_map.1 hg
    obtain ⟨r, hr⟩ := List.exists_mem_of_ne_nil _ hne
    have hr' : r ∈ rules := (List.mem_filter.1 hr).1
    have hrestr : isRestrictingRule r = true := by
      have := List.all_eq_true.1 hall _ (List.mem_map_of_mem (f := Answered.of ans) hr')
      exact this
    exact hnone (List.any_eq_true.2 ⟨r, hr, hrestr⟩)
  · intro hall
    obtain ⟨r, hr, hgrant⟩ : ∃ r ∈ rules, isRestrictingRule r = false := by
      by_contra hcon
      refine hall (List.all_eq_true.2 fun a ha => ?_)
      obtain ⟨r, hr, rfl⟩ := List.mem_map.1 ha
      by_contra hf
      exact hcon ⟨r, hr, by simpa [Answered.of] using hf⟩
    refine ⟨(r.ruleType, rules.filter fun q => q.ruleType = r.ruleType), ?_, ?_⟩
    · rw [entries_groupBy]
      exact List.mem_map.2 ⟨r.ruleType, (mem_firsts _ _ _).2 ⟨r, hr, rfl⟩, rfl⟩
    · intro hany
      obtain ⟨q, hq, hrestr⟩ := List.any_eq_true.1 hany
      have hq' : q ∈ rules ∧ q.ruleType = r.ruleType := by simpa using List.mem_filter.1 hq
      rw [hmix q hq'.1 r hr hq'.2, hgrant] at hrestr
      exact Bool.noConfusion hrestr

/-- On rules that answer in time the evaluator computes the reference decision, and asks no rule
when none grants and the deployment did not opt out. -/
theorem evaluateWithin_done {world : World} {attrs : Attributes} (budget : RuleBudget)
    (onEmptyRuleSet : Value) (hmix : NoMixedGroup rules)
    (hans : ∀ r ∈ rules, Answers attrs r (ans r))
    (htime : ∀ r ∈ rules, isAsyncRule r = true → ∀ call,
      InTime attrs r budget.deadlineAt (world.turn call r)) (s : EvalState) :
    ∃ s', evaluateWithin world attrs rules onEmptyRuleSet budget s =
        (s', .done (referenceDecision onEmptyRuleSet (rules.map (Answered.of ans)))) ∧
      (rules.all isRestrictingRule = true → onEmptyRuleSet ≠ .str (js "allow") →
        s' = s) := by
  have hsplit := restrictingGroups_done (groupBy AnyRule.ruleType rules).entries s
    (group_kinds hmix)
  have hall : (rules.map (Answered.of ans)).all Answered.restricts = rules.all isRestrictingRule := by
    rw [List.all_map]
    rfl
  have hgrant := granting_iff ans hmix
  by_cases hempty : rules.all isRestrictingRule = true ∧ onEmptyRuleSet ≠ .str (js "allow")
  · have hno : ¬ (((groupBy AnyRule.ruleType rules).entries.filter fun g =>
        g.2.any isRestrictingRule).map Prod.fst).length <
          (groupBy AnyRule.ruleType rules).entries.length := by
      rw [hgrant, hall]
      exact not_not.2 hempty.1
    refine ⟨s, ?_, fun _ _ => rfl⟩
    rw [evaluateWithin, hsplit]
    simp only [hno, not_false_eq_true, hempty.2, ne_eq, and_self, if_true, referenceDecision, hall,
      hempty.1]
  · have hyes : ¬ (¬ (((groupBy AnyRule.ruleType rules).entries.filter fun g =>
        g.2.any isRestrictingRule).map Prod.fst).length <
          (groupBy AnyRule.ruleType rules).entries.length ∧ onEmptyRuleSet ≠ .str (js "allow")) := by
      rw [hgrant, hall, not_not]
      exact hempty
    have hmem : ∀ g ∈ (groupBy AnyRule.ruleType rules).entries, ∀ r ∈ g.2, r ∈ rules := by
      intro g hg r hr
      rw [entries_groupBy] at hg
      obtain ⟨t, _, rfl⟩ := List.mem_map.1 hg
      exact (List.mem_filter.1 hr).1
    obtain ⟨s', hs'⟩ := evaluateGroups_done
      (((groupBy AnyRule.ruleType rules).entries.filter fun g =>
        g.2.any isRestrictingRule).map Prod.fst) (groupBy AnyRule.ruleType rules).entries
      (fun g hg r hr => hans r (hmem g hg r hr)) (fun g hg r hr => htime r (hmem g hg r hr)) s
    have hgroups : ((groupBy AnyRule.ruleType rules).entries.map fun g => groupOutcome g.1
        (decide (g.1 ∈ ((groupBy AnyRule.ruleType rules).entries.filter fun g =>
          g.2.any isRestrictingRule).map Prod.fst)) (g.2.map (Answered.of ans))) =
        referenceGroups (rules.map (Answered.of ans)) := by
      rw [referenceGroups, firsts_answered]
      simp only [mem_restrictingTypes, groupOf_answered]
      rw [entries_groupBy, List.map_map]
      refine List.map_congr_left fun t _ => ?_
      simp only [Function.comp_apply, Bool.decide_eq_true, List.any_map]
      rfl
    refine ⟨s', ?_, fun h h' => absurd ⟨h, h'⟩ hempty⟩
    rw [evaluateWithin, hsplit]
    simp only [hyes, if_false, hs', hgroups, referenceDecision, hall, hempty]

end

/-! ## It is the reference decision -/

theorem passed_groupOutcome (t : Str) (restricts : Bool) (group : List Answered) :
    (groupOutcome t restricts group).passed = group.any Answered.passed := by
  rw [RuleGroupOutcome.passed, groupOutcome, Option.isSome_map, Bool.eq_iff_iff,
    List.find?_isSome, List.any_eq_true]

theorem conclude_isAllow (outcomes : List RuleGroupOutcome) :
    (conclude outcomes).isAllow = true ↔ ∀ o ∈ outcomes, o.passed = true := by
  rw [conclude]
  cases hfind : outcomes.find? fun group => !group.passed with
  | none =>
    have := List.find?_eq_none.1 hfind
    simp only [Decision.isAllow, true_iff]
    intro o ho
    simpa using this o ho
  | some o =>
    have hfail : o.passed = false := by simpa using List.find?_some hfind
    have hmem := List.mem_of_find?_eq_some hfind
    have hfalse : ¬ ∀ o ∈ outcomes, o.passed = true := fun h => by simp [h o hmem] at hfail
    cases hev : o.evaluated <;> simp only [hev, Decision.isAllow, Bool.false_eq_true, false_iff] <;>
      exact hfalse

theorem conclude_groups (outcomes : List RuleGroupOutcome) :
    (conclude outcomes).reason.groups = outcomes := by
  rw [conclude]
  cases outcomes.find? fun group => !group.passed with
  | none => rfl
  | some o => cases hev : o.evaluated <;> simp only [hev, Decision.reason]

/-- A rule that is asked first in a group is the group's first rule. -/
theorem askedIn_cons (first : Answered) (rest : List Answered) :
    ∃ more, askedIn (first :: rest) = first :: more := by
  by_cases h : first.passed = true
  · exact ⟨[], by simp [askedIn, h]⟩
  · exact ⟨askedIn rest, by simp [askedIn, h]⟩

theorem groupOf_ne_nil {t : Str} {rules : List Answered}
    (h : t ∈ firsts Answered.ruleType rules) : groupOf t rules ≠ [] := by
  obtain ⟨r, hr, ht⟩ := (mem_firsts _ _ _).1 h
  exact List.ne_nil_of_mem (List.mem_filter.2 ⟨hr, by simpa using ht⟩)

/-- A denial names the first rule of the first group in which none passes. -/
theorem conclude_denial {rules : List Answered} {code message : Str} {reason : DecisionReason}
    (h : conclude (referenceGroups rules) = .deny code message reason) :
    ∃ before t after first rest,
      firsts Answered.ruleType rules = before ++ t :: after ∧
      (∀ t' ∈ before, ∃ q ∈ groupOf t' rules, q.passed = true) ∧
      groupOf t rules = first :: rest ∧ (∀ q ∈ groupOf t rules, q.passed = false) ∧
      code = first.code ∧ message = first.message := by
  rw [conclude] at h
  cases hfind : (referenceGroups rules).find? fun group => !group.passed with
  | none => simp [hfind] at h
  | some o =>
    obtain ⟨hfail, pre, post, hsplit, hpre⟩ := List.find?_eq_some_iff_append.1 hfind
    obtain ⟨before, rest, hfirsts, hmapb, hmapr⟩ := List.map_eq_append_iff.1 hsplit
    obtain ⟨t, after, rfl, ho, _⟩ := List.map_eq_cons_iff.1 hmapr
    have hne : groupOf t rules ≠ [] := groupOf_ne_nil (hfirsts ▸ by simp)
    obtain ⟨first, more, hgroup⟩ := List.exists_cons_of_ne_nil hne
    have hnone : ∀ q ∈ groupOf t rules, q.passed = false := by
      rw [← ho] at hfail
      simpa [passed_groupOutcome] using hfail
    obtain ⟨later, hasked⟩ := askedIn_cons first more
    have hev : o.evaluated = first.outcome :: later.map Answered.outcome := by
      rw [← ho, groupOutcome, hgroup, hasked]
      rfl
    rw [hfind] at h
    simp only [hev, Decision.deny.injEq] at h
    refine ⟨before, t, after, first, more, hfirsts, ?_, hgroup, hnone, h.1.symm, h.2.1.symm⟩
    intro t' ht'
    have := hpre _ (hmapb ▸ List.mem_map_of_mem ht')
    simpa [passed_groupOutcome] using this

theorem applicable_iff (onEmptyRuleSet : Value) (rules : List Answered) :
    Applicable onEmptyRuleSet rules ↔
      ¬ (rules.all Answered.restricts = true ∧ onEmptyRuleSet ≠ .str (js "allow")) := by
  rw [Applicable, not_and_or, not_not]
  simp

/-- `referenceDecision` has every property the reference decision is to have. -/
theorem referenceDecision_spec (onEmptyRuleSet : Value) (rules : List Answered) :
    ReferenceDecision onEmptyRuleSet rules (referenceDecision onEmptyRuleSet rules) := by
  have happ := applicable_iff onEmptyRuleSet rules
  have hyes : Applicable onEmptyRuleSet rules →
      referenceDecision onEmptyRuleSet rules = conclude (referenceGroups rules) := fun h => by
    rw [referenceDecision, if_neg (happ.1 h)]
  have hno : ¬ Applicable onEmptyRuleSet rules →
      referenceDecision onEmptyRuleSet rules = noApplicableRule := fun h => by
    rw [referenceDecision, if_pos (not_not.1 fun hn => h (happ.2 hn))]
  refine ⟨?_, hno, ?_, ?_⟩
  · by_cases h : Applicable onEmptyRuleSet rules
    · rw [hyes h, conclude_isAllow]
      simp only [h, true_and, referenceGroups, List.mem_map, forall_exists_index, and_imp,
        forall_apply_eq_imp_iff₂, passed_groupOutcome, List.any_eq_true]
      constructor
      · intro hall r hr
        obtain ⟨q, hq, hp⟩ := hall r.ruleType ((mem_firsts _ _ _).2 ⟨r, hr, rfl⟩)
        obtain ⟨hq, ht⟩ := List.mem_filter.1 hq
        exact ⟨q, hq, by simpa using ht, hp⟩
      · intro hall t ht
        obtain ⟨r, hr, rfl⟩ := (mem_firsts _ _ _).1 ht
        obtain ⟨q, hq, hqt, hp⟩ := hall r hr
        exact ⟨q, List.mem_filter.2 ⟨hq, by simpa using hqt⟩, hp⟩
    · rw [hno h]
      simp [noApplicableRule, Decision.isAllow, h]
  · intro h
    rw [hyes h, conclude_groups, referenceGroups, List.forall₂_map_right_iff]
    exact List.forall₂_same.2 fun t _ => ⟨rfl, rfl, groupOutcome_spec t _ _⟩
  · intro h code message reason hd
    exact conclude_denial (hyes h ▸ hd)

/-! ## The evaluator -/

/-- Whether a list mixes a group can be read off its rules as a decision sees them. -/
theorem NoMixedGroup.of_answered {rules rules' : List AnyRule} {ans ans' : AnyRule → RuleResult}
    (hmix : NoMixedGroup rules)
    (h : rules'.map (Answered.of ans') = rules.map (Answered.of ans)) : NoMixedGroup rules' := by
  have hview : ∀ r ∈ rules', ∃ q ∈ rules, q.ruleType = r.ruleType ∧
      isRestrictingRule q = isRestrictingRule r := by
    intro r hr
    have hmem : Answered.of ans' r ∈ rules.map (Answered.of ans) := h ▸ List.mem_map_of_mem hr
    obtain ⟨q, hq, he⟩ := List.mem_map.1 hmem
    exact ⟨q, hq, congrArg Answered.ruleType he, congrArg Answered.restricts he⟩
  intro r hr q hq ht
  obtain ⟨r', hr', hrt, hrk⟩ := hview r hr
  obtain ⟨q', hq', hqt, hqk⟩ := hview q hq
  rw [← hrk, ← hqk]
  exact hmix r' hr' q' hq' (by rw [hrt, hqt, ht])

/-- Rules that all answer a boolean in time, no group mixed: the evaluator gives the reference
decision, asks no rule when none applies, and gives the same decision for any other rules, of either
kind, that are named alike and answer alike. -/
theorem evaluate_meets_reference (world : World) (attrs : Attributes) (rules : List AnyRule)
    (options : EvaluateOptions) (failures : FailureRecord) (ans : AnyRule → RuleResult)
    (ruleTimeoutMs deadlineMs : Nat)
    (hrule : resolveRuleTimeoutMs options.ruleTimeoutMs = .ok ruleTimeoutMs)
    (hdeadline : resolveEvaluateDeadlineMs options.evaluateDeadlineMs = .ok deadlineMs)
    (hmix : NoMixedGroup rules) (hans : ∀ r ∈ rules, Answers attrs r (ans r))
    (htime : ∀ r ∈ rules, isAsyncRule r = true → ∀ call,
      InTime attrs r (world.startedAt + deadlineMs) (world.turn call r)) :
    ∃ d, (evaluate world attrs rules options failures).2 = .done d ∧
      ReferenceDecision options.onEmptyRuleSet (rules.map (Answered.of ans)) d ∧
      (¬ Applicable options.onEmptyRuleSet (rules.map (Answered.of ans)) →
        (evaluate world attrs rules options failures).1.trace = []) ∧
      ∀ (world' : World) (rules' : List AnyRule) (ans' : AnyRule → RuleResult)
        (failures' : FailureRecord), rules'.map (Answered.of ans') = rules.map (Answered.of ans) →
        (∀ r ∈ rules', Answers attrs r (ans' r)) →
        (∀ r ∈ rules', isAsyncRule r = true → ∀ call,
          InTime attrs r (world'.startedAt + deadlineMs) (world'.turn call r)) →
        (evaluate world' attrs rules' options failures').2 = .done d := by
  have heval : ∀ w fs rs, evaluate w attrs rs options fs = evaluateWithin w attrs rs
      options.onEmptyRuleSet { ruleTimeoutMs, deadlineMs, deadlineAt := w.startedAt + deadlineMs }
      { failures := fs } := by
    intro w fs rs
    simp only [evaluate, hrule, hdeadline]
  obtain ⟨s', hdone, hasked⟩ := evaluateWithin_done
    ⟨ruleTimeoutMs, deadlineMs, world.startedAt + deadlineMs⟩ options.onEmptyRuleSet hmix hans htime { failures }
  refine ⟨_, by rw [heval, hdone], referenceDecision_spec _ _, ?_, ?_⟩
  · intro hno
    have hempty := not_not.1 fun h => hno ((applicable_iff _ _).2 h)
    have hall : rules.all isRestrictingRule = true := by
      have h := hempty.1
      rw [List.all_map] at h
      exact h
    rw [heval, hdone, hasked hall hempty.2]
  · intro world' rules' ans' failures' hviews hans' htime'
    obtain ⟨s'', hdone', _⟩ := evaluateWithin_done
      ⟨ruleTimeoutMs, deadlineMs, world'.startedAt + deadlineMs⟩ options.onEmptyRuleSet
      (hmix.of_answered hviews) hans' htime' { failures := failures' }
    rw [heval, hdone', hviews]

/-- A granting rule of either kind that answers at once. -/
def promptRule (ruleType code : Str) (async answer : Bool) : AnyRule :=
  { ruleType, code, message := code, async := if async then .bool true else .undefined,
    verify := fun _ => { answer := .ok (.bool answer) },
    decide := fun _ => [.settle (.ok (.bool answer))] }

theorem promptRule_answers (attrs : Attributes) (ruleType code : Str) (async answer : Bool) :
    Answers attrs (promptRule ruleType code async answer) { passed := answer } := by
  cases async with
  | false => exact rfl
  | true =>
    intro acts o ho
    cases acts with
    | zero => simp at ho
    | succ n =>
      rw [Function.iterate_succ_apply] at ho ⊢
      have hfix : ∀ r : Race, r.acts = [] → Race.act^[n] r = r := fun r hr =>
        Function.iterate_fixed (by rw [Race.act, hr]) n
      rw [hfix _ rfl] at ho ⊢
      exact ⟨.bool answer, (Option.some.inj ho).symm, rfl⟩

/-- A world in which every asynchronous rule settles in its first turn. -/
def promptWorld : World :=
  { startedAt := 0, turn := fun _ _ => { now := 0, events := [.act, .answerJob] } }

/-- A synchronous rule that fails and an asynchronous one of the same group that passes. -/
theorem evaluate_meets_reference_two_kinds :
    ∃ d, (evaluate promptWorld OrderedMap.empty
        [promptRule (js "role") (js "editor") false false,
          promptRule (js "role") (js "owner") true true] {} {}).2 = .done d ∧ d.isAllow = true := by
  obtain ⟨d, hd, href, _⟩ := evaluate_meets_reference promptWorld OrderedMap.empty
    [promptRule (js "role") (js "editor") false false,
      promptRule (js "role") (js "owner") true true] {} {}
    (fun r => { passed := decide (r.code = js "owner") }) 2000 5000 rfl rfl
    (by
      intro r hr q hq _
      simp only [List.mem_cons, List.not_mem_nil, or_false] at hr hq
      rcases hr with rfl | rfl <;> rcases hq with rfl | rfl <;> rfl)
    (by
      intro r hr
      simp only [List.mem_cons, List.not_mem_nil, or_false] at hr
      rcases hr with rfl | rfl
      · exact promptRule_answers _ _ _ _ _
      · exact promptRule_answers _ _ _ _ _)
    (by
      intro r hr ha call
      simp only [List.mem_cons, List.not_mem_nil, or_false] at hr
      rcases hr with rfl | rfl
      · exact absurd ha (by decide)
      · exact ⟨rfl, by norm_num [promptWorld], 1, [], rfl, rfl⟩)
  refine ⟨d, hd, href.allow_iff.2 ⟨Or.inl ⟨_, List.mem_cons_self, rfl⟩, ?_⟩⟩
  intro r hr
  have hr' : r.ruleType = js "role" := by
    simp only [List.map_cons, List.map_nil, List.mem_cons, List.not_mem_nil, or_false] at hr
    rcases hr with rfl | rfl <;> rfl
  exact ⟨_, List.mem_cons_of_mem _ List.mem_cons_self, hr'.symm, rfl⟩

end PolicyVerifier.Core
