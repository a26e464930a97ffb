import PolicyVerifier.Core.Proofs.ReferenceProofs
import PolicyVerifier.Core.Proofs.RulePhaseProofs

/-!
# A group that only restricts

A rule whose type no other rule has, that restricts and answers at once, is a group of its own: with it
the decision is an allow exactly when it is one without it and the rule passes. The other rules may read
other attributes on the two sides, as long as they answer alike; what any of them throws, or never
answers, it does on both sides.
-/

namespace PolicyVerifier.Core

open Js OrderedMap

/-- The evaluation came to an allow. -/
def Allows (run : EvalState × Outcome Decision) : Prop :=
  ∃ d, run.2 = .done d ∧ d.isAllow = true

/-- Every group was evaluated, and every one passed. -/
def AllPass (run : EvalState × Outcome (List RuleGroupOutcome)) : Prop :=
  ∃ outcomes, run.2 = .done outcomes ∧ ∀ g ∈ outcomes, g.passed = true

/-- Two runs that came to the same, with as many asynchronous calls made. -/
def SameRun {α : Type} (run run' : EvalState × Outcome α) : Prop :=
  run'.2 = run.2 ∧ run'.1.asyncCalls = run.1.asyncCalls

/-- The rule does the same on two attribute maps. -/
def SameOn (attrs attrs' : Attributes) (rule : AnyRule) : Prop :=
  rule.verify attrs' = rule.verify attrs ∧ rule.decide attrs' = rule.decide attrs

section Same

variable (world : World) (budget : RuleBudget) {attrs attrs' : Attributes}

theorem readAnswer_outcome (rule : AnyRule) (r : Race) (o : Except Thrown Value) (s s' : EvalState) :
    (readAnswer rule r o s').2 = (readAnswer rule r o s).2 := by
  unfold readAnswer
  split
  · rfl
  · dsimp only
    split
    · rfl
    · rfl

/-- What a race comes to does not hang on what was done before it. -/
theorem race_outcome (rule : AnyRule) (budget : RuleBudget) (remaining : ℚ) (call : Nat)
    (es : List RaceEvent) (r : Race) (s s' : EvalState) :
    (race rule budget remaining call es r s').2 = (race rule budget remaining call es r s).2 := by
  induction es generalizing r with
  | nil => rfl
  | cons e es ih =>
    cases e with
    | act =>
      rw [race, race]
      exact ih r.act
    | answerJob =>
      rw [race, race]
      split
      · exact ih r
      · exact readAnswer_outcome rule r _ s s'
    | timeout =>
      rw [race, race]
      split
      · rfl
      · exact ih r
    | callerAbort reason =>
      rw [race, race]
      split
      · rfl
      · exact ih _
    | abortJob =>
      rw [race, race]
      split
      · exact ih r
      · rfl

theorem askRule_same {rule : AnyRule} (hrule : SameOn attrs attrs' rule) {s s' : EvalState}
    (hs : s'.asyncCalls = s.asyncCalls) :
    SameRun (askRule world rule attrs budget s) (askRule world rule attrs' budget s') := by
  obtain ⟨hverify, hdecide⟩ := hrule
  unfold askRule
  split
  · unfold runAsyncRule
    dsimp only
    rw [hs, hdecide]
    split
    · exact ⟨rfl, rfl⟩
    split
    · exact ⟨rfl, rfl⟩
    · set remaining := budget.deadlineAt - (world.turn s.asyncCalls rule).now
      set timerMs := if remaining < budget.ruleTimeoutMs then remaining else budget.ruleTimeoutMs
      set started : EvalState := EvalState.log { s with asyncCalls := s.asyncCalls + 1 }
        (.start rule timerMs) with hstarted
      set started' : EvalState := EvalState.log { s' with asyncCalls := s.asyncCalls + 1 }
        (.start rule timerMs) with hstarted'
      have hcalls : started'.asyncCalls = started.asyncCalls := by rw [hstarted, hstarted']; rfl
      have houtcome := race_outcome rule budget remaining s.asyncCalls
        (world.turn s.asyncCalls rule).events { acts := rule.decide attrs } started started'
      have hkept := (race_trace rule budget remaining s.asyncCalls
        (world.turn s.asyncCalls rule).events { acts := rule.decide attrs } started).2
      have hkept' := (race_trace rule budget remaining s.asyncCalls
        (world.turn s.asyncCalls rule).events { acts := rule.decide attrs } started').2
      rcases hrace : race rule budget remaining s.asyncCalls (world.turn s.asyncCalls rule).events
        { acts := rule.decide attrs } started with ⟨t, o⟩
      rcases hrace' : race rule budget remaining s.asyncCalls (world.turn s.asyncCalls rule).events
        { acts := rule.decide attrs } started' with ⟨t', o'⟩
      rw [hrace, hrace'] at houtcome
      rw [hrace] at hkept
      rw [hrace'] at hkept'
      obtain rfl : o' = o := houtcome
      have hends : t'.asyncCalls = t.asyncCalls := hkept'.trans (hcalls.trans hkept.symm)
      cases o' with
      | done result => exact ⟨rfl, hends⟩
      | threw e => exact ⟨rfl, hends⟩
      | pending => exact ⟨rfl, hends⟩
  · unfold verifyRule
    rw [hverify]
    split
    · exact ⟨rfl, hs⟩
    · exact ⟨rfl, hs⟩

theorem evaluateGroup_same {ruleType : Str} {restricts restricts' : Bool} {rules : List AnyRule}
    (hrules : ∀ rule ∈ rules, SameOn attrs attrs' rule) (hrestricts : restricts' = restricts)
    (evaluated : List RuleOutcome) {s s' : EvalState} (hs : s'.asyncCalls = s.asyncCalls) :
    SameRun (evaluateGroup world ruleType restricts attrs budget rules evaluated s)
      (evaluateGroup world ruleType restricts' attrs' budget rules evaluated s') := by
  subst hrestricts
  induction rules generalizing evaluated s s' with
  | nil => exact ⟨rfl, hs⟩
  | cons rule rules ih =>
    have hask := askRule_same world budget (hrules rule List.mem_cons_self) hs
    rcases h : askRule world rule attrs budget s with ⟨t, o⟩
    rcases h' : askRule world rule attrs' budget s' with ⟨t', o'⟩
    rw [h, h'] at hask
    obtain ⟨ho, ht⟩ := hask
    obtain rfl : o' = o := ho
    rw [evaluateGroup, evaluateGroup, h, h']
    cases o' with
    | done result =>
      dsimp only
      split
      · exact ⟨rfl, ht⟩
      · exact ih (fun r hr => hrules r (List.mem_cons_of_mem _ hr)) _ ht
    | threw e => exact ⟨rfl, ht⟩
    | pending => exact ⟨rfl, ht⟩

end Same

/-! ## The groups -/

section Groups

variable (world : World) (budget : RuleBudget) {attrs attrs' : Attributes}

/-- The groups all pass when the first does, and the others after it. -/
theorem allPass_cons {types : List Str} {g : Str × List AnyRule} {groups : List (Str × List AnyRule)}
    {s : EvalState} : AllPass (evaluateGroups world types attrs budget (g :: groups) s) ↔
      ∃ t o, evaluateGroup world g.1 (decide (g.1 ∈ types)) attrs budget g.2 [] s = (t, .done o) ∧
        o.passed = true ∧ AllPass (evaluateGroups world types attrs budget groups t) := by
  obtain ⟨ruleType, rules⟩ := g
  constructor
  · rintro ⟨outcomes, hdone, hpass⟩
    rw [evaluateGroups] at hdone
    split at hdone
    · rename_i t o hgroup
      split at hdone
      · rename_i u rest hrest
        obtain rfl := Outcome.done.inj hdone
        exact ⟨t, o, hgroup, hpass o List.mem_cons_self, rest, by rw [hrest],
          fun g hg => hpass g (List.mem_cons_of_mem _ hg)⟩
      · exact absurd hdone (by simp)
      · exact absurd hdone (by simp)
    · exact absurd hdone (by simp)
    · exact absurd hdone (by simp)
  · rintro ⟨t, o, hgroup, ho, rest, hdone, hpass⟩
    refine ⟨o :: rest, ?_, fun g hg => ?_⟩
    · rw [evaluateGroups, hgroup]
      rcases hrest : evaluateGroups world types attrs budget groups t with ⟨u, outcome⟩
      rw [hrest] at hdone
      obtain rfl : outcome = .done rest := hdone
      dsimp only
      rw [hrest]
    · rcases List.mem_cons.1 hg with rfl | hg
      · exact ho
      · exact hpass g hg

/-- One more group that is read the same way on both sides keeps both in step. -/
theorem allPass_cons_same {types types' : List Str} {g : Str × List AnyRule}
    {groups groups' : List (Str × List AnyRule)} {P : Prop} {s s' : EvalState}
    (hrules : ∀ rule ∈ g.2, SameOn attrs attrs' rule) (htypes : g.1 ∈ types' ↔ g.1 ∈ types)
    (hs : s'.asyncCalls = s.asyncCalls)
    (hrest : ∀ t t' : EvalState, t'.asyncCalls = t.asyncCalls →
      (AllPass (evaluateGroups world types' attrs' budget groups' t') ↔
        AllPass (evaluateGroups world types attrs budget groups t) ∧ P)) :
    AllPass (evaluateGroups world types' attrs' budget (g :: groups') s') ↔
      AllPass (evaluateGroups world types attrs budget (g :: groups) s) ∧ P := by
  have hrestricts : decide (g.1 ∈ types') = decide (g.1 ∈ types) := decide_eq_decide.2 htypes
  have hgroup : SameRun (evaluateGroup world g.1 (decide (g.1 ∈ types)) attrs budget g.2 [] s)
      (evaluateGroup world g.1 (decide (g.1 ∈ types')) attrs' budget g.2 [] s') :=
    evaluateGroup_same world budget hrules hrestricts [] hs
  rcases h : evaluateGroup world g.1 (decide (g.1 ∈ types)) attrs budget g.2 [] s with ⟨t, o⟩
  rcases h' : evaluateGroup world g.1 (decide (g.1 ∈ types')) attrs' budget g.2 [] s' with ⟨t', o'⟩
  rw [h, h'] at hgroup
  obtain ⟨ho, ht⟩ := hgroup
  obtain rfl : o' = o := ho
  rw [allPass_cons, allPass_cons, h, h']
  constructor
  · rintro ⟨u', result, heq, hpass, hafter⟩
    obtain ⟨rfl, rfl⟩ := Prod.mk.inj heq
    obtain ⟨hall, hp⟩ := (hrest t t' ht).1 hafter
    exact ⟨⟨t, result, rfl, hpass, hall⟩, hp⟩
  · rintro ⟨⟨u, result, heq, hpass, hall⟩, hp⟩
    obtain ⟨rfl, rfl⟩ := Prod.mk.inj heq
    exact ⟨t', result, rfl, hpass, (hrest t t' ht).2 ⟨hall, hp⟩⟩

/-- The groups of the other rules all pass on both sides or on neither. -/
theorem allPass_same {types types' : List Str} {groups : List (Str × List AnyRule)}
    (hrules : ∀ g ∈ groups, ∀ rule ∈ g.2, SameOn attrs attrs' rule)
    (htypes : ∀ g ∈ groups, g.1 ∈ types' ↔ g.1 ∈ types) {s s' : EvalState}
    (hs : s'.asyncCalls = s.asyncCalls) :
    AllPass (evaluateGroups world types' attrs' budget groups s') ↔
      AllPass (evaluateGroups world types attrs budget groups s) := by
  induction groups generalizing s s' with
  | nil => exact Iff.rfl
  | cons g groups ih =>
    have hrest : ∀ t t' : EvalState, t'.asyncCalls = t.asyncCalls →
        (AllPass (evaluateGroups world types' attrs' budget groups t') ↔
          AllPass (evaluateGroups world types attrs budget groups t) ∧ True) := by
      intro t t' ht
      rw [and_true]
      exact ih (fun g hg => hrules g (List.mem_cons_of_mem _ hg))
        (fun g hg => htypes g (List.mem_cons_of_mem _ hg)) ht
    have hstep := allPass_cons_same world budget (hrules g List.mem_cons_self)
      (htypes g List.mem_cons_self) hs hrest
    rwa [and_true] at hstep

/-- A group of one rule that answers at once passes when the rule does. -/
theorem evaluateGroup_single (ruleType : Str) (restricts : Bool) {rule : AnyRule}
    {result : RuleResult} (hsync : isAsyncRule rule = false)
    (hanswer : readRun (rule.verify attrs) = .ok result) (s : EvalState) :
    ∃ t o, evaluateGroup world ruleType restricts attrs budget [rule] [] s = (t, .done o) ∧
      o.passed = result.passed ∧ t.asyncCalls = s.asyncCalls := by
  have hask : askRule world rule attrs budget s = (s.log (.verify rule), .done result) := by
    rw [askRule, if_neg (by simp [hsync]), verifyRule, hanswer]
  rw [evaluateGroup, hask]
  dsimp only
  split
  · rename_i hpass
    exact ⟨_, _, rfl, hpass.symm, rfl⟩
  · rename_i hfail
    exact ⟨_, _, rfl, (Bool.eq_false_iff.2 hfail).symm, rfl⟩

/-- With the rule's group among them, the groups all pass when they do without it and the rule does. -/
theorem allPass_insert {types types' : List Str} {earlier later : List (Str × List AnyRule)}
    {rule : AnyRule} {result : RuleResult} (hsync : isAsyncRule rule = false)
    (hanswer : readRun (rule.verify attrs') = .ok result)
    (hrules : ∀ g ∈ earlier ++ later, ∀ r ∈ g.2, SameOn attrs attrs' r)
    (htypes : ∀ g ∈ earlier ++ later, g.1 ∈ types' ↔ g.1 ∈ types) {s s' : EvalState}
    (hs : s'.asyncCalls = s.asyncCalls) :
    AllPass (evaluateGroups world types' attrs' budget
        (earlier ++ (rule.ruleType, [rule]) :: later) s') ↔
      AllPass (evaluateGroups world types attrs budget (earlier ++ later) s) ∧
        result.passed = true := by
  induction earlier generalizing s s' with
  | nil =>
    obtain ⟨t, o, hgroup, hpassed, ht⟩ := evaluateGroup_single world budget rule.ruleType
      (decide (rule.ruleType ∈ types')) hsync hanswer s'
    rw [List.nil_append, List.nil_append, allPass_cons, hgroup]
    have hlater := allPass_same world budget hrules htypes (ht.trans hs)
    constructor
    · rintro ⟨u, o', heq, ho, hall⟩
      obtain ⟨rfl, hends⟩ := Prod.mk.inj heq
      obtain rfl := Outcome.done.inj hends
      exact ⟨hlater.1 hall, hpassed.symm.trans ho⟩
    · rintro ⟨hall, hresult⟩
      exact ⟨t, o, rfl, hpassed.trans hresult, hlater.2 hall⟩
  | cons g earlier ih =>
    exact allPass_cons_same world budget (hrules g List.mem_cons_self) (htypes g List.mem_cons_self) hs
      fun t t' ht => ih (fun g hg => hrules g (List.mem_cons_of_mem _ hg))
        (fun g hg => htypes g (List.mem_cons_of_mem _ hg)) ht

/-! ## Sorting the groups -/

theorem restrictingGroups_outcome (groups : List (Str × List AnyRule)) (s s' : EvalState) :
    (restrictingGroups groups s').2 = (restrictingGroups groups s).2 := by
  induction groups with
  | nil => rfl
  | cons g groups ih =>
    obtain ⟨ruleType, rules⟩ := g
    rw [restrictingGroups, restrictingGroups]
    dsimp only
    split
    · rfl
    · rcases h : restrictingGroups groups s with ⟨t, o⟩
      rcases h' : restrictingGroups groups s' with ⟨t', o'⟩
      rw [h, h'] at ih
      obtain rfl : o' = o := ih
      cases o' <;> rfl

/-- Both ways of sorting came to the same, but for one more type. -/
inductive OneMore (ruleType : Str) : Outcome (List Str) → Outcome (List Str) → Prop where
  | done (types types' : List Str) (length : types'.length = types.length + 1)
      (mem : ∀ t, t ∈ types' ↔ t = ruleType ∨ t ∈ types) : OneMore ruleType (.done types) (.done types')
  | threw (e : Thrown) : OneMore ruleType (.threw e) (.threw e)
  | pending : OneMore ruleType .pending .pending

/-- The rule's group is sorted with the restricting ones, and the others as without it. -/
theorem restrictingGroups_insert (earlier later : List (Str × List AnyRule)) {rule : AnyRule}
    (hrestricts : isRestrictingRule rule = true) (s s' : EvalState) :
    OneMore rule.ruleType (restrictingGroups (earlier ++ later) s).2
      (restrictingGroups (earlier ++ (rule.ruleType, [rule]) :: later) s').2 := by
  induction earlier with
  | nil =>
    have hone : ([rule].filter isRestrictingRule).length = 1 := by simp [hrestricts]
    have hsame := restrictingGroups_outcome later s s'
    rw [List.nil_append, List.nil_append, restrictingGroups]
    dsimp only
    rw [hone, if_neg (by simp)]
    rcases h : restrictingGroups later s with ⟨t, o⟩
    rcases h' : restrictingGroups later s' with ⟨t', o'⟩
    rw [h, h'] at hsame
    obtain rfl : o' = o := hsame
    cases o' with
    | done types =>
      exact .done types (rule.ruleType :: types) rfl fun t => List.mem_cons
    | threw e => exact .threw e
    | pending => exact .pending
  | cons g earlier ih =>
    obtain ⟨ruleType, rules⟩ := g
    rw [List.cons_append, List.cons_append, restrictingGroups, restrictingGroups]
    dsimp only
    split
    · exact .threw mixedGroup
    · rcases h : restrictingGroups (earlier ++ later) s with ⟨t, o⟩
      rcases h' : restrictingGroups (earlier ++ (rule.ruleType, [rule]) :: later) s' with ⟨t', o'⟩
      rw [h, h'] at ih
      dsimp only at ih
      cases ih with
      | done types types' hlength hmem =>
        dsimp only
        split
        · refine .done _ _ (by simp [hlength]) fun u => ?_
          simp only [List.mem_cons, hmem u]
          exact or_left_comm
        · exact .done types types' hlength hmem
      | threw e => exact .threw e
      | pending => exact .pending

/-! ## The decision -/

/-- The evaluation comes to an allow when its groups can be sorted, some rule grants or none has to,
and every group passes. -/
theorem evaluateWithin_allows_iff {rules : List AnyRule} {onEmptyRuleSet : Value} {s : EvalState} :
    Allows (evaluateWithin world attrs rules onEmptyRuleSet budget s) ↔
      ∃ t types, restrictingGroups (groupBy AnyRule.ruleType rules).entries s = (t, .done types) ∧
        (types.length < (groupBy AnyRule.ruleType rules).entries.length ∨
          onEmptyRuleSet = .str (js "allow")) ∧
        AllPass (evaluateGroups world types attrs budget (groupBy AnyRule.ruleType rules).entries t) := by
  unfold evaluateWithin
  dsimp only
  rcases h : restrictingGroups (groupBy AnyRule.ruleType rules).entries s with ⟨t, o⟩
  cases o with
  | threw e =>
    refine iff_of_false (fun ⟨d, hd, _⟩ => absurd hd (by simp)) ?_
    rintro ⟨u, types, heq, -⟩
    exact absurd (Prod.mk.inj heq).2 (by simp)
  | pending =>
    refine iff_of_false (fun ⟨d, hd, _⟩ => absurd hd (by simp)) ?_
    rintro ⟨u, types, heq, -⟩
    exact absurd (Prod.mk.inj heq).2 (by simp)
  | done types =>
    dsimp only
    split
    · rename_i hnone
      refine iff_of_false ?_ ?_
      · rintro ⟨d, hd, hallow⟩
        obtain rfl := Outcome.done.inj hd
        exact absurd hallow (by simp [noApplicableRule, Decision.isAllow])
      · rintro ⟨u, types', heq, happlies, -⟩
        obtain ⟨rfl, hends⟩ := Prod.mk.inj heq
        obtain rfl := Outcome.done.inj hends
        exact happlies.elim hnone.1 hnone.2
    · rename_i hsome
      have happlies : types.length < (groupBy AnyRule.ruleType rules).entries.length ∨
          onEmptyRuleSet = .str (js "allow") := by
        by_contra hnone
        exact hsome ⟨fun h => hnone (Or.inl h), fun h => hnone (Or.inr h)⟩
      constructor
      · rintro ⟨d, hd, hallow⟩
        split at hd
        · rename_i u outcomes hgroups
          obtain rfl := Outcome.done.inj hd
          exact ⟨t, types, rfl, happlies, outcomes, by rw [hgroups],
            (conclude_isAllow outcomes).1 hallow⟩
        · exact absurd hd (by simp)
        · exact absurd hd (by simp)
      · rintro ⟨u, types', heq, -, outcomes, hdone, hpass⟩
        obtain ⟨rfl, hends⟩ := Prod.mk.inj heq
        obtain rfl := Outcome.done.inj hends
        rcases hgroups : evaluateGroups world types attrs budget
          (groupBy AnyRule.ruleType rules).entries t with ⟨w, o⟩
        rw [hgroups] at hdone
        obtain rfl : o = .done outcomes := hdone
        exact ⟨conclude outcomes, rfl, (conclude_isAllow outcomes).2 hpass⟩

/-- What was recorded before it does not decide whether an evaluation comes to an allow. -/
theorem evaluateWithin_allows_same (rules : List AnyRule) (onEmptyRuleSet : Value) {s s' : EvalState}
    (hs : s'.asyncCalls = s.asyncCalls) :
    Allows (evaluateWithin world attrs rules onEmptyRuleSet budget s') →
      Allows (evaluateWithin world attrs rules onEmptyRuleSet budget s) := by
  rw [evaluateWithin_allows_iff, evaluateWithin_allows_iff]
  rintro ⟨t', types, hsorted', happlies, hall⟩
  have houtcome := restrictingGroups_outcome (groupBy AnyRule.ruleType rules).entries s s'
  have hcalls := (restrictingGroups_asks (groupBy AnyRule.ruleType rules).entries s).2
  have hcalls' := (restrictingGroups_asks (groupBy AnyRule.ruleType rules).entries s').2
  rcases hsorted : restrictingGroups (groupBy AnyRule.ruleType rules).entries s with ⟨t, o⟩
  rw [hsorted] at houtcome hcalls
  rw [hsorted'] at houtcome hcalls'
  obtain rfl : o = .done types := houtcome.symm
  have ht : t.asyncCalls = t'.asyncCalls := hcalls.trans (hs.symm.trans hcalls'.symm)
  exact ⟨t, types, rfl, happlies, (allPass_same world budget (fun g _ r _ => ⟨rfl, rfl⟩)
    (fun g _ => Iff.rfl) ht).2 hall⟩

/-- The rule narrows the decision: with it, it is an allow when it is one without it and the rule
passes. -/
theorem evaluateWithin_insert {before after : List AnyRule} {rule : AnyRule} {result : RuleResult}
    (hrestricts : isRestrictingRule rule = true) (hsync : isAsyncRule rule = false)
    (hanswer : readRun (rule.verify attrs') = .ok result)
    (hother : ∀ r ∈ before ++ after, r.ruleType ≠ rule.ruleType)
    (hsame : ∀ r ∈ before ++ after, SameOn attrs attrs' r) (onEmptyRuleSet : Value) {s s' : EvalState}
    (hs : s'.asyncCalls = s.asyncCalls) :
    Allows (evaluateWithin world attrs' (before ++ rule :: after) onEmptyRuleSet budget s') ↔
      Allows (evaluateWithin world attrs (before ++ after) onEmptyRuleSet budget s) ∧
        result.passed = true := by
  obtain ⟨earlier, later, hwithout, hwith⟩ := groupBy_insert AnyRule.ruleType before after rule hother
  rw [evaluateWithin_allows_iff, evaluateWithin_allows_iff, hwithout, hwith]
  have hsorted := restrictingGroups_insert earlier later hrestricts s s'
  have hcalls := (restrictingGroups_asks (earlier ++ later) s).2
  have hcalls' := (restrictingGroups_asks (earlier ++ (rule.ruleType, [rule]) :: later) s').2
  have hgroups : ∀ g ∈ earlier ++ later, (∀ r ∈ g.2, r ∈ before ++ after) ∧ g.1 ≠ rule.ruleType := by
    intro g hg
    rw [← hwithout] at hg
    have hmem : ∀ r ∈ g.2, r ∈ before ++ after ∧ r.ruleType = g.1 :=
      fun r hr => mem_group AnyRule.ruleType _ hg hr
    refine ⟨fun r hr => (hmem r hr).1, fun heq => ?_⟩
    obtain ⟨r, hr⟩ := List.exists_mem_of_ne_nil _ (group_ne_nil AnyRule.ruleType _ hg)
    exact hother r (hmem r hr).1 ((hmem r hr).2.trans heq)
  rcases h : restrictingGroups (earlier ++ later) s with ⟨t, o⟩
  rcases h' : restrictingGroups (earlier ++ (rule.ruleType, [rule]) :: later) s' with ⟨t', o'⟩
  rw [h] at hcalls
  rw [h'] at hcalls'
  rw [h, h'] at hsorted
  dsimp only at hsorted
  cases hsorted with
  | threw e =>
    refine iff_of_false ?_ ?_
    · rintro ⟨u, types, heq, -⟩
      exact absurd (Prod.mk.inj heq).2 (by simp)
    · rintro ⟨⟨u, types, heq, -⟩, -⟩
      exact absurd (Prod.mk.inj heq).2 (by simp)
  | pending =>
    refine iff_of_false ?_ ?_
    · rintro ⟨u, types, heq, -⟩
      exact absurd (Prod.mk.inj heq).2 (by simp)
    · rintro ⟨⟨u, types, heq, -⟩, -⟩
      exact absurd (Prod.mk.inj heq).2 (by simp)
  | done types types' hlength hmem =>
    have hlengths : (earlier ++ (rule.ruleType, [rule]) :: later).length = (earlier ++ later).length + 1 := by
      simp only [List.length_append, List.length_cons]
      omega
    have hrules : ∀ g ∈ earlier ++ later, ∀ r ∈ g.2, SameOn attrs attrs' r :=
      fun g hg r hr => hsame r ((hgroups g hg).1 r hr)
    have htypes : ∀ g ∈ earlier ++ later, g.1 ∈ types' ↔ g.1 ∈ types :=
      fun g hg => (hmem g.1).trans (or_iff_right (hgroups g hg).2)
    have hallPass := allPass_insert world budget hsync hanswer hrules htypes
      (hcalls'.trans (hs.trans hcalls.symm))
    constructor
    · rintro ⟨u, types₁, heq, happlies, hall⟩
      obtain ⟨rfl, hends⟩ := Prod.mk.inj heq
      obtain rfl := Outcome.done.inj hends
      obtain ⟨hothers, hpassed⟩ := hallPass.1 hall
      refine ⟨⟨t, types, rfl, happlies.imp_left fun hlt => ?_, hothers⟩, hpassed⟩
      omega
    · rintro ⟨⟨u, types₁, heq, happlies, hall⟩, hpassed⟩
      obtain ⟨rfl, hends⟩ := Prod.mk.inj heq
      obtain rfl := Outcome.done.inj hends
      refine ⟨t', types', rfl, happlies.imp_left fun hlt => ?_, hallPass.2 ⟨hall, hpassed⟩⟩
      omega

/-- The same of the whole evaluation, under whatever options. -/
theorem evaluate_insert {before after : List AnyRule} {rule : AnyRule} {result : RuleResult}
    (hrestricts : isRestrictingRule rule = true) (hsync : isAsyncRule rule = false)
    (hanswer : readRun (rule.verify attrs') = .ok result)
    (hother : ∀ r ∈ before ++ after, r.ruleType ≠ rule.ruleType)
    (hsame : ∀ r ∈ before ++ after, SameOn attrs attrs' r) (options : EvaluateOptions)
    (failures failures' : FailureRecord) :
    Allows (evaluate world attrs' (before ++ rule :: after) options failures') ↔
      Allows (evaluate world attrs (before ++ after) options failures) ∧ result.passed = true := by
  unfold evaluate
  split
  · exact iff_of_false (fun ⟨d, hd, _⟩ => absurd hd (by simp))
      (fun ⟨⟨d, hd, _⟩, _⟩ => absurd hd (by simp))
  split
  · exact iff_of_false (fun ⟨d, hd, _⟩ => absurd hd (by simp))
      (fun ⟨⟨d, hd, _⟩, _⟩ => absurd hd (by simp))
  · exact evaluateWithin_insert world _ hrestricts hsync hanswer hother hsame _ rfl

theorem evaluate_allows_same (rules : List AnyRule) (options : EvaluateOptions)
    (failures failures' : FailureRecord) : Allows (evaluate world attrs rules options failures') ↔
      Allows (evaluate world attrs rules options failures) := by
  unfold evaluate
  split
  · exact iff_of_false (fun ⟨d, hd, _⟩ => absurd hd (by simp)) (fun ⟨d, hd, _⟩ => absurd hd (by simp))
  split
  · exact iff_of_false (fun ⟨d, hd, _⟩ => absurd hd (by simp)) (fun ⟨d, hd, _⟩ => absurd hd (by simp))
  · exact ⟨evaluateWithin_allows_same world _ rules _ rfl,
      evaluateWithin_allows_same world _ rules _ rfl⟩

end Groups

end PolicyVerifier.Core
