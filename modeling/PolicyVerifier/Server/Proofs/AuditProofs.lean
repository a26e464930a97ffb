import PolicyVerifier.Core.Proofs.ReferenceProofs
import PolicyVerifier.Server.Decide

/-!
# The audit line and the response

One decision is projected twice, onto the `decision` line and onto the response. They say the same of
it, and what the response leaves out of an evaluation is left out everywhere.
-/

namespace PolicyVerifier.Server

open Js PolicyVerifier.Core OrderedMap

/-! ## The decisions there are -/

/-- A decision the evaluator makes of the rules it is given, or a deny `decide` builds itself. -/
inductive Made (rules : List AnyRule) : Decision → Prop where
  | evaluated (world : World) (attrs : Attributes) (options : EvaluateOptions)
      (failures : FailureRecord) (final : EvalState) (decision : Decision)
      (run : evaluate world attrs rules options failures = (final, .done decision)) :
      Made rules decision
  | denied (category : FailureCategory) (denial : Denial)
      (known : deniedFailures category = some denial) :
      Made rules (.deny denial.code denial.message { groups := [] })

/-- A group of a decision says what there is to say of its rules, all of one `ruleType`. -/
def OfRules (rules : List AnyRule) (g : RuleGroupOutcome) : Prop :=
  ListsRules (rules.filter fun r => r.ruleType = g.ruleType) g

section

variable {rules : List AnyRule}

theorem Made.ofRules {d : Decision} (h : Made rules d) : ∀ g ∈ d.reason.groups, OfRules rules g := by
  cases h with
  | evaluated world attrs options failures final _ run =>
    intro g hg
    rcases evaluate_lists run with rfl | ⟨outcomes, rfl, hlists⟩
    · exact absurd hg (by simp [noApplicableRule, Decision.reason])
    · rw [conclude_groups] at hg
      rw [entries_groupBy, List.forall₂_map_left_iff, List.forall₂_iff_get] at hlists
      obtain ⟨i, hi, rfl⟩ := List.getElem_of_mem hg
      obtain ⟨htype, hof⟩ := hlists.2 i (hlists.1 ▸ hi) hi
      rw [List.get_eq_getElem] at htype hof
      rw [OfRules, htype]
      exact hof
  | denied _ _ _ => simp [Decision.reason]

/-- On an allow every group passed. -/
theorem Made.allow_passed {reason : DecisionReason} (h : Made rules (.allow reason)) :
    ∀ g ∈ reason.groups, g.passed = true := by
  cases h with
  | evaluated world attrs options failures final _ run =>
    rcases evaluate_lists run with hno | ⟨outcomes, hconclude, -⟩
    · exact absurd hno (by simp [noApplicableRule])
    · have hallow : (conclude outcomes).isAllow = true := by rw [← hconclude]; rfl
      have hgroups : reason.groups = outcomes := by
        rw [← conclude_groups outcomes, ← hconclude]
        rfl
      rw [hgroups]
      exact (conclude_isAllow outcomes).1 hallow

/-- A group that passed ends with the rule that satisfied it. -/
theorem OfRules.satisfiedBy {g : RuleGroupOutcome} (h : OfRules rules g) (hp : g.passed = true) :
    g.satisfiedBy = g.evaluated.getLast? ∧
      ∃ o, g.satisfiedBy = some o ∧ o ∈ g.evaluated ∧ o.passed = true := by
  cases h with
  | passed failed last evaluated satisfiedBy refused passes codes =>
    rw [evaluated, List.getLast?_concat, satisfiedBy]
    exact ⟨rfl, last, rfl, by simp, passes⟩
  | failed satisfiedBy refused codes =>
    rw [RuleGroupOutcome.passed, satisfiedBy] at hp
    exact absurd hp (by simp)

/-- A group that failed asked every one of its rules. -/
theorem OfRules.refused {g : RuleGroupOutcome} (h : OfRules rules g) (hp : g.passed = false) :
    g.evaluated.map RuleOutcome.code =
      (rules.filter fun r => r.ruleType = g.ruleType).map AnyRule.code := by
  cases h with
  | passed failed last evaluated satisfiedBy refused passes codes =>
    rw [RuleGroupOutcome.passed, satisfiedBy] at hp
    exact absurd hp (by simp)
  | failed satisfiedBy refused codes => exact codes

end

/-! ## What the two say -/

/-- The group with every evaluation erased, and nothing else changed. -/
def erasedGroup (g : RuleGroupOutcome) : RuleGroupOutcome :=
  { g with
    evaluated := g.evaluated.map withoutEvaluation
    satisfiedBy := g.satisfiedBy.map withoutEvaluation }

/-- The response with every evaluation erased, and nothing else changed. -/
def erased (response : DecisionResponse) : DecisionResponse :=
  { response with
    decision := withReason response.decision
      { groups := response.decision.reason.groups.map erasedGroup } }

/-- The outcomes a response lists, each under its group, in order. -/
def listed (response : DecisionResponse) : List (RuleGroupOutcome × RuleOutcome) :=
  response.decision.reason.groups.flatMap fun g => g.evaluated.map fun o => (g, o)

/-- What an outcome reported. -/
def reportOf (p : RuleGroupOutcome × RuleOutcome) : Option ReportedEvaluation :=
  p.2.evaluation.map fun evaluation =>
    { ruleType := p.1.ruleType, code := p.2.code, passed := p.2.passed, evaluation }

/-- The `code` of a deny. -/
def codeOf : Decision → Option Str
  | .allow _ => none
  | .deny code _ _ => some code

namespace EventOutcome

/-- The `code` of the line. -/
def code? : EventOutcome → Option Str
  | allow _ => none
  | deny code _ => some code

/-- The `deniedBy` of the line. -/
def deniedBy? : EventOutcome → Option DenyingGroup
  | allow _ => none
  | deny _ deniedBy => deniedBy

end EventOutcome

/-- What a line and a response both say, whether the response carries evaluations or not. -/
structure LineMatches (rules : List AnyRule) (event : DecisionEvent) (response : DecisionResponse) :
    Prop where
  /-- They give the same code, and so the same outcome. -/
  code : event.outcome.code? = codeOf response.decision
  /-- `deniedBy` is the first failing group, with the code of every rule it has, in order. -/
  denied_by : ∀ d, event.outcome.deniedBy? = some d ↔ ∃ before failing after,
    response.decision.reason.groups = before ++ failing :: after ∧
    (∀ g ∈ before, g.passed = true) ∧ failing.passed = false ∧
    d = { ruleType := failing.ruleType, refused := failing.evaluated.map RuleOutcome.code } ∧
    d.refused = (rules.filter fun r => r.ruleType = failing.ruleType).map AnyRule.code
  /-- It is there exactly when a group failed. -/
  denied_by_present : event.outcome.deniedBy?.isSome = true ↔
    ∃ g ∈ response.decision.reason.groups, g.passed = false
  /-- On an allow `satisfiedBy` names, for each granting group and in order, the rule that passed. -/
  satisfied_by : response.decision.isAllow = true → ∃ named, event.outcome = .allow named ∧
    List.Forall₂ (fun g n => ∃ o, g.satisfiedBy = some o ∧ o ∈ g.evaluated ∧ o.passed = true ∧
        n = ({ ruleType := g.ruleType, code := o.code } : NamedRule))
      (response.decision.reason.groups.filter fun g => !g.restricts) named
  /-- They are about one subject, or neither names any. -/
  subject : event.sub = response.subject

/-- A line and the two responses there can be of one decision. -/
structure Agreement (rules : List AnyRule) (event : DecisionEvent)
    (included omitted : DecisionResponse) : Prop where
  /-- What is omitted is the evaluations, everywhere, and nothing else. -/
  omitted_eq : omitted = erased included
  /-- The line carries what the included outcomes report, in order. -/
  evaluations : event.evaluations.getD [] = (listed included).filterMap reportOf
  /-- It has no such key exactly when none of them reports anything. -/
  evaluations_absent : event.evaluations = none ↔ ∀ p ∈ listed included, p.2.evaluation = none
  matches_included : LineMatches rules event included
  matches_omitted : LineMatches rules event omitted

/-! ## They agree -/

/-- A group as a response carries it. -/
def viewed (includeEvaluation : Bool) (g : RuleGroupOutcome) : RuleGroupOutcome :=
  if includeEvaluation then g else erasedGroup g

@[simp] theorem viewed_ruleType (b : Bool) (g : RuleGroupOutcome) :
    (viewed b g).ruleType = g.ruleType := by cases b <;> rfl

@[simp] theorem viewed_restricts (b : Bool) (g : RuleGroupOutcome) :
    (viewed b g).restricts = g.restricts := by cases b <;> rfl

@[simp] theorem viewed_passed (b : Bool) (g : RuleGroupOutcome) :
    (viewed b g).passed = g.passed := by
  cases b with
  | false => exact Option.isSome_map
  | true => rfl

@[simp] theorem viewed_codes (b : Bool) (g : RuleGroupOutcome) :
    (viewed b g).evaluated.map RuleOutcome.code = g.evaluated.map RuleOutcome.code := by
  cases b with
  | false => exact List.map_map
  | true => rfl

/-- Where `satisfiedBy` is the last outcome, rebuilding it is erasing it. -/
theorem withoutEvaluations_groups {reason : DecisionReason}
    (h : ∀ g ∈ reason.groups, g.passed = true → g.satisfiedBy = g.evaluated.getLast?) :
    (withoutEvaluations reason).groups = reason.groups.map erasedGroup := by
  refine List.map_congr_left fun g hg => ?_
  by_cases hp : g.passed = true
  · simp only [hp, if_true, erasedGroup, h g hg hp, List.getLast?_map]
  · have hnone : g.satisfiedBy = none := by simpa [RuleGroupOutcome.passed] using hp
    simp [hp, erasedGroup, hnone]

theorem present_subjectId (input : DecisionInput) :
    present (subjectId input) = subjectId input := by
  unfold subjectId
  split
  · rename_i sub hsub
    cases sub <;> rfl
  · rfl

section

variable {rules : List AnyRule} {d : Decision} {subject : Option Str} {entry : DecisionRequest}

theorem reason_withReason (d : Decision) (reason : DecisionReason) :
    (withReason d reason).reason = reason := by cases d <;> rfl

theorem response_groups (h : ∀ g ∈ d.reason.groups, OfRules rules g) (b : Bool) :
    (toResponse subject entry d b).decision.reason.groups = d.reason.groups.map (viewed b) := by
  have hlast : ∀ g ∈ d.reason.groups, g.passed = true → g.satisfiedBy = g.evaluated.getLast? :=
    fun g hg hp => ((h g hg).satisfiedBy hp).1
  cases b with
  | false =>
    have hview : viewed false = erasedGroup := rfl
    simp only [toResponse, reason_withReason, hview, Bool.false_eq_true, if_false,
      withoutEvaluations_groups hlast]
  | true =>
    have hview : viewed true = id := rfl
    simp only [toResponse, reason_withReason, hview, List.map_id, if_true]

theorem response_code (b : Bool) : codeOf (toResponse subject entry d b).decision = codeOf d := by
  cases d <;> rfl

/-- A group that passed is named by the outcome that satisfied it, with or without evaluations. -/
theorem satisfyingRule_viewed (b : Bool) {g : RuleGroupOutcome} (h : OfRules rules g)
    (hp : g.passed = true) : ∃ n, satisfyingRule g = some n ∧
      ∃ o, (viewed b g).satisfiedBy = some o ∧ o ∈ (viewed b g).evaluated ∧ o.passed = true ∧
        n = { ruleType := g.ruleType, code := o.code } := by
  obtain ⟨-, o, hsat, hmem, hpass⟩ := h.satisfiedBy hp
  refine ⟨{ ruleType := g.ruleType, code := o.code }, by rw [satisfyingRule, hsat]; rfl, ?_⟩
  cases b with
  | false =>
    have hsat' : (viewed false g).satisfiedBy = some (withoutEvaluation o) := by
      show g.satisfiedBy.map withoutEvaluation = _
      rw [hsat]
      rfl
    exact ⟨withoutEvaluation o, hsat', List.mem_map_of_mem hmem, hpass, rfl⟩
  | true => exact ⟨o, hsat, hmem, hpass, rfl⟩

theorem granting_named (b : Bool) (groups : List RuleGroupOutcome)
    (h : ∀ g ∈ groups, OfRules rules g ∧ g.passed = true) :
    List.Forall₂ (fun g n => ∃ o, g.satisfiedBy = some o ∧ o ∈ g.evaluated ∧ o.passed = true ∧
        n = ({ ruleType := g.ruleType, code := o.code } : NamedRule))
      ((groups.map (viewed b)).filter fun g => !g.restricts)
      (groups.flatMap fun g => if g.restricts then [] else (satisfyingRule g).toList) := by
  induction groups with
  | nil => exact .nil
  | cons g groups ih =>
    have hrest := ih fun g' hg' => h g' (List.mem_cons_of_mem _ hg')
    obtain ⟨hof, hp⟩ := h g List.mem_cons_self
    by_cases hr : g.restricts = true
    · simpa [hr] using hrest
    · obtain ⟨n, hn, hnamed⟩ := satisfyingRule_viewed b hof hp
      have hgrants : g.restricts = false := by simpa using hr
      simpa [hgrants, hn] using ⟨hnamed, hrest⟩

/-- The line's `deniedBy` is what the first failing group says, on an allow as well, where there is
none. -/
theorem deniedBy?_eq (h : Made rules d) (requestId : Option Str) :
    (decisionEvent d subject entry.resource entry.action requestId).outcome.deniedBy? =
      deniedByOf d := by
  cases d with
  | allow reason =>
    have hnone : reason.groups.find? (fun g => !g.passed) = none :=
      List.find?_eq_none.2 fun g hg => by simp [h.allow_passed g hg]
    exact (by rw [deniedByOf, Decision.reason, hnone]; rfl : none = deniedByOf (.allow reason))
  | deny code message reason => rfl

theorem lineMatches (h : Made rules d) (requestId : Option Str) (b : Bool)
    (hsubject : present subject = subject) :
    LineMatches rules (decisionEvent d subject entry.resource entry.action requestId)
      (toResponse subject entry d b) where
  code := by
    rw [response_code]
    cases d <;> rfl
  denied_by denied := by
    rw [response_groups h.ofRules, deniedBy?_eq h, deniedByOf, Option.map_eq_some_iff]
    constructor
    · rintro ⟨failing, hfind, rfl⟩
      obtain ⟨hfail, before, after, hsplit, hbefore⟩ := List.find?_eq_some_iff_append.1 hfind
      have hfailed : failing.passed = false := by simpa using hfail
      have hof := h.ofRules failing (hsplit ▸ by simp)
      refine ⟨before.map (viewed b), viewed b failing, after.map (viewed b), by simp [hsplit],
        fun g hg => ?_, by simp [hfailed], by simp, ?_⟩
      · obtain ⟨g', hg', rfl⟩ := List.mem_map.1 hg
        simpa using hbefore g' hg'
      · rw [viewed_ruleType]
        exact hof.refused hfailed
    · rintro ⟨before, failing, after, hsplit, hbefore, hfailed, rfl, -⟩
      obtain ⟨before, rest, hgroups, rfl, hrest⟩ := List.map_eq_append_iff.1 hsplit
      obtain ⟨failing, after, rfl, rfl, rfl⟩ := List.map_eq_cons_iff.1 hrest
      refine ⟨failing, List.find?_eq_some_iff_append.2 ⟨by simpa using hfailed, before, after,
        hgroups, fun g hg => ?_⟩, by simp⟩
      simpa using hbefore _ (List.mem_map_of_mem hg)
  denied_by_present := by
    rw [response_groups h.ofRules, deniedBy?_eq h, deniedByOf, Option.isSome_map,
      List.find?_isSome]
    simp
  satisfied_by hallow := by
    cases d with
    | deny code message reason => exact Bool.noConfusion hallow
    | allow reason =>
      refine ⟨_, rfl, ?_⟩
      rw [response_groups h.ofRules]
      exact granting_named b reason.groups fun g hg => ⟨h.ofRules g hg, h.allow_passed g hg⟩
  subject := hsubject

theorem withReason_self (d : Decision) : withReason d d.reason = d := by cases d <;> rfl

/-- What a response omits is what `erased` erases. -/
theorem omitted_eq_erased (h : ∀ g ∈ d.reason.groups, OfRules rules g) :
    toResponse subject entry d false = erased (toResponse subject entry d true) := by
  have hgroups := withoutEvaluations_groups fun g hg hp => ((h g hg).satisfiedBy hp).1
  have hreason : withoutEvaluations d.reason = { groups := d.reason.groups.map erasedGroup } := by
    rw [← hgroups]
  simp only [toResponse, erased, withReason_self, if_true, hreason, Bool.false_eq_true, if_false]

/-- The line's evaluations are what the decision's outcomes report. -/
theorem reportedEvaluations_eq (d : Decision) (subject : Option Str) (entry : DecisionRequest) :
    reportedEvaluations d = (listed (toResponse subject entry d true)).filterMap reportOf := by
  have hgroups : (toResponse subject entry d true).decision.reason.groups = d.reason.groups := by
    rw [toResponse, reason_withReason]
    rfl
  rw [reportedEvaluations, listed, hgroups, List.filterMap_flatMap]
  congr 1
  funext g
  induction g.evaluated with
  | nil => rfl
  | cons o os ih =>
    rw [List.flatMap_cons, ih]
    cases ho : o.evaluation <;> simp [reportOf, ho]

end

theorem event_evaluations (d : Decision) (subject : Option Str) (resource action : Str)
    (requestId : Option Str) :
    (decisionEvent d subject resource action requestId).evaluations =
      if 0 < (reportedEvaluations d).length then some (reportedEvaluations d) else none := rfl

/-- For every decision there is and everybody it is made for, the line and the two responses of it
agree. -/
theorem line_and_response_agree (rules : List AnyRule) (d : Decision) (h : Made rules d)
    (entry : DecisionRequest) (input : DecisionInput) :
    Agreement rules
      (decisionEvent d (subjectId input) entry.resource entry.action input.requestId)
      (toResponse (subjectId input) entry d true) (toResponse (subjectId input) entry d false) where
  omitted_eq := omitted_eq_erased h.ofRules
  evaluations := by
    rw [← reportedEvaluations_eq, event_evaluations]
    split
    · rfl
    · rename_i hempty
      exact (List.length_eq_zero_iff.1 (Nat.eq_zero_of_not_pos hempty)).symm
  evaluations_absent := by
    have hnone : reportedEvaluations d = [] ↔
        ∀ p ∈ listed (toResponse (subjectId input) entry d true), p.2.evaluation = none := by
      rw [reportedEvaluations_eq d (subjectId input) entry]
      simp [List.filterMap_eq_nil_iff, reportOf]
    rw [← hnone, event_evaluations]
    split
    · rename_i hsome
      exact iff_of_false (by simp) (List.ne_nil_of_length_pos hsome)
    · rename_i hempty
      exact iff_of_true rfl (List.length_eq_zero_iff.1 (Nat.eq_zero_of_not_pos hempty))
  matches_included := lineMatches h input.requestId true (present_subjectId input)
  matches_omitted := lineMatches h input.requestId false (present_subjectId input)

/-- A restricting rule that passes and names the policy that determined its answer. -/
def reportingRule : AnyRule where
  ruleType := js "range"
  code := js "within_range"
  message := js "within range"
  restricts := .bool true
  verify _ :=
    { reports := [.mk [] (.fields completedKeys (.str (js "completed")) (.str (js "sha256:00")) .undefined
        (.arr 0 [.str (js "p1")]) .undefined) false]
      answer := .ok (.bool true) }
  decide _ := []

/-- A token with a `sub`. -/
def aliceInput : DecisionInput where
  subject name := if name = js "sub" then .str (js "alice") else .undefined
  requestId := some (js "r-1")

/-- It restricts, and of a granting group the second rule passes. -/
theorem line_and_response_agree_reported :
    let rules := [reportingRule, promptRule (js "role") (js "editor") false false,
      promptRule (js "role") (js "owner") false true]
    ∃ d, d.isAllow = true ∧ reportedEvaluations d ≠ [] ∧ subjectId aliceInput = some (js "alice") ∧
      Agreement rules (decisionEvent d (subjectId aliceInput) (js "doc") (js "read") aliceInput.requestId)
        (toResponse (subjectId aliceInput) ⟨js "doc", js "read"⟩ d true)
        (toResponse (subjectId aliceInput) ⟨js "doc", js "read"⟩ d false) := by
  intro rules
  obtain ⟨final, d, hrun, hallow, hreported⟩ : ∃ final d,
      evaluate promptWorld OrderedMap.empty rules {} {} = (final, .done d) ∧ d.isAllow = true ∧
        reportedEvaluations d ≠ [] := ⟨_, _, rfl, rfl, by decide⟩
  exact ⟨d, hallow, hreported, by decide,
    line_and_response_agree rules d (.evaluated promptWorld _ {} {} final d hrun) ⟨js "doc", js "read"⟩ aliceInput⟩

end PolicyVerifier.Server
