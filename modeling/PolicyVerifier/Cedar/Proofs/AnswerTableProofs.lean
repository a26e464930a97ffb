import PolicyVerifier.Cedar.PolicyRule

/-!
# The answer table

What the rule makes of every value an engine may answer, against the table it documents. An answer
that passes every check but the one on its decision is taken for a decision of Cedar's whatever it
decides, so the table holds exactly where such an answer decides `allow` or `deny`.
-/

namespace PolicyVerifier.Cedar

open Js PolicyVerifier.Core

section Table

variable (rule : BoundRule) (answer : Value)

/-- An answer that is an account of an evaluation of the loaded set without errors, whatever it
decided. -/
structure Readable : Prop where
  object : answer.isObject = true
  revision : answer.field (js "revision") = .undefined ∨
    answer.field (js "revision") = .str rule.loadedRevision
  foreign : answer.field (js "foreign") = .undefined ∨ answer.field (js "foreign") = .null
  reason : (answer.field (js "reason")).isArray = true
  errors : (answer.field (js "errors")).items? = some []
  named : rule.requireConfirmedRevision = true → answer.field (js "revision") ≠ .undefined

/-- The answer's decision is `"allow"`. -/
def Allows : Prop := answer.field (js "decision") = .str (js "allow")

/-- The answer's decision is `"deny"`. -/
def Denies : Prop := answer.field (js "decision") = .str (js "deny")

/-- The answer names no determining policy. -/
def NamesNone : Prop := (answer.field (js "reason")).items? = some []

/-- The answers the table takes for a decision. -/
structure Usable : Prop where
  readable : Readable rule answer
  decision : Denies answer ∨ (Allows answer ∧ ¬ NamesNone answer)

/-- When the table lets the rule pass. -/
def ShouldPass : Prop :=
  Usable rule answer ∧
    (Allows answer ∨ (Denies answer ∧ NamesNone answer ∧ rule.onNoDeterminingPolicy = .abstain))

/-- The rule came out as the table says: it passes exactly when the table lets it, and the report it
makes is `"completed"` on a usable answer and `"failed"` on any other. -/
def MeetsTable (reported : Bool) (outcome : Except Thrown (Bool × Option RuleEvaluation)) : Prop :=
  ∃ passed evaluation, outcome = .ok (passed, evaluation) ∧
    (passed = true ↔ ShouldPass rule answer) ∧ (evaluation.isSome = reported) ∧
    ∀ e ∈ evaluation, (e.status = .completed ↔ Usable rule answer) ∧
      (e.status = .failed ↔ ¬ Usable rule answer)

/-! ## What `interpret` makes of an answer -/

variable {rule answer}

theorem readable_iff : Readable rule answer ↔
    answer.isObject = true ∧ revisionFits rule answer = true ∧ isForeign answer = false ∧
      (∃ reason, (answer.field (js "reason")).items? = some reason) ∧
      (answer.field (js "errors")).items? = some [] ∧
      (rule.requireConfirmedRevision = true → confirmed answer = true) := by
  have hforeign : isForeign answer = false ↔
      answer.field (js "foreign") = .undefined ∨ answer.field (js "foreign") = .null := by
    simp only [isForeign, decide_eq_false_iff_not, not_and, not_not]
    tauto
  have hreason : (answer.field (js "reason")).isArray = true ↔
      ∃ reason, (answer.field (js "reason")).items? = some reason := Option.isSome_iff_exists
  constructor
  · intro h
    exact ⟨h.object, by simpa [revisionFits] using h.revision, hforeign.2 h.foreign, hreason.1 h.reason,
      h.errors, fun hrequire => by simpa [confirmed] using h.named hrequire⟩
  · rintro ⟨hobject, hrevision, hnot, hlist, herrors, hnamed⟩
    exact ⟨hobject, by simpa [revisionFits] using hrevision, hforeign.1 hnot, hreason.2 hlist, herrors,
      fun hrequire => by simpa [confirmed] using hnamed hrequire⟩

/-- A failed answer: it does not pass, its evaluation is failed, and it names no policy. -/
structure Fails (answered : Answered) : Prop where
  passed : answered.passed = false
  status : answered.evaluation.status = .failed
  naming : answered.naming = none

/-- The completed answer of an evaluation that named `reason`. -/
def completedAnswer (rule : BoundRule) (answer : Value) (reason : List Value) : Answered :=
  { passed := decide (answer.field (js "decision") = .str (js "allow") ∨
      (reason = [] ∧ rule.onNoDeterminingPolicy = .abstain))
    evaluation := .completed (evaluatedRevision rule answer) {}
    naming := some (evaluatedRevision rule answer, reason) }

/-- An answer that is not an account of an evaluation fails, and so does an `allow` naming none. -/
theorem interpret_fails (h : ¬ Readable rule answer ∨ (Allows answer ∧ NamesNone answer)) :
    Fails (interpret rule answer).1 := by
  rw [readable_iff] at h
  unfold interpret
  split
  · exact ⟨rfl, rfl, rfl⟩
  split
  · exact ⟨rfl, rfl, rfl⟩
  split
  · exact ⟨rfl, rfl, rfl⟩
  rename_i hobject hrevision hforeign
  split
  · rename_i reason errors hreason herrors
    simp only
    split
    · exact ⟨rfl, rfl, rfl⟩
    rename_i hallow
    split
    · exact ⟨rfl, rfl, rfl⟩
    rename_i hnamed
    split
    · exact ⟨rfl, rfl, rfl⟩
    · -- every check was passed, so the answer is readable and names a policy if it allows
      rename_i hnoErrors
      exfalso
      rcases h with hunreadable | ⟨hallows, hnone⟩
      · refine hunreadable ⟨by simpa using hobject, by simpa using hrevision, by simpa using hforeign,
          ⟨reason, hreason⟩, ?_, fun hrequire => ?_⟩
        · rw [herrors, not_not.1 hnoErrors]
        · by_contra hnot
          exact hnamed ⟨hrequire, by simpa using hnot⟩
      · refine hallow ⟨hallows, ?_⟩
        rw [NamesNone, hreason] at hnone
        exact Option.some.inj hnone
  · exact ⟨rfl, rfl, rfl⟩

/-- Any other answer is taken for a decision, whatever it decides. -/
theorem interpret_completes (h : Readable rule answer) (hallow : ¬ (Allows answer ∧ NamesNone answer)) :
    ∃ reason, (answer.field (js "reason")).items? = some reason ∧
      (interpret rule answer).1 = completedAnswer rule answer reason := by
  obtain ⟨hobject, hrevision, hforeign, ⟨reason, hreason⟩, herrors, hnamed⟩ := readable_iff.1 h
  refine ⟨reason, hreason, ?_⟩
  have hallow' : ¬ (answer.field (js "decision") = .str (js "allow") ∧ reason = []) := by
    rintro ⟨hallows, rfl⟩
    exact hallow ⟨hallows, hreason⟩
  have hnamed' : ¬ (rule.requireConfirmedRevision = true ∧ (!confirmed answer) = true) := by
    rintro ⟨hrequire, hnot⟩
    simp [hnamed hrequire] at hnot
  simp only [interpret, hobject, hrevision, hforeign, hreason, herrors, if_neg hallow', if_neg hnamed',
    Bool.not_true, Bool.false_eq_true, if_false, ne_eq, not_true_eq_false]
  unfold completedAnswer
  by_cases hallows : answer.field (js "decision") = .str (js "allow")
  · simp [hallows]
  · by_cases hnone : reason = []
    · simp [hallows, hnone]
    · simp [hallows, hnone]

end Table

/-! ## What the reporter is told -/

section Delivered

variable (toStr : Value → Except Thrown Str)

/-- The distinct elements `sort` compares. -/
def compared (reason : List Value) : List Value := (distinctNames reason).filter fun v => v ≠ .undefined

/-- The reasons can be put in order: `sort` has nothing to compare, or every element it compares has
a string. -/
def Orderable (answer : Value) : Prop :=
  ∀ reason, (answer.field (js "reason")).items? = some reason →
    (compared reason).length < 2 ∨ ∀ v ∈ compared reason, ∃ s, toStr v = .ok s

theorem mapM_ok_iff {α β : Type} (f : α → Except Thrown β) (xs : List α) :
    (∃ ys, xs.mapM f = .ok ys) ↔ ∀ x ∈ xs, ∃ y, f x = .ok y := by
  induction xs with
  | nil => simp [pure, Except.pure]
  | cons x xs ih =>
    rw [List.mapM_cons, List.forall_mem_cons, ← ih]
    cases hx : f x with
    | error e => simp [bind, Except.bind]
    | ok y => cases xs.mapM f <;> simp [bind, Except.bind, pure, Except.pure]

theorem sortValues_ok_iff (xs : List Value) :
    (∃ ys, sortValues toStr xs = .ok ys) ↔
      (xs.filter fun v => v ≠ .undefined).length < 2 ∨
        ∀ v ∈ xs.filter fun v => v ≠ .undefined, ∃ s, toStr v = .ok s := by
  have hkeyed : (∀ v ∈ xs.filter fun v => v ≠ .undefined, ∃ s, toStr v = .ok s) ↔
      ∃ keyed, (xs.filter fun v => v ≠ .undefined).mapM
        (fun v => (toStr v).map fun s => (s, v)) = .ok keyed := by
    rw [mapM_ok_iff]
    refine forall₂_congr fun v _ => ?_
    cases toStr v <;> simp [Except.map]
  unfold sortValues
  simp only
  split
  · rename_i hfew
    exact ⟨fun _ => Or.inl hfew, fun _ => ⟨_, rfl⟩⟩
  · rename_i hmany
    rw [or_iff_right hmany, hkeyed]
    cases (xs.filter fun v => v ≠ .undefined).mapM (fun v => (toStr v).map fun s => (s, v)) <;>
      simp [bind, Except.bind, pure, Except.pure]

/-- A failed answer is reported as it is. -/
theorem deliver_fails {answered : Answered} (h : Fails answered) (reporter : Option Reporter) :
    deliver toStr answered reporter =
      .ok (false, reporter.map fun _ => answered.evaluation) := by
  rw [← h.passed]
  cases reporter with
  | none => rfl
  | some r => cases r <;> simp [deliver, told, h.naming, bind, Except.bind, pure, Except.pure]

end Delivered

/-! ## Where the table holds -/

/-- The answers the table holds on: those a check before the decision refuses, and those that decide
`allow` or `deny`. Without a reporter nothing is recorded, and it is enough that the decision is not
one `"abstain"` lets pass. With a reporter that bounds determining policies they are sorted for it,
and that must be possible. -/
def TableHolds (toStr : Value → Except Thrown Str) (rule : BoundRule) (answer : Value)
    (reporter : Option Reporter) : Prop :=
  Readable rule answer →
    ((Allows answer ∨ Denies answer) ∨
      (reporter = none ∧ ¬ (NamesNone answer ∧ rule.onNoDeterminingPolicy = .abstain))) ∧
    ∀ bound, reporter = some (.bounding bound) → Orderable toStr answer

section Holds

variable {toStr : Value → Except Thrown Str} {rule : BoundRule} {answer : Value}

theorem denies_not_allows (h : Denies answer) : ¬ Allows answer := by
  intro hallows
  rw [Denies, hallows] at h
  exact absurd h (by decide)

/-- What the table asks of a completed answer: exactly that the decision is one. -/
theorem completed_meets {reason : List Value}
    (hreason : (answer.field (js "reason")).items? = some reason) (hreadable : Readable rule answer)
    (hallow : ¬ (Allows answer ∧ NamesNone answer)) :
    (Usable rule answer ↔ Allows answer ∨ Denies answer) ∧
      (((completedAnswer rule answer reason).passed = true ↔ ShouldPass rule answer) ↔
        (Allows answer ∨ Denies answer) ∨
          ¬ (NamesNone answer ∧ rule.onNoDeterminingPolicy = .abstain)) := by
  have husable : Usable rule answer ↔ Allows answer ∨ Denies answer := by
    refine ⟨fun h => h.decision.elim Or.inr fun hallows => Or.inl hallows.1, fun h => ⟨hreadable, ?_⟩⟩
    rcases h with hallows | hdenies
    · exact Or.inr ⟨hallows, fun hnone => hallow ⟨hallows, hnone⟩⟩
    · exact Or.inl hdenies
  have hnone : NamesNone answer ↔ reason = [] := by
    rw [NamesNone, hreason, Option.some.injEq]
  have hpassed : (completedAnswer rule answer reason).passed = true ↔
      Allows answer ∨ (NamesNone answer ∧ rule.onNoDeterminingPolicy = .abstain) := by
    rw [hnone]
    simp [completedAnswer, Allows]
  refine ⟨husable, ?_⟩
  rw [hpassed, ShouldPass, husable]
  by_cases hallows : Allows answer
  · simp [hallows]
  · by_cases hdenies : Denies answer
    · simp [hallows, hdenies]
    · simp [hallows, hdenies]

theorem orderable_iff {reason : List Value}
    (hreason : (answer.field (js "reason")).items? = some reason) :
    Orderable toStr answer ↔ ∃ sorted, sortValues toStr (distinctNames reason) = .ok sorted := by
  rw [sortValues_ok_iff]
  refine ⟨fun h => h reason hreason, fun h reason' hreason' => ?_⟩
  obtain rfl := Option.some.inj (hreason.symm.trans hreason')
  exact h

/-- A completed report meets the table exactly when the answer is a decision. -/
theorem meets_of_completed {reason : List Value}
    (hreason : (answer.field (js "reason")).items? = some reason) (hreadable : Readable rule answer)
    (hallow : ¬ (Allows answer ∧ NamesNone answer)) {e : RuleEvaluation} (hstatus : e.status = .completed) :
    MeetsTable rule answer true (.ok ((completedAnswer rule answer reason).passed, some e)) ↔
      Allows answer ∨ Denies answer := by
  obtain ⟨husable, hpassed⟩ := completed_meets hreason hreadable hallow
  constructor
  · rintro ⟨_, _, hok, -, -, hreport⟩
    obtain ⟨rfl, rfl⟩ := Prod.mk.inj (Except.ok.inj hok)
    exact husable.1 ((hreport e rfl).1.1 hstatus)
  · intro hdecides
    refine ⟨_, _, rfl, hpassed.2 (Or.inl hdecides), rfl, fun e' he' => ?_⟩
    obtain rfl := Option.some.inj he'
    rw [hstatus]
    exact ⟨iff_of_true rfl (husable.2 hdecides), iff_of_false (by simp) (not_not.2 (husable.2 hdecides))⟩

/-- What a rule that read an answer delivers meets the table exactly where the table holds. -/
theorem deliver_meets_table (reporter : Option Reporter) :
    MeetsTable rule answer reporter.isSome (deliver toStr (interpret rule answer).1 reporter) ↔
      TableHolds toStr rule answer reporter := by
  by_cases hfails : ¬ Readable rule answer ∨ (Allows answer ∧ NamesNone answer)
  · have hfailed := interpret_fails hfails
    have hunusable : ¬ Usable rule answer := by
      rintro ⟨hreadable, hdenies | ⟨hallows, hnames⟩⟩
      · rcases hfails with hunreadable | ⟨hallows, -⟩
        · exact hunreadable hreadable
        · exact denies_not_allows hdenies hallows
      · rcases hfails with hunreadable | ⟨-, hnone⟩
        · exact hunreadable hreadable
        · exact hnames hnone
    have hholds : TableHolds toStr rule answer reporter := by
      intro hreadable
      rcases hfails with hunreadable | ⟨hallows, hnone⟩
      · exact absurd hreadable hunreadable
      · refine ⟨Or.inl (Or.inl hallows), fun _ _ reason hreason => Or.inl ?_⟩
        rw [NamesNone, hreason] at hnone
        obtain rfl := Option.some.inj hnone
        decide
    refine iff_of_true ⟨false, _, deliver_fails toStr hfailed reporter, ?_, by simp, ?_⟩ hholds
    · exact iff_of_false (by simp) fun hshould => hunusable hshould.1
    · intro e he
      obtain ⟨r, -, rfl⟩ := Option.map_eq_some_iff.1 he
      rw [hfailed.status]
      exact ⟨iff_of_false (by simp) hunusable, iff_of_true rfl hunusable⟩
  · rw [not_or, not_not] at hfails
    obtain ⟨hreadable, hallow⟩ := hfails
    obtain ⟨reason, hreason, hinterpret⟩ := interpret_completes hreadable hallow
    have hdemand : TableHolds toStr rule answer reporter ↔
        ((Allows answer ∨ Denies answer) ∨
          (reporter = none ∧ ¬ (NamesNone answer ∧ rule.onNoDeterminingPolicy = .abstain))) ∧
        ∀ bound, reporter = some (.bounding bound) → Orderable toStr answer :=
      ⟨fun h => h hreadable, fun h _ => h⟩
    rw [hinterpret, hdemand]
    cases reporter with
    | none =>
      obtain ⟨-, hpassed⟩ := completed_meets hreason hreadable hallow
      refine Iff.trans ⟨?_, fun h => ?_⟩ (hpassed.trans ⟨fun h => ⟨?_, by simp⟩, fun h => ?_⟩)
      · rintro ⟨_, _, hok, hpass, -⟩
        obtain ⟨rfl, rfl⟩ := Prod.mk.inj (Except.ok.inj hok)
        exact hpass
      · exact ⟨_, _, rfl, h, rfl, by simp⟩
      · exact h.imp_right fun hnot => ⟨rfl, hnot⟩
      · exact h.1.imp_right fun hnone => hnone.2
    | some r =>
      cases r with
      | plain =>
        refine (meets_of_completed hreason hreadable hallow rfl).trans ⟨fun h => ⟨Or.inl h, by simp⟩, fun h => ?_⟩
        exact h.1.elim id fun hnone => absurd hnone.1 (by simp)
      | bounding bound =>
        have hdeliver : deliver toStr (completedAnswer rule answer reason) (some (.bounding bound)) =
            (sortValues toStr (distinctNames reason)).map fun sorted =>
              ((completedAnswer rule answer reason).passed,
                some (.completed (evaluatedRevision rule answer) (bound sorted))) := by
          simp only [deliver, told, naming, completedAnswer]
          cases sortValues toStr (distinctNames reason) <;> rfl
        rw [hdeliver]
        cases hsorted : sortValues toStr (distinctNames reason) with
        | error e =>
          refine iff_of_false (by rintro ⟨_, _, hok, -⟩; exact absurd hok (by simp [Except.map])) ?_
          rintro ⟨-, horder⟩
          obtain ⟨sorted, hok⟩ := (orderable_iff hreason).1 (horder bound rfl)
          exact absurd (hsorted.symm.trans hok) (by simp)
        | ok sorted =>
          refine (meets_of_completed hreason hreadable hallow rfl).trans ⟨fun h => ⟨Or.inl h, ?_⟩, fun h => ?_⟩
          · exact fun _ _ => (orderable_iff hreason).2 ⟨sorted, hsorted⟩
          · exact h.1.elim id fun hnone => absurd hnone.1 (by simp)

end Holds

/-! ## The rule -/

/-- Over either kind of engine, what the rule answers and reports on a request it could build and an
answer of any shape meets the table exactly where the table holds. -/
theorem answer_table (toStr : Value → Except Thrown Str) (rule : BoundRule)
    (isAuthorized : CedarRequest → Except Thrown Value) (aborted : Option Thrown) (attrs : Attributes)
    (reporter : Option Reporter) (request : CedarRequest) (answer : Value)
    (hbuilt : buildCedarRequest rule.mapping attrs = .ok request)
    (hanswer : isAuthorized request = .ok answer) :
    (MeetsTable rule answer reporter.isSome (rule.verify toStr isAuthorized attrs reporter) ↔
      TableHolds toStr rule answer reporter) ∧
    (MeetsTable rule answer reporter.isSome (rule.decide toStr isAuthorized aborted attrs reporter) ↔
      TableHolds toStr rule answer reporter) := by
  have hverify : rule.verify toStr isAuthorized attrs reporter =
      deliver toStr (interpret rule answer).1 reporter := by
    simp only [BoundRule.verify, hbuilt, hanswer]
  have hdecide : rule.decide toStr isAuthorized aborted attrs reporter =
      deliver toStr (interpret rule answer).1 reporter := by
    simp only [BoundRule.decide, hbuilt, hanswer]
  rw [hverify, hdecide]
  exact ⟨deliver_meets_table reporter, deliver_meets_table reporter⟩

/-- A mapping that reads nothing but the ids. -/
def idsOnly : ResolvedMapping :=
  { principalType := js "User", principalIdAttribute := js "userId", principal := {}
    actionType := js "Action", actionIdAttribute := js "requestAction"
    resourceTypeAttribute := js "requestResourceType", resourceIdAttribute := js "requestResourceId"
    resourceIdWhenAbsent := [], resource := {}, context := ∅, sharedEntity := .strict
    types_differ := default_types_differ }

/-- A rule beside other rules: it abstains where no policy determined the request. -/
def abstaining : BoundRule :=
  { ruleType := js "cedar", onNoDeterminingPolicy := .abstain, loadedRevision := js "sha256:AA"
    requireConfirmedRevision := false, mapping := idsOnly, logEvaluationErrors := true }

/-- The attributes of a request to read a document. -/
def readDocument : Attributes :=
  OrderedMap.ofList
    [(js "userId", .str (js "alice")), (js "requestAction", .str (js "read")),
      (js "requestResourceType", .str (js "Document"))]

/-- An answer that names no policy and raised no error, with a decision of the given text. -/
def answering (decision : String) : Value :=
  .obj 0
    [(js "decision", .str (js decision)), (js "reason", .list []), (js "errors", .list [])]

/-- `ToString` on strings; nothing else is turned into one here. -/
def stringsOnly (v : Value) : Except Thrown Str :=
  match v with
  | .str s => .ok s
  | _ => .error (.typeError (js "Cannot convert object to primitive value"))

/-- A deny that names no policy, under `"abstain"`: the rule passes, and reports a completed
evaluation. -/
theorem answer_table_abstains :
    MeetsTable abstaining (answering "deny") true
      (abstaining.verify stringsOnly (fun _ => .ok (answering "deny")) readDocument
        (some (.bounding boundDeterminingPolicies))) := by
  obtain ⟨request, hbuilt⟩ : ∃ request, buildCedarRequest abstaining.mapping readDocument = .ok request :=
    ⟨_, rfl⟩
  refine (answer_table stringsOnly abstaining (fun _ => .ok (answering "deny")) none readDocument
    (some (.bounding boundDeterminingPolicies)) request (answering "deny") hbuilt rfl).1.2 fun _ => ?_
  refine ⟨Or.inl (Or.inr rfl), fun _ _ reason hreason => Or.inl ?_⟩
  obtain rfl : ([] : List Value) = reason := Option.some.inj hreason
  decide

/-- A decision that is neither `allow` nor `deny` is passed under `"abstain"`, and reported as a
completed evaluation. -/
theorem unknown_decision_passes :
    abstaining.verify stringsOnly (fun _ => .ok (answering "unsure")) readDocument
        (some (.bounding boundDeterminingPolicies)) =
      .ok (true, some (.completed (.unknown (some (js "sha256:AA")))
        { determiningPolicies := some [] })) ∧
    ¬ Usable abstaining (answering "unsure") ∧
    ¬ MeetsTable abstaining (answering "unsure") true
      (abstaining.verify stringsOnly (fun _ => .ok (answering "unsure")) readDocument
        (some (.bounding boundDeterminingPolicies))) := by
  have hunusable : ¬ Usable abstaining (answering "unsure") := by
    rintro ⟨-, hdenies | ⟨hallows, -⟩⟩
    · exact absurd hdenies (by unfold Denies; decide)
    · exact absurd hallows (by unfold Allows; decide)
  refine ⟨rfl, hunusable, ?_⟩
  rintro ⟨passed, evaluation, hok, hpass, -⟩
  obtain ⟨rfl, -⟩ : true = passed ∧ _ := Prod.mk.inj (Except.ok.inj hok)
  exact hunusable (hpass.1 rfl).1

end PolicyVerifier.Cedar
