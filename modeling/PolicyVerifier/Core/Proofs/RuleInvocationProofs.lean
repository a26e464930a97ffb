import PolicyVerifier.Core.RuleEvaluation

/-!
# One report or a fault

What a rule reports through one invocation is one valid report, or none, or a refusal that comes back
from `conclude`. A report made while another one is being read is where the code departs from that.
-/

namespace PolicyVerifier.Core

open Js

/-! ## What a rule's calls should come to -/

mutual

/-- The report calls made in one call: itself, and those its accessors make. -/
def ReportCall.made : ReportCall → Nat
  | .mk nested _ _ => 1 + madeAll nested

/-- The report calls made in a list of calls. -/
def madeAll : List ReportCall → Nat
  | [] => 0
  | call :: calls => call.made + madeAll calls

end

mutual

/-- The first refusal of one call that finds nothing reported: of what its accessors reported, or of
its own reading. -/
def ReportCall.firstRefusal : ReportCall → Option Thrown
  | .mk nested reading _ =>
    (firstRefusals nested).or
      (match readEvaluation reading with
        | .error e => some e
        | .ok _ => none)

/-- The first refusal of a list of calls: of the first, or, where there is a second, the second's. -/
def firstRefusals : List ReportCall → Option Thrown
  | [] => none
  | call :: calls =>
    call.firstRefusal.or (if calls = [] then none else some RuleInvocation.reportedTwice)

end

/-- One report is made, with nothing reported while it is read, and it reads as `evaluation`. -/
def ReportedOnce (calls : List ReportCall) (evaluation : RuleEvaluation) : Prop :=
  ∃ reading caught, calls = [.mk [] reading caught] ∧ readEvaluation reading = .ok evaluation

/-- What the reports of one invocation and its answer come to. -/
structure ReportLaw (calls : List ReportCall) (answer : Value) : Prop where
  /-- A result carries an evaluation exactly when one report was made and read as that evaluation. -/
  carries : ∀ passed evaluation,
    ((RuleInvocation.beginRuleInvocation.reports calls).concluded answer).2 =
        .ok { passed, evaluation := some evaluation } ↔
      answer = .bool passed ∧ ReportedOnce calls evaluation ∧
        (passed = true → evaluation.status = .completed)
  /-- A second report, or one that does not read, is the first refusal from `conclude`. -/
  refused : (2 ≤ madeAll calls ∨ ∃ reading caught e, calls = [.mk [] reading caught] ∧
      readEvaluation reading = .error e) →
    ∃ e, firstRefusals calls = some e ∧
      ((RuleInvocation.beginRuleInvocation.reports calls).concluded answer).2 = .error e
  /-- An answer that is no boolean throws. -/
  not_boolean : (∀ passed, answer ≠ .bool passed) →
    ∃ e, ((RuleInvocation.beginRuleInvocation.reports calls).concluded answer).2 = .error e
  /-- A pass that reports anything but a completed evaluation throws. -/
  not_completed : answer = .bool true → ∀ evaluation, ReportedOnce calls evaluation →
    evaluation.status ≠ .completed →
    ∃ e, ((RuleInvocation.beginRuleInvocation.reports calls).concluded answer).2 = .error e
  /-- After `conclude`, and after `close`, a report changes nothing and throws nothing. -/
  closed : ∀ s, s = ((RuleInvocation.beginRuleInvocation.reports calls).concluded answer).1 ∨
      s = (RuleInvocation.beginRuleInvocation.reports calls).close →
    (∀ later, s.reports later = s) ∧ ∀ call, s.report call = (s, .ok ())

/-- A report all of whose calls read: each of them makes one report while it is read, up to one that
makes none. -/
inductive AllRead : ReportCall → Prop where
  | last (reading : Reading) (caught : Bool) (evaluation : RuleEvaluation)
      (reads : readEvaluation reading = .ok evaluation) : AllRead (.mk [] reading caught)
  | around (inner : ReportCall) (reading : Reading) (caught : Bool) (evaluation : RuleEvaluation)
      (reads : readEvaluation reading = .ok evaluation) (rest : AllRead inner) :
      AllRead (.mk [inner] reading caught)

/-- The only report of a rule makes another while it is read, and both are taken. -/
def Overwritten (calls : List ReportCall) : Prop :=
  ∃ inner reading caught, calls = [.mk [inner] reading caught] ∧
    AllRead (.mk [inner] reading caught)

/-! ## What they come to -/

namespace RuleInvocation

variable {s : RuleInvocation}

theorem report_closed (h : s.closed = true) (call : ReportCall) : s.report call = (s, .ok ()) := by
  cases call with
  | mk nested reading caught => rw [report, if_pos h]

theorem reports_closed (h : s.closed = true) (calls : List ReportCall) : s.reports calls = s := by
  induction calls with
  | nil => rfl
  | cons call calls ih =>
    rw [reports, List.foldl_cons, report_closed h]
    exact ih

/-- Something was reported, or refused. -/
def Busy (s : RuleInvocation) : Prop := s.reported.isSome = true ∨ s.refusal.isSome = true

/-- What a second report leaves behind: the first refusal, or its own. -/
def twice (s : RuleInvocation) : RuleInvocation :=
  { s with refusal := some (s.refusal.getD reportedTwice) }

theorem busy_twice (s : RuleInvocation) : s.twice.Busy := Or.inr rfl

theorem report_busy (hopen : s.closed = false) (hbusy : s.Busy) (call : ReportCall) :
    s.report call = (s.twice, .error (s.refusal.getD reportedTwice)) := by
  cases call with
  | mk nested reading caught =>
    have htaken : s.reported.isSome = true ∨ s.refusal.isSome = true := hbusy
    rw [report, if_neg (by simp [hopen]), if_pos htaken]
    rfl

theorem reports_busy (hopen : s.closed = false) (hbusy : s.Busy) {calls : List ReportCall}
    (hne : calls ≠ []) : s.reports calls = s.twice := by
  induction calls generalizing s with
  | nil => exact absurd rfl hne
  | cons call calls ih =>
    have hstep : s.reports (call :: calls) = s.twice.reports calls := by
      rw [reports, List.foldl_cons, report_busy hopen hbusy]
      rfl
    rw [hstep]
    by_cases hrest : calls = []
    · rw [hrest]
      rfl
    · exact ih hopen (busy_twice s) hrest

/-- The same where a refusal that is not caught ends the list. -/
theorem reportAll_busy (hopen : s.closed = false) (hbusy : s.Busy) {calls : List ReportCall}
    (hne : calls ≠ []) : (s.reportAll calls).1 = s.twice ∧
      ∀ e, (s.reportAll calls).2 = .error e → e = s.refusal.getD reportedTwice := by
  induction calls generalizing s with
  | nil => exact absurd rfl hne
  | cons call calls ih =>
    obtain ⟨nested, reading, caught⟩ := call
    have hstep := report_busy hopen hbusy (.mk nested reading caught)
    rw [reportAll, hstep]
    cases caught with
    | false => exact ⟨rfl, fun e he => (Except.error.inj he).symm⟩
    | true =>
      by_cases hrest : calls = []
      · rw [hrest]
        exact ⟨rfl, fun e he => absurd he (by simp [reportAll])⟩
      · exact ih hopen (busy_twice s) hrest

end RuleInvocation

open RuleInvocation

/-- What a call, or a list of calls, leaves of an invocation in which nothing had been reported. -/
structure Leaves (refusal : Option Thrown) (out : RuleInvocation × Except Thrown Unit) : Prop where
  opened : out.1.closed = false
  refusal_eq : out.1.refusal = refusal
  thrown : ∀ e, out.2 = .error e → refusal = some e

mutual

/-- One call: it leaves its first refusal, and where it has none, what it read. -/
theorem report_leaves : ∀ call : ReportCall,
    Leaves call.firstRefusal (beginRuleInvocation.report call) ∧
    (beginRuleInvocation.report call).1.Busy ∧
    ∀ nested reading caught, call = .mk nested reading caught → call.firstRefusal = none →
      ∃ evaluation, readEvaluation reading = .ok evaluation ∧
        (beginRuleInvocation.report call).1 = { reported := some evaluation }
  | .mk nested reading caught => by
    have hnested := reportAll_leaves nested
    rw [report, if_neg (by simp [beginRuleInvocation]), if_neg (by simp [beginRuleInvocation]),
      ReportCall.firstRefusal]
    cases hout : beginRuleInvocation.reportAll nested with
    | mk s' r =>
      rw [hout] at hnested
      obtain ⟨hopen, hrefusal, hthrown⟩ := hnested
      cases r with
      | error e =>
        have hfirst := hthrown e rfl
        have hkept : s'.refusal = some e := hrefusal.trans hfirst
        refine ⟨⟨hopen, ?_, fun e' he' => ?_⟩, Or.inr rfl, ?_⟩
        · simp [refuse, hkept, hfirst]
        · have : e' = e := by simpa [refuse, hkept] using he'.symm
          simp [hfirst, this]
        · simp [hfirst]
      | ok u =>
        cases hread : readEvaluation reading with
        | error e =>
          have hor : (firstRefusals nested).or (some e) = some (s'.refusal.getD e) := by
            rw [show s'.refusal = _ from hrefusal]
            cases firstRefusals nested <;> rfl
          refine ⟨⟨hopen, hor.symm, fun e' he' => ?_⟩, Or.inr rfl, ?_⟩
          · rw [hor, ← Except.error.inj he']
          · simp [hor]
        | ok evaluation =>
          refine ⟨⟨hopen, by rw [Option.or_none]; exact hrefusal, fun e' he' => absurd he' (by simp)⟩,
            Or.inl rfl, ?_⟩
          rintro _ reading' _ heq hnone
          obtain ⟨-, rfl, -⟩ := ReportCall.mk.inj heq
          refine ⟨evaluation, hread, ?_⟩
          rw [Option.or_none] at hnone
          have hclean : s'.refusal = none := hrefusal.trans hnone
          have hopen' : s'.closed = false := hopen
          simp [hclean, hopen']

/-- A list of calls: it leaves the first refusal there was. -/
theorem reportAll_leaves : ∀ calls : List ReportCall,
    Leaves (firstRefusals calls) (beginRuleInvocation.reportAll calls)
  | [] => ⟨rfl, rfl, fun e he => absurd he (by simp [reportAll])⟩
  | .mk nested reading caught :: calls => by
    obtain ⟨⟨hopen, hrefusal, hthrown⟩, hbusy, -⟩ := report_leaves (.mk nested reading caught)
    rw [reportAll, firstRefusals]
    cases hout : beginRuleInvocation.report (.mk nested reading caught) with
    | mk s' r =>
      rw [hout] at hopen hrefusal hthrown hbusy
      -- what the calls that follow leave, when they are made at all
      have hrest : Leaves ((ReportCall.mk nested reading caught).firstRefusal.or
          (if calls = [] then none else some reportedTwice)) (s'.reportAll calls) := by
        by_cases hnil : calls = []
        · rw [hnil, if_pos rfl, Option.or_none]
          exact ⟨hopen, hrefusal, fun e he => absurd he (by simp [reportAll])⟩
        · obtain ⟨hstate, herror⟩ := reportAll_busy hopen hbusy hnil
          have hor : (ReportCall.mk nested reading caught).firstRefusal.or (some reportedTwice) =
              some (s'.refusal.getD reportedTwice) := by
            rw [show s'.refusal = _ from hrefusal]
            cases (ReportCall.mk nested reading caught).firstRefusal <;> rfl
          rw [if_neg hnil, hor]
          exact ⟨by rw [hstate]; exact hopen, by rw [hstate]; rfl,
            fun e he => by rw [herror e he]⟩
      cases r with
      | ok u => exact hrest
      | error e =>
        cases caught with
        | true => exact hrest
        | false =>
          have hfirst := hthrown e rfl
          refine ⟨hopen, ?_, fun e' he' => ?_⟩
          · rw [hfirst] at hrefusal ⊢
            exact hrefusal
          · rw [hfirst, Except.error.inj he']
            rfl

end

/-- The reports of a rule, caught or not, leave the first refusal there was; where there is none, at
most one report was made, and it is what it read. -/
theorem reports_leave (calls : List ReportCall) :
    (beginRuleInvocation.reports calls).refusal = firstRefusals calls ∧
    (firstRefusals calls = none → calls = [] ∨ ∃ nested reading caught evaluation,
      calls = [.mk nested reading caught] ∧ readEvaluation reading = .ok evaluation ∧
      (beginRuleInvocation.reports calls).reported = some evaluation) := by
  cases calls with
  | nil => exact ⟨rfl, fun _ => Or.inl rfl⟩
  | cons call calls =>
    obtain ⟨⟨hopen, hrefusal, -⟩, hbusy, hread⟩ := report_leaves call
    have hstep : beginRuleInvocation.reports (call :: calls) =
        (beginRuleInvocation.report call).1.reports calls := rfl
    rw [hstep, firstRefusals]
    by_cases hnil : calls = []
    · rw [hnil, if_pos rfl, Option.or_none]
      refine ⟨hrefusal, fun hnone => Or.inr ?_⟩
      obtain ⟨nested, reading, caught⟩ := call
      obtain ⟨evaluation, hok, hstate⟩ := hread nested reading caught rfl hnone
      refine ⟨nested, reading, caught, evaluation, rfl, hok, ?_⟩
      show (beginRuleInvocation.report _).1.reported = _
      rw [hstate]
    · rw [reports_busy hopen hbusy hnil, if_neg hnil]
      have hor : call.firstRefusal.or (some reportedTwice) =
          some ((beginRuleInvocation.report call).1.refusal.getD reportedTwice) := by
        rw [hrefusal]
        cases call.firstRefusal <;> rfl
      rw [hor]
      exact ⟨rfl, fun hnone => absurd hnone (by simp)⟩

/-! ## The law -/

theorem one_le_made (call : ReportCall) : 1 ≤ call.made := by
  obtain ⟨nested, reading, caught⟩ := call
  rw [ReportCall.made]
  omega

mutual

/-- A call refuses nothing exactly when all it is made of reads. -/
theorem allRead_iff : ∀ call : ReportCall, AllRead call ↔ call.firstRefusal = none
  | .mk nested reading caught => by
    have hnested := nested_allRead_iff nested
    rw [ReportCall.firstRefusal, Option.or_eq_none_iff, ← hnested]
    constructor
    · intro h
      cases h with
      | last _ _ evaluation reads => exact ⟨Or.inl rfl, by rw [reads]⟩
      | around inner _ _ evaluation reads rest => exact ⟨Or.inr ⟨inner, rfl, rest⟩, by rw [reads]⟩
    · rintro ⟨hshape, hread⟩
      cases hok : readEvaluation reading with
      | error e => exact absurd hread (by simp [hok])
      | ok evaluation =>
        rcases hshape with rfl | ⟨inner, rfl, hinner⟩
        · exact .last reading caught evaluation hok
        · exact .around inner reading caught evaluation hok hinner

theorem nested_allRead_iff : ∀ calls : List ReportCall,
    (calls = [] ∨ ∃ inner, calls = [inner] ∧ AllRead inner) ↔ firstRefusals calls = none
  | [] => by simp [firstRefusals]
  | [call] => by simp [firstRefusals, allRead_iff call]
  | call :: call' :: calls => by simp [firstRefusals]

end

/-- A report while another is read, both taken, leaves no refusal behind. -/
theorem Overwritten.firstRefusals_eq {calls : List ReportCall} (h : Overwritten calls) :
    firstRefusals calls = none ∧ 2 ≤ madeAll calls := by
  obtain ⟨inner, reading, caught, rfl, hread⟩ := h
  have hinner := one_le_made inner
  refine ⟨by simp [firstRefusals, (allRead_iff _).1 hread], ?_⟩
  simp only [madeAll, ReportCall.made]
  omega

/-- Where nothing is refused and no report is overwritten, at most one report was made, with nothing
reported while it was read. -/
theorem reported_once {calls : List ReportCall} (hno : ¬ Overwritten calls)
    (hnone : firstRefusals calls = none) :
    (calls = [] ∧ (beginRuleInvocation.reports calls).reported = none) ∨
    ∃ reading caught evaluation, calls = [.mk [] reading caught] ∧
      readEvaluation reading = .ok evaluation ∧
      (beginRuleInvocation.reports calls).reported = some evaluation := by
  rcases (reports_leave calls).2 hnone with rfl | ⟨nested, reading, caught, evaluation, rfl, hok, hrep⟩
  · exact Or.inl ⟨rfl, rfl⟩
  · right
    have hread : AllRead (.mk nested reading caught) := by
      rw [allRead_iff]
      simpa [firstRefusals] using hnone
    cases hread with
    | last => exact ⟨reading, caught, evaluation, rfl, hok, hrep⟩
    | around inner _ _ _ reads rest =>
      exact absurd ⟨inner, reading, caught, rfl, .around inner reading caught _ reads rest⟩ hno

theorem ReportedOnce.firstRefusals_eq {calls : List ReportCall} {evaluation : RuleEvaluation}
    (h : ReportedOnce calls evaluation) : firstRefusals calls = none := by
  obtain ⟨reading, caught, rfl, hok⟩ := h
  simp [firstRefusals, ReportCall.firstRefusal, hok]

/-- What `conclude` answers where nothing was refused. -/
theorem conclude_ok_iff {s : RuleInvocation} (h : s.refusal = none) (answer : Value) (passed : Bool)
    (reported : Option RuleEvaluation) :
    s.conclude answer = .ok { passed, evaluation := reported } ↔
      answer = .bool passed ∧ s.reported = reported ∧
        ∀ evaluation, reported = some evaluation → passed = true →
          evaluation.status = .completed := by
  unfold conclude
  rw [h]
  cases answer with
  | bool b =>
    cases hrep : s.reported with
    | none =>
      constructor
      · intro hok
        obtain ⟨rfl, rfl⟩ := RuleResult.mk.inj (Except.ok.inj hok)
        exact ⟨rfl, rfl, fun _ hsome => absurd hsome (by simp)⟩
      · rintro ⟨hb, rfl, -⟩
        rw [Value.bool.inj hb]
    | some evaluation =>
      by_cases hbad : b = true ∧ evaluation.status ≠ .completed
      · simp only [hbad, ne_eq, not_false_eq_true, and_self, if_true]
        refine iff_of_false (by simp) ?_
        rintro ⟨hb, rfl, hstatus⟩
        obtain rfl := Value.bool.inj hb
        exact hbad.2 (hstatus evaluation rfl rfl)
      · simp only [hbad, if_false]
        constructor
        · intro hok
          obtain ⟨rfl, rfl⟩ := RuleResult.mk.inj (Except.ok.inj hok)
          refine ⟨rfl, rfl, fun e he hpass => ?_⟩
          obtain rfl := Option.some.inj he
          by_contra hstatus
          exact hbad ⟨hpass, hstatus⟩
        · rintro ⟨hb, rfl, -⟩
          rw [Value.bool.inj hb]
  | _ => exact iff_of_false (by simp) (by simp)

/-- `conclude` throws where it does not answer a result. -/
theorem conclude_throws {s : RuleInvocation} {answer : Value}
    (h : ∀ passed reported, s.conclude answer ≠ .ok { passed, evaluation := reported }) :
    ∃ e, s.conclude answer = .error e := by
  cases hc : s.conclude answer with
  | ok result => exact absurd hc (h result.passed result.evaluation)
  | error e => exact ⟨e, rfl⟩

/-- For every sequence of reports and every answer, one report or a fault, exactly when no report is
overwritten by one it is made within. -/
theorem report_law_iff (calls : List ReportCall) (answer : Value) :
    ReportLaw calls answer ↔ ¬ Overwritten calls := by
  constructor
  · intro hlaw hover
    obtain ⟨hnone, htwo⟩ := hover.firstRefusals_eq
    obtain ⟨e, he, -⟩ := hlaw.refused (Or.inl htwo)
    exact absurd (he.symm.trans hnone) (by simp)
  · intro hno
    have hstate := (reports_leave calls).1
    have hclosed : ∀ s, s = ((beginRuleInvocation.reports calls).concluded answer).1 ∨
        s = (beginRuleInvocation.reports calls).close →
        (∀ later, s.reports later = s) ∧ ∀ call, s.report call = (s, .ok ()) := by
      rintro s (rfl | rfl)
      · exact ⟨reports_closed rfl, report_closed rfl⟩
      · exact ⟨reports_closed rfl, report_closed rfl⟩
    cases hfirst : firstRefusals calls with
    | some e =>
      have hthrows : ((beginRuleInvocation.reports calls).concluded answer).2 = .error e := by
        show (beginRuleInvocation.reports calls).conclude answer = .error e
        unfold conclude
        rw [hstate, hfirst]
      have honce : ∀ evaluation, ¬ ReportedOnce calls evaluation := fun evaluation h =>
        absurd (hfirst.symm.trans h.firstRefusals_eq) (by simp)
      refine ⟨fun passed evaluation => ?_, fun _ => ⟨e, hfirst, hthrows⟩, fun _ => ⟨e, hthrows⟩,
        fun _ _ _ _ => ⟨e, hthrows⟩, hclosed⟩
      rw [hthrows]
      exact iff_of_false (by simp) fun h => honce evaluation h.2.1
    | none =>
      have hclean : (beginRuleInvocation.reports calls).refusal = none := hstate.trans hfirst
      have hreported : ∀ evaluation, (beginRuleInvocation.reports calls).reported = some evaluation ↔
          ReportedOnce calls evaluation := by
        intro evaluation
        rcases reported_once hno hfirst with ⟨rfl, hrep⟩ | ⟨reading, caught, ev, rfl, hok, hrep⟩
        · refine iff_of_false (by simp [hrep]) ?_
          rintro ⟨_, _, hcall, -⟩
          exact absurd hcall (by simp)
        · rw [hrep]
          constructor
          · intro h
            obtain rfl := Option.some.inj h
            exact ⟨reading, caught, rfl, hok⟩
          · rintro ⟨reading', caught', hcall, hok'⟩
            obtain ⟨-, rfl, rfl⟩ := ReportCall.mk.inj (List.singleton_inj.1 hcall)
            rw [Except.ok.inj (hok.symm.trans hok')]
      refine ⟨fun passed evaluation => ?_, fun hbad => ?_, fun hbool => ?_, fun hpass ev hrep hst => ?_,
        hclosed⟩
      · show (beginRuleInvocation.reports calls).conclude answer = _ ↔ _
        rw [conclude_ok_iff hclean, hreported]
        simp
      · rcases reported_once hno hfirst with ⟨rfl, -⟩ | ⟨reading, caught, ev, rfl, hok, -⟩
        · rcases hbad with htwo | ⟨_, _, _, hcall, -⟩
          · exact absurd htwo (by simp [madeAll])
          · exact absurd hcall (by simp)
        · rcases hbad with htwo | ⟨reading', caught', e, hcall, herr⟩
          · exact absurd htwo (by simp [madeAll, ReportCall.made])
          · obtain ⟨-, rfl, -⟩ := ReportCall.mk.inj (List.singleton_inj.1 hcall)
            exact absurd (hok.symm.trans herr) (by simp)
      · refine conclude_throws fun passed reported hok => ?_
        exact hbool passed ((conclude_ok_iff hclean answer passed reported).1 hok).1
      · refine conclude_throws fun passed reported hok => ?_
        obtain ⟨hans, hsome, hstatus⟩ := (conclude_ok_iff hclean answer passed reported).1 hok
        obtain rfl := Value.bool.inj (hpass.symm.trans hans)
        exact hst (hstatus ev (by rw [← hsome]; exact (hreported ev).2 hrep) rfl)

/-- An evaluation of a revision, as a rule reports one. -/
def completedReading : Reading :=
  .fields [js "status", js "revision"] (.str (js "completed")) (.str (js "sha256:AA")) .undefined
    .undefined .undefined

/-- A rule passes on an evaluation whose `status` accessor reports another: two reports are made, and
the result carries one of them. -/
theorem nested_report_passes :
    let calls := [ReportCall.mk [.mk [] completedReading true] completedReading true]
    madeAll calls = 2 ∧
    ((beginRuleInvocation.reports calls).concluded (.bool true)).2 =
      .ok { passed := true, evaluation := some (.completed (.revision (js "sha256:AA")) {}) } ∧
    ¬ ReportLaw calls (.bool true) := by
  refine ⟨rfl, rfl, fun hlaw => ?_⟩
  obtain ⟨e, he, -⟩ := hlaw.refused (Or.inl (by decide))
  exact absurd he (by rw [show firstRefusals _ = none from rfl]; simp)

end PolicyVerifier.Core
