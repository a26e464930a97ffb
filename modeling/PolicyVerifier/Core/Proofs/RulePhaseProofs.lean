import PolicyVerifier.Core.Proofs.EvaluateProofs

/-!
# The budgets of the rule phase

Rules are asked one after the other, and an asynchronous one is out alone, under the shorter of its
own budget and what is left of the phase. What its signal aborts with is what the evaluation rejects
with, whatever comes of the rule afterwards.
-/

namespace PolicyVerifier.Core

open Js

/-! ## Rules asked in turn -/

/-- One rule that was asked: the state it was asked in, the state that left, and what came of it. -/
structure Asked where
  rule : AnyRule
  before : EvalState
  after : EvalState
  outcome : Outcome RuleResult

/-- The rule gave a result. -/
def Asked.Answered (a : Asked) : Prop := ∃ result, a.outcome = .done result

section

variable (world : World) (attrs : Attributes) (budget : RuleBudget)

/-- Rules asked one after the other, each in the state the one before left, and none after one that
gave no result. -/
inductive InTurn : EvalState → List Asked → EvalState → Prop where
  | nil (s : EvalState) : InTurn s [] s
  | cons (rule : AnyRule) (s s' s'' : EvalState) (outcome : Outcome RuleResult) (rest : List Asked)
      (ask : askRule world rule attrs budget s = (s', outcome))
      (answered : rest ≠ [] → ∃ result, outcome = .done result) (later : InTurn s' rest s'') :
      InTurn s ({ rule, before := s, after := s', outcome } :: rest) s''

end

/-- What asking comes to is what the last rule came to, where that is no result. -/
def Ends {α : Type} (asked : List Asked) : Outcome α → Prop
  | .done _ => ∀ a ∈ asked, a.Answered
  | .threw e => ∃ a ∈ asked, a.outcome = .threw e
  | .pending => ∃ a ∈ asked, a.outcome = .pending

variable {world : World} {attrs : Attributes} {budget : RuleBudget} {s s' s'' : EvalState}

theorem InTurn.append {asked more : List Asked} (h : InTurn world attrs budget s asked s')
    (hall : ∀ a ∈ asked, a.Answered) (hmore : InTurn world attrs budget s' more s'') :
    InTurn world attrs budget s (asked ++ more) s'' := by
  induction h with
  | nil => exact hmore
  | cons rule s s1 s2 outcome rest ask answered later ih =>
    refine .cons rule s s1 s'' outcome (rest ++ more) ask (fun _ => ?_)
      (ih (fun a ha => hall a (List.mem_cons_of_mem _ ha)) hmore)
    exact hall _ List.mem_cons_self

/-- What a rule was asked in is a run of it, and where it gave no result it was the last. -/
theorem InTurn.mem {asked : List Asked} (h : InTurn world attrs budget s asked s') {a : Asked}
    (ha : a ∈ asked) : askRule world a.rule attrs budget a.before = (a.after, a.outcome) ∧
      (¬ a.Answered → a.after = s' ∧ ∀ b ∈ asked, ¬ b.Answered → b = a) := by
  induction h with
  | nil => exact absurd ha (by simp)
  | cons rule s s1 s2 outcome rest ask answered later ih =>
    rcases List.mem_cons.1 ha with rfl | hrest
    · refine ⟨ask, fun hno => ?_⟩
      have hnil : rest = [] := by
        by_contra hne
        exact hno (answered hne)
      subst hnil
      cases later
      exact ⟨rfl, fun b hb _ => List.mem_singleton.1 hb⟩
    · obtain ⟨hrun, hlast⟩ := ih hrest
      refine ⟨hrun, fun hno => ?_⟩
      obtain ⟨hafter, hunique⟩ := hlast hno
      refine ⟨hafter, fun b hb hbno => ?_⟩
      rcases List.mem_cons.1 hb with rfl | hb
      · exact absurd (answered (List.ne_nil_of_mem hrest)) hbno
      · exact hunique b hb hbno

/-- A rule that gave no result is what the whole came to. -/
theorem InTurn.ends {α : Type} {asked : List Asked} {out : Outcome α}
    (h : InTurn world attrs budget s asked s') (hends : Ends asked out) {a : Asked} (ha : a ∈ asked) :
    (∀ e, a.outcome = .threw e → out = .threw e ∧ s' = a.after) ∧
    (a.outcome = .pending → out = .pending ∧ s' = a.after) := by
  have hlast := (h.mem ha).2
  constructor
  · intro e he
    have hno : ¬ a.Answered := by
      rintro ⟨result, hr⟩
      rw [he] at hr
      exact absurd hr (by simp)
    obtain ⟨hafter, hunique⟩ := hlast hno
    cases out with
    | done v => exact absurd (hends a ha) hno
    | threw e' =>
      obtain ⟨b, hb, hbe⟩ := hends
      obtain rfl := hunique b hb (by rintro ⟨r, hr⟩; rw [hbe] at hr; exact absurd hr (by simp))
      exact ⟨by rw [Outcome.threw.inj (hbe.symm.trans he)], hafter.symm⟩
    | pending =>
      obtain ⟨b, hb, hbe⟩ := hends
      obtain rfl := hunique b hb (by rintro ⟨r, hr⟩; rw [hbe] at hr; exact absurd hr (by simp))
      exact absurd (hbe.symm.trans he) (by simp)
  · intro hp
    have hno : ¬ a.Answered := by
      rintro ⟨result, hr⟩
      rw [hp] at hr
      exact absurd hr (by simp)
    obtain ⟨hafter, hunique⟩ := hlast hno
    cases out with
    | done v => exact absurd (hends a ha) hno
    | threw e' =>
      obtain ⟨b, hb, hbe⟩ := hends
      obtain rfl := hunique b hb (by rintro ⟨r, hr⟩; rw [hbe] at hr; exact absurd hr (by simp))
      exact absurd (hbe.symm.trans hp) (by simp)
    | pending => exact ⟨rfl, hafter.symm⟩

theorem Ends.cons {α : Type} {a : Asked} {more : List Asked} {out : Outcome α} (ha : a.Answered)
    (h : Ends more out) : Ends (a :: more) out := by
  cases out with
  | done b =>
    intro x hx
    rcases List.mem_cons.1 hx with rfl | hx
    · exact ha
    · exact h x hx
  | threw e =>
    obtain ⟨x, hx, he⟩ := h
    exact ⟨x, List.mem_cons_of_mem _ hx, he⟩
  | pending =>
    obtain ⟨x, hx, he⟩ := h
    exact ⟨x, List.mem_cons_of_mem _ hx, he⟩

theorem Ends.append {α : Type} {asked more : List Asked} {out : Outcome α}
    (h : ∀ a ∈ asked, a.Answered) (hmore : Ends more out) : Ends (asked ++ more) out := by
  induction asked with
  | nil => exact hmore
  | cons a asked ih =>
    exact .cons (h a List.mem_cons_self) (ih fun x hx => h x (List.mem_cons_of_mem _ hx))

/-- Sorting the groups asks no rule. -/
theorem restrictingGroups_asks (groups : List (Str × List AnyRule)) (s : EvalState) :
    (restrictingGroups groups s).1.trace = s.trace ∧
    (restrictingGroups groups s).1.asyncCalls = s.asyncCalls := by
  induction groups with
  | nil => exact ⟨rfl, rfl⟩
  | cons g groups ih =>
    simp only [restrictingGroups]
    split
    · exact ⟨rfl, rfl⟩
    · split
      · rename_i u types hrest
        rw [hrest] at ih
        exact ih
      · rename_i u refused hrest
        rw [hrest] at ih
        exact ih

/-! ## One asynchronous rule -/

section

variable {rule : AnyRule} {remaining : ℚ} {call : Nat}

/-- A race asks no other rule. -/
theorem race_trace (rule : AnyRule) (budget : RuleBudget) (remaining : ℚ) (call : Nat)
    (es : List RaceEvent) (r : Race) (s : EvalState) :
    (race rule budget remaining call es r s).1.trace = s.trace ∧
    (race rule budget remaining call es r s).1.asyncCalls = s.asyncCalls := by
  induction es generalizing r with
  | nil => exact ⟨rfl, rfl⟩
  | cons e es ih =>
    cases e with
    | act =>
      rw [race]
      exact ih r.act
    | answerJob =>
      rw [race]
      split
      · exact ih r
      · simp only [readAnswer]
        repeat' split
        all_goals exact ⟨rfl, rfl⟩
    | timeout =>
      rw [race]
      split
      · exact ⟨rfl, rfl⟩
      · exact ih r
    | callerAbort reason =>
      rw [race]
      split
      · exact ⟨rfl, rfl⟩
      · exact ih _
    | abortJob =>
      rw [race]
      split
      · exact ih r
      · exact ⟨rfl, rfl⟩

end

/-! ## One call -/

/-- What one call of a rule meets. -/
def Asked.turn (world : World) (a : Asked) : AsyncTurn := world.turn a.before.asyncCalls a.rule

/-- What is left of the phase when a rule is asked. -/
def Asked.remaining (world : World) (budget : RuleBudget) (a : Asked) : ℚ :=
  budget.deadlineAt - (a.turn world).now

/-- The call starts the rule: the caller is there, and there is time left. -/
def Asked.Starts (world : World) (budget : RuleBudget) (a : Asked) : Prop :=
  isAsyncRule a.rule = true ∧ (a.turn world).callerAborted = none ∧
    (a.turn world).now < budget.deadlineAt

/-- The bound a started rule runs under. -/
def Asked.bound (world : World) (budget : RuleBudget) (a : Asked) : ℚ :=
  min (budget.ruleTimeoutMs : ℚ) (a.remaining world budget)

/-- The race of a started rule. -/
def Asked.race (world : World) (attrs : Attributes) (budget : RuleBudget) (a : Asked) :
    EvalState × Outcome RuleResult :=
  Core.race a.rule budget (a.remaining world budget) a.before.asyncCalls (a.turn world).events
    { acts := a.rule.decide attrs }
    (({ a.before with asyncCalls := a.before.asyncCalls + 1 } : EvalState).log
      (.start a.rule (a.bound world budget)))

section

variable {a : Asked}

theorem runAsyncRule_aborted {reason : Thrown} (h : (a.turn world).callerAborted = some reason) :
    runAsyncRule world a.rule attrs budget a.before =
      ({ a.before with asyncCalls := a.before.asyncCalls + 1 }, .threw reason) := by
  have h' : (world.turn a.before.asyncCalls a.rule).callerAborted = some reason := h
  simp only [runAsyncRule, h']

theorem runAsyncRule_spent (h : (a.turn world).callerAborted = none)
    (hspent : budget.deadlineAt ≤ (a.turn world).now) :
    runAsyncRule world a.rule attrs budget a.before =
      (({ a.before with asyncCalls := a.before.asyncCalls + 1 } : EvalState).record
          (expired a.rule budget (a.remaining world budget) a.before.asyncCalls false)
          (ruleSource a.rule),
        .threw (expired a.rule budget (a.remaining world budget) a.before.asyncCalls false)) := by
  have h' : (world.turn a.before.asyncCalls a.rule).callerAborted = none := h
  have hle : budget.deadlineAt - (world.turn a.before.asyncCalls a.rule).now ≤ 0 :=
    sub_nonpos.2 hspent
  simp only [runAsyncRule, h', hle, if_true]
  rfl

/-- A rule that is started races under the shorter of the two bounds. -/
theorem runAsyncRule_started (h : a.Starts world budget) :
    runAsyncRule world a.rule attrs budget a.before =
      match a.race world attrs budget with
      | (final, .pending) => (final, .pending)
      | (final, out) => (final.log (.stop a.rule), out) := by
  obtain ⟨-, hc, hleft⟩ := h
  have hc' : (world.turn a.before.asyncCalls a.rule).callerAborted = none := hc
  have hpos : ¬ budget.deadlineAt - (world.turn a.before.asyncCalls a.rule).now ≤ 0 := by
    rw [not_le]
    exact sub_pos.2 hleft
  have hmin : (if budget.deadlineAt - (world.turn a.before.asyncCalls a.rule).now <
      budget.ruleTimeoutMs then budget.deadlineAt - (world.turn a.before.asyncCalls a.rule).now
      else (budget.ruleTimeoutMs : ℚ)) = a.bound world budget := by
    split
    · rename_i hlt
      exact (min_eq_right hlt.le).symm
    · rename_i hge
      exact (min_eq_left (not_lt.1 hge)).symm
  simp only [runAsyncRule, hc', hpos, if_false, hmin]
  rfl

/-- What asking a rule adds to the record of what was done with rules. -/
inductive Traced (world : World) (budget : RuleBudget) (a : Asked) : Prop where
  | verified (trace : a.after.trace = a.before.trace ++ [.verify a.rule])
  | refused (trace : a.after.trace = a.before.trace)
  | ran (starts : a.Starts world budget)
      (trace : a.after.trace =
        a.before.trace ++ [.start a.rule (a.bound world budget), .stop a.rule])
  | out (starts : a.Starts world budget)
      (trace : a.after.trace = a.before.trace ++ [.start a.rule (a.bound world budget)])
      (pending : a.outcome = .pending)

theorem askRule_traced (h : askRule world a.rule attrs budget a.before = (a.after, a.outcome)) :
    Traced world budget a := by
  by_cases hasync : isAsyncRule a.rule = true
  · rw [askRule, if_pos hasync] at h
    cases hc : (a.turn world).callerAborted with
    | some reason =>
      rw [runAsyncRule_aborted hc] at h
      exact .refused (by rw [← (Prod.mk.inj h).1])
    | none =>
      by_cases hleft : (a.turn world).now < budget.deadlineAt
      · have hstarts : a.Starts world budget := ⟨hasync, hc, hleft⟩
        rw [runAsyncRule_started hstarts] at h
        cases hrace : a.race world attrs budget with
        | mk final out =>
          have htrace : final.trace = a.before.trace ++ [.start a.rule (a.bound world budget)] := by
            have hkept := (race_trace a.rule budget (a.remaining world budget) a.before.asyncCalls
              (a.turn world).events { acts := a.rule.decide attrs }
              (({ a.before with asyncCalls := a.before.asyncCalls + 1 } : EvalState).log
                (.start a.rule (a.bound world budget)))).1
            rw [show Core.race _ _ _ _ _ _ _ = _ from hrace] at hkept
            exact hkept
          rw [hrace] at h
          cases out with
          | pending =>
            obtain ⟨hafter, hout⟩ := Prod.mk.inj h
            exact .out hstarts (by rw [← hafter, htrace]) hout.symm
          | done result =>
            obtain ⟨hafter, -⟩ := Prod.mk.inj h
            exact .ran hstarts (by rw [← hafter, EvalState.log, htrace, List.append_assoc]; rfl)
          | threw e =>
            obtain ⟨hafter, -⟩ := Prod.mk.inj h
            exact .ran hstarts (by rw [← hafter, EvalState.log, htrace, List.append_assoc]; rfl)
      · rw [runAsyncRule_spent hc (not_lt.1 hleft)] at h
        exact .refused (by rw [← (Prod.mk.inj h).1]; rfl)
  · rw [askRule, if_neg hasync, verifyRule] at h
    refine .verified ?_
    split at h <;> rw [← (Prod.mk.inj h).1] <;> rfl

end

/-! ## The whole phase -/

section

variable {world' : World}

end

/-- Asking rules only adds to the record. -/
theorem InTurn.extends {asked : List Asked} (h : InTurn world attrs budget s asked s') :
    ∃ tail, s'.trace = s.trace ++ tail := by
  induction h with
  | nil s => exact ⟨[], (List.append_nil _).symm⟩
  | cons rule s s1 s2 outcome rest ask answered later ih =>
    obtain ⟨tail, htail⟩ := ih
    cases askRule_traced (a := ⟨rule, s, s1, outcome⟩) ask with
    | verified trace => exact ⟨_ :: tail, by rw [htail, trace, List.append_assoc]; rfl⟩
    | refused trace => exact ⟨tail, by rw [htail, trace]⟩
    | ran starts trace => exact ⟨_ :: _ :: tail, by rw [htail, trace, List.append_assoc]; rfl⟩
    | out starts trace pending => exact ⟨_ :: tail, by rw [htail, trace, List.append_assoc]; rfl⟩

/-- A rule in the record was started by a call that may start it, under the call's bound, and is
stopped before anything else is done with a rule. -/
theorem InTurn.starts {asked : List Asked} (h : InTurn world attrs budget s asked s')
    {before : List RuleStep} {rule : AnyRule} {t : ℚ} {after : List RuleStep}
    (hsplit : s'.trace = s.trace ++ (before ++ .start rule t :: after)) :
    ∃ a ∈ asked, a.rule = rule ∧ a.before.trace = s.trace ++ before ∧ a.Starts world budget ∧
      t = a.bound world budget ∧
      ((∃ rest, after = .stop rule :: rest) ∨ after = [] ∧ a.outcome = .pending) := by
  induction h generalizing before with
  | nil s =>
    have hlen := congrArg List.length hsplit
    simp at hlen
  | cons rule₀ s s1 s2 outcome rest ask answered later ih =>
    obtain ⟨tail, htail⟩ := later.extends
    -- the split falls among the steps of a later call
    have hlater : ∀ before', s2.trace = s1.trace ++ (before' ++ .start rule t :: after) →
        s1.trace ++ before' = s.trace ++ before →
        ∃ a ∈ ({ rule := rule₀, before := s, after := s1, outcome } : Asked) :: rest,
          a.rule = rule ∧ a.before.trace = s.trace ++ before ∧ a.Starts world budget ∧
          t = a.bound world budget ∧
          ((∃ rest, after = .stop rule :: rest) ∨ after = [] ∧ a.outcome = .pending) := by
      intro before' hs2 hsame
      obtain ⟨a, ha, hrule, hbefore, hrest⟩ := ih hs2
      exact ⟨a, List.mem_cons_of_mem _ ha, hrule, hbefore.trans hsame, hrest⟩
    cases askRule_traced (a := ⟨rule₀, s, s1, outcome⟩) ask with
    | verified trace =>
      rw [htail, trace, List.append_assoc, List.append_cancel_left_eq] at hsplit
      cases before with
      | nil => exact absurd (List.cons.inj hsplit).1 (by simp)
      | cons b before =>
        obtain ⟨rfl, heq⟩ := List.cons.inj hsplit
        have htl : tail = before ++ .start rule t :: after := heq
        exact hlater before (by rw [htail, htl]) (by rw [trace, List.append_assoc]; rfl)
    | refused trace =>
      rw [htail, trace, List.append_cancel_left_eq] at hsplit
      exact hlater before (by rw [htail, hsplit]) (by rw [trace])
    | ran starts trace =>
      rw [htail, trace, List.append_assoc, List.append_cancel_left_eq] at hsplit
      cases before with
      | nil =>
        obtain ⟨hstart, heq⟩ := List.cons.inj hsplit
        obtain ⟨rfl, rfl⟩ := RuleStep.start.inj hstart
        exact ⟨_, List.mem_cons_self, rfl, by simp, starts, rfl, Or.inl ⟨tail, heq.symm⟩⟩
      | cons b before =>
        obtain ⟨rfl, heq⟩ := List.cons.inj hsplit
        cases before with
        | nil => exact absurd (List.cons.inj heq).1 (by simp)
        | cons b before =>
          obtain ⟨rfl, heq'⟩ := List.cons.inj heq
          have htl : tail = before ++ .start rule t :: after := heq'
          exact hlater before (by rw [htail, htl]) (by rw [trace, List.append_assoc]; rfl)
    | out starts trace pending =>
      have hnil : rest = [] := by
        by_contra hne
        obtain ⟨result, hdone⟩ := answered hne
        exact absurd (hdone.symm.trans pending) (by simp)
      subst hnil
      cases later
      rw [trace, List.append_cancel_left_eq] at hsplit
      cases before with
      | nil =>
        obtain ⟨hstart, heq⟩ := List.cons.inj hsplit
        obtain ⟨rfl, rfl⟩ := RuleStep.start.inj hstart
        exact ⟨_, List.mem_cons_self, rfl, by simp, starts, rfl, Or.inr ⟨heq.symm, pending⟩⟩
      | cons b before =>
        obtain ⟨-, heq⟩ := List.cons.inj hsplit
        exact absurd heq (by simp)

end PolicyVerifier.Core
