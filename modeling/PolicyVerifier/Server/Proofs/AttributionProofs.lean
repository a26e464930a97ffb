import PolicyVerifier.Core.Proofs.FailureProofs
import PolicyVerifier.Server.Proofs.DecideProofs

/-!
# Who a failed decision is blamed on

A collector comes forward with a value when its rejection reaches its runner before its own signal
aborted; a timer comes forward with the error it makes. The record keeps, for every value, who came
forward with it first, and the classification reads its names there.
-/

namespace PolicyVerifier.Core.FanOut

/-- The rejection of a collector reaches its runner, before the collector's own signal aborted. -/
def Lands {α : Type} (s : FanOut α) (i : Nat) (v : Thrown) : Prop :=
  ∃ jobs call, s.jobs = .caught i (.error v) :: jobs ∧ s.call i = some call ∧ call.own = none

theorem records_iff {α : Type} {cfg : FanOutConfig α} {s : FanOut α} {e : FanOutEvent α} {v : Thrown}
    {source : FailureSource} : records cfg s e = some (v, source) ↔
      (e = .job ∧ ∃ i, s.Lands i v ∧ source = cfg.source i) ∨
      (∃ i, e = .timeout i ∧ v = cfg.expired i ∧ source = cfg.source i) ∨
      (e = .deadline ∧ v = cfg.deadlineExpired ∧ source = .deadline cfg.pipeline) := by
  cases e with
  | timeout i =>
    constructor
    · intro h
      obtain ⟨rfl, rfl⟩ := Prod.mk.inj (Option.some.inj h)
      exact Or.inr (Or.inl ⟨i, rfl, rfl, rfl⟩)
    · rintro (⟨h, -⟩ | ⟨j, hj, rfl, rfl⟩ | ⟨h, -⟩)
      · exact absurd h (by simp)
      · obtain rfl := FanOutEvent.timeout.inj hj
        rfl
      · exact absurd h (by simp)
  | deadline =>
    constructor
    · intro h
      obtain ⟨rfl, rfl⟩ := Prod.mk.inj (Option.some.inj h)
      exact Or.inr (Or.inr ⟨rfl, rfl, rfl⟩)
    · rintro (⟨h, -⟩ | ⟨j, hj, -⟩ | ⟨-, rfl, rfl⟩)
      · exact absurd h (by simp)
      · exact absurd hj (by simp)
      · rfl
  | job =>
    constructor
    · intro h
      simp only [records] at h
      split at h
      · rename_i i w jobs hjobs
        split at h
        · rename_i call hcall
          split at h
          · rename_i hown
            obtain ⟨rfl, rfl⟩ := Prod.mk.inj (Option.some.inj h)
            exact Or.inl ⟨rfl, i, ⟨jobs, call, hjobs, hcall, Option.isNone_iff_eq_none.1 hown⟩, rfl⟩
          · exact absurd h (by simp)
        · exact absurd h (by simp)
      · exact absurd h (by simp)
    · rintro (⟨-, i, ⟨jobs, call, hjobs, hcall, hown⟩, rfl⟩ | ⟨j, hj, -⟩ | ⟨h, -⟩)
      · simp [records, hjobs, hcall, hown]
      · exact absurd hj (by simp)
      · exact absurd h (by simp)
  | startLane => simp [records]
  | settle i o => simp [records]
  | callerAbort reason => simp [records]

end PolicyVerifier.Core.FanOut

namespace PolicyVerifier.Server

open Js PolicyVerifier.Core

namespace Deciding

/-! ## Coming forward -/

/-- Who can come forward with what a collect fails with. -/
inductive Origin where
  | collector (p : CollectorPipeline) (i : Nat)
  | timer (p : CollectorPipeline) (i : Nat)
  | deadline (p : CollectorPipeline)

section Names

variable (cfg : DeciderConfig)

/-- The name of a collector, by its pipeline and position. -/
def collectorAt : CollectorPipeline → Nat → Str
  | .attributes, i => cfg.attributePipeline.fanOut.name i
  | .rules, i => cfg.rulePipeline.fanOut.name i

/-- The error a collector's timer makes. -/
def timerError : CollectorPipeline → Nat → Thrown
  | .attributes, i => cfg.attributePipeline.fanOut.expired i
  | .rules, i => cfg.rulePipeline.fanOut.expired i

/-- The error a pipeline's deadline makes. -/
def deadlineError : CollectorPipeline → Thrown
  | .attributes => cfg.attributePipeline.fanOut.deadlineExpired
  | .rules => cfg.rulePipeline.fanOut.deadlineExpired

/-- What an origin is recorded as. -/
def Origin.source : Origin → FailureSource
  | .collector p i => .collector p (collectorAt cfg p i)
  | .timer p i => .collector p (collectorAt cfg p i)
  | .deadline p => .deadline p

/-- What an origin is called in a classification. -/
def Origin.name : Origin → Str
  | .collector p i => collectorAt cfg p i
  | .timer p i => collectorAt cfg p i
  | .deadline p => p.name ++ js ".collectors"

/-- The event brings the origin forward with the value. -/
inductive Comes (s : Deciding) : Origin → Thrown → DecideEvent → Prop where
  | attributeCollector (i : Nat) (v : Thrown) (h : s.attributeFanOut.Lands i v) :
      Comes s (.collector .attributes i) v (.attributes .job)
  | ruleCollector (i : Nat) (v : Thrown) (h : s.ruleFanOut.Lands i v) :
      Comes s (.collector .rules i) v (.rules .job)
  | attributeTimer (i : Nat) :
      Comes s (.timer .attributes i) (timerError cfg .attributes i) (.attributes (.timeout i))
  | ruleTimer (i : Nat) : Comes s (.timer .rules i) (timerError cfg .rules i) (.rules (.timeout i))
  | attributeDeadline :
      Comes s (.deadline .attributes) (deadlineError cfg .attributes) (.attributes .deadline)
  | ruleDeadline : Comes s (.deadline .rules) (deadlineError cfg .rules) (.rules .deadline)

/-- What an event records of the collects. -/
def raises (s : Deciding) : DecideEvent → Option (Thrown × FailureSource)
  | .attributes e => FanOut.records cfg.attributePipeline.fanOut s.attributeFanOut e
  | .rules e => FanOut.records cfg.rulePipeline.fanOut s.ruleFanOut e
  | _ => none

end Names

variable {cfg : DeciderConfig} {entry : DecisionRequest} {input : DecisionInput} {s : Deciding}

theorem raises_iff {e : DecideEvent} {v : Thrown} {source : FailureSource} :
    raises cfg s e = some (v, source) ↔
      ∃ origin, Comes cfg s origin v e ∧ source = origin.source cfg := by
  have hattributes : ∀ i, cfg.attributePipeline.fanOut.source i =
      (Origin.collector .attributes i).source cfg := by
    intro i
    rw [FanOutConfig.source, cfg.attributePipeline.kind_eq]
    rfl
  have hrules : ∀ i, cfg.rulePipeline.fanOut.source i = (Origin.collector .rules i).source cfg := by
    intro i
    rw [FanOutConfig.source, cfg.rulePipeline.kind_eq]
    rfl
  constructor
  · intro h
    cases e with
    | attributes e =>
      rcases FanOut.records_iff.1 h with ⟨rfl, i, hlands, rfl⟩ | ⟨i, rfl, rfl, rfl⟩ | ⟨rfl, rfl, rfl⟩
      · exact ⟨_, .attributeCollector i v hlands, hattributes i⟩
      · exact ⟨_, .attributeTimer i, hattributes i⟩
      · exact ⟨_, .attributeDeadline, by rw [cfg.attributePipeline.kind_eq]; rfl⟩
    | rules e =>
      rcases FanOut.records_iff.1 h with ⟨rfl, i, hlands, rfl⟩ | ⟨i, rfl, rfl, rfl⟩ | ⟨rfl, rfl, rfl⟩
      · exact ⟨_, .ruleCollector i v hlands, hrules i⟩
      · exact ⟨_, .ruleTimer i, hrules i⟩
      · exact ⟨_, .ruleDeadline, by rw [cfg.rulePipeline.kind_eq]; rfl⟩
    | callerAbort reason => exact absurd h (by simp [raises])
    | attributesCollected => exact absurd h (by simp [raises])
    | rulesCollected => exact absurd h (by simp [raises])
    | joinAttributes => exact absurd h (by simp [raises])
    | joinRules => exact absurd h (by simp [raises])
    | proceed world => exact absurd h (by simp [raises])
  · rintro ⟨origin, hcomes, rfl⟩
    cases hcomes with
    | attributeCollector i _ hlands =>
      exact (FanOut.records_iff (s := s.attributeFanOut)).2 (Or.inl ⟨rfl, i, hlands, (hattributes i).symm⟩)
    | ruleCollector i _ hlands =>
      exact (FanOut.records_iff (s := s.ruleFanOut)).2 (Or.inl ⟨rfl, i, hlands, (hrules i).symm⟩)
    | attributeTimer i =>
      exact (FanOut.records_iff (s := s.attributeFanOut)).2
        (Or.inr (Or.inl ⟨i, rfl, rfl, (hattributes i).symm⟩))
    | ruleTimer i =>
      exact (FanOut.records_iff (s := s.ruleFanOut)).2
        (Or.inr (Or.inl ⟨i, rfl, rfl, (hrules i).symm⟩))
    | attributeDeadline =>
      exact (FanOut.records_iff (s := s.attributeFanOut)).2
        (Or.inr (Or.inr ⟨rfl, rfl, by rw [cfg.attributePipeline.kind_eq]; rfl⟩))
    | ruleDeadline =>
      exact (FanOut.records_iff (s := s.ruleFanOut)).2
        (Or.inr (Or.inr ⟨rfl, rfl, by rw [cfg.rulePipeline.kind_eq]; rfl⟩))

/-- The event brings the origin forward with the value a record keeps under the key. -/
def ComesKeyed (cfg : DeciderConfig) (k : Thrown) (origin : Origin) (s : Deciding) (e : DecideEvent) :
    Prop := ∃ v, Comes cfg s origin v e ∧ v.key = k

section Runs

variable (cfg : DeciderConfig) (entry : DecisionRequest) (input : DecisionInput)
  (caller : Option Thrown) (events : List DecideEvent)

/-- The origin came forward with the value. -/
def CameForward (origin : Origin) (v : Thrown) : Prop :=
  ∃ a e b, Machine.Occurs (step cfg entry input) (start cfg caller) events a e b ∧
    ComesKeyed cfg v.key origin a e

/-- The origin came forward with the value, and nobody did before it. -/
def CameFirst (origin : Origin) (v : Thrown) : Prop :=
  Machine.FirstOccurs (step cfg entry input) (start cfg caller) events (ComesKeyed cfg v.key origin)
    fun a e => ∃ other, ComesKeyed cfg v.key other a e

/-- An error is there before it is thrown: no rejection with the error of a timer reaches a runner
before the timer has made it. -/
def MadeBeforeThrown : Prop :=
  ∀ p i v pre e post a b, (∃ q j, (v = timerError cfg q j ∨ v = deadlineError cfg q)) →
    events = pre ++ e :: post → Machine.run (step cfg entry input) (start cfg caller) pre = some a →
    step cfg entry input a e = some b → Comes cfg a (.collector p i) v e →
    (∀ q j, v = timerError cfg q j → CameForward cfg entry input caller pre (.timer q j) v) ∧
    ∀ q, v = deadlineError cfg q → CameForward cfg entry input caller pre (.deadline q) v

end Runs

/-! ## What the record holds while the collects run -/

/-- The body has not gone on from the collects. -/
def Open (s : Deciding) : Prop := s.evaluated = [] ∧ s.settled = none

@[simp] theorem record_evaluated (s : Deciding) (failure : Option (Thrown × FailureSource)) :
    (s.record failure).evaluated = s.evaluated := by
  obtain ⟨failures, h⟩ := record_eq s failure
  rw [h]

@[simp] theorem record_settled (s : Deciding) (failure : Option (Thrown × FailureSource)) :
    (s.record failure).settled = s.settled := by
  obtain ⟨failures, h⟩ := record_eq s failure
  rw [h]

theorem joinBoth_same (s : Deciding) : s.joinBoth.evaluated = s.evaluated ∧
    s.joinBoth.settled = s.settled ∧ s.joinBoth.failures = s.failures := by
  unfold joinBoth
  split
  · exact ⟨rfl, rfl, rfl⟩
  · exact ⟨rfl, rfl, rfl⟩

theorem fail_settled (cfg : DeciderConfig) (entry : DecisionRequest) (input : DecisionInput)
    (s : Deciding) (cause : Thrown) : (fail cfg entry input s cause).settled ≠ none := by
  unfold fail
  dsimp only
  split
  · simp
  · simp [finish]

theorem fail_failures (cfg : DeciderConfig) (entry : DecisionRequest) (input : DecisionInput)
    (s : Deciding) (cause : Thrown) : (fail cfg entry input s cause).failures = s.failures := by
  unfold fail
  dsimp only
  split
  · rfl
  · rfl

theorem proceed_closes (cfg : DeciderConfig) (entry : DecisionRequest) (input : DecisionInput)
    (s : Deciding) (world : World) (o : Except Thrown (Attributes × List AnyRule)) :
    ¬ Open (proceed cfg entry input s world o) := by
  rintro ⟨hevaluated, hsettled⟩
  cases o with
  | error cause => exact fail_settled cfg entry input s cause hsettled
  | ok collected =>
    obtain ⟨attrs, rules⟩ := collected
    simp only [proceed] at hevaluated hsettled
    split at hsettled
    · exact absurd hsettled (by simp [finish])
    · exact fail_settled cfg entry input _ _ hsettled
    · rename_i heq
      rw [heq] at hevaluated
      exact absurd hevaluated (by simp)

/-- While the body has not gone on, a step records what comes forward in it. -/
theorem step_open {e : DecideEvent} {s' : Deciding} (hs : step cfg entry input s e = some s')
    (hopen : Open s') : Open s ∧ s'.failures = (s.record (raises cfg s e)).failures := by
  cases e with
  | attributes e =>
    have hstep : (FanOut.step cfg.attributePipeline.fanOut s.attributeFanOut e).map (fun f =>
        { s.record (FanOut.records cfg.attributePipeline.fanOut s.attributeFanOut e) with
          attributeFanOut := f }) = some s' := by
      cases e <;> first | exact hs | exact absurd hs (by simp [step])
    obtain ⟨f, -, rfl⟩ := Option.map_eq_some_iff.1 hstep
    exact ⟨by simpa [Open] using hopen, rfl⟩
  | rules e =>
    have hstep : (FanOut.step cfg.rulePipeline.fanOut s.ruleFanOut e).map (fun f =>
        { s.record (FanOut.records cfg.rulePipeline.fanOut s.ruleFanOut e) with
          ruleFanOut := f }) = some s' := by
      cases e <;> first | exact hs | exact absurd hs (by simp [step])
    obtain ⟨g, -, rfl⟩ := Option.map_eq_some_iff.1 hstep
    exact ⟨by simpa [Open] using hopen, rfl⟩
  | callerAbort reason =>
    simp only [step] at hs
    obtain ⟨f, -, hs⟩ := Option.bind_eq_some_iff.1 hs
    obtain ⟨g, -, rfl⟩ := Option.map_eq_some_iff.1 hs
    exact ⟨hopen, rfl⟩
  | attributesCollected =>
    simp only [step] at hs
    split at hs
    · obtain rfl := Option.some.inj hs
      exact ⟨hopen, rfl⟩
    · exact absurd hs (by simp)
  | rulesCollected =>
    simp only [step] at hs
    split at hs
    · obtain rfl := Option.some.inj hs
      exact ⟨hopen, rfl⟩
    · exact absurd hs (by simp)
  | joinAttributes =>
    simp only [step] at hs
    split at hs
    · obtain rfl := Option.some.inj hs
      obtain ⟨he, hset, hfailures⟩ := joinBoth_same { s with seenAttrs := some _ }
      exact ⟨⟨he.symm.trans hopen.1, hset.symm.trans hopen.2⟩, hfailures⟩
    · obtain rfl := Option.some.inj hs
      exact ⟨hopen, rfl⟩
    · exact absurd hs (by simp)
  | joinRules =>
    simp only [step] at hs
    split at hs
    · obtain rfl := Option.some.inj hs
      obtain ⟨he, hset, hfailures⟩ := joinBoth_same { s with seenRules := some _ }
      exact ⟨⟨he.symm.trans hopen.1, hset.symm.trans hopen.2⟩, hfailures⟩
    · obtain rfl := Option.some.inj hs
      exact ⟨hopen, rfl⟩
    · exact absurd hs (by simp)
  | proceed world =>
    simp only [step] at hs
    split at hs
    · rename_i o _ _ _
      obtain rfl := Option.some.inj hs
      exact absurd hopen (proceed_closes cfg entry input s world o)
    · exact absurd hs (by simp)

/-- A record answers a key with what it held, and else with what is raised under that key. -/
theorem sourceOf_raised {failure : Option (Thrown × FailureSource)} {v : Thrown} {source : FailureSource} :
    (s.record failure).failures.sourceOf v = some source ↔ s.failures.sourceOf v = some source ∨
      s.failures.sourceOf v = none ∧ ∃ w, failure = some (w, source) ∧ w.key = v.key := by
  cases failure with
  | none => simp [record]
  | some failure =>
    obtain ⟨w, found⟩ := failure
    have hrecord : (s.record (some (w, found))).failures.sourceOf v =
        (s.failures.sourceOf v).or (if w.key = v.key then some found else none) :=
      FailureRecord.get?_record s.failures w found v.key
    rw [hrecord, Option.or_eq_some_iff]
    by_cases hkey : w.key = v.key <;> simp [hkey]

/-- What a record holds under a key is who came forward first with a value of that key. -/
theorem failures_iff {caller : Option Thrown} {events : List DecideEvent}
    (hrun : Machine.run (step cfg entry input) (start cfg caller) events = some s) (hopen : Open s)
    (v : Thrown) (source : FailureSource) : s.failures.sourceOf v = some source ↔
      ∃ origin, CameFirst cfg entry input caller events origin v ∧ source = origin.source cfg := by
  induction events using List.reverseRecOn generalizing s source with
  | nil =>
    obtain rfl := Option.some.inj hrun
    refine iff_of_false (by simp [start, FailureRecord.sourceOf]) ?_
    rintro ⟨origin, ⟨pre, e, post, a, b, hes, -⟩, -⟩
    exact absurd hes (by simp)
  | append_singleton events e ih =>
    rw [Machine.run_append] at hrun
    obtain ⟨before, hbefore, hlast⟩ := Option.bind_eq_some_iff.1 hrun
    have hstep : step cfg entry input before e = some s := by
      simpa [Machine.run_cons] using hlast
    obtain ⟨hopened, hfailures⟩ := step_open hstep hopen
    have hbefore_iff := ih hbefore hopened
    have hnobody : before.failures.sourceOf v = none ↔
        ∀ c f d, Machine.Occurs (step cfg entry input) (start cfg caller) events c f d →
          ¬ ∃ other, ComesKeyed cfg v.key other c f := by
      constructor
      · intro hnone c f d hoccurs hcomes
        obtain ⟨pre, f', post, a, b, hes, hpre, hf', ⟨other, hother⟩, hno⟩ := hoccurs.exists_first
          (Q := fun a e => ∃ other, ComesKeyed cfg v.key other a e) hcomes
        have hfirst := (hbefore_iff (other.source cfg)).2
          ⟨other, ⟨pre, f', post, a, b, hes, hpre, hf', hother, hno⟩, rfl⟩
        rw [hnone] at hfirst
        exact absurd hfirst (by simp)
      · intro hno
        cases hsource : before.failures.sourceOf v with
        | none => rfl
        | some first =>
          obtain ⟨origin, hfirst, -⟩ := (hbefore_iff first).1 hsource
          obtain ⟨a, f, b, hoccurs, hcomes⟩ := hfirst.occurs
          exact absurd ⟨origin, hcomes⟩ (hno a f b hoccurs)
    rw [hfailures, sourceOf_raised]
    unfold CameFirst
    simp only [Machine.firstOccurs_concat]
    constructor
    · rintro (hfirst | ⟨hnone, w, hraises, hkey⟩)
      · obtain ⟨origin, hcame, hsource⟩ := (hbefore_iff source).1 hfirst
        exact ⟨origin, Or.inl hcame, hsource⟩
      · obtain ⟨origin, hcomes, hsource⟩ := raises_iff.1 hraises
        exact ⟨origin, Or.inr ⟨⟨before, s, hbefore, hstep, w, hcomes, hkey⟩, hnobody.1 hnone⟩, hsource⟩
    · rintro ⟨origin, hcame | ⟨⟨a, b, ha, -, w, hcomes, hkey⟩, hno⟩, rfl⟩
      · exact Or.inl ((hbefore_iff _).2 ⟨origin, hcame, rfl⟩)
      · rw [hbefore] at ha
        obtain rfl := Option.some.inj ha
        exact Or.inr ⟨hnobody.2 hno, w, raises_iff.2 ⟨origin, hcomes, rfl⟩, hkey⟩

/-! ## What a failure is sorted into -/

/-- The body goes on and fails: what it reports is sorted under the record of that moment. -/
theorem proceed_failed {world : World} {t : Deciding} {v : Thrown} (hinv : Inv cfg entry input s)
    (hs : step cfg entry input s (.proceed world) = some t) (hfailed : t.caught = some v) :
    FailedWith cfg entry input v t.failures t ∧ Open s ∧
      (t.failures = s.failures ∨ ∃ attrs rules, s.joined = some (.ok (attrs, rules)) ∧
        ∃ rule ∈ rules, Raised rule attrs v ∧
          t.failures = s.failures.record v (ruleSource rule)) := by
  have hplace : Open s → s.caught = none ∧ s.logs = [] ∧ s.observations = [] := by
    rintro ⟨he, hset⟩
    cases hinv.place with
    | collecting _ hc hl ho _ => exact ⟨hc, hl, ho⟩
    | evaluating attrs rules _ he' => rw [he] at he'; exact absurd he' (by simp)
    | decided attrs rules w f final d _ he' => rw [he] at he'; exact absurd he' (by simp)
    | collectFailed cause f _ _ _ hf =>
      have hsome := hf.settled
      rw [hset] at hsome
      exact absurd hsome (by simp)
    | evaluateFailed attrs rules w cause f final _ he' => rw [he] at he'; exact absurd he' (by simp)
  simp only [step] at hs
  split at hs
  · rename_i o hjoined hevaluated hsettled
    have hopen : Open s := ⟨hevaluated, hsettled⟩
    obtain ⟨hcaught, hlogs, hobservations⟩ := hplace hopen
    obtain rfl := Option.some.inj hs
    cases o with
    | error cause =>
      obtain ⟨hwith, hc, -, -⟩ := fail_failedWith cfg entry input s cause hlogs hobservations
      have hproceed : proceed cfg entry input s world (.error cause) = fail cfg entry input s cause := rfl
      rw [hproceed] at hfailed ⊢
      rw [hc] at hfailed
      obtain rfl := Option.some.inj hfailed
      have hfailures : (fail cfg entry input s cause).failures = s.failures :=
        fail_failures cfg entry input s cause
      rw [hfailures]
      exact ⟨hwith, hopen, Or.inl rfl⟩
    | ok collected =>
      obtain ⟨attrs, rules⟩ := collected
      have hrecords := evaluate_recorded world attrs rules cfg.evaluateOptions s.failures
      rcases heval : evaluate world attrs rules cfg.evaluateOptions s.failures with ⟨final, outcome⟩
      rw [heval] at hrecords
      cases outcome with
      | done decision =>
        simp only [proceed, heval] at hfailed
        exact absurd (hfailed.symm.trans hcaught) (by simp)
      | pending =>
        simp only [proceed, heval] at hfailed
        exact absurd (hfailed.symm.trans hcaught) (by simp)
      | threw cause =>
        set evaluated : Deciding :=
          { s with evaluated := s.evaluated ++ [(attrs, rules)], failures := final.failures }
        have hproceed : proceed cfg entry input s world (.ok (attrs, rules)) =
            fail cfg entry input evaluated cause := by
          simp only [proceed, heval]
          rfl
        obtain ⟨hwith, hc, -, -⟩ := fail_failedWith cfg entry input evaluated cause hlogs hobservations
        rw [hproceed] at hfailed ⊢
        rw [hc] at hfailed
        obtain rfl := Option.some.inj hfailed
        rw [fail_failures]
        refine ⟨hwith, hopen, ?_⟩
        rcases hrecords with hsame | ⟨e, he, rule, hrule, hraised, hrecord⟩
        · exact Or.inl hsame
        · obtain rfl := Outcome.threw.inj he
          exact Or.inr ⟨attrs, rules, hjoined, rule, hrule, hraised, hrecord⟩
  · exact absurd hs (by simp)

/-- Whether a failure's category names a collector where the record does. -/
def NamesCollector (v : Thrown) : Prop :=
  (∀ ref key, v ≠ .attributeConflict ref key) ∧ ∀ ref detail, v ≠ .ruleTimeout ref detail

theorem eq_of_key {v : Thrown} {ref : ErrorRef} {detail : CollectorTimeoutDetail}
    (h : v.key = Thrown.key (.collectorTimeout ref detail)) : v = .collectorTimeout ref detail := by
  cases v with
  | other w => exact absurd h (by simp [Thrown.key])
  | _ => exact h

theorem timerError_eq (cfg : DeciderConfig) (p : CollectorPipeline) (i : Nat) :
    ∃ detail, timerError cfg p i = .collectorTimeout (.collectorTimer p i) detail := by
  cases p with
  | attributes =>
    rw [timerError, FanOutConfig.expired, cfg.attributePipeline.kind_eq]
    exact ⟨_, rfl⟩
  | rules =>
    rw [timerError, FanOutConfig.expired, cfg.rulePipeline.kind_eq]
    exact ⟨_, rfl⟩

theorem deadlineError_eq (cfg : DeciderConfig) (p : CollectorPipeline) :
    ∃ detail, deadlineError cfg p = .collectorTimeout (.deadlineTimer p) detail := by
  cases p with
  | attributes =>
    rw [deadlineError, FanOutConfig.deadlineExpired, cfg.attributePipeline.kind_eq]
    exact ⟨_, rfl⟩
  | rules =>
    rw [deadlineError, FanOutConfig.deadlineExpired, cfg.rulePipeline.kind_eq]
    exact ⟨_, rfl⟩

/-- A timer comes forward with its own error only. -/
theorem ComesKeyed.timer {v : Thrown} {p : CollectorPipeline} {i : Nat} {e : DecideEvent}
    (h : ComesKeyed cfg v.key (.timer p i) s e) : v = timerError cfg p i := by
  obtain ⟨w, hcomes, hkey⟩ := h
  obtain ⟨detail, hdetail⟩ := timerError_eq cfg p i
  have hw : w = timerError cfg p i := by
    cases hcomes with
    | attributeTimer => rfl
    | ruleTimer => rfl
  rw [hw, hdetail] at hkey
  rw [hdetail]
  exact eq_of_key hkey.symm

theorem ComesKeyed.deadline {v : Thrown} {p : CollectorPipeline} {e : DecideEvent}
    (h : ComesKeyed cfg v.key (.deadline p) s e) : v = deadlineError cfg p := by
  obtain ⟨w, hcomes, hkey⟩ := h
  obtain ⟨detail, hdetail⟩ := deadlineError_eq cfg p
  have hw : w = deadlineError cfg p := by
    cases hcomes with
    | attributeDeadline => rfl
    | ruleDeadline => rfl
  rw [hw, hdetail] at hkey
  rw [hdetail]
  exact eq_of_key hkey.symm

/-- A failure that an origin came forward with is named after it. -/
theorem classifyFailure_origin {v : Thrown} {failures : FailureRecord} {origin : Origin}
    (hv : NamesCollector v) (hsource : failures.sourceOf v = some (origin.source cfg))
    (hdeadline : ∀ p, origin = .deadline p → v = deadlineError cfg p) :
    (classifyFailure v failures).collector? = some (origin.name cfg) := by
  have hname : collectorName (some (origin.source cfg)) = origin.name cfg := by
    cases origin <;> rfl
  unfold classifyFailure
  rw [hsource]
  cases v with
  | collectorTimeout ref detail => exact congrArg some hname
  | ruleTimeout ref detail => exact absurd rfl (hv.2 ref detail)
  | attributeConflict ref key => exact absurd rfl (hv.1 ref key)
  | _ =>
    cases origin with
    | collector p i => rfl
    | timer p i => rfl
    | deadline p =>
      obtain ⟨detail, hdetail⟩ := deadlineError_eq cfg p
      have heq := (hdeadline p rfl).trans hdetail
      exact absurd heq (by simp)

/-- The names of a classification are the record's, or nobody's. -/
theorem classifyFailure_names (v : Thrown) (failures : FailureRecord) :
    (∀ name, (classifyFailure v failures).collector? = some name → name = unattributed ∨
      ∃ source, failures.sourceOf v = some source ∧ name = collectorName (some source) ∧
        ∀ ruleType code, source ≠ .rule ruleType code) ∧
    (∀ rule, (classifyFailure v failures).rule? = some rule →
      rule = { ruleType := unattributed, code := unattributed } ∨
      ∃ ruleType code, failures.sourceOf v = some (.rule ruleType code) ∧
        rule = { ruleType := identifier ruleType, code := identifier code }) := by
  unfold classifyFailure
  refine ⟨fun name hname => ?_, fun rule hrule => ?_⟩
  · cases hsource : failures.sourceOf v with
    | none =>
      rw [hsource] at hname
      cases v <;> simp_all [ClassifiedFailure.collector?, collectorName]
    | some source =>
      rw [hsource] at hname
      cases source <;> cases v <;> simp_all [ClassifiedFailure.collector?, collectorName]
  · cases hsource : failures.sourceOf v with
    | none =>
      rw [hsource] at hrule
      cases v <;> simp_all [ClassifiedFailure.rule?, ruleName]
    | some source =>
      rw [hsource] at hrule
      cases source <;> cases v <;> simp_all [ClassifiedFailure.rule?, ruleName]

theorem collectorAt_eq (cfg : DeciderConfig) (p : CollectorPipeline) (i : Nat) :
    ∃ className, collectorAt cfg p i = describeCollector className i p := by
  cases p with
  | attributes =>
    rw [collectorAt, FanOutConfig.name, cfg.attributePipeline.kind_eq]
    exact ⟨_, rfl⟩
  | rules =>
    rw [collectorAt, FanOutConfig.name, cfg.rulePipeline.kind_eq]
    exact ⟨_, rfl⟩

theorem collectorAt_ne_unattributed (cfg : DeciderConfig) (p : CollectorPipeline) (i : Nat) :
    collectorAt cfg p i ≠ unattributed := by
  obtain ⟨className, hname⟩ := collectorAt_eq cfg p i
  obtain ⟨suffix, hsuffix⟩ := describeCollector_eq className i p
  obtain ⟨letters, hletters⟩ : ∃ rest, unattributed = 0x75 :: rest := ⟨_, rfl⟩
  obtain ⟨first, others, hfirst, hne⟩ : ∃ first others, p.name = first :: others ∧ first ≠ 0x75 := by
    cases p with
    | attributes => exact ⟨_, _, rfl, by decide⟩
    | rules => exact ⟨_, _, rfl, by decide⟩
  rw [hname, hsuffix, hletters, hfirst]
  exact fun h => hne (List.cons.inj h).1

/-- The name of a collector is the name of one that came forward at that position, or of its timer. -/
theorem eq_of_name {origin : Origin} {p : CollectorPipeline} {i : Nat}
    (h : collectorAt cfg p i = origin.name cfg) : origin = .collector p i ∨ origin = .timer p i := by
  obtain ⟨className, hname⟩ := collectorAt_eq cfg p i
  cases origin with
  | collector q j =>
    obtain ⟨other, hother⟩ := collectorAt_eq cfg q j
    rw [hname, Origin.name, hother] at h
    obtain ⟨rfl, rfl⟩ := describeCollector_inj h
    exact Or.inl rfl
  | timer q j =>
    obtain ⟨other, hother⟩ := collectorAt_eq cfg q j
    rw [hname, Origin.name, hother] at h
    obtain ⟨rfl, rfl⟩ := describeCollector_inj h
    exact Or.inr rfl
  | deadline q =>
    rw [hname] at h
    exact absurd h (describeCollector_ne_list className i p q)

/-! ## The decision -/

section Attribution

variable {caller : Option Thrown} {events : List DecideEvent} {v : Thrown}

theorem CameFirst.cameForward {origin : Origin} (h : CameFirst cfg entry input caller events origin v) :
    CameForward cfg entry input caller events origin v := h.occurs

theorem CameForward.first {origin : Origin} (h : CameForward cfg entry input caller events origin v) :
    ∃ first, CameFirst cfg entry input caller events first v := by
  obtain ⟨a, e, b, hoccurs, hcomes⟩ := h
  obtain ⟨pre, f, post, c, d, hes, hpre, hf, ⟨first, hfirst⟩, hno⟩ := hoccurs.exists_first
    (Q := fun a e => ∃ other, ComesKeyed cfg v.key other a e) ⟨origin, hcomes⟩
  exact ⟨first, pre, f, post, c, d, hes, hpre, hf, hfirst, hno⟩

/-- When the decision fails, the record holds who came forward first with what it failed with, or the
rule that raised it, or nobody. -/
theorem caught_source {world : World} {t : Deciding}
    (hrun : Machine.run (step cfg entry input) (start cfg caller) events = some s)
    (hproceed : step cfg entry input s (.proceed world) = some t) (hfailed : t.caught = some v) :
    (∀ origin, CameFirst cfg entry input caller events origin v →
      t.failures.sourceOf v = some (origin.source cfg)) ∧
    ((∀ origin, ¬ CameForward cfg entry input caller events origin v) →
      t.failures.sourceOf v = none ∨ ∃ attrs rules, s.joined = some (.ok (attrs, rules)) ∧
        ∃ rule ∈ rules, Raised rule attrs v ∧ t.failures.sourceOf v = some (ruleSource rule)) := by
  obtain ⟨-, hopen, hfailures⟩ := proceed_failed (run_inv hrun) hproceed hfailed
  have hread := failures_iff hrun hopen v
  have hsame : t.failures.sourceOf v = s.failures.sourceOf v ∨ ∃ attrs rules,
      s.joined = some (.ok (attrs, rules)) ∧ ∃ rule ∈ rules, Raised rule attrs v ∧
        t.failures.sourceOf v = (s.failures.sourceOf v).or (some (ruleSource rule)) := by
    rcases hfailures with h | ⟨attrs, rules, hjoined, rule, hrule, hraised, h⟩
    · exact Or.inl (by rw [h])
    · refine Or.inr ⟨attrs, rules, hjoined, rule, hrule, hraised, ?_⟩
      rw [h, FailureRecord.sourceOf, FailureRecord.get?_record, if_pos rfl]
      rfl
  refine ⟨fun origin hfirst => ?_, fun hnobody => ?_⟩
  · have hsource := (hread _).2 ⟨origin, hfirst, rfl⟩
    rcases hsame with h | ⟨attrs, rules, -, rule, -, -, h⟩
    · rw [h, hsource]
    · rw [h, hsource]
      rfl
  · have hnone : s.failures.sourceOf v = none := by
      cases hsource : s.failures.sourceOf v with
      | none => rfl
      | some source =>
        obtain ⟨origin, hfirst, -⟩ := (hread source).1 hsource
        exact absurd hfirst.cameForward (hnobody origin)
    rcases hsame with h | ⟨attrs, rules, hjoined, rule, hrule, hraised, h⟩
    · exact Or.inl (h.trans hnone)
    · refine Or.inr ⟨attrs, rules, hjoined, rule, hrule, hraised, ?_⟩
      rw [h, hnone]
      rfl

/-- Who a decision that failed with the value is blamed on. -/
structure Attribution (cfg : DeciderConfig) (entry : DecisionRequest) (input : DecisionInput)
    (caller : Option Thrown) (events : List DecideEvent) (s t : Deciding) (v : Thrown) : Prop where
  /-- What the decision reports is the classification under the record of that moment. -/
  reported : FailedWith cfg entry input v t.failures t
  /-- Whoever came forward first with the value is named. -/
  first : NamesCollector v → ∀ origin, CameFirst cfg entry input caller events origin v →
    (classifyFailure v t.failures).collector? = some (origin.name cfg)
  /-- A value no core timer makes names the first collector whose rejection with it landed. -/
  collectors : NamesCollector v → (∀ p i, v ≠ timerError cfg p i) → (∀ p, v ≠ deadlineError cfg p) →
    ∀ p i, CameForward cfg entry input caller events (.collector p i) v →
      ∃ q j, CameFirst cfg entry input caller events (.collector q j) v ∧
        classifyFailure v t.failures = match v with
          | .collectorTimeout _ _ => .collectorTimeout (collectorAt cfg q j)
          | _ => .collectorThrew (collectorAt cfg q j)
  /-- A collector's timeout names the collector that tripped, a deadline the pipeline's list. -/
  timers : MadeBeforeThrown cfg entry input caller events →
    (∀ p i, v = timerError cfg p i → CameForward cfg entry input caller events (.timer p i) v →
      classifyFailure v t.failures = .collectorTimeout (collectorAt cfg p i)) ∧
    ∀ p, v = deadlineError cfg p → CameForward cfg entry input caller events (.deadline p) v →
      classifyFailure v t.failures = .collectorTimeout (p.name ++ js ".collectors")
  /-- A collector that only rejected once it was cancelled is never named. -/
  cancelled : ∀ p i, (classifyFailure v t.failures).collector? = some (collectorAt cfg p i) →
    CameFirst cfg entry input caller events (.collector p i) v ∨
      CameFirst cfg entry input caller events (.timer p i) v
  /-- A value that nobody raised is attributed to nobody. -/
  nobody : (∀ origin, ¬ CameForward cfg entry input caller events origin v) →
    (∀ attrs rules, s.joined = some (.ok (attrs, rules)) → ∀ rule ∈ rules, ¬ Raised rule attrs v) →
    (∀ name, (classifyFailure v t.failures).collector? = some name → name = unattributed) ∧
    ∀ rule, (classifyFailure v t.failures).rule? = some rule →
      rule = { ruleType := unattributed, code := unattributed }
  /-- The names are the ones who came forward are listed under, whatever the error says. -/
  names : (∀ name, (classifyFailure v t.failures).collector? = some name → name = unattributed ∨
      ∃ origin, CameFirst cfg entry input caller events origin v ∧ name = origin.name cfg) ∧
    ∀ rule, (classifyFailure v t.failures).rule? = some rule →
      rule = { ruleType := unattributed, code := unattributed } ∨
      ∃ attrs rules, s.joined = some (.ok (attrs, rules)) ∧ ∃ r ∈ rules, Raised r attrs v ∧
        rule = { ruleType := identifier r.ruleType, code := identifier r.code }

/-- Where no collector throws the value before an origin has made it, and nobody else makes it, the
origin comes first. -/
theorem CameForward.first_of_made {origin : Origin} {ref : ErrorRef} {detail : CollectorTimeoutDetail}
    (h : CameForward cfg entry input caller events origin (.collectorTimeout ref detail))
    (hothers : ∀ other, CameForward cfg entry input caller events other (.collectorTimeout ref detail) →
      (∃ p i, other = .collector p i) ∨ other = origin)
    (hmade : ∀ p i pre e post a b, events = pre ++ e :: post →
      Machine.run (step cfg entry input) (start cfg caller) pre = some a →
      step cfg entry input a e = some b →
      Comes cfg a (.collector p i) (.collectorTimeout ref detail) e →
      CameForward cfg entry input caller pre origin (.collectorTimeout ref detail)) :
    CameFirst cfg entry input caller events origin (.collectorTimeout ref detail) := by
  obtain ⟨first, hfirst⟩ := h.first
  rcases hothers first hfirst.cameForward with ⟨p, i, rfl⟩ | rfl
  · obtain ⟨pre, e, post, a, b, hes, hpre, he, ⟨w, hcomes, hkey⟩, hno⟩ := hfirst
    obtain rfl := eq_of_key hkey
    obtain ⟨c, f, d, hoccurs, hearlier⟩ := hmade p i pre e post a b hes hpre he hcomes
    exact absurd ⟨origin, hearlier⟩ (hno c f d hoccurs)
  · exact hfirst

theorem first_timer (hmade : MadeBeforeThrown cfg entry input caller events) {p : CollectorPipeline}
    {i : Nat} (hv : v = timerError cfg p i)
    (h : CameForward cfg entry input caller events (.timer p i) v) :
    CameFirst cfg entry input caller events (.timer p i) v := by
  obtain ⟨detail, hdetail⟩ := timerError_eq cfg p i
  obtain rfl := hv.trans hdetail
  refine h.first_of_made (fun other hother => ?_) fun q j pre e post a b hes hpre he hcomes =>
    (hmade q j _ pre e post a b ⟨p, i, Or.inl hv⟩ hes hpre he hcomes).1 p i hv
  obtain ⟨a, e, b, -, hcomes⟩ := hother
  cases other with
  | collector q j => exact Or.inl ⟨q, j, rfl⟩
  | timer q j =>
    obtain ⟨detail', hdetail'⟩ := timerError_eq cfg q j
    have href := (Thrown.collectorTimeout.inj (hcomes.timer.trans hdetail')).1
    obtain ⟨rfl, rfl⟩ := ErrorRef.collectorTimer.inj href
    exact Or.inr rfl
  | deadline q =>
    obtain ⟨detail', hdetail'⟩ := deadlineError_eq cfg q
    have href := (Thrown.collectorTimeout.inj (hcomes.deadline.trans hdetail')).1
    exact absurd href (by simp)

theorem first_deadline (hmade : MadeBeforeThrown cfg entry input caller events) {p : CollectorPipeline}
    (hv : v = deadlineError cfg p) (h : CameForward cfg entry input caller events (.deadline p) v) :
    CameFirst cfg entry input caller events (.deadline p) v := by
  obtain ⟨detail, hdetail⟩ := deadlineError_eq cfg p
  obtain rfl := hv.trans hdetail
  refine h.first_of_made (fun other hother => ?_) fun q j pre e post a b hes hpre he hcomes =>
    (hmade q j _ pre e post a b ⟨p, 0, Or.inr hv⟩ hes hpre he hcomes).2 p hv
  obtain ⟨a, e, b, -, hcomes⟩ := hother
  cases other with
  | collector q j => exact Or.inl ⟨q, j, rfl⟩
  | timer q j =>
    obtain ⟨detail', hdetail'⟩ := timerError_eq cfg q j
    have href := (Thrown.collectorTimeout.inj (hcomes.timer.trans hdetail')).1
    exact absurd href (by simp)
  | deadline q =>
    obtain ⟨detail', hdetail'⟩ := deadlineError_eq cfg q
    have href := (Thrown.collectorTimeout.inj (hcomes.deadline.trans hdetail')).1
    obtain rfl := ErrorRef.deadlineTimer.inj href
    exact Or.inr rfl

/-- The names of a failed decision are the ones who came forward are listed under. -/
theorem caught_names {world : World} {t : Deciding}
    (hrun : Machine.run (step cfg entry input) (start cfg caller) events = some s)
    (hproceed : step cfg entry input s (.proceed world) = some t) (hfailed : t.caught = some v) :
    (∀ name, (classifyFailure v t.failures).collector? = some name → name = unattributed ∨
      ∃ origin, CameFirst cfg entry input caller events origin v ∧ name = origin.name cfg) ∧
    ∀ rule, (classifyFailure v t.failures).rule? = some rule →
      rule = { ruleType := unattributed, code := unattributed } ∨
      ∃ attrs rules, s.joined = some (.ok (attrs, rules)) ∧ ∃ r ∈ rules, Raised r attrs v ∧
        rule = { ruleType := identifier r.ruleType, code := identifier r.code } := by
  obtain ⟨hcame, hnobody⟩ := caught_source hrun hproceed hfailed
  obtain ⟨hcollectors, hrules⟩ := classifyFailure_names v t.failures
  by_cases hsome : ∃ origin, CameForward cfg entry input caller events origin v
  · obtain ⟨origin, horigin⟩ := hsome
    obtain ⟨first, hfirst⟩ := horigin.first
    have hsource := hcame first hfirst
    refine ⟨fun name hname => ?_, fun rule hrule => ?_⟩
    · rcases hcollectors name hname with h | ⟨source, h, rfl, -⟩
      · exact Or.inl h
      · obtain rfl := Option.some.inj (h.symm.trans hsource)
        exact Or.inr ⟨first, hfirst, by cases first <;> rfl⟩
    · rcases hrules rule hrule with h | ⟨ruleType, code, h, -⟩
      · exact Or.inl h
      · have hother := Option.some.inj (h.symm.trans hsource)
        cases first <;> exact absurd hother (by simp [Origin.source])
  · have hnobody := hnobody fun origin horigin => hsome ⟨origin, horigin⟩
    refine ⟨fun name hname => ?_, fun rule hrule => ?_⟩
    · rcases hcollectors name hname with h | ⟨source, h, -, hnot⟩
      · exact Or.inl h
      · rcases hnobody with hnone | ⟨attrs, rules, -, r, -, -, hsource⟩
        · exact absurd (h.symm.trans hnone) (by simp)
        · exact absurd (Option.some.inj (h.symm.trans hsource)) (hnot r.ruleType r.code)
    · rcases hrules rule hrule with h | ⟨ruleType, code, h, rfl⟩
      · exact Or.inl h
      · rcases hnobody with hnone | ⟨attrs, rules, hjoined, r, hr, hraised, hsource⟩
        · exact absurd (h.symm.trans hnone) (by simp)
        · obtain ⟨rfl, rfl⟩ := FailureSource.rule.inj (Option.some.inj (h.symm.trans hsource))
          exact Or.inr ⟨attrs, rules, hjoined, r, hr, hraised, rfl⟩

/-- Whoever came forward first with what a decision failed with is the one it is blamed on. -/
theorem failure_attribution (cfg : DeciderConfig) (entry : DecisionRequest) (input : DecisionInput)
    (caller : Option Thrown) (events : List DecideEvent) (world : World) (s t : Deciding) (v : Thrown)
    (hrun : Machine.run (step cfg entry input) (start cfg caller) events = some s)
    (hproceed : step cfg entry input s (.proceed world) = some t) (hfailed : t.caught = some v) :
    Attribution cfg entry input caller events s t v := by
  obtain ⟨hcame, -⟩ := caught_source hrun hproceed hfailed
  have hnames := caught_names hrun hproceed hfailed
  have hfirst : NamesCollector v → ∀ origin, CameFirst cfg entry input caller events origin v →
      (classifyFailure v t.failures).collector? = some (origin.name cfg) := by
    intro hv origin horigin
    refine classifyFailure_origin hv (hcame origin horigin) fun p hp => ?_
    subst hp
    obtain ⟨a, e, b, -, hcomes⟩ := horigin.occurs
    exact hcomes.deadline
  have hlisted : ∀ {origin ref detail}, v = .collectorTimeout ref detail →
      CameFirst cfg entry input caller events origin v →
      classifyFailure v t.failures = .collectorTimeout (origin.name cfg) := by
    intro origin ref detail hv horigin
    have hsource := hcame origin horigin
    subst hv
    unfold classifyFailure
    rw [hsource]
    cases origin <;> rfl
  refine ⟨(proceed_failed (run_inv hrun) hproceed hfailed).1, hfirst, ?_, ?_, ?_, ?_, hnames⟩
  · intro hv hnoTimer hnoDeadline p i hcollector
    obtain ⟨origin, horigin⟩ := hcollector.first
    obtain ⟨a, e, b, -, hcomes⟩ := horigin.occurs
    cases origin with
    | collector q j =>
      refine ⟨q, j, horigin, ?_⟩
      have hsource := hcame _ horigin
      unfold classifyFailure
      rw [hsource]
      cases v with
      | ruleTimeout ref detail => exact absurd rfl (hv.2 ref detail)
      | attributeConflict ref key => exact absurd rfl (hv.1 ref key)
      | _ => rfl
    | timer q j => exact absurd hcomes.timer (hnoTimer q j)
    | deadline q => exact absurd hcomes.deadline (hnoDeadline q)
  · intro hmade
    refine ⟨fun p i hv htimer => ?_, fun p hv hdeadline => ?_⟩
    · obtain ⟨detail, hdetail⟩ := timerError_eq cfg p i
      exact hlisted (hv.trans hdetail) (first_timer hmade hv htimer)
    · obtain ⟨detail, hdetail⟩ := deadlineError_eq cfg p
      exact hlisted (hv.trans hdetail) (first_deadline hmade hv hdeadline)
  · intro p i hname
    rcases hnames.1 _ hname with h | ⟨origin, horigin, h⟩
    · exact absurd h (collectorAt_ne_unattributed cfg p i)
    · rcases eq_of_name h with rfl | rfl
      · exact Or.inl horigin
      · exact Or.inr horigin
  · intro hnobody hrules
    refine ⟨fun name hname => ?_, fun rule hrule => ?_⟩
    · rcases hnames.1 name hname with h | ⟨origin, horigin, -⟩
      · exact h
      · exact absurd horigin.cameForward (hnobody origin)
    · rcases hnames.2 rule hrule with h | ⟨attrs, rules, hjoined, r, hr, hraised, -⟩
      · exact h
      · exact absurd hraised (hrules attrs rules hjoined r hr)

end Attribution

/-- A value two collectors and the caller can share. -/
def outage : Thrown := .other (.str (js "store is down"))

/-- Two attribute collectors, the second of a class of its own. -/
def twoStores : DeciderConfig :=
  { pairConfig with
    attributePipeline :=
      { fanOut := { pipeline := .attributes, count := 2,
                    className := fun i => if i = 1 then .str (js "FailingCollector") else .undefined,
                    atOnce := fun _ => none,
                    limits := { collectorTimeoutMs := 2000, deadlineMs := 5000, concurrency := 8 } }
        kind_eq := rfl
        positive := by decide } }

/-- The second store fails, and the first, once cancelled, rejects with the reason it was given. -/
def siblingCancelled : List DecideEvent :=
  [DecideEvent.attributes .startLane, .attributes .startLane, .rules .startLane, .attributes .job,
    .attributes .job, .attributes (.settle 1 (.error outage))] ++
    List.replicate 7 (DecideEvent.attributes .job) ++ [DecideEvent.attributes (.settle 0 (.error outage))] ++
    List.replicate 2 (DecideEvent.attributes .job) ++ [DecideEvent.attributesCollected, .joinAttributes]

/-- The decision is blamed on the store that failed, not on the one it cancelled. -/
theorem failure_attribution_sibling : ∃ s t,
    Machine.run (step twoStores readOrder alice) (start twoStores none) siblingCancelled = some s ∧
    step twoStores readOrder alice s (.proceed quietWorld) = some t ∧
    Attribution twoStores readOrder alice none siblingCancelled s t outage ∧
    classifyFailure outage t.failures =
      .collectorThrew (js "attribute.collectors[1] (FailingCollector)") := by
  obtain ⟨s, t, hrun, hproceed, hfailed, hnamed⟩ : ∃ s t,
      Machine.run (step twoStores readOrder alice) (start twoStores none) siblingCancelled = some s ∧
      step twoStores readOrder alice s (.proceed quietWorld) = some t ∧ t.caught = some outage ∧
      classifyFailure outage t.failures =
        .collectorThrew (js "attribute.collectors[1] (FailingCollector)") :=
    ⟨_, _, rfl, rfl, rfl, rfl⟩
  exact ⟨s, t, hrun, hproceed, failure_attribution twoStores readOrder alice none siblingCancelled
    quietWorld s t outage hrun hproceed hfailed, hnamed⟩

/-- The only store's collector rejects, and before the rejection reaches its runner the caller leaves
with the same value. -/
def callerLeavesFirst : List DecideEvent :=
  [DecideEvent.attributes .startLane, .rules .startLane, .attributes .job,
    .attributes (.settle 0 (.error outage)), .callerAbort outage] ++
    List.replicate 8 (DecideEvent.attributes .job) ++ [DecideEvent.attributesCollected, .joinAttributes]

/-- The collector rejected while its signal had not aborted, the decision fails with what it rejected
with, and nobody is named. -/
theorem rejection_unattributed : ∃ s t a b call,
    Machine.run (step pairConfig readOrder alice) (start pairConfig none) callerLeavesFirst = some s ∧
    step pairConfig readOrder alice s (.proceed quietWorld) = some t ∧ t.caught = some outage ∧
    Machine.Occurs (step pairConfig readOrder alice) (start pairConfig none) callerLeavesFirst a
      (.attributes (.settle 0 (.error outage))) b ∧
    a.attributeFanOut.call 0 = some call ∧ call.own = none ∧ NamesCollector outage ∧
    classifyFailure outage t.failures = .internal := by
  obtain ⟨s, t, a, b, call, hrun, hproceed, hfailed, hpre, hsettle, hcall, hown, hnamed⟩ :
      ∃ s t a b call,
        Machine.run (step pairConfig readOrder alice) (start pairConfig none) callerLeavesFirst =
          some s ∧ step pairConfig readOrder alice s (.proceed quietWorld) = some t ∧
        t.caught = some outage ∧
        Machine.run (step pairConfig readOrder alice) (start pairConfig none)
          [.attributes .startLane, .rules .startLane, .attributes .job] = some a ∧
        step pairConfig readOrder alice a (.attributes (.settle 0 (.error outage))) = some b ∧
        a.attributeFanOut.call 0 = some call ∧ call.own = none ∧
        classifyFailure outage t.failures = .internal :=
    ⟨_, _, _, _, _, rfl, rfl, rfl, rfl, rfl, rfl, rfl, rfl⟩
  have hnames : NamesCollector outage := ⟨fun ref key h => by simp [outage] at h,
    fun ref detail h => by simp [outage] at h⟩
  exact ⟨s, t, a, b, call, hrun, hproceed, hfailed, ⟨_, _, rfl, hpre, hsettle⟩, hcall, hown, hnames,
    hnamed⟩

end Deciding

end PolicyVerifier.Server
