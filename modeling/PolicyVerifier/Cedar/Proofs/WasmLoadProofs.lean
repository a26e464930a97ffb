import PolicyVerifier.Cedar.Proofs.HttpEngineProofs
import PolicyVerifier.Cedar.WasmLoad
import PolicyVerifier.Core.Proofs.BoundPoliciesProofs
import PolicyVerifier.Js.Proofs.JsonProofs
import PolicyVerifier.Lib.ExceptFold

/-!
# What passes over the wasm engine

Every load compiles its set under an id no other load has, so a rule answers from the policies of its own source
whatever else is loaded before it and after it, and what it reports names that source's revision.
-/

namespace PolicyVerifier.Cedar

open Js PolicyVerifier.Core

variable {Policy : Type} (cedar : CedarEvaluator Policy) {sha256 : Str → Digest}

/-- What the engine compiles a source to. -/
def Compiled (source : PolicySource sha256) (compiled : Policies Policy) : Prop :=
  ∃ policies, wasmPolicies cedar.parts source.files = .ok policies ∧
    cedar.compile (staticPolicies policies) = .ok compiled

/-! ## The ids of the sets -/

theorem policySetIdOf_injective {m n : Nat} (h : policySetIdOf m = policySetIdOf n) : m = n :=
  Json.decimal_injective (List.append_cancel_left h)

/-- The bindings hold no set under an id the counter has yet to give. -/
def WasmModule.Fresh (m : WasmModule Policy) : Prop :=
  ∀ n, m.policySetCounter ≤ n → m.preparsed.get? (policySetIdOf n) = none

theorem fresh_start : ({} : WasmModule Policy).Fresh := fun _ _ => rfl

/-- What a load does: it fails and gives no id more than the one it took, or it compiles its source under the
counter's id. -/
theorem WasmModule.load_cases (m : WasmModule Policy) (source : PolicySource sha256) :
    (∃ message, (m.load cedar source).2 = .error message ∧ (m.load cedar source).1.preparsed = m.preparsed ∧
      m.policySetCounter ≤ (m.load cedar source).1.policySetCounter) ∨
    ∃ compiled, Compiled cedar source compiled ∧
      m.load cedar source =
        ({ policySetCounter := m.policySetCounter + 1
           preparsed := m.preparsed.set (policySetIdOf m.policySetCounter) compiled },
         .ok { policySetId := policySetIdOf m.policySetCounter, revision := source.revision }) := by
  unfold WasmModule.load
  cases hpolicies : wasmPolicies cedar.parts source.files with
  | error message => exact Or.inl ⟨message, rfl, rfl, Nat.le_refl _⟩
  | ok policies =>
    dsimp only
    cases hcompile : cedar.compile (staticPolicies policies) with
    | error errors => exact Or.inl ⟨_, rfl, rfl, Nat.le_succ _⟩
    | ok compiled => exact Or.inr ⟨compiled, ⟨policies, hpolicies, hcompile⟩, rfl⟩

variable {m : WasmModule Policy}

theorem WasmModule.Fresh.load (h : m.Fresh) (source : PolicySource sha256) : (m.load cedar source).1.Fresh := by
  intro n hn
  rcases m.load_cases cedar source with ⟨message, -, hheld, hcounter⟩ | ⟨compiled, -, hload⟩
  · rw [hheld]
    exact h n (hcounter.trans hn)
  · rw [hload] at hn ⊢
    have hne : policySetIdOf m.policySetCounter ≠ policySetIdOf n := by
      intro heq
      have := policySetIdOf_injective heq
      simp only at hn
      omega
    rw [OrderedMap.get?_set, if_neg hne]
    exact h n (Nat.le_of_succ_le hn)

theorem WasmModule.Fresh.loads (h : m.Fresh) (sources : List (PolicySource sha256)) :
    (m.loads cedar sources).Fresh := by
  induction sources generalizing m with
  | nil => exact h
  | cons source sources ih => exact ih (h.load cedar source)

/-- A set that is held stays, whatever is loaded. -/
theorem WasmModule.held_load (hfresh : m.Fresh) {set : Str} {compiled : Policies Policy}
    (h : m.preparsed.get? set = some compiled) (source : PolicySource sha256) :
    (m.load cedar source).1.preparsed.get? set = some compiled := by
  rcases m.load_cases cedar source with ⟨message, -, hheld, -⟩ | ⟨other, -, hload⟩
  · rw [hheld]
    exact h
  · have hne : policySetIdOf m.policySetCounter ≠ set := by
      rintro rfl
      rw [hfresh _ (Nat.le_refl _)] at h
      exact absurd h (by simp)
    rw [hload, OrderedMap.get?_set, if_neg hne]
    exact h

theorem WasmModule.held_loads (hfresh : m.Fresh) {set : Str} {compiled : Policies Policy}
    (h : m.preparsed.get? set = some compiled) (sources : List (PolicySource sha256)) :
    (m.loads cedar sources).preparsed.get? set = some compiled := by
  induction sources generalizing m with
  | nil => exact h
  | cons source sources ih => exact ih (hfresh.load cedar source) (held_load cedar hfresh h source)

/-- A loaded set answers from the policies of its source, whatever is loaded after it. -/
theorem WasmModule.isAuthorized_loaded (hfresh : m.Fresh) {source : PolicySource sha256} {set : WasmPolicySet}
    (h : (m.load cedar source).2 = .ok set) :
    ∃ compiled, Compiled cedar source compiled ∧ ∀ (after : List (PolicySource sha256)) request,
      ((m.load cedar source).1.loads cedar after).isAuthorized cedar set request =
        wasmAnswer source.revision (cedar.authorize compiled request) := by
  rcases m.load_cases cedar source with ⟨message, hfails, -⟩ | ⟨compiled, hcompiled, hload⟩
  · exact absurd (hfails.symm.trans h) (by simp)
  · refine ⟨compiled, hcompiled, fun after request => ?_⟩
    have hset : set = { policySetId := policySetIdOf m.policySetCounter, revision := source.revision } := by
      rw [hload] at h
      exact (Except.ok.inj h).symm
    have hheld : (m.load cedar source).1.preparsed.get? (policySetIdOf m.policySetCounter) = some compiled := by
      rw [hload, OrderedMap.get?_set, if_pos rfl]
    have hstays := held_loads cedar (hfresh.load cedar source) hheld after
    rw [WasmModule.isAuthorized, hset, hstays]

/-! ## The rule over it -/

section Fields

variable (response : CedarResponse) (revision : Str)

@[simp] theorem wasmDecision_isObject : (wasmDecision response revision).isObject = true := rfl

@[simp] theorem wasmDecision_revision : (wasmDecision response revision).field (js "revision") = .str revision := rfl

@[simp] theorem wasmDecision_decision : (wasmDecision response revision).field (js "decision") =
    .str (if response.allow then js "allow" else js "deny") := rfl

@[simp] theorem wasmDecision_reason : ((wasmDecision response revision).field (js "reason")).items? =
    some (response.reason.map .str) := rfl

@[simp] theorem wasmDecision_errors : ((wasmDecision response revision).field (js "errors")).items? =
    some ((response.errors.map fun error => error.1 ++ js ": " ++ error.2).map .str) := rfl

@[simp] theorem wasmDecision_foreign : (wasmDecision response revision).field (js "foreign") = .undefined := rfl

theorem wasmDecision_allows : Allows (wasmDecision response revision) ↔ response.allow = true := by
  rw [Allows, wasmDecision_decision]
  cases response.allow <;> decide

theorem wasmDecision_namesNone : NamesNone (wasmDecision response revision) ↔ response.reason = [] := by
  rw [NamesNone, wasmDecision_reason]
  simp

theorem wasmDecision_readable (rule : BoundRule) (hrevision : rule.loadedRevision = revision) :
    Readable rule (wasmDecision response revision) ↔ response.errors = [] := by
  rw [readable_iff]
  have hfits : revisionFits rule (wasmDecision response revision) = true := by simp [revisionFits, hrevision]
  have hforeign : isForeign (wasmDecision response revision) = false := by simp [isForeign]
  have hconfirmed : confirmed (wasmDecision response revision) = true := by simp [confirmed]
  simp [hfits, hforeign, hconfirmed]

end Fields

/-- What a rule makes of an evaluation: it passes where the policies allow, or where it abstains and none of them
determined the request; never where one raised an error. -/
def RulePasses (onNone : NoDeterminingPolicy) (response : CedarResponse) : Prop :=
  response.errors = [] ∧ (response.allow = true ∨ (response.reason = [] ∧ onNone = .abstain))

/-- What the rule answers from an evaluation, and what it reports of it. -/
structure AnswersFrom (rule : BoundRule) (response : CedarResponse) (answered : Answered) : Prop where
  passed : answered.passed = true ↔ RulePasses rule.onNoDeterminingPolicy response
  completed : response.errors = [] → answered.evaluation = .completed (.revision rule.loadedRevision) {} ∧
    answered.naming = some (.revision rule.loadedRevision, response.reason.map .str)
  failed : response.errors ≠ [] → answered.evaluation.status = .failed ∧ answered.naming = none

theorem interpret_wasmDecision (rule : BoundRule) {policies : Policies Policy} {request : CedarRequest}
    {response : CedarResponse} (h : cedar.authorize policies request = .ok response) :
    AnswersFrom rule response (interpret rule (wasmDecision response rule.loadedRevision)).1 := by
  have hreadable := wasmDecision_readable response rule.loadedRevision rule rfl
  have hallow : ¬ (Allows (wasmDecision response rule.loadedRevision) ∧
      NamesNone (wasmDecision response rule.loadedRevision)) := by
    rw [wasmDecision_allows, wasmDecision_namesNone]
    rintro ⟨hallows, hnone⟩
    exact cedar.allow_named policies request response h hallows hnone
  by_cases herrors : response.errors = []
  · obtain ⟨reason, hreason, hcompleted⟩ := interpret_completes (hreadable.2 herrors) hallow
    obtain rfl : response.reason.map .str = reason := Option.some.inj hreason
    rw [hcompleted]
    have hrevision : evaluatedRevision rule (wasmDecision response rule.loadedRevision) =
        .revision rule.loadedRevision := by simp [evaluatedRevision, confirmed]
    refine ⟨?_, fun _ => ?_, fun hsome => absurd herrors hsome⟩
    · have hallows := wasmDecision_allows response rule.loadedRevision
      rw [Allows] at hallows
      rw [completedAnswer, decide_eq_true_iff, hallows, List.map_eq_nil_iff, RulePasses]
      exact (and_iff_right herrors).symm
    · rw [completedAnswer, hrevision]
      exact ⟨rfl, rfl⟩
  · have hfails : Fails (interpret rule (wasmDecision response rule.loadedRevision)).1 :=
      interpret_fails (Or.inl (mt hreadable.1 herrors))
    refine ⟨iff_of_false ?_ ?_, fun hnone => absurd hnone herrors, fun _ => ⟨hfails.status, hfails.naming⟩⟩
    · simp [hfails.passed]
    · exact fun hpasses => herrors hpasses.1

/-! ## What is reported -/

section Reported

variable {toStr : Value → Except Thrown Str}

theorem distinctNames_strings (names : List Str) : distinctNames (names.map .str) = names.eraseDups.map .str := by
  have hstr : ∀ names : List Str, names.map Value.str = names.filterMap fun name => some (.str name) := by
    intro names
    rw [List.filterMap_eq_map']
  have hkeys : (names.map Value.str).map Value.mapKey = names.map Value.str := by
    rw [List.map_map]
    rfl
  have hinj : ∀ (m n : Str) (v : Value), some (Value.str m) = some v → some (Value.str n) = some v → m = n := by
    intro m n v hm hn
    exact Value.str.inj (Option.some.inj (hm.trans hn.symm))
  rw [distinctNames, hkeys, hstr names, ← filterMap_eraseDups hinj, ← hstr]

/-- Strings are put in the order of their code units. -/
theorem sortValues_strings (hstrings : ∀ s, toStr (.str s) = .ok s) (names : List Str) :
    sortValues toStr (names.map .str) = .ok ((sort names).map .str) := by
  have hall : ((names.map Value.str).filter fun v => v ≠ .undefined) = names.map .str :=
    List.filter_eq_self.2 fun v hv => by
      obtain ⟨name, -, rfl⟩ := List.mem_map.1 hv
      rfl
  have hrest : ((names.map Value.str).filter fun v => v = .undefined) = [] :=
    List.filter_eq_nil_iff.2 fun v hv => by
      obtain ⟨name, -, rfl⟩ := List.mem_map.1 hv
      simp
  unfold sortValues
  rw [hall, hrest]
  dsimp only
  split
  · rename_i hfew
    -- fewer than two names are in order as they are
    match names, hfew with
    | [], _ => rfl
    | [name], _ => rfl
  · have hkeyed : (names.map Value.str).mapM (fun v => (toStr v).map fun s => (s, v)) =
        .ok (names.map fun name => (name, Value.str name)) := by
      have hone : ∀ v ∈ names.map Value.str, ((toStr v).map fun s => (s, v)) = .ok (v.str?.getD [], v) := by
        intro v hv
        obtain ⟨name, -, rfl⟩ := List.mem_map.1 hv
        rw [hstrings]
        rfl
      rw [ExceptFold.mapM_ok hone, List.map_map]
      rfl
    have hsorted : (names.map fun name => (name, Value.str name)).insertionSort
        (fun x y => notAfter x.1 y.1 = true) = (sort names).map fun name => (name, Value.str name) :=
      (List.map_insertionSort (r := fun s t => notAfter s t = true)
        (s := fun x y : Str × Value => notAfter x.1 y.1 = true) (fun name => (name, Value.str name)) names
        fun _ _ _ _ => Iff.rfl).symm
    rw [hkeyed]
    show Except.ok _ = _
    rw [hsorted, List.map_map, List.append_nil]
    rfl

/-- How the policies that determined an answer are reported, to a reporter of either kind. -/
def reportedNames (names : List Str) : Reporter → DeterminingPolicies
  | .plain => {}
  | .bounding bound => bound ((sort names.eraseDups).map .str)

theorem deliver_completed (hstrings : ∀ s, toStr (.str s) = .ok s) {answered : Answered}
    {revision : EvaluatedRevision} {names : List Str} (hevaluation : answered.evaluation = .completed revision {})
    (hnaming : answered.naming = some (revision, names.map .str)) (reporter : Option Reporter) :
    deliver toStr answered reporter =
      .ok (answered.passed, reporter.map fun r => .completed revision (reportedNames names r)) := by
  cases reporter with
  | none => rfl
  | some r =>
    cases r with
    | plain =>
      rw [deliver, told, hevaluation]
      rfl
    | bounding bound =>
      rw [deliver, told, hnaming]
      dsimp only
      rw [naming, distinctNames_strings, sortValues_strings hstrings]
      rfl

end Reported

/-! ## The law -/

/-- What a rule over its own compiled policies answers and reports, on every request. -/
structure OwnEvaluation (rule : BoundRule) (compiled : Policies Policy)
    (isAuthorized : CedarRequest → Except Thrown Value) : Prop where
  /-- Attributes no request is built from are denied, and nothing was evaluated. -/
  notBuilt : ∀ toStr attrs reporter message, buildCedarRequest rule.mapping attrs = .error message →
    rule.verify toStr isAuthorized attrs reporter = .ok (false, reporter.map fun _ => .notInvoked)
  /-- What Cedar cannot evaluate is denied, and failed. -/
  notEvaluated : ∀ toStr attrs reporter request errors, buildCedarRequest rule.mapping attrs = .ok request →
    cedar.authorize compiled request = .error errors →
    rule.verify toStr isAuthorized attrs reporter =
      .ok (false, reporter.map fun _ => .failed (.unknown (some rule.loadedRevision)))
  /-- And so is an evaluation in which a policy raised an error. -/
  erred : ∀ toStr attrs reporter request response, buildCedarRequest rule.mapping attrs = .ok request →
    cedar.authorize compiled request = .ok response → response.errors ≠ [] →
    ∃ evaluation, evaluation.status = .failed ∧
      rule.verify toStr isAuthorized attrs reporter = .ok (false, reporter.map fun _ => evaluation)
  /-- Any other evaluation decides, and is reported under the revision of the source with the policies that
  determined it, each once and in order. -/
  decided : ∀ toStr, (∀ s, toStr (.str s) = .ok s) → ∀ attrs reporter request response,
    buildCedarRequest rule.mapping attrs = .ok request → cedar.authorize compiled request = .ok response →
    response.errors = [] → ∃ passed, (passed = true ↔ RulePasses rule.onNoDeterminingPolicy response) ∧
      rule.verify toStr isAuthorized attrs reporter =
        .ok (passed, reporter.map fun r =>
          .completed (.revision rule.loadedRevision) (reportedNames response.reason r))

variable {cedar}

theorem ownEvaluation {rule : BoundRule} {compiled : Policies Policy}
    {isAuthorized : CedarRequest → Except Thrown Value}
    (h : ∀ request, isAuthorized request = wasmAnswer rule.loadedRevision (cedar.authorize compiled request)) :
    OwnEvaluation cedar rule compiled isAuthorized where
  notBuilt := by
    intro toStr attrs reporter message hbuilt
    rw [BoundRule.verify, hbuilt]
    cases reporter with
    | none => rfl
    | some r => cases r <;> rfl
  notEvaluated := by
    intro toStr attrs reporter request errors hbuilt hfails
    simp only [BoundRule.verify, hbuilt, h, hfails, wasmAnswer, cedarEngineError]
    exact deliver_fails toStr ⟨rfl, rfl, rfl⟩ reporter
  erred := by
    intro toStr attrs reporter request response hbuilt hok herrors
    have hanswers := interpret_wasmDecision cedar rule hok
    obtain ⟨hstatus, hnaming⟩ := hanswers.failed herrors
    have hpassed : (interpret rule (wasmDecision response rule.loadedRevision)).1.passed = false := by
      rw [← Bool.not_eq_true, hanswers.passed]
      exact fun hpasses => herrors hpasses.1
    refine ⟨_, hstatus, ?_⟩
    simp only [BoundRule.verify, hbuilt, h, hok, wasmAnswer]
    exact deliver_fails toStr ⟨hpassed, hstatus, hnaming⟩ reporter
  decided := by
    intro toStr hstrings attrs reporter request response hbuilt hok herrors
    have hanswers := interpret_wasmDecision cedar rule hok
    obtain ⟨hevaluation, hnaming⟩ := hanswers.completed herrors
    refine ⟨_, hanswers.passed, ?_⟩
    simp only [BoundRule.verify, hbuilt, h, hok, wasmAnswer]
    exact deliver_completed hstrings hevaluation hnaming reporter

variable (cedar)

/-- What the wasm engine loads, it loads into the module there is. -/
theorem load_wasm {m m' : WasmModule Policy} {source : PolicySource sha256} {set : WasmPolicySet}
    (h : (cedarWasmEngine cedar m).load source = .ok (m', set)) :
    (m.load cedar source).2 = .ok set ∧ m' = (m.load cedar source).1 := by
  have hload : (m.load cedar source).2.map (fun set => ((m.load cedar source).1, set)) = .ok (m', set) := h
  cases hset : (m.load cedar source).2 with
  | error message =>
    rw [hset] at hload
    exact absurd hload (by simp [Except.map])
  | ok loaded =>
    rw [hset] at hload
    obtain ⟨rfl, rfl⟩ := Prod.mk.inj (Except.ok.inj hload)
    exact ⟨rfl, rfl⟩

/-- Whatever is loaded before a collector is created and after it, its rule answers from the policies of its own
source alone, and reports under that source's revision. -/
theorem wasm_rule_own (before : List (PolicySource sha256)) (settings : CollectorSettings)
    (source : PolicySource sha256) (rule : BoundRule) (m : WasmModule Policy) (set : WasmPolicySet)
    (hcreate : create (cedarWasmEngine cedar (({} : WasmModule Policy).loads cedar before)) settings source =
      .ok (rule, (m, set))) :
    rule.loadedRevision = source.revision ∧ ∃ compiled, Compiled cedar source compiled ∧
      ∀ after : List (PolicySource sha256),
        OwnEvaluation cedar rule compiled ((m.loads cedar after).isAuthorized cedar set) := by
  obtain ⟨-, -, hload, -, hrule⟩ := create_ok hcreate
  obtain ⟨hset, rfl⟩ := load_wasm cedar hload
  have hrevision : rule.loadedRevision = source.revision := by rw [hrule]
  obtain ⟨compiled, hcompiled, hanswers⟩ :=
    WasmModule.isAuthorized_loaded cedar (WasmModule.Fresh.loads cedar fresh_start before) hset
  exact ⟨hrevision, compiled, hcompiled, fun after =>
    ownEvaluation fun request => by rw [hanswers after request, hrevision]⟩

/-! ## Two sets that say one thing each -/

/-- A policy of every request, read: whether it permits. -/
def readSweeping (text : Str) : Except (List Str) Bool :=
  if text = js "permit(principal, action, resource);" then .ok true
  else if text = js "forbid(principal, action, resource);" then .ok false
  else .error [js "failed to parse the policy from string"]

/-- Cedar on such policies: a forbid that applies denies, and without one a permit allows. -/
def sweepingCedar : CedarEvaluator Bool where
  parts text :=
    if text.all isWhiteSpace then .success [] []
    else
      match readSweeping text with
      | .ok _ => .success [text] []
      | .error errors => .failure errors
  parse := readSweeping
  authorize policies _ :=
    if policies.any fun policy => !policy.2 then
      .ok { allow := false, reason := Policies.ids (policies.filter fun policy => !policy.2), errors := [] }
    else .ok { allow := !policies.isEmpty, reason := policies.ids, errors := [] }
  single := by
    intro text policy h
    refine ⟨text, ?_, h⟩
    have hnot : ¬ text.all isWhiteSpace = true := by
      unfold readSweeping at h
      split at h
      · rename_i htext
        rw [htext]
        decide
      · split at h
        · rename_i htext
          rw [htext]
          decide
        · exact absurd h (by simp)
    rw [if_neg hnot, h]
  blank := by
    intro text hblank policies templates h
    rw [if_pos (List.all_eq_true.2 hblank)] at h
    exact (PolicySetParts.success.inj h).1.symm
  reason_mem := by
    intro policies request response h id hid
    split at h
    · obtain rfl := Except.ok.inj h
      obtain ⟨policy, hpolicy, rfl⟩ := List.mem_map.1 hid
      exact List.mem_map_of_mem (List.mem_of_mem_filter hpolicy)
    · obtain rfl := Except.ok.inj h
      exact hid
  allow_named := by
    intro policies request response h hallow
    split at h
    · obtain rfl := Except.ok.inj h
      exact absurd hallow (by simp)
    · obtain rfl := Except.ok.inj h
      cases policies with
      | nil => exact absurd hallow (by simp)
      | cons policy policies => simp [Policies.ids]
  renamed := by
    intro f policies request response _ h
    have hany : ((policies.rename f).any fun policy => !policy.2) = policies.any fun policy => !policy.2 := by
      rw [Policies.rename, List.any_map]
      rfl
    have hforbids : (policies.rename f).filter (fun policy => !policy.2) =
        Policies.rename f (policies.filter fun policy => !policy.2) := by
      rw [Policies.rename, List.filter_map]
      rfl
    have hids : ∀ ps : Policies Bool, (ps.rename f).ids = ps.ids.map f := by
      intro ps
      rw [Policies.ids, Policies.rename, Policies.ids, List.map_map, List.map_map]
      rfl
    rw [hany, hforbids, hids, hids]
    split at h
    · rename_i hsome
      obtain rfl := Except.ok.inj h
      exact ⟨_, if_pos hsome, rfl, .refl _, .refl _⟩
    · rename_i hnone
      obtain rfl := Except.ok.inj h
      refine ⟨_, if_neg hnone, ?_, .refl _, .refl _⟩
      cases policies <;> rfl
  fails_renamed := by
    intro f policies request errors _ h
    split at h
    · exact absurd h (by simp)
    · exact absurd h (by simp)

/-- One file that forbids everything. -/
def forbidFile : PolicyFile :=
  { name := js "10-forbid.cedar", source := js "/policies/10-forbid.cedar"
    text := js "forbid(principal, action, resource);" }

/-- The digest of that file's set. -/
def forbidDigest : Digest := fun i =>
  ⟨([2, 13, 13, 13, 5, 1, 14, 9, 5, 8, 15, 5, 1, 13, 2, 8, 10, 1, 11, 4, 15, 13, 5, 14, 15, 7, 15, 5,
    14, 5, 5, 14, 8, 1, 2, 9, 5, 3, 3, 7, 3, 11, 2, 6, 0, 0, 15, 11, 13, 14, 11, 9, 1, 15, 14, 9, 2, 14,
    2, 10, 8, 4, 4, 10] : List Nat).get i % 16, Nat.mod_lt _ (Nat.succ_pos 15)⟩

/-- SHA-256, on the preimages of the two sets. -/
def sweepingSha256 (preimage : Str) : Digest :=
  if preimage = revisionPreimageHeader ++ [permitFile].flatMap fun file => netstring file.name ++ netstring file.text
  then permitDigest else forbidDigest

/-- The set of one of the two files. -/
def sweepingSource (file : PolicyFile) : PolicySource sweepingSha256 :=
  { files := [file], description := js "/policies", revision := _, computed := rfl }

/-- A set that permits, loaded between two loads of one that forbids: its rule passes. -/
theorem wasm_rule_own_permit :
    ∃ rule m set,
      create (cedarWasmEngine sweepingCedar
        (({} : WasmModule Bool).loads sweepingCedar [sweepingSource forbidFile])) idsSettings
          (sweepingSource permitFile) = .ok (rule, (m, set)) ∧
      (∃ compiled, ∀ after : List (PolicySource sweepingSha256),
        OwnEvaluation sweepingCedar rule compiled ((m.loads sweepingCedar after).isAuthorized sweepingCedar set)) ∧
      rule.verify stringsOnly
        ((m.loads sweepingCedar [sweepingSource forbidFile]).isAuthorized sweepingCedar set) readDocument none =
        .ok (true, none) := by
  obtain ⟨rule, m, set, hcreate, hpasses⟩ : ∃ rule m set,
      create (cedarWasmEngine sweepingCedar
        (({} : WasmModule Bool).loads sweepingCedar [sweepingSource forbidFile])) idsSettings
          (sweepingSource permitFile) = .ok (rule, (m, set)) ∧
      rule.verify stringsOnly
        ((m.loads sweepingCedar [sweepingSource forbidFile]).isAuthorized sweepingCedar set) readDocument none =
        .ok (true, none) := ⟨_, _, _, rfl, by rfl⟩
  obtain ⟨-, compiled, -, hown⟩ := wasm_rule_own sweepingCedar [sweepingSource forbidFile] idsSettings
    (sweepingSource permitFile) rule m set hcreate
  exact ⟨rule, m, set, hcreate, ⟨compiled, hown⟩, hpasses⟩

end PolicyVerifier.Cedar
