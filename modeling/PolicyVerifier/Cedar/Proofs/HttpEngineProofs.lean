import PolicyVerifier.Cedar.HttpEngine
import PolicyVerifier.Cedar.Proofs.AnswerTableProofs
import PolicyVerifier.Lib.ExceptFold
import PolicyVerifier.Lib.Grouping

/-!
# What passes over the http engine

An answer counts only where every policy it names, in its reasons and in its errors, was pushed by
this load under its mark; the rule's own table then decides.
-/

namespace PolicyVerifier.Cedar

open Js PolicyVerifier.Core

/-! ## The mark -/

theorem isHexDigit_hexDigit (n : Fin 16) : isHexDigit (Json.hexDigit n) = true := by
  revert n
  decide

/-- The mark of a computed revision: `@` and sixteen hexadecimal digits. -/
theorem loadMark_computed (sha256 : Str → Digest) (files : List PolicyFile) :
    ∃ digits, loadMark (computePolicyRevision sha256 files) = 0x40 :: digits ∧ digits.length = 16 ∧
      ∀ c ∈ digits, isHexDigit c = true := by
  set digest := sha256 (revisionPreimageHeader ++
    files.flatMap fun file => netstring file.name ++ netstring file.text) with hdigest
  have hcolon : indexOf (js ":") (js "sha256:" ++ digest.hex) = some 6 := rfl
  refine ⟨digest.hex.take 16, ?_, ?_, fun c hc => ?_⟩
  · rw [computePolicyRevision, ← hdigest, loadMark, hcolon]
    rfl
  · simp [Digest.hex]
  · obtain ⟨n, -, rfl⟩ := List.mem_map.1 (List.mem_of_mem_take hc)
    exact isHexDigit_hexDigit n

theorem agentPolicyId_inj {id id' revision : Str}
    (h : agentPolicyId id revision = agentPolicyId id' revision) : id = id' :=
  List.append_cancel_right h

/-- A text that ends in no hexadecimal digit, holds no `@` or is short carries no mark. -/
theorem not_marked {text digits id : Str} (hdigits : digits.length = 16)
    (hhex : ∀ c ∈ digits, isHexDigit c = true)
    (htext : text.length < 17 ∨ 0x40 ∉ text ∨ ∃ front c, text = front ++ [c] ∧ isHexDigit c = false) :
    text ≠ id ++ (0x40 :: digits) := by
  rintro rfl
  rcases htext with hshort | hat | ⟨front, c, heq, hc⟩
  · simp only [List.length_append, List.length_cons, hdigits] at hshort
    omega
  · exact hat (by simp)
  · have hne : digits ≠ [] := List.ne_nil_of_length_pos (by omega)
    have hlast : digits.getLast hne = c := by
      have := congrArg List.getLast? heq
      rw [List.getLast?_append_of_ne_nil _ (by simp), List.getLast?_append_of_ne_nil _ (by simp),
        List.getLast?_cons, List.getLast?_singleton] at this
      rw [List.getLast?_eq_getLast_of_ne_nil hne] at this
      simpa using this
    rw [← hlast, hhex _ (List.getLast_mem hne)] at hc
    exact absurd hc (by simp)

/-- What stands for an item that carries no id is no id of this load's. -/
theorem unreadable_unmarked (numeral : ℚ → List Json.NumeralChar) {item : Value}
    (h : policyIdOf item = none) {digits id : Str} (hdigits : digits.length = 16)
    (hhex : ∀ c ∈ digits, isHexDigit c = true) :
    unreadablePolicyId ++ Json.text numeral item ≠ id ++ (0x40 :: digits) := by
  refine not_marked hdigits hhex ?_
  cases item with
  | undefined => exact Or.inl (by simp [Json.text, Json.stringify]; decide)
  | null => exact Or.inl (by simp [Json.text, Json.stringify]; decide)
  | bool b => cases b <;> exact Or.inl (by simp [Json.text, Json.stringify]; decide)
  | num n =>
    refine Or.inr (Or.inl ?_)
    have hnumber : (0x40 : UInt16) ∉ Json.number numeral n := by
      cases n with
      | rat q =>
        intro hat
        obtain ⟨c, -, hc⟩ := List.mem_map.1 hat
        cases c with
        | digit d =>
          revert d
          decide
        | point => exact absurd hc (by decide)
        | exponent => exact absurd hc (by decide)
        | plus => exact absurd hc (by decide)
        | minus => exact absurd hc (by decide)
      | nan => simp only [Json.number]; decide
      | negZero => simp only [Json.number]; decide
      | infinity negative => simp only [Json.number]; decide
    rw [Json.text, Json.stringify]
    simpa [unreadablePolicyId] using hnumber
  | str s => exact absurd h (by simp [policyIdOf])
  | arr ref items =>
    refine Or.inr (Or.inr ⟨unreadablePolicyId ++
      (js "[" ++ [(0x2C : UInt16)].intercalate (Json.stringifyItems numeral items)), 0x5D, ?_, by decide⟩)
    rw [Json.text, Json.stringify, List.append_assoc]
    rfl
  | obj ref props =>
    refine Or.inr (Or.inr ⟨unreadablePolicyId ++
      (js "\x7b" ++ [(0x2C : UInt16)].intercalate (Json.stringifyProps numeral props)), 0x7D, ?_, by decide⟩)
    rw [Json.text, Json.stringify, List.append_assoc]
    rfl
  | other kind ref => exact Or.inl (by simp [Json.text, Json.stringify]; decide)

/-! ## What was loaded -/

/-- The file ids of the policies a load pushes. -/
def ownFileIds {sha256 : Str → Digest} (source : PolicySource sha256) : List Str :=
  match httpPolicies source.files with
  | .ok named => named.map NamedPolicy.id
  | .error _ => []

/-- A loaded set knows its own policies by their agent ids, and no other. -/
structure Own {sha256 : Str → Digest} (source : PolicySource sha256) (set : HttpPolicySet) :
    Prop where
  ids : ∀ key id, set.ownIds.get? key = some id ↔
    id ∈ ownFileIds source ∧ key = agentPolicyId id source.revision
  mark : set.ownMark = loadMark source.revision

theorem loadHttp_own {sha256 : Str → Digest} {endpoint : Str}
    {push : List (Str × Str) → Except Str Unit} {source : PolicySource sha256} {set : HttpPolicySet}
    (h : loadHttp endpoint push source = .ok set) : Own source set := by
  obtain ⟨named, hnamed, h⟩ := ExceptFold.bind_eq_ok h
  obtain ⟨-, -, h⟩ := ExceptFold.bind_eq_ok h
  obtain rfl := Except.ok.inj h
  refine ⟨fun key id => ?_, rfl⟩
  rw [OrderedMap.get?_ofList, ownFileIds, hnamed]
  · constructor
    · intro hmem
      obtain ⟨policy, hpolicy, heq⟩ := List.mem_map.1 hmem
      obtain ⟨rfl, rfl⟩ := Prod.mk.inj heq
      exact ⟨List.mem_map_of_mem hpolicy, rfl⟩
    · rintro ⟨hid, rfl⟩
      obtain ⟨policy, hpolicy, rfl⟩ := List.mem_map.1 hid
      exact List.mem_map.2 ⟨policy, hpolicy, rfl⟩
  · intro e he e' he' hkey
    obtain ⟨policy, -, rfl⟩ := List.mem_map.1 he
    obtain ⟨policy', -, rfl⟩ := List.mem_map.1 he'
    exact agentPolicyId_inj hkey

/-- What a collector fixes: the rule of its settings and its source, over the set its engine loads, unless the
engine is one they may not be over. -/
theorem create_ok {sha256 : Str → Digest} {α : Type} {engine : CedarEngine sha256 α} {settings : CollectorSettings}
    {source : PolicySource sha256} {rule : BoundRule} {set : α} (h : create engine settings source = .ok (rule, set)) :
    ¬ (engine.async = true ∧ settings.onNoDeterminingPolicy = .abstain) ∧
      ¬ (settings.requireConfirmedRevision = true ∧ (!engine.confirmsRevision) = true) ∧
      engine.load source = .ok set ∧ engine.setAsync set = engine.async ∧
      rule =
        { ruleType := settings.ruleType, onNoDeterminingPolicy := settings.onNoDeterminingPolicy
          loadedRevision := source.revision, requireConfirmedRevision := settings.requireConfirmedRevision
          mapping := settings.mapping, logEvaluationErrors := settings.logEvaluationErrors } := by
  unfold create at h
  dsimp only at h
  split at h
  · exact absurd h (by simp [configError])
  rename_i habstain
  split at h
  · exact absurd h (by simp [configError])
  rename_i hrequire
  split at h
  · exact absurd h (by simp [configError])
  rename_i loaded hload
  split at h
  · exact absurd h (by simp [configError])
  rename_i hasync
  obtain ⟨rfl, rfl⟩ := Prod.mk.inj (Except.ok.inj h)
  exact ⟨habstain, hrequire, hload, not_not.1 hasync, rfl⟩

/-- A rule is over an engine it may be over, and over the set the engine loaded. -/
structure MadeOver {sha256 : Str → Digest} {α : Type} (engine : CedarEngine sha256 α) (source : PolicySource sha256)
    (rule : BoundRule) (set : α) : Prop where
  loaded : engine.load source = .ok set
  revision : rule.loadedRevision = source.revision
  /-- The set answers as its engine declares. -/
  async : engine.setAsync set = engine.async
  /-- An engine out of process may have lost the set: no rule over it passes what no policy determined. -/
  abstains : rule.onNoDeterminingPolicy = .abstain → engine.async = false
  confirms : rule.requireConfirmedRevision = true → engine.confirmsRevision = true

theorem create_madeOver {sha256 : Str → Digest} {α : Type} {engine : CedarEngine sha256 α}
    {settings : CollectorSettings} {source : PolicySource sha256} {rule : BoundRule} {set : α}
    (h : create engine settings source = .ok (rule, set)) : MadeOver engine source rule set := by
  obtain ⟨habstain, hrequire, hload, hasync, rfl⟩ := create_ok h
  refine ⟨hload, rfl, hasync, fun habstains => ?_, fun hrequires => ?_⟩
  · exact Bool.eq_false_iff.2 fun hout => habstain ⟨hout, habstains⟩
  · by_contra hno
    exact hrequire ⟨hrequires, by simpa using hno⟩

/-- What a collector over the http engine is bound to: an engine that is asked over the network never
abstains, and it confirms no revision. -/
theorem create_http {sha256 : Str → Digest} {endpoint : Str}
    {push : List (Str × Str) → Except Str Unit} {settings : CollectorSettings}
    {source : PolicySource sha256} {rule : BoundRule} {set : HttpPolicySet}
    (h : create (cedarHttpEngine endpoint push) settings source = .ok (rule, set)) :
    Own source set ∧ rule.onNoDeterminingPolicy = .deny ∧ rule.loadedRevision = source.revision := by
  have hmade := create_madeOver h
  refine ⟨loadHttp_own hmade.loaded, ?_, hmade.revision⟩
  cases hsetting : rule.onNoDeterminingPolicy with
  | deny => rfl
  | abstain => exact absurd (hmade.abstains hsetting) (by simp [cedarHttpEngine])

section Loaded

variable {sha256 : Str → Digest} {source : PolicySource sha256} {set : HttpPolicySet}

theorem Own.marked (own : Own source set) : ∃ digits, set.ownMark = 0x40 :: digits ∧
    digits.length = 16 ∧ ∀ c ∈ digits, isHexDigit c = true := by
  rw [own.mark, source.computed]
  exact loadMark_computed sha256 source.files

theorem Own.agentPolicyId (own : Own source set) (id : Str) :
    agentPolicyId id source.revision = id ++ set.ownMark := by
  rw [own.mark]
  rfl

/-- An item of an answer is a policy this load pushed. -/
def Pushed (source : PolicySource sha256) (item : Value) (id : Str) : Prop :=
  id ∈ ownFileIds source ∧ policyIdOf item = some (agentPolicyId id source.revision)

/-- What an item is read as is an id of this load's exactly when the item carries it. -/
theorem Own.item (own : Own source set) (numeral : ℚ → List Json.NumeralChar) (item : Value)
    (id : Str) :
    set.ownIds.get? ((policyIdOf item).getD (unreadablePolicyId ++ Json.text numeral item)) = some id ↔
      Pushed source item id := by
  rw [own.ids, Pushed]
  refine and_congr_right fun _ => ?_
  cases hitem : policyIdOf item with
  | some s => simp
  | none =>
    obtain ⟨digits, hmark, hlength, hhex⟩ := own.marked
    refine iff_of_false ?_ (by simp)
    rw [own.agentPolicyId, hmark]
    exact unreadable_unmarked numeral hitem hlength hhex

/-- What stands for an error that names no id is no id of this load's. -/
theorem Own.unreadable (own : Own source set) : set.ownIds.get? unreadablePolicyId = none := by
  cases hget : set.ownIds.get? unreadablePolicyId with
  | none => rfl
  | some id =>
    obtain ⟨-, heq⟩ := (own.ids _ _).1 hget
    obtain ⟨digits, hmark, hlength, hhex⟩ := own.marked
    rw [own.agentPolicyId, hmark] at heq
    exact absurd heq (not_marked hlength hhex (Or.inl (by decide)))

end Loaded

/-! ## Reading an answer against it -/

/-- The ids that were collected before a list of items, with those of the items. -/
theorem ownReason_ok {ownIds : OrderedMap Str Str} {items ids : List Str} (done : List Str)
    (h : ownReason ownIds done.eraseDups items = .ok ids) :
    ∃ named : List Str, items.map ownIds.get? = named.map some ∧ ids = (done ++ named).eraseDups := by
  induction items generalizing done with
  | nil => exact ⟨[], rfl, by rw [List.append_nil]; exact (Except.ok.inj h).symm⟩
  | cons item items ih =>
    rw [ownReason] at h
    cases hitem : ownIds.get? item with
    | none =>
      rw [hitem] at h
      exact absurd h (by simp)
    | some id =>
      rw [hitem] at h
      dsimp only at h
      have hnext : (if id ∈ done.eraseDups then done.eraseDups else done.eraseDups ++ [id]) =
          (done ++ [id]).eraseDups := (OrderedMap.eraseDups_concat done id).symm
      rw [hnext] at h
      obtain ⟨named, hnamed, hids⟩ := ih (done ++ [id]) h
      exact ⟨id :: named, by rw [List.map_cons, List.map_cons, hitem, hnamed],
        by rw [hids, List.append_assoc, List.singleton_append]⟩

/-- What is not taken names an item that is not this load's. -/
theorem ownReason_error_iff {ownIds : OrderedMap Str Str} {items : List Str} (done : List Str) :
    (∃ item, ownReason ownIds done items = .error item) ↔ ∃ item ∈ items, ownIds.get? item = none := by
  induction items generalizing done with
  | nil => simp [ownReason]
  | cons item items ih =>
    rw [ownReason]
    cases hitem : ownIds.get? item with
    | none => exact iff_of_true ⟨item, rfl⟩ ⟨item, by simp, hitem⟩
    | some id => simp [ih, hitem]

theorem foreignError_isSome_iff {ownIds : OrderedMap Str Str} {ownMark : Str} {items : List Value} :
    (foreignError ownIds ownMark items).isSome = true ↔
      ∃ item ∈ items, ∃ policy, erroringPolicy item ownMark = some policy ∧
        ownIds.get? policy = none := by
  rw [foreignError, List.find?_isSome]
  simp only [List.mem_filterMap, OrderedMap.has, Bool.not_eq_true', Option.isSome_eq_false_iff,
    Option.isNone_iff_eq_none]
  constructor
  · rintro ⟨policy, ⟨item, hitem, herror⟩, hnone⟩
    exact ⟨item, hitem, policy, herror, hnone⟩
  · rintro ⟨item, hitem, policy, herror, hnone⟩
    exact ⟨policy, ⟨item, hitem, herror⟩, hnone⟩

/-- An answer is marked foreign, and names nothing, exactly when it names a policy that is not this
load's; any other hands on this load's ids, each once. -/
theorem ownDecision_cases (answer : AgentAnswer) (ownIds : OrderedMap Str Str) (ownMark : Str) :
    (((∃ item ∈ answer.decision.reason, ownIds.get? item = none) ∨
        ∃ item ∈ answer.errorItems, ∃ policy, erroringPolicy item ownMark = some policy ∧
          ownIds.get? policy = none) ∧
      ∃ foreign, ownDecision answer ownIds ownMark =
        { answer.decision with reason := [], foreign := some foreign }) ∨
    (¬ ((∃ item ∈ answer.decision.reason, ownIds.get? item = none) ∨
        ∃ item ∈ answer.errorItems, ∃ policy, erroringPolicy item ownMark = some policy ∧
          ownIds.get? policy = none) ∧
      ∃ named : List Str, answer.decision.reason.map ownIds.get? = named.map some ∧
        ownDecision answer ownIds ownMark = { answer.decision with reason := named.eraseDups }) := by
  unfold ownDecision
  rw [← ownReason_error_iff [], ← foreignError_isSome_iff]
  cases hreason : ownReason ownIds [] answer.decision.reason with
  | error item => exact Or.inl ⟨Or.inl ⟨item, rfl⟩, _, rfl⟩
  | ok ids =>
    cases herror : foreignError ownIds ownMark answer.errorItems with
    | some policy => exact Or.inl ⟨Or.inr rfl, _, rfl⟩
    | none =>
      obtain ⟨named, hnamed, hids⟩ := ownReason_ok [] (by simpa using hreason)
      refine Or.inr ⟨by simp, named, hnamed, ?_⟩
      rw [hids, List.nil_append]

/-- What was read as a decision. -/
structure Reads (numeral : ℚ → List Json.NumeralChar) (body : Value) (answer : AgentAnswer) : Prop where
  decision : ∃ d, body.field (js "decision") = .str d ∧ toLowerCase d = answer.decision.decision
  allowOrDeny : answer.decision.decision = js "allow" ∨ answer.decision.decision = js "deny"
  reason : ∃ items, ((body.field (js "diagnostics")).field (js "reason")).items? = some items ∧
    answer.decision.reason = items.map fun item =>
      (policyIdOf item).getD (unreadablePolicyId ++ Json.text numeral item)
  errors : ((body.field (js "diagnostics")).field (js "errors")).items? = some answer.errorItems
  rendered : answer.decision.errors.length = answer.errorItems.length
  foreign : answer.decision.foreign = none

theorem readDecision_reads {numeral : ℚ → List Json.NumeralChar} {body : Value} {endpoint : Str}
    {answer : AgentAnswer} (h : readDecision numeral body endpoint = .ok answer) :
    Reads numeral body answer := by
  unfold readDecision at h
  dsimp only at h
  split at h
  · exact absurd h (by simp [cedarEngineError])
  split at h
  · exact absurd h (by simp [cedarEngineError])
  rename_i normalized hnormalized
  split at h
  · rename_i reason errors _ hreason herrors
    obtain rfl := Except.ok.inj h
    rw [Option.filter_eq_some_iff] at hnormalized
    obtain ⟨d, hd, rfl⟩ := Option.map_eq_some_iff.1 hnormalized.1
    obtain ⟨items, hitems, rfl⟩ := Option.map_eq_some_iff.1 hreason
    obtain ⟨errorItems, herrorItems, rfl⟩ := Option.map_eq_some_iff.1 herrors
    refine ⟨⟨d, ?_, rfl⟩, by simpa using hnormalized.2, ⟨items, hitems, rfl⟩, ?_, ?_, rfl⟩
    · cases hfield : body.field (js "decision") with
      | str s =>
        rw [hfield] at hd
        rw [Option.some.inj hd]
      | _ => rw [hfield] at hd; exact absurd hd (by simp [Value.str?])
    · simp [herrorItems]
    · simp [herrorItems]
  · exact absurd h (by simp [cedarEngineError])

/-! ## Through the rule's table -/

section Fields

variable (d : CedarDecision)

@[simp] theorem value_isObject : d.value.isObject = true := rfl

@[simp] theorem value_revision : d.value.field (js "revision") = .undefined := by
  cases hforeign : d.foreign <;> simp only [CedarDecision.value, hforeign] <;> rfl

@[simp] theorem value_decision : d.value.field (js "decision") = .str d.decision := rfl

@[simp] theorem value_reason : (d.value.field (js "reason")).items? = some (d.reason.map .str) := rfl

@[simp] theorem value_errors : (d.value.field (js "errors")).items? = some (d.errors.map .str) := rfl

theorem value_foreign_iff : isForeign d.value = true ↔ d.foreign.isSome = true := by
  have hnone : d.foreign = none → d.value.field (js "foreign") = .undefined := by
    intro hforeign
    simp only [CedarDecision.value, hforeign]
    rfl
  have hsome : ∀ f, d.foreign = some f → ∃ ps, d.value.field (js "foreign") = .obj 0 ps := by
    intro f hforeign
    simp only [CedarDecision.value, hforeign]
    exact ⟨_, rfl⟩
  cases hforeign : d.foreign with
  | none => simp [isForeign, hnone hforeign]
  | some f =>
    obtain ⟨ps, hps⟩ := hsome f hforeign
    simp [isForeign, hps]

end Fields

/-- What is delivered passes exactly as the answer does. -/
theorem deliver_passed {toStr : Value → Except Thrown Str} {given : Answered}
    {reporter : Option Reporter} {passed : Bool} {evaluation : Option RuleEvaluation}
    (h : deliver toStr given reporter = .ok (passed, evaluation)) : passed = given.passed := by
  cases reporter with
  | none => exact (Prod.mk.inj (Except.ok.inj h)).1.symm
  | some r =>
    obtain ⟨e, -, h⟩ := ExceptFold.bind_eq_ok h
    exact (Prod.mk.inj (Except.ok.inj h)).1.symm

/-- Where the rule may not abstain, a decision of the engine's passes only as an unmarked `allow` that
names a policy and holds no error. -/
theorem interpret_passes {rule : BoundRule} (hdeny : rule.onNoDeterminingPolicy = .deny)
    {d : CedarDecision} (h : (interpret rule d.value).1.passed = true) :
    d.foreign = none ∧ d.decision = js "allow" ∧ d.reason ≠ [] ∧ d.errors = [] := by
  by_cases hfails : ¬ Readable rule d.value ∨ (Allows d.value ∧ NamesNone d.value)
  · rw [(interpret_fails hfails).passed] at h
    exact absurd h (by simp)
  · rw [not_or, not_not] at hfails
    obtain ⟨hreadable, hallow⟩ := hfails
    obtain ⟨reason, -, hcompleted⟩ := interpret_completes hreadable hallow
    rw [hcompleted] at h
    have hallows : Allows d.value := by simpa [completedAnswer, hdeny, Allows] using h
    obtain ⟨-, -, hforeign, -, herrors, -⟩ := readable_iff.1 hreadable
    refine ⟨?_, ?_, fun hnone => hallow ⟨hallows, ?_⟩, ?_⟩
    · have hnot := mt (value_foreign_iff d).2 (by simpa using hforeign)
      simpa using hnot
    · simpa [Allows] using hallows
    · rw [NamesNone, value_reason, hnone]
      rfl
    · simpa using herrors

/-- A marked decision fails, and names no policy. -/
theorem interpret_foreign (rule : BoundRule) {d : CedarDecision} (h : d.foreign.isSome = true) :
    (interpret rule d.value).1 = unconfirmedFailed rule := by
  have hforeign := (value_foreign_iff d).2 h
  have hfits : revisionFits rule d.value = true := by simp [revisionFits]
  simp [interpret, hfits, hforeign]

/-- No refusal of the read-back applies to a call. -/
def NotRefused (atCall atAnswer : AgentReadBack) : Prop :=
  atCall.refusal = none ∧ atAnswer.answered.refusedSince atCall.generation = none

section Law

variable {sha256 : Str → Digest}

/-- The body allows, by policies this load pushed alone and without an error; `ids` are their file
ids, each once, in the order they are first named. -/
structure OwnAllow (source : PolicySource sha256) (body : Value) (ids : List Str) : Prop where
  allow : ∃ d, body.field (js "decision") = .str d ∧ toLowerCase d = js "allow"
  reason : ∃ items named,
    ((body.field (js "diagnostics")).field (js "reason")).items? = some items ∧ items ≠ [] ∧
    List.Forall₂ (Pushed source) items named ∧ ids = named.eraseDups
  errors : ((body.field (js "diagnostics")).field (js "errors")).items? = some []

/-- The body names a determining policy this load did not push, or holds an error that is read as
naming one. -/
def NamesForeign (source : PolicySource sha256) (ownMark : Str) (body : Value) : Prop :=
  (∃ items, ((body.field (js "diagnostics")).field (js "reason")).items? = some items ∧
    ∃ item ∈ items, ∀ id, ¬ Pushed source item id) ∨
  (∃ items, ((body.field (js "diagnostics")).field (js "errors")).items? = some items ∧
    ∃ item ∈ items, ∃ policy, erroringPolicy item ownMark = some policy ∧
      (policy = unreadablePolicyId ∨
        ∀ id ∈ ownFileIds source, policy ≠ agentPolicyId id source.revision))

/-- What the rule over the http engine makes of every answer of the agent. -/
structure HttpRuleLaw (rule : BoundRule) (set : HttpPolicySet) (source : PolicySource sha256) :
    Prop where
  /-- It passes only on an allow of this load's own policies, with no refusal of the read-back. -/
  passes : ∀ toStr numeral atCall atAnswer agent aborted attrs reporter evaluation,
    rule.decide toStr (answered numeral set atCall atAnswer agent) aborted attrs reporter =
      .ok (true, evaluation) →
    NotRefused atCall atAnswer ∧ ∃ request call body ids,
      buildCedarRequest rule.mapping attrs = .ok request ∧ authorizationCall request = .ok call ∧
      agent call = .ok body ∧ OwnAllow source body ids ∧ ids.Nodup ∧
      (∀ id ∈ ids, id ∈ ownFileIds source) ∧
      isAuthorized numeral set atCall atAnswer agent request =
        .ok { decision := js "allow", reason := ids, errors := [] }
  /-- An answer that names a policy this load did not push is marked, names nothing, and is denied. -/
  foreign : ∀ toStr numeral atCall atAnswer agent aborted attrs reporter request call body answer,
    NotRefused atCall atAnswer → buildCedarRequest rule.mapping attrs = .ok request →
    authorizationCall request = .ok call → agent call = .ok body →
    readDecision numeral body set.endpoint = .ok answer → NamesForeign source set.ownMark body →
    (∃ decision, isAuthorized numeral set atCall atAnswer agent request = .ok decision ∧
      decision.foreign.isSome = true ∧ decision.reason = []) ∧
    rule.decide toStr (answered numeral set atCall atAnswer agent) aborted attrs reporter =
      .ok (false, reporter.map fun _ => .failed (.unknown (some source.revision)))

variable {source : PolicySource sha256} {set : HttpPolicySet}

/-- What a decision of the engine's came from, where it is not marked. -/
theorem isAuthorized_unmarked {numeral : ℚ → List Json.NumeralChar} {atCall atAnswer : AgentReadBack}
    {agent : AgentAuthorizationCall → Except Thrown Value} {request : CedarRequest} {d : CedarDecision}
    (h : isAuthorized numeral set atCall atAnswer agent request = .ok d) (hforeign : d.foreign = none) :
    NotRefused atCall atAnswer ∧ ∃ call body answer, authorizationCall request = .ok call ∧
      agent call = .ok body ∧ readDecision numeral body set.endpoint = .ok answer ∧
      d = ownDecision answer set.ownIds set.ownMark := by
  unfold isAuthorized at h
  split at h
  · obtain rfl := Except.ok.inj h
    exact absurd hforeign (by simp [refused])
  rename_i hcall
  obtain ⟨call, hsent, h⟩ := ExceptFold.bind_eq_ok h
  obtain ⟨body, hbody, h⟩ := ExceptFold.bind_eq_ok h
  obtain ⟨answer, hanswer, h⟩ := ExceptFold.bind_eq_ok h
  split at h
  · obtain rfl := Except.ok.inj h
    exact absurd hforeign (by simp [refused])
  rename_i hlate
  exact ⟨⟨hcall, hlate⟩, call, body, answer, hsent, hbody, hanswer, (Except.ok.inj h).symm⟩

/-- The ids of a body's items, where each is this load's. -/
theorem Own.named (own : Own source set) {numeral : ℚ → List Json.NumeralChar} {items : List Value}
    {named : List Str}
    (h : (items.map fun item =>
      (policyIdOf item).getD (unreadablePolicyId ++ Json.text numeral item)).map set.ownIds.get? =
        named.map some) : List.Forall₂ (Pushed source) items named := by
  rw [List.map_map, ← List.forall₂_eq_eq_eq, List.forall₂_map_left_iff, List.forall₂_map_right_iff] at h
  exact h.imp fun item id hget => (own.item numeral item id).1 hget

/-- For every answer of the agent and every pushed set, the rule over the http engine passes only on
an allow of this load's own policies, and denies an answer that names any other. -/
theorem http_rule_law (endpoint : Str) (push : List (Str × Str) → Except Str Unit)
    (settings : CollectorSettings) (source : PolicySource sha256) (rule : BoundRule)
    (set : HttpPolicySet)
    (hcreate : create (cedarHttpEngine endpoint push) settings source = .ok (rule, set)) :
    HttpRuleLaw rule set source := by
  obtain ⟨own, hdeny, hrevision⟩ := create_http hcreate
  constructor
  · intro toStr numeral atCall atAnswer agent aborted attrs reporter evaluation h
    unfold BoundRule.decide at h
    split at h
    · exact absurd (deliver_passed h) (by simp [notInvoked])
    rename_i request hrequest
    split at h
    · split at h
      · exact absurd h (by simp)
      · exact absurd (deliver_passed h) (by simp [callFailed, unconfirmedFailed])
    rename_i value hvalue
    obtain ⟨d, hd, rfl⟩ : ∃ d, isAuthorized numeral set atCall atAnswer agent request = .ok d ∧
        d.value = value := by
      unfold answered at hvalue
      cases hd : isAuthorized numeral set atCall atAnswer agent request with
      | error e => rw [hd] at hvalue; exact absurd hvalue (by simp [Except.map])
      | ok d => rw [hd] at hvalue; exact ⟨d, rfl, Except.ok.inj hvalue⟩
    obtain ⟨hforeign, hallow, hreason, herrors⟩ := interpret_passes hdeny (deliver_passed h).symm
    obtain ⟨hquiet, call, body, answer, hcall, hbody, hread, hown⟩ :=
      isAuthorized_unmarked hd hforeign
    have reads := readDecision_reads hread
    rcases ownDecision_cases answer set.ownIds set.ownMark with
      ⟨-, foreign, hmarked⟩ | ⟨-, named, hnamed, hunmarked⟩
    · rw [hown, hmarked] at hforeign
      exact absurd hforeign (by simp)
    · -- every item was found among this load's ids
      rw [hunmarked] at hown
      subst hown
      obtain ⟨items, hitems, hids⟩ := reads.reason
      have hpushed : List.Forall₂ (Pushed source) items named := own.named (hids ▸ hnamed)
      obtain ⟨text, htext, hlower⟩ := reads.decision
      have hnoErrors : answer.errorItems = [] := by
        have hlength := reads.rendered
        rw [show answer.decision.errors = [] from herrors] at hlength
        exact List.eq_nil_of_length_eq_zero hlength.symm
      refine ⟨hquiet, request, call, body, named.eraseDups, hrequest, hcall, hbody,
        ⟨⟨text, htext, hlower.trans hallow⟩, ⟨items, named, hitems, ?_, hpushed, rfl⟩,
          hnoErrors ▸ reads.errors⟩, Js.nodup_eraseDups named, fun id hid => ?_, ?_⟩
      · rintro rfl
        cases hpushed
        exact hreason (by simp)
      · have hsome : some id ∈ named.map some := List.mem_map_of_mem (List.mem_eraseDups.1 hid)
        rw [← hnamed] at hsome
        obtain ⟨key, -, hget⟩ := List.mem_map.1 hsome
        exact ((own.ids key id).1 hget).1
      · rw [hd]
        refine congrArg Except.ok ?_
        rw [show answer.decision = { decision := js "allow", reason := answer.decision.reason, errors := [] } from ?_]
        exact CedarDecision.ext hallow rfl herrors reads.foreign
  · intro toStr numeral atCall atAnswer agent aborted attrs reporter request call body answer hquiet
      hrequest hcall hbody hread hnames
    have reads := readDecision_reads hread
    have hauthorized : isAuthorized numeral set atCall atAnswer agent request =
        .ok (ownDecision answer set.ownIds set.ownMark) := by
      simp only [isAuthorized, hquiet.1, hquiet.2, hcall, hbody, hread, bind, Except.bind, pure,
        Except.pure]
    have hmarked : ∃ foreign, ownDecision answer set.ownIds set.ownMark =
        { answer.decision with reason := [], foreign := some foreign } := by
      rcases ownDecision_cases answer set.ownIds set.ownMark with ⟨-, hforeign⟩ | ⟨hno, -⟩
      · exact hforeign
      · refine absurd ?_ hno
        rcases hnames with ⟨items, hitems, item, hitem, hnone⟩ |
          ⟨items, hitems, item, hitem, policy, hpolicy, hnone⟩
        · refine Or.inl
            ⟨(policyIdOf item).getD (unreadablePolicyId ++ Json.text numeral item), ?_, ?_⟩
          · obtain ⟨items', hitems', hids⟩ := reads.reason
            obtain rfl := Option.some.inj (hitems.symm.trans hitems')
            rw [hids]
            exact List.mem_map_of_mem hitem
          · exact Option.eq_none_iff_forall_ne_some.2 fun id hget =>
              hnone id ((own.item numeral item id).1 hget)
        · refine Or.inr ⟨item, ?_, policy, hpolicy, ?_⟩
          · obtain rfl := Option.some.inj (hitems.symm.trans reads.errors)
            exact hitem
          · rcases hnone with rfl | hnone
            · exact own.unreadable
            · refine Option.eq_none_iff_forall_ne_some.2 fun id hget => ?_
              obtain ⟨hid, hkey⟩ := (own.ids _ _).1 hget
              exact hnone id hid hkey
    obtain ⟨foreign, hdecision⟩ := hmarked
    refine ⟨⟨_, hauthorized, by rw [hdecision]; rfl, by rw [hdecision]⟩, ?_⟩
    have hanswered : answered numeral set atCall atAnswer agent request =
        .ok (ownDecision answer set.ownIds set.ownMark).value := by
      rw [answered, hauthorized]
      rfl
    have hfails : (interpret rule (ownDecision answer set.ownIds set.ownMark).value).1 =
        unconfirmedFailed rule := interpret_foreign rule (by rw [hdecision]; rfl)
    simp only [BoundRule.decide, hrequest, hanswered, hfails]
    rw [deliver_fails toStr ⟨rfl, rfl, rfl⟩ reporter, unconfirmedFailed, hrevision]

end Law

/-- One file that permits everything. -/
def permitFile : PolicyFile :=
  { name := js "10-permit.cedar", source := js "/policies/10-permit.cedar"
    text := js "permit(principal, action, resource);" }

/-- The digest of that file's set. -/
def permitDigest : Digest := fun i =>
  ([0, 2, 14, 9, 1, 0, 5, 0, 14, 11, 15, 7, 5, 2, 1, 10, 3, 13, 3, 10, 7, 12, 12, 12, 9, 13,
    6, 1, 4, 13, 2, 8, 5, 9, 4, 12, 6, 8, 7, 3, 0, 11, 11, 11, 2, 6, 12, 11, 7, 15, 1, 11, 9,
    5, 0, 7, 2, 9, 6, 5, 15, 0, 10, 5] : List (Fin 16))[i]

/-- The set of that one file. -/
def permitSource : PolicySource fun _ => permitDigest :=
  { files := [permitFile], description := js "/policies", revision := _, computed := rfl }

/-- A deny-by-default rule over ids alone. -/
def idsSettings : CollectorSettings := { mapping := idsOnly }

/-- The read-back of a verifier that has refused nothing. -/
def quietReadBack : AgentReadBack := { wait := 30000, baseline := ∅, lastCheck := 0 }

/-- An answer that allows by one policy. -/
def allowingBy (policy : Str) : Value :=
  .obj 0
    [(js "decision", .str (js "Allow")),
      (js "diagnostics", .obj 0 [(js "reason", .list [.str policy]), (js "errors", .list [])])]

/-- An allow by this load's policy passes; what the rule is bound to obeys the law. -/
theorem http_rule_law_permit : ∃ rule set,
    create (cedarHttpEngine (js "http://localhost:8180") fun _ => .ok ()) idsSettings permitSource =
      .ok (rule, set) ∧
    HttpRuleLaw rule set permitSource ∧
    rule.decide stringsOnly (answered (fun _ => []) set quietReadBack quietReadBack fun _ =>
      .ok (allowingBy (js "10-permit@02e91050ebf7521a"))) none readDocument none = .ok (true, none) := by
  obtain ⟨rule, set, hcreate, hpasses⟩ : ∃ rule set,
      create (cedarHttpEngine (js "http://localhost:8180") fun _ => .ok ()) idsSettings permitSource =
        .ok (rule, set) ∧
      rule.decide stringsOnly (answered (fun _ => []) set quietReadBack quietReadBack fun _ =>
        .ok (allowingBy (js "10-permit@02e91050ebf7521a"))) none readDocument none = .ok (true, none) :=
    ⟨_, _, rfl, by rfl⟩
  exact ⟨rule, set, hcreate,
    http_rule_law (js "http://localhost:8180") (fun _ => .ok ()) idsSettings permitSource rule set hcreate,
    hpasses⟩

end PolicyVerifier.Cedar
