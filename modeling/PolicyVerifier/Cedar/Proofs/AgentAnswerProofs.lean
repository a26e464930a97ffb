import PolicyVerifier.Cedar.Proofs.EntityLiteralProofs
import PolicyVerifier.Cedar.Proofs.PolicyNamingProofs
import PolicyVerifier.Cedar.Proofs.WasmLoadProofs
import PolicyVerifier.Cedar.SharedAgent

/-!
# What an agent holds and answers

The agent reads the request a call was sent for, and what it holds of a source is what is compiled of that source in
process, under its own ids; what it answers from there is read as this load's.
-/

namespace PolicyVerifier.Cedar

open Js PolicyVerifier.Core

variable {Policy : Type} (cedar : CedarEvaluator Policy) {sha256 : Str → Digest}

/-! ## What the agent reads -/

theorem readWhole_written {uid : CedarEntityUid} {literal : Str} (h : entityUidLiteral uid = .ok literal) :
    AgentAuthorizationCall.request.readWhole literal = some uid := by
  obtain ⟨inside, hliteral, hwritten⟩ := cedarStringLiteral_written uid.id
  unfold entityUidLiteral cedarEngineError at h
  split at h
  · rename_i htype
    have hread := readEntityUid_written (isTypePath_iff.1 htype) hwritten []
    rw [List.append_nil, ← hliteral, Except.ok.inj h] at hread
    rw [AgentAuthorizationCall.request.readWhole, hread]
    rfl
  · exact absurd h (by simp)

/-- The agent reads the request a call was sent for. -/
theorem request_sent {request : CedarRequest} {call : AgentAuthorizationCall}
    (h : authorizationCall request = .ok call) : call.request = some request := by
  obtain ⟨principal, hprincipal, h⟩ := ExceptFold.bind_eq_ok h
  obtain ⟨action, haction, h⟩ := ExceptFold.bind_eq_ok h
  obtain ⟨resource, hresource, h⟩ := ExceptFold.bind_eq_ok h
  obtain rfl := Except.ok.inj h
  rw [AgentAuthorizationCall.request, readWhole_written hprincipal, readWhole_written haction,
    readWhole_written hresource]
  rfl

/-! ## The two sets of one source -/

/-- A set an agent holds is what a verifier pushes, whole. -/
def PushedSet (source : PolicySource sha256) (held : Policies Policy) : Prop :=
  ∃ texts, pushedTexts source = .ok texts ∧ cedar.compile texts = .ok held

/-- The texts of a set are read one by one, and their ids stay. -/
theorem compile_ok_iff {texts : List (Str × Str)} {policies : Policies Policy} :
    cedar.compile texts = .ok policies ↔
      List.Forall₂ (fun entry policy => entry.1 = policy.1 ∧ cedar.parse entry.2 = .ok policy.2) texts policies := by
  unfold CedarEvaluator.compile
  induction texts generalizing policies with
  | nil =>
    rw [List.forall₂_nil_left_iff]
    exact ⟨fun h => (Except.ok.inj h).symm, fun h => congrArg Except.ok h.symm⟩
  | cons entry texts ih =>
    rw [List.mapM_cons, List.forall₂_cons_left_iff]
    constructor
    · intro h
      obtain ⟨policy, hpolicy, h⟩ := ExceptFold.bind_eq_ok h
      obtain ⟨rest, hrest, h⟩ := ExceptFold.bind_eq_ok h
      obtain rfl := Except.ok.inj h
      refine ⟨policy, rest, ?_, ih.1 hrest, rfl⟩
      cases hparse : cedar.parse entry.2 with
      | error errors =>
        rw [hparse] at hpolicy
        exact absurd hpolicy (by simp [Except.map])
      | ok read =>
        rw [hparse] at hpolicy
        obtain rfl := Except.ok.inj hpolicy
        exact ⟨rfl, rfl⟩
    · rintro ⟨policy, rest, ⟨hid, hparse⟩, hrest, rfl⟩
      rw [hparse, ih.2 hrest]
      show Except.ok ((entry.1, policy.2) :: rest) = _
      rw [hid]

theorem compile_ids {texts : List (Str × Str)} {policies : Policies Policy}
    (h : cedar.compile texts = .ok policies) : policies.ids = texts.map Prod.fst := by
  have hread := (compile_ok_iff cedar).1 h
  induction hread with
  | nil => rfl
  | cons hentry _ ih =>
    rw [Policies.ids, List.map_cons, List.map_cons, hentry.1]
    exact congrArg _ (ih ((compile_ok_iff cedar).2 ‹_›))

/-- Two lists of texts that are read alike, under ids of which the one's are the other's renamed, are compiled to
sets of which the one is the other renamed. -/
theorem compile_renamed {f : Str → Str} {texts texts' : List (Str × Str)} {policies policies' : Policies Policy}
    (hsame : List.Forall₂ (fun entry entry' => entry'.1 = f entry.1 ∧ cedar.parse entry'.2 = cedar.parse entry.2)
      texts texts')
    (h : cedar.compile texts = .ok policies) (h' : cedar.compile texts' = .ok policies') :
    policies' = policies.rename f := by
  have hread := (compile_ok_iff cedar).1 h
  have hread' := (compile_ok_iff cedar).1 h'
  clear h h'
  induction hsame generalizing policies policies' with
  | nil =>
    rw [List.forall₂_nil_left_iff] at hread hread'
    rw [hread, hread']
    rfl
  | cons hentry _ ih =>
    obtain ⟨policy, rest, ⟨hid, hparse⟩, hrest, rfl⟩ := List.forall₂_cons_left_iff.1 hread
    obtain ⟨policy', rest', ⟨hid', hparse'⟩, hrest', rfl⟩ := List.forall₂_cons_left_iff.1 hread'
    rw [hentry.2, hparse] at hparse'
    rw [ih hrest hrest', Policies.rename, Policies.rename, List.map_cons]
    refine congrArg (· :: _) (Prod.ext ?_ (Except.ok.inj hparse').symm)
    rw [← hid', hentry.1, hid]

theorem pushedTexts_ok_iff {source : PolicySource sha256} {texts : List (Str × Str)} :
    pushedTexts source = .ok texts ↔ ∃ named, httpPolicies source.files = .ok named ∧
      texts = named.map fun policy => (agentPolicyId policy.id source.revision, policy.text) := by
  have hnamed : pushedTexts source = (httpPolicies source.files).map fun named =>
      named.map fun policy => (agentPolicyId policy.id source.revision, policy.text) := rfl
  rw [hnamed]
  cases httpPolicies source.files with
  | error message => simp [Except.map]
  | ok named => simp [Except.map, eq_comm]

/-- Every text that is pushed is read, so a file that is not blank holds one policy, and the part it is split into
is read the same. -/
theorem texts_alike {files : List PolicyFile} (hread : ∀ file ∈ files, nonBlank file = true →
      ∃ policy, cedar.parse file.text = .ok policy)
    (hsplit : ∀ file ∈ files, policiesOf cedar.parts file = .ok (textsOf (policiesOf cedar.parts) file)) :
    List.Forall₂ (fun compiled pushed : NamedPolicy => compiled.id = pushed.id ∧
        cedar.parse pushed.text = cedar.parse compiled.text)
      (layout files (textsOf (policiesOf cedar.parts)))
      (layout (files.filter nonBlank) fun file => [file.text]) := by
  induction files with
  | nil => exact List.Forall₂.nil
  | cons file files ih =>
    have hrest := ih (fun f hf => hread f (List.mem_cons_of_mem file hf))
      (fun f hf => hsplit f (List.mem_cons_of_mem file hf))
    by_cases hblank : nonBlank file = true
    · obtain ⟨policy, hpolicy⟩ := hread file (List.mem_cons_self ..) hblank
      obtain ⟨part, hparts, hpart⟩ := cedar.single file.text policy hpolicy
      have htexts : textsOf (policiesOf cedar.parts) file = [part] := by
        rw [textsOf, policiesOf_one hparts]
        rfl
      rw [List.filter_cons_of_pos hblank, layout, layout, List.flatMap_cons, List.flatMap_cons, htexts]
      exact List.rel_append (List.Forall₂.cons ⟨rfl, hpolicy.trans hpart.symm⟩ List.Forall₂.nil) hrest
    · have hwhite : ∀ c ∈ file.text, isWhiteSpace c = true := by
        intro c hc
        by_contra hnot
        exact hblank (List.any_eq_true.2 ⟨c, hc, by simpa using hnot⟩)
      have htexts : textsOf (policiesOf cedar.parts) file = [] := by
        have hok := hsplit file (List.mem_cons_self ..)
        cases hparts : cedar.parts file.text with
        | failure errors =>
          rw [policiesOf, hparts] at hok
          exact absurd hok (by simp)
        | success policies templates =>
          obtain rfl := cedar.blank file.text hwhite policies templates hparts
          rw [textsOf, policiesOf, hparts]
          dsimp only
          split
          · rfl
          · rfl
      rw [List.filter_cons_of_neg hblank, layout, List.flatMap_cons, htexts]
      exact hrest

/-- What an agent holds of a source is what is compiled of it in process, under the agent's ids. -/
theorem pushedSet_renamed {source : PolicySource sha256} {compiled held : Policies Policy}
    (hcompiled : Compiled cedar source compiled) (hheld : PushedSet cedar source held) :
    held = compiled.rename fun id => agentPolicyId id source.revision := by
  obtain ⟨policies, hpolicies, hcompile⟩ := hcompiled
  obtain ⟨texts, htexts, hpushed⟩ := hheld
  obtain ⟨named, hnamed, rfl⟩ := pushedTexts_ok_iff.1 htexts
  obtain ⟨hall, -, rfl⟩ := namePoliciesSplit_ok_iff.1 hpolicies
  obtain ⟨-, -, rfl⟩ := namePolicies_ok_iff.1 hnamed
  have hread : ∀ file ∈ source.files, nonBlank file = true → ∃ policy, cedar.parse file.text = .ok policy := by
    intro file hfile hblank
    have hmem : { id := stem file, text := file.text, file } ∈
        layout (source.files.filter nonBlank) fun file => [file.text] :=
      List.mem_flatMap.2 ⟨file, List.mem_filter.2 ⟨hfile, hblank⟩, List.mem_singleton.2 rfl⟩
    obtain ⟨n, hn, hget⟩ := List.getElem_of_mem
      (List.mem_map_of_mem (f := fun policy : NamedPolicy =>
        (agentPolicyId policy.id source.revision, policy.text)) hmem)
    have hforall := (compile_ok_iff cedar).1 hpushed
    have hlength := hforall.length_eq
    have hat := (List.forall₂_iff_get.1 hforall).2 n hn (hlength ▸ hn)
    rw [List.get_eq_getElem, hget] at hat
    exact ⟨_, hat.2⟩
  have halike := texts_alike cedar hread fun file hfile => (hall file hfile).splits
  refine compile_renamed cedar ?_ hcompile hpushed
  rw [staticPolicies, List.forall₂_map_left_iff, List.forall₂_map_right_iff]
  exact halike.imp fun compiled pushed h => ⟨by rw [h.1], h.2⟩

/-! ## One answer -/

section Answer

variable (wording : Str × Str → Str)

/-- What the engine reads of an agent's answer. -/
theorem readDecision_agentBody (numeral : ℚ → List Json.NumeralChar) (response : CedarResponse) (endpoint : Str) :
    readDecision numeral (agentBody wording response) endpoint =
      .ok
        { decision :=
            { decision := if response.allow then js "allow" else js "deny", reason := response.reason
              errors := response.errors.map wording }
          errorItems := (response.errors.map wording).map .str } := by
  have hreason : policyIds numeral (.strings response.reason) = some response.reason := by
    rw [policyIds]
    show some ((response.reason.map Value.str).map _) = _
    rw [List.map_map]
    exact congrArg some (List.map_id _)
  have herrors : renderedList numeral (.strings (response.errors.map wording)) =
      some (response.errors.map wording) := by
    rw [renderedList]
    show some (((response.errors.map wording).map Value.str).map _) = _
    rw [List.map_map]
    exact congrArg some (List.map_id _)
  have hbody : (agentBody wording response).field (js "diagnostics") = .obj 0
      [(js "reason", .strings response.reason), (js "errors", .strings (response.errors.map wording))] := rfl
  have hfields : (Value.obj 0
      [(js "reason", .strings response.reason), (js "errors", .strings (response.errors.map wording))]).field
        (js "reason") = .strings response.reason ∧
      (Value.obj 0
      [(js "reason", .strings response.reason), (js "errors", .strings (response.errors.map wording))]).field
        (js "errors") = .strings (response.errors.map wording) := ⟨rfl, rfl⟩
  have hdecision : (((agentBody wording response).field (js "decision")).str?.map toLowerCase).filter
      (fun d => decide (d = js "allow" ∨ d = js "deny")) = some (if response.allow then js "allow" else js "deny") := by
    have hfield : (agentBody wording response).field (js "decision") =
        .str (if response.allow then js "Allow" else js "Deny") := rfl
    rw [hfield]
    cases response.allow <;> decide
  have hobject : (agentBody wording response).isObject = true := rfl
  unfold readDecision
  simp only [hobject, hbody, hfields, hdecision, hreason, herrors]
  rfl

end Answer

section Rule

variable {source : PolicySource sha256} {set : HttpPolicySet}

/-- A loaded set knows the ids of a pushed set. -/
theorem ownIds_pushed (own : Own source set) {held : Policies Policy} (hheld : PushedSet cedar source held) {id : Str}
    (hid : agentPolicyId id source.revision ∈ held.ids) :
    set.ownIds.get? (agentPolicyId id source.revision) = some id := by
  obtain ⟨texts, htexts, hcompile⟩ := hheld
  obtain ⟨named, hnamed, rfl⟩ := pushedTexts_ok_iff.1 htexts
  rw [compile_ids cedar hcompile, List.map_map] at hid
  obtain ⟨policy, hpolicy, hsame⟩ := List.mem_map.1 hid
  refine (own.ids _ _).2 ⟨?_, rfl⟩
  have hown : ownFileIds source = named.map NamedPolicy.id := by
    rw [ownFileIds, hnamed]
  rw [hown, ← agentPolicyId_inj hsame]
  exact List.mem_map_of_mem hpolicy

/-- An unmarked `allow` that names a policy and holds no error passes where no revision need be confirmed. -/
theorem interpret_allow {rule : BoundRule} (hrequire : rule.requireConfirmedRevision = false) (d : CedarDecision)
    (hforeign : d.foreign = none) (hallow : d.decision = js "allow") (hreason : d.reason ≠ []) (herrors : d.errors = []) :
    (interpret rule d.value).1 =
      { passed := true, evaluation := .completed (.unknown (some rule.loadedRevision)) {}
        naming := some (.unknown (some rule.loadedRevision), d.reason.map .str) } := by
  have hunmarked : isForeign d.value = false := by
    rw [← Bool.not_eq_true, value_foreign_iff, hforeign]
    simp
  have hreadable : Readable rule d.value := by
    refine readable_iff.2 ⟨rfl, ?_, hunmarked, ⟨_, value_reason d⟩, ?_, ?_⟩
    · simp [revisionFits]
    · rw [value_errors, herrors]
      rfl
    · rw [hrequire]
      simp
  have hnames : ¬ (Allows d.value ∧ NamesNone d.value) := by
    rintro ⟨-, hnone⟩
    rw [NamesNone, value_reason] at hnone
    exact hreason (List.map_eq_nil_iff.1 (Option.some.inj hnone))
  obtain ⟨reason, hitems, hcompleted⟩ := interpret_completes hreadable hnames
  obtain rfl : d.reason.map .str = reason := Option.some.inj ((value_reason d).symm.trans hitems)
  have hunconfirmed : evaluatedRevision rule d.value = .unknown (some rule.loadedRevision) := by
    simp [evaluatedRevision, confirmed]
  rw [hcompleted, completedAnswer, hunconfirmed, value_decision, hallow]
  simp

/-- The http engine confirms no revision, so no collector over it requires one. -/
theorem create_http_unconfirmed {endpoint : Str} {push : List (Str × Str) → Except Str Unit}
    {settings : CollectorSettings} {rule : BoundRule}
    (h : create (cedarHttpEngine endpoint push) settings source = .ok (rule, set)) :
    rule.requireConfirmedRevision = false := by
  have hmade := create_madeOver h
  by_contra hrequires
  exact absurd (hmade.confirms (by simpa using hrequires)) (by simp [cedarHttpEngine])

end Rule

end PolicyVerifier.Cedar
