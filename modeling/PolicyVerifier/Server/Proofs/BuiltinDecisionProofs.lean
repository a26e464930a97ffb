import PolicyVerifier.Builtins.Proofs.CollectorProofs
import PolicyVerifier.Server.Proofs.DelegationProofs

/-!
# What a deployment of builtins allows

The rules of this package answer at once, from four reserved keys. So the request's own context buys nothing,
and whatever is allowed was granted by the token or the configuration.
-/

namespace PolicyVerifier.Core

open Js

/-! ## Rules that answer at once -/

/-- A rule that answers at once, with a boolean. -/
def AnswersAtOnce (attrs : Attributes) (rule : AnyRule) (passes : Bool) : Prop :=
  isAsyncRule rule = false ∧ rule.verify attrs = { answer := .ok (.bool passes) }

/-- The budgets an evaluation runs under can be resolved. -/
def Budgeted (options : EvaluateOptions) : Prop :=
  (∃ n, resolveRuleTimeoutMs options.ruleTimeoutMs = .ok n) ∧
    ∃ n, resolveEvaluateDeadlineMs options.evaluateDeadlineMs = .ok n

/-- What rules that answer at once come to: some rule grants, and of each type one passes. -/
def Grants (options : EvaluateOptions) (rules : List AnyRule) (passes : AnyRule → Bool) : Prop :=
  ((∃ r ∈ rules, isRestrictingRule r = false) ∨ options.onEmptyRuleSet = .str (js "allow")) ∧
    ∀ r ∈ rules, ∃ q ∈ rules, q.ruleType = r.ruleType ∧ passes q = true

theorem allows_at_once {attrs : Attributes} {rules : List AnyRule} {passes : AnyRule → Bool}
    (hmix : NoMixedGroup rules) (hans : ∀ r ∈ rules, AnswersAtOnce attrs r (passes r)) (world : World)
    (options : EvaluateOptions) (failures : FailureRecord) :
    Allows (evaluate world attrs rules options failures) ↔ Budgeted options ∧ Grants options rules passes := by
  unfold evaluate Budgeted
  cases hrule : resolveRuleTimeoutMs options.ruleTimeoutMs with
  | error e => exact iff_of_false (fun ⟨d, hd, _⟩ => absurd hd (by simp)) (fun ⟨⟨⟨n, hn⟩, _⟩, _⟩ => absurd hn (by simp))
  | ok ruleTimeoutMs =>
    cases hdeadline : resolveEvaluateDeadlineMs options.evaluateDeadlineMs with
    | error e =>
      exact iff_of_false (fun ⟨d, hd, _⟩ => absurd hd (by simp)) (fun ⟨⟨_, ⟨n, hn⟩⟩, _⟩ => absurd hn (by simp))
    | ok deadlineMs =>
      dsimp only
      set ans : AnyRule → RuleResult := fun r => { passed := passes r } with hans'
      have hanswers : ∀ r ∈ rules, Answers attrs r (ans r) := by
        intro r hr
        obtain ⟨hsync, hverify⟩ := hans r hr
        rw [Answers, if_neg (by simp [hsync]), hverify]
        rfl
      have hsync : ∀ r ∈ rules, isAsyncRule r = true → ∀ call, InTime attrs r (world.startedAt + deadlineMs)
          (world.turn call r) := by
        intro r hr hasync
        rw [(hans r hr).1] at hasync
        exact absurd hasync (by simp)
      obtain ⟨s', hdone, -⟩ := evaluateWithin_done
        { ruleTimeoutMs, deadlineMs, deadlineAt := world.startedAt + deadlineMs } options.onEmptyRuleSet hmix hanswers
        hsync { failures }
      have hallow := (referenceDecision_spec options.onEmptyRuleSet (rules.map (Answered.of ans))).allow_iff
      have hanswered : ∀ P : Answered → Prop, (∃ q ∈ rules.map (Answered.of ans), P q) ↔
          ∃ r ∈ rules, P (Answered.of ans r) := by
        intro P
        simp only [List.mem_map, exists_exists_and_eq_and]
      have happlicable : Applicable options.onEmptyRuleSet (rules.map (Answered.of ans)) ↔
          (∃ r ∈ rules, isRestrictingRule r = false) ∨ options.onEmptyRuleSet = .str (js "allow") := by
        unfold Applicable
        rw [hanswered]
        rfl
      have hgroups : (∀ r ∈ rules.map (Answered.of ans), ∃ q ∈ rules.map (Answered.of ans),
          q.ruleType = r.ruleType ∧ q.passed = true) ↔
            ∀ r ∈ rules, ∃ q ∈ rules, q.ruleType = r.ruleType ∧ passes q = true := by
        rw [List.forall_mem_map]
        refine forall_congr' fun r => imp_congr_right fun _ => ?_
        exact hanswered _
      rw [Allows, hdone, Grants, ← happlicable, ← hgroups, ← hallow]
      constructor
      · rintro ⟨d, hd, hisAllow⟩
        obtain rfl := Outcome.done.inj hd
        exact ⟨⟨⟨_, rfl⟩, _, rfl⟩, hisAllow⟩
      · rintro ⟨-, hisAllow⟩
        exact ⟨_, rfl, hisAllow⟩

end PolicyVerifier.Core

namespace PolicyVerifier.Builtins

open Js PolicyVerifier.Core

/-! ## The rules of a deployment -/

/-- A rule collector emits its rule for the request. -/
def BuiltinRuleCollector.Emits (context : CollectorContext) : BuiltinRuleCollector → Prop
  | .scope self => ¬(self.scopeless = .skip ∧ context.subject self.claim = .undefined)
  | .permission => True
  | .delegationRange self => entriesOfType (context.subject self.claim) self.type ≠ none

/-- The rule it emits. -/
def BuiltinRuleCollector.rule (context : CollectorContext) : BuiltinRuleCollector → AnyRule
  | .scope self => hasScope (ResourceActionScopeRuleCollector.requiredScope context) self.allowBareScopeRewrite
  | .permission => hasPermission (requiredPermission context)
  | .delegationRange _ => withinDelegationRange (requestedRangePath context.resource.raw context.action)

theorem BuiltinRuleCollector.collect_emits {context : CollectorContext} {collector : BuiltinRuleCollector}
    (h : collector.Emits context) : collector.collect context = [collector.rule context] := by
  cases collector with
  | scope self => exact if_neg h
  | permission => rfl
  | delegationRange self =>
    obtain ⟨entries, hentries⟩ := Option.ne_none_iff_exists'.1 h
    show self.collect context = _
    unfold DelegationRangeRuleCollector.collect
    rw [hentries]
    rfl

theorem BuiltinRuleCollector.collect_silent {context : CollectorContext} {collector : BuiltinRuleCollector}
    (h : ¬collector.Emits context) : collector.collect context = [] := by
  cases collector with
  | scope self => exact if_pos (not_not.1 h)
  | permission => exact absurd trivial h
  | delegationRange self =>
    have hnone : entriesOfType (context.subject self.claim) self.type = none := not_not.1 h
    show self.collect context = _
    unfold DelegationRangeRuleCollector.collect
    rw [hnone]

theorem BuiltinRuleCollector.mem_collect {context : CollectorContext} {collector : BuiltinRuleCollector}
    {rule : AnyRule} : rule ∈ collector.collect context ↔ collector.Emits context ∧ rule = collector.rule context := by
  by_cases hemits : collector.Emits context
  · rw [BuiltinRuleCollector.collect_emits hemits, List.mem_singleton]
    exact (and_iff_right hemits).symm
  · rw [BuiltinRuleCollector.collect_silent hemits]
    exact iff_of_false List.not_mem_nil fun h => hemits h.1

theorem Deployment.mem_lists {d : Deployment} {context : CollectorContext} {rule : AnyRule} :
    rule ∈ (d.lists context).flatten ↔
      ∃ collector ∈ d.ruleCollectors, collector.Emits context ∧ rule = collector.rule context := by
  rw [List.mem_flatten]
  constructor
  · rintro ⟨list, hlist, hrule⟩
    obtain ⟨collector, hc, rfl⟩ := List.mem_map.1 hlist
    exact ⟨collector, hc, BuiltinRuleCollector.mem_collect.1 hrule⟩
  · rintro ⟨collector, hc, hrule⟩
    exact ⟨_, List.mem_map_of_mem hc, BuiltinRuleCollector.mem_collect.2 hrule⟩

/-- Whether a rule passes. -/
def passesOn (attrs : Attributes) (rule : AnyRule) : Bool :=
  match (rule.verify attrs).answer with
  | .ok (.bool b) => b
  | _ => false

theorem BuiltinRuleCollector.answersAtOnce (collector : BuiltinRuleCollector) (context : CollectorContext)
    (attrs : Attributes) : AnswersAtOnce attrs (collector.rule context) (passesOn attrs (collector.rule context)) := by
  cases collector with
  | scope self => exact ⟨rfl, rfl⟩
  | permission => exact ⟨rfl, rfl⟩
  | delegationRange self => exact ⟨rfl, rfl⟩

/-- The type of the rules a collector emits. -/
def BuiltinRuleCollector.ruleType : BuiltinRuleCollector → Str
  | .scope _ => js "scope"
  | .permission => js "permission"
  | .delegationRange _ => js "delegation_range"

theorem BuiltinRuleCollector.rule_ruleType (collector : BuiltinRuleCollector) (context : CollectorContext) :
    (collector.rule context).ruleType = collector.ruleType := by
  cases collector with
  | scope self => rfl
  | permission => rfl
  | delegationRange self => rfl

theorem BuiltinRuleCollector.scope_of_ruleType {collector : BuiltinRuleCollector}
    (h : collector.ruleType = js "scope") : ∃ self, collector = .scope self := by
  cases collector with
  | scope self => exact ⟨self, rfl⟩
  | permission => exact absurd (show js "permission" = js "scope" from h) (by decide)
  | delegationRange self => exact absurd (show js "delegation_range" = js "scope" from h) (by decide)

theorem BuiltinRuleCollector.permission_of_ruleType {collector : BuiltinRuleCollector}
    (h : collector.ruleType = js "permission") : collector = .permission := by
  cases collector with
  | scope self => exact absurd (show js "scope" = js "permission" from h) (by decide)
  | permission => rfl
  | delegationRange self => exact absurd (show js "delegation_range" = js "permission" from h) (by decide)

theorem BuiltinRuleCollector.range_of_ruleType {collector : BuiltinRuleCollector}
    (h : collector.ruleType = js "delegation_range") : ∃ self, collector = .delegationRange self := by
  cases collector with
  | scope self => exact absurd (show js "scope" = js "delegation_range" from h) (by decide)
  | permission => exact absurd (show js "permission" = js "delegation_range" from h) (by decide)
  | delegationRange self => exact ⟨self, rfl⟩

theorem BuiltinRuleCollector.isRestricting_iff (collector : BuiltinRuleCollector) (context : CollectorContext) :
    isRestrictingRule (collector.rule context) = decide (collector.ruleType = js "delegation_range") := by
  have hscope : js "scope" ≠ js "delegation_range" := by decide
  have hpermission : js "permission" ≠ js "delegation_range" := by decide
  cases collector with
  | scope self => exact (decide_eq_false hscope).symm
  | permission => exact (decide_eq_false hpermission).symm
  | delegationRange self => exact (decide_eq_true rfl).symm

/-- Rules of one type are of one kind. -/
theorem Deployment.noMixedGroup (d : Deployment) (context : CollectorContext) :
    NoMixedGroup (d.lists context).flatten := by
  intro r hr q hq htype
  obtain ⟨collector, -, -, rfl⟩ := mem_lists.1 hr
  obtain ⟨other, -, -, rfl⟩ := mem_lists.1 hq
  rw [collector.rule_ruleType, other.rule_ruleType] at htype
  rw [collector.isRestricting_iff, other.isRestricting_iff, htype]

/-- What a rule reads of the attributes. -/
theorem BuiltinRuleCollector.passesOn_same (collector : BuiltinRuleCollector) (context : CollectorContext)
    {attrs attrs' : Attributes} (h : ∀ key ∈ ruleKeys, attrs.get? key = attrs'.get? key) :
    passesOn attrs (collector.rule context) = passesOn attrs' (collector.rule context) := by
  have hscopes := h attrScopes (by simp [ruleKeys])
  have hpermissions := h attrPermissions (by simp [ruleKeys])
  have hroles := h attrRoles (by simp [ruleKeys])
  have hrange := h attrDelegationRange (by simp [ruleKeys])
  cases collector with
  | scope self =>
    show hasScope.verify _ _ attrs = hasScope.verify _ _ attrs'
    unfold hasScope.verify
    rw [hscopes]
  | permission =>
    show hasPermission.verify _ attrs = hasPermission.verify _ attrs'
    unfold hasPermission.verify permissionEntries
    rw [hpermissions, hroles]
  | delegationRange self =>
    show withinDelegationRange.verify _ attrs = withinDelegationRange.verify _ attrs'
    unfold withinDelegationRange.verify
    rw [hrange]

/-! ## A request, with and without its context -/

theorem Deployment.lists_silent (d : Deployment) (context : CollectorContext) :
    d.lists (silent context) = d.lists context := by
  refine List.map_congr_left fun collector _ => ?_
  cases collector with
  | scope self => rfl
  | permission => rfl
  | delegationRange self => rfl

/-! ## What was granted -/

/-- A granted scope is the one the request requires, or its bare resource type where that may be read. -/
def ScopeCovers (allowBareScopeRewrite : Bool) (context : CollectorContext) (granted : Str) : Prop :=
  granted = ResourceActionScopeRuleCollector.requiredScope context ∨
    allowBareScopeRewrite = true ∧ (0x3A : UInt16) ∉ granted ∧ context.action = js "read" ∧
      context.resource.resourceType = granted

/-- A text with one colon is cut at it one way. -/
theorem cut_at_colon {before after before' after' : Str} (hbefore : (0x3A : UInt16) ∉ before)
    (hafter : (0x3A : UInt16) ∉ after) (h : before ++ 0x3A :: after = before' ++ 0x3A :: after') :
    before = before' ∧ after = after' := by
  have hcount := congrArg (List.count (0x3A : UInt16)) h
  simp only [List.count_append, List.count_cons_self, List.count_eq_zero.2 hbefore, List.count_eq_zero.2 hafter]
    at hcount
  have hbefore' : (0x3A : UInt16) ∉ before' := List.count_eq_zero.1 (by omega)
  exact Framing.cut_at_first hbefore hbefore' h

theorem matchScope_covers {allowBareScopeRewrite : Bool} {context : CollectorContext} {granted : Str}
    (h : matchScope allowBareScopeRewrite granted (ResourceActionScopeRuleCollector.requiredScope context) = true) :
    ScopeCovers allowBareScopeRewrite context granted := by
  unfold matchScope at h
  split at h
  · exact .inl ‹_›
  split at h
  · rename_i hrewrite
    obtain ⟨hallowed, hbare⟩ := Bool.and_eq_true_iff.1 hrewrite
    have hcolon : (0x3A : UInt16) ∉ granted := by simpa using hbare
    have hwritten : js "read:" ++ granted = ResourceActionScopeRuleCollector.requiredScope context := eq_of_beq h
    have hcut : js "read" ++ 0x3A :: granted = context.action ++ 0x3A :: context.resource.resourceType := by
      have hread : js "read:" = js "read" ++ [0x3A] := by decide
      rw [hread, List.append_assoc, ResourceActionScopeRuleCollector.requiredScope, List.append_assoc] at hwritten
      exact hwritten
    obtain ⟨haction, htype⟩ := cut_at_colon (by decide) hcolon hcut
    exact .inr ⟨hallowed, hcolon, haction.symm, htype.symm⟩
  · exact absurd h (by simp)

/-- A scope rule that passes was granted a scope that covers the request. -/
theorem scope_granted {attrs : Attributes} {context : CollectorContext} {self : ResourceActionScopeRuleCollector}
    (h : passesOn attrs (BuiltinRuleCollector.rule context (.scope self)) = true) :
    ∃ granted, .str granted ∈ arrayItems (attrs.get? attrScopes) ∧
      ScopeCovers self.allowBareScopeRewrite context granted := by
  have hverify : hasScope.verify (ResourceActionScopeRuleCollector.requiredScope context) self.allowBareScopeRewrite
      attrs = true := h
  unfold hasScope.verify at hverify
  split at hverify
  · rename_i ref scopes hget
    obtain ⟨item, hitem, hmatch⟩ := List.any_eq_true.1 hverify
    obtain ⟨granted, hgranted, hmatch⟩ := (Option.any_eq_true _ _).1 hmatch
    obtain rfl := Value.str?_eq_some.1 hgranted
    exact ⟨granted, mem_arrayItems.2 ⟨ref, scopes, hget, hitem⟩, matchScope_covers hmatch⟩
  · exact absurd hverify (by simp)

/-- So was a rule over the range: some path of the range contains the requested one. -/
theorem range_granted {attrs : Attributes} {context : CollectorContext} {self : DelegationRangeRuleCollector}
    (h : passesOn attrs (BuiltinRuleCollector.rule context (.delegationRange self)) = true) :
    ∃ requested entry, requestedRangePath context.resource.raw context.action = some requested ∧
      .str entry ∈ arrayItems (attrs.get? attrDelegationRange) ∧ rangeContains entry requested = true := by
  have hverify : withinDelegationRange.verify (requestedRangePath context.resource.raw context.action) attrs = true := h
  unfold withinDelegationRange.verify at hverify
  split at hverify
  · exact absurd hverify (by simp)
  · rename_i requested hrequested
    split at hverify
    · rename_i ref range hget
      obtain ⟨item, hitem, hcontains⟩ := List.any_eq_true.1 hverify
      obtain ⟨entry, hentry, hcontains⟩ := (Option.any_eq_true _ _).1 hcontains
      obtain rfl := Value.str?_eq_some.1 hentry
      exact ⟨requested, entry, hrequested, mem_arrayItems.2 ⟨ref, range, hget, hitem⟩, hcontains⟩
    · exact absurd hverify (by simp)

/-- Something the token or the configuration gives: an item of a list, written by one of the collectors. -/
def Deployment.Gives (d : Deployment) (subject : SubjectAttributes) (key : Str) (item : Value) : Prop :=
  ∃ collector ∈ d.attributeCollectors, Source subject collector key item

theorem Deployment.gives {keys : AttributeKeyRegistry} {d : Deployment}
    (hchecked : ∀ collector ∈ d.attributeCollectors, collector.Checked keys) {context : CollectorContext}
    {attrs : Attributes} (hmerge : merge (d.maps context) = .ok attrs) {key : Str} (hkey : keys.has key = true)
    {item : Value} (hitem : item ∈ arrayItems (attrs.get? key)) : d.Gives context.subject key item := by
  obtain ⟨map, hmap, hitem⟩ := merged_item hmerge hitem
  obtain ⟨collector, hc, rfl⟩ := List.mem_map.1 hmap
  exact ⟨collector, hc, source_of_collected (hchecked collector hc) hkey hitem⟩

/-- The paths of a range are the token's own: no other collector writes them. -/
theorem Source.range_of_loaded {keys : AttributeKeyRegistry} (hkeys : Loaded keys) {subject : SubjectAttributes}
    {collector : BuiltinCollector} (hchecked : collector.Checked keys) {item : Value}
    (h : Source subject collector attrDelegationRange item) : ∃ self entries path,
      collector = .delegationRange self ∧ entriesOfType (subject self.claim) self.type = some entries ∧
        path ∈ rangePaths entries ∧ item = .str path := by
  generalize hkey : attrDelegationRange = key at h
  cases h with
  | scope self s hs => exact absurd hkey (by decide)
  | permission self p hp => exact absurd hkey (by decide)
  | role self r hr => exact absurd hkey (by decide)
  | claim self mapping hm ref items hread s hs =>
    obtain ⟨held, hheld, howner⟩ := hkeys.range
    rw [hkey] at hheld
    exact absurd (hchecked mapping hm held hheld) howner
  | range self entries hentries path hpath => exact ⟨self, entries, path, rfl, hentries, hpath, rfl⟩

end PolicyVerifier.Builtins

namespace PolicyVerifier.Server

open Js PolicyVerifier.Core PolicyVerifier.Builtins

/-! ## The decision of a deployment -/

/-- Going on from what the collectors of a deployment resolved with, the call answers an allow. -/
def AllowsBuiltin (d : Deployment) (context : CollectorContext) (cfg : DeciderConfig) (entry : DecisionRequest)
    (input : DecisionInput) (s : Deciding) (world : World) : Prop :=
  DecidesAllow cfg entry input s world (collected (d.maps context) (d.lists context))

section

variable {d : Deployment} {context : CollectorContext} {cfg : DeciderConfig} {entry : DecisionRequest}
  {input : DecisionInput} {s : Deciding} {world : World}

theorem allowsBuiltin_iff (hs : s.settled = none) : AllowsBuiltin d context cfg entry input s world ↔
    ∃ attrs, merge (d.maps context) = .ok attrs ∧ Budgeted cfg.evaluateOptions ∧
      Grants cfg.evaluateOptions (d.lists context).flatten (passesOn attrs) := by
  unfold AllowsBuiltin
  rw [decidesAllow_iff hs, collected_iff]
  refine exists_congr fun attrs => and_congr_right fun _ => ?_
  refine allows_at_once (d.noMixedGroup context) ?_ world cfg.evaluateOptions s.failures
  intro r hr
  obtain ⟨collector, -, -, rfl⟩ := Deployment.mem_lists.1 hr
  exact collector.answersAtOnce context attrs

/-- Maps that agree on the keys the rules read are granted alike. -/
theorem grants_same {attrs attrs' : Attributes} {options : EvaluateOptions}
    (h : ∀ key ∈ ruleKeys, attrs.get? key = attrs'.get? key) :
    Grants options (d.lists context).flatten (passesOn attrs) →
      Grants options (d.lists context).flatten (passesOn attrs') := by
  rintro ⟨hgrants, hgroups⟩
  refine ⟨hgrants, ?_⟩
  intro r hr
  obtain ⟨q, hq, htype, hpasses⟩ := hgroups r hr
  refine ⟨q, hq, htype, ?_⟩
  obtain ⟨collector, -, -, rfl⟩ := Deployment.mem_lists.1 hq
  rw [← collector.passesOn_same context h]
  exact hpasses

end

/-- What the request's own context does to the decision on it. -/
structure BuysNothing (keys : AttributeKeyRegistry) (d : Deployment) (context : CollectorContext)
    (allowed silently : Prop) : Prop where
  /-- What is allowed with it is allowed without it. -/
  narrows : allowed → silently
  /-- It takes an allow away by a conflict alone, over a key that nobody reserved. -/
  refused : silently → ¬allowed → ∃ key, merge (d.maps context) = .error (.attributeConflict .merge key) ∧
    keys.has key = false
  /-- The reserved keys hold the same with it and without it. -/
  reserved : ∀ attrs attrs', merge (d.maps context) = .ok attrs → merge (d.maps (silent context)) = .ok attrs' →
    ∀ key, keys.has key = true → attrs.get? key = attrs'.get? key

/-- Whatever a caller sends along with its request, under a deployment of builtins it buys no decision. -/
theorem request_context_buys_nothing (string : Value → Str) (upper : UInt16 → Str) (keys : AttributeKeyRegistry)
    (hkeys : Loaded keys) (attributeEntries ruleEntries : List (Str × Value)) (d : Deployment)
    (hd : Deployment.assemble string upper keys attributeEntries ruleEntries = .ok d) (context : CollectorContext)
    (cfg : DeciderConfig) (entry entry' : DecisionRequest) (input input' : DecisionInput) (s s' : Deciding)
    (world world' : World) (hs : s.settled = none) (hs' : s'.settled = none) :
    BuysNothing keys d context (AllowsBuiltin d context cfg entry input s world)
      (AllowsBuiltin d (silent context) cfg entry' input' s' world') := by
  have hchecked := Deployment.assemble_checked hd
  have hkept : (d.maps context).map (OrderedMap.restrict keys.has) =
      (d.maps (silent context)).map (OrderedMap.restrict keys.has) := by
    unfold Deployment.maps
    rw [List.map_map, List.map_map]
    refine List.map_congr_left fun collector hc => ?_
    exact (BuiltinCollector.restrict_silent (hchecked collector hc) context).symm
  have hread : ∀ attrs attrs', merge (d.maps context) = .ok attrs → merge (d.maps (silent context)) = .ok attrs' →
      ∀ key, keys.has key = true → attrs.get? key = attrs'.get? key := by
    intro attrs attrs' hattrs hattrs' key hkey
    exact merged_same hkept hattrs hattrs' hkey
  have hfewer : ∀ map ∈ d.maps (silent context), map = ∅ ∨ map ∈ d.maps context := by
    intro map hmap
    obtain ⟨collector, hc, rfl⟩ := List.mem_map.1 hmap
    rcases collector.collect_silent context with hempty | hsame
    · exact .inl hempty
    · exact .inr (List.mem_map.2 ⟨collector, hc, hsame.symm⟩)
  rw [allowsBuiltin_iff hs, allowsBuiltin_iff hs', d.lists_silent]
  refine ⟨?_, ?_, hread⟩
  · rintro ⟨attrs, hattrs, hbudgeted, hgrants⟩
    obtain ⟨attrs', hattrs'⟩ := merge_of_fewer hfewer hattrs
    refine ⟨attrs', hattrs', hbudgeted, grants_same (fun key hkey => ?_) hgrants⟩
    exact hread attrs attrs' hattrs hattrs' key (hkeys.ruleKeys hkey)
  · rintro ⟨attrs', hattrs', hbudgeted, hgrants⟩ hdenied
    rcases merge_cases (d.maps context) with ⟨attrs, hattrs, -, -⟩ | ⟨key, herror, -⟩
    · refine absurd ⟨attrs, hattrs, hbudgeted, grants_same (fun key hkey => ?_) hgrants⟩ hdenied
      exact (hread attrs attrs' hattrs hattrs' key (hkeys.ruleKeys hkey)).symm
    · refine ⟨key, herror, Bool.eq_false_iff.2 fun hkey => ?_⟩
      -- a conflict on a reserved key is there without the request context as well
      have hconflict := conflict_of_merge_error herror
      rw [conflict_same hkept hkey] at hconflict
      rcases merge_cases (d.maps (silent context)) with ⟨_, -, hagree, -⟩ | ⟨_, herror', -⟩
      · exact hagree ((mapsConflict_iff _).2 ⟨key, hconflict⟩)
      · exact absurd (herror'.symm.trans hattrs') (by simp)

/-- What an allow rests on. -/
structure Backed (d : Deployment) (context : CollectorContext) (options : EvaluateOptions) : Prop where
  /-- A rule that grants was asked, or the deployment allows what no rule is about. -/
  asked : (∃ collector ∈ d.ruleCollectors, collector.Emits context ∧ collector.ruleType ≠ js "delegation_range") ∨
    options.onEmptyRuleSet = .str (js "allow")
  /-- Where scopes are asked for, a scope of the token covers the request. -/
  scope : ∀ self, .scope self ∈ d.ruleCollectors → BuiltinRuleCollector.Emits context (.scope self) →
    ∃ other granted, .scope other ∈ d.ruleCollectors ∧ d.Gives context.subject attrScopes (.str granted) ∧
      ScopeCovers other.allowBareScopeRewrite context granted
  /-- Where a permission is asked for, one that was granted directly or through a role covers it. -/
  permission : .permission ∈ d.ruleCollectors → ∃ granted, Covers granted (requiredPermission context) ∧
    (d.Gives context.subject attrPermissions (.str granted) ∨
      ∃ role, d.Gives context.subject attrRoles role ∧
        .str granted ∈ arrayItems (some (role.field (js "permissions"))))
  /-- A token with a range is held to a path the token itself carries. -/
  range : ∀ self, .delegationRange self ∈ d.ruleCollectors →
    BuiltinRuleCollector.Emits context (.delegationRange self) →
      ∃ requested reader entries path, requestedRangePath context.resource.raw context.action = some requested ∧
        .delegationRange reader ∈ d.attributeCollectors ∧
          entriesOfType (context.subject reader.claim) reader.type = some entries ∧
            path ∈ rangePaths entries ∧ rangeContains path requested = true

/-- Every allow of a deployment of builtins rests on what the token carries or the configuration grants: nothing the
caller sends with the request is a scope, a permission or a role. -/
theorem allowed_is_granted (string : Value → Str) (upper : UInt16 → Str) (keys : AttributeKeyRegistry)
    (hkeys : Loaded keys) (attributeEntries ruleEntries : List (Str × Value)) (d : Deployment)
    (hd : Deployment.assemble string upper keys attributeEntries ruleEntries = .ok d) (context : CollectorContext)
    (cfg : DeciderConfig) (entry : DecisionRequest) (input : DecisionInput) (s : Deciding) (world : World)
    (hs : s.settled = none) (hallow : AllowsBuiltin d context cfg entry input s world) :
    Backed d context cfg.evaluateOptions := by
  obtain ⟨attrs, hattrs, -, hgrants, hgroups⟩ := (allowsBuiltin_iff hs).1 hallow
  have hchecked := Deployment.assemble_checked hd
  have hgives : ∀ key ∈ ruleKeys, ∀ item ∈ arrayItems (attrs.get? key), d.Gives context.subject key item :=
    fun key hkey item hitem => Deployment.gives hchecked hattrs (hkeys.ruleKeys hkey) hitem
  -- of each type that is asked for, the rule of some collector passes
  have hpasses : ∀ collector ∈ d.ruleCollectors, collector.Emits context → ∃ other ∈ d.ruleCollectors,
      other.ruleType = collector.ruleType ∧ passesOn attrs (other.rule context) = true := by
    intro collector hc hemits
    obtain ⟨q, hq, htype, hpass⟩ := hgroups _ (Deployment.mem_lists.2 ⟨collector, hc, hemits, rfl⟩)
    obtain ⟨other, hother, -, rfl⟩ := Deployment.mem_lists.1 hq
    rw [other.rule_ruleType, collector.rule_ruleType] at htype
    exact ⟨other, hother, htype, hpass⟩
  refine ⟨?_, ?_, ?_, ?_⟩
  · refine hgrants.imp_left ?_
    rintro ⟨r, hr, hgranting⟩
    obtain ⟨collector, hc, hemits, rfl⟩ := Deployment.mem_lists.1 hr
    rw [collector.isRestricting_iff] at hgranting
    exact ⟨collector, hc, hemits, of_decide_eq_false hgranting⟩
  · intro self hself hemits
    obtain ⟨other, hother, htype, hpass⟩ := hpasses _ hself hemits
    obtain ⟨scopes, rfl⟩ := BuiltinRuleCollector.scope_of_ruleType htype
    obtain ⟨granted, hgranted, hcovers⟩ := scope_granted hpass
    exact ⟨scopes, granted, hother, hgives attrScopes (by simp [ruleKeys]) _ hgranted, hcovers⟩
  · intro hpermission
    obtain ⟨other, hother, htype, hpass⟩ := hpasses _ hpermission trivial
    obtain rfl := BuiltinRuleCollector.permission_of_ruleType htype
    obtain ⟨granted, hgranted, hcovers⟩ := hasPermission_verify_iff.1 hpass
    refine ⟨granted, hcovers, ?_⟩
    rcases hgranted with ⟨ref, items, hget, hmem⟩ | ⟨ref, roles, role, own, items, hget, hrole, hfield, hmem⟩
    · exact .inl (hgives attrPermissions (by simp [ruleKeys]) _ (mem_arrayItems.2 ⟨ref, items, hget, hmem⟩))
    · refine .inr ⟨role, hgives attrRoles (by simp [ruleKeys]) _ (mem_arrayItems.2 ⟨ref, roles, hget, hrole⟩), ?_⟩
      exact mem_arrayItems.2 ⟨own, items, congrArg some hfield, hmem⟩
  · intro self hself hemits
    obtain ⟨other, hother, htype, hpass⟩ := hpasses _ hself hemits
    obtain ⟨ranged, rfl⟩ := BuiltinRuleCollector.range_of_ruleType htype
    obtain ⟨requested, path, hrequested, hpath, hcontains⟩ := range_granted hpass
    obtain ⟨collector, hc, hsource⟩ := hgives attrDelegationRange (by simp [ruleKeys]) _ hpath
    obtain ⟨reader, entries, p, rfl, hentries, hp, heq⟩ := hsource.range_of_loaded hkeys (hchecked collector hc)
    obtain rfl := Value.str.inj heq
    exact ⟨requested, reader, entries, path, hrequested, hc, hentries, hp, hcontains⟩

/-! ## A deployment that reads scopes -/

/-- The attribute collectors of a config: the token's scopes, and the groups a caller says it is in. -/
def scopeEntries : List (Str × Value) :=
  [(js "PayloadScopeCollector", .obj 0 []), (js "RequestContextAttributeCollector", callerGroups)]

/-- Its rule collector. -/
def scopeRuleEntries : List (Str × Value) := [(js "ResourceActionScopeRuleCollector", .obj 0 [])]

/-- A token that may read orders, and a caller that sends groups, scopes and roles along. -/
def scopedRequest : CollectorContext where
  subject name := if name = js "scope" then .str (js "openid read:order") else .undefined
  resource := { raw := js "order", resourceType := js "order", resourceId := none }
  action := js "read"
  requestContext := some [(js "groups", .arr 0 [.str (js "a")]), (js "scopes", .arr 1 [.str (js "write:order")])]

/-- The registry once the two packages are loaded. -/
def loadedKeys : AttributeKeyRegistry where
  reservations := (RegistryState.after {} [some coreReservation, some builtinsReservation]).reservations
  reservedKeys := (RegistryState.after {} [some coreReservation, some builtinsReservation]).reservedKeys
  inStep key := by
    rw [(RegistryState.consistent_empty.after _).inStep, ← OrderedMap.get?_isSome_iff]
    rfl

theorem loadedKeys_loaded : Loaded loadedKeys := ⟨[], rfl⟩

/-- What is assembled of it. -/
def scopedDeployment : Deployment where
  attributeCollectors :=
    [.payloadScope ⟨js "scope"⟩
      , .requestContext ⟨[{ «from» := js "groups", «to» := js "groups", type := .strings }]⟩]
  ruleCollectors := [.scope { scopeless := .deny, allowBareScopeRewrite := false, claim := js "scope" }]

theorem scopedDeployment_assembled :
    Deployment.assemble (fun _ => []) (fun c => [c]) loadedKeys scopeEntries scopeRuleEntries = .ok scopedDeployment := by
  rfl

theorem scopedRequest_allowed : AllowsBuiltin scopedDeployment scopedRequest Deciding.pairConfig Deciding.readOrder
    Deciding.alice (Deciding.start Deciding.pairConfig none) Deciding.quietWorld := ⟨_, rfl, rfl⟩

/-- The caller's groups and scopes add nothing to a token that may read orders. -/
theorem request_context_buys_nothing_groups : Loaded loadedKeys ∧
    AllowsBuiltin scopedDeployment (silent scopedRequest) Deciding.pairConfig Deciding.readOrder Deciding.alice
      (Deciding.start Deciding.pairConfig none) Deciding.quietWorld :=
  ⟨loadedKeys_loaded,
    (request_context_buys_nothing (fun _ => []) (fun c => [c]) loadedKeys loadedKeys_loaded scopeEntries
      scopeRuleEntries scopedDeployment scopedDeployment_assembled scopedRequest Deciding.pairConfig
      Deciding.readOrder Deciding.readOrder Deciding.alice Deciding.alice (Deciding.start Deciding.pairConfig none)
      (Deciding.start Deciding.pairConfig none) Deciding.quietWorld Deciding.quietWorld rfl rfl).narrows
      scopedRequest_allowed⟩

/-- The token's own scope is what the allow rests on. -/
theorem allowed_is_granted_scope : Backed scopedDeployment scopedRequest Deciding.pairConfig.evaluateOptions :=
  allowed_is_granted (fun _ => []) (fun c => [c]) loadedKeys loadedKeys_loaded scopeEntries scopeRuleEntries
    scopedDeployment scopedDeployment_assembled scopedRequest Deciding.pairConfig Deciding.readOrder Deciding.alice
    (Deciding.start Deciding.pairConfig none) Deciding.quietWorld rfl scopedRequest_allowed

end PolicyVerifier.Server
