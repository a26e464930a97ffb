import PolicyVerifier.Builtins.Proofs.RangeProofs
import PolicyVerifier.Core.Proofs.MergeProofs
import PolicyVerifier.Core.Proofs.RestrictingProofs
import PolicyVerifier.Server.Proofs.DecideProofs

/-!
# A delegated token's range narrows the decision

The attribute collector reads the range and the rule collector emits the rule that holds the request to
it. Both read the same entries of the same claim, so that the rule is there exactly when the range is;
what the decision then comes to is what it comes to without them, and the rule.
-/

namespace PolicyVerifier.Builtins

open Js PolicyVerifier.Core

/-! ## The claim, as the two collectors read it -/

/-- The claim is a list of entry objects. -/
def IsEntryList (claim : Value) (items : List Value) : Prop :=
  (∃ ref, claim = .arr ref items) ∧ ∀ entry ∈ items, ∃ ref props, entry = .obj ref props

/-- The token carries no range: the claim is absent, or lists no entry of the type. -/
def NoRange (claim : Value) (type : Str) : Prop :=
  claim = .undefined ∨ ∃ items, IsEntryList claim items ∧
    ∀ entry ∈ items, entry.field (js "type") ≠ .str type

/-- Some entry of the type has a path in the grammar that contains the requested one. -/
def SomeEntryContains (claim : Value) (type resource action : Str) : Prop :=
  ∃ items, IsEntryList claim items ∧ ∃ entry ∈ items, entry.field (js "type") = .str type ∧
    ∃ within requested, InGrammar within ∧ entry.field (js "path") = .str (writePath within) ∧
      Requested resource action requested ∧ Contains within requested

theorem isEntryObject_iff (entry : Value) :
    isEntryObject entry = true ↔ ∃ ref props, entry = .obj ref props := by
  cases entry with
  | obj ref props => exact iff_of_true rfl ⟨ref, props, rfl⟩
  | _ => exact iff_of_false (by simp [isEntryObject]) (by simp)

theorem entriesOfType_list {ref : Nat} {items : List Value} {type : Str}
    (h : ∀ entry ∈ items, ∃ ref props, entry = .obj ref props) :
    entriesOfType (.arr ref items) type =
      let entries := items.filter fun entry => decide (entry.field (js "type") = .str type)
      if 0 < entries.length then some entries else none := by
  rw [entriesOfType, if_pos]
  exact List.all_eq_true.2 fun entry hentry => (isEntryObject_iff entry).2 (h entry hentry)

/-- There are no entries to hold the request to exactly when the token carries no range. -/
theorem entriesOfType_eq_none {claim : Value} {type : Str} :
    entriesOfType claim type = none ↔ NoRange claim type := by
  cases claim with
  | undefined => exact iff_of_true rfl (Or.inl rfl)
  | arr ref items =>
    by_cases hlist : ∀ entry ∈ items, ∃ ref props, entry = .obj ref props
    · have hnone : entriesOfType (.arr ref items) type = none ↔
          ∀ entry ∈ items, entry.field (js "type") ≠ .str type := by
        rw [entriesOfType_list hlist]
        dsimp only
        split
        · rename_i hpos
          obtain ⟨entry, hentry⟩ := List.exists_mem_of_length_pos hpos
          obtain ⟨hmem, htype⟩ := List.mem_filter.1 hentry
          exact iff_of_false (by simp) fun h => h entry hmem (of_decide_eq_true htype)
        · rename_i hpos
          refine iff_of_true rfl fun entry hmem htype => hpos ?_
          exact List.length_pos_of_mem (List.mem_filter.2 ⟨hmem, decide_eq_true htype⟩)
      rw [hnone]
      constructor
      · exact fun h => Or.inr ⟨items, ⟨⟨ref, rfl⟩, hlist⟩, h⟩
      · rintro (h | ⟨others, ⟨⟨r, heq⟩, -⟩, h⟩)
        · exact absurd h (by simp)
        · obtain ⟨-, rfl⟩ := Value.arr.inj heq
          exact h
    · have hsome : entriesOfType (.arr ref items) type = some [] := by
        rw [entriesOfType, if_neg]
        intro hall
        exact hlist fun entry hentry =>
          (isEntryObject_iff entry).1 (List.all_eq_true.1 hall entry hentry)
      rw [hsome]
      refine iff_of_false (by simp) ?_
      rintro (h | ⟨others, ⟨⟨r, heq⟩, hothers⟩, -⟩)
      · exact absurd h (by simp)
      · obtain ⟨-, rfl⟩ := Value.arr.inj heq
        exact hlist hothers
  | _ =>
    refine iff_of_false (by simp [entriesOfType]) ?_
    rintro (h | ⟨items, ⟨⟨ref, heq⟩, -⟩, -⟩)
    · exact absurd h (by simp)
    · exact absurd heq (by simp)

theorem mem_entriesOfType {claim : Value} {type : Str} {entries : List Value}
    (h : entriesOfType claim type = some entries) (entry : Value) : entry ∈ entries ↔
      ∃ items, IsEntryList claim items ∧ entry ∈ items ∧ entry.field (js "type") = .str type := by
  cases claim with
  | undefined => exact absurd h (by simp [entriesOfType])
  | arr ref items =>
    by_cases hlist : ∀ entry ∈ items, ∃ ref props, entry = .obj ref props
    · rw [entriesOfType_list hlist] at h
      dsimp only at h
      split at h
      · obtain rfl := Option.some.inj h
        rw [List.mem_filter, decide_eq_true_iff]
        constructor
        · exact fun hentry => ⟨items, ⟨⟨ref, rfl⟩, hlist⟩, hentry⟩
        · rintro ⟨others, ⟨⟨r, heq⟩, -⟩, hentry⟩
          obtain ⟨-, rfl⟩ := Value.arr.inj heq
          exact hentry
      · exact absurd h (by simp)
    · rw [entriesOfType, if_neg] at h
      · obtain rfl := Option.some.inj h
        refine iff_of_false (by simp) ?_
        rintro ⟨others, ⟨⟨r, heq⟩, hothers⟩, -⟩
        obtain ⟨-, rfl⟩ := Value.arr.inj heq
        exact hlist hothers
      · intro hall
        exact hlist fun entry hentry =>
          (isEntryObject_iff entry).1 (List.all_eq_true.1 hall entry hentry)
  | _ =>
    obtain rfl := Option.some.inj h
    refine iff_of_false (by simp) ?_
    rintro ⟨items, ⟨⟨ref, heq⟩, -⟩, -⟩
    exact absurd heq (by simp)

theorem mem_rangePaths {entries : List Value} {path : Str} : path ∈ rangePaths entries ↔
    (∃ entry ∈ entries, entry.field (js "path") = .str path) ∧ ∃ within, parseRangePath path = some within := by
  unfold rangePaths
  rw [List.mem_filter, List.mem_filterMap, Option.isSome_iff_exists]
  exact and_congr_left fun _ => exists_congr fun entry => and_congr_right fun _ => Value.str?_eq_some

/-- The rule, on the range the attribute collector read: it passes exactly when some entry contains the
requested path. -/
theorem within_iff {claim : Value} {type resource action : Str} {entries : List Value}
    (h : entriesOfType claim type = some entries) :
    (∃ path, requestedRangePath resource action = some path ∧
      ∃ entry ∈ rangePaths entries, rangeContains entry path = true) ↔
    SomeEntryContains claim type resource action := by
  constructor
  · rintro ⟨path, hpath, p, hp, hcontains⟩
    obtain ⟨within, requested, hwithin, hrequested, hcovers⟩ := rangeContains_iff.1 hcontains
    obtain ⟨⟨entry, hentry, hfield⟩, -⟩ := mem_rangePaths.1 hp
    obtain ⟨items, hitems, hmem, htype⟩ := (mem_entriesOfType h entry).1 hentry
    obtain ⟨hgrammar, rfl⟩ := parseRangePath_iff.1 hwithin
    exact ⟨items, hitems, entry, hmem, htype, within, requested, hgrammar, hfield,
      (requestedRangePath_elements hpath).1 hrequested, hcovers⟩
  · rintro ⟨items, hitems, entry, hmem, htype, within, requested, hgrammar, hfield, hrequested, hcovers⟩
    have hname : isName action = true := by
      obtain ⟨hrequested, segments, rfl, -⟩ := hrequested
      exact hrequested.name_of_last
    have hpath : requestedRangePath resource action = some (resource ++ js "." ++ action) := by
      rw [requestedRangePath, if_pos hname]
    have hwithin : parseRangePath (writePath within) = some within := parseRangePath_iff.2 ⟨hgrammar, rfl⟩
    refine ⟨_, hpath, writePath within, ?_, ?_⟩
    · exact mem_rangePaths.2 ⟨⟨entry, (mem_entriesOfType h entry).2 ⟨items, hitems, hmem, htype⟩, hfield⟩,
        within, hwithin⟩
    · exact rangeContains_iff.2 ⟨within, requested, hwithin,
        (requestedRangePath_elements hpath).2 hrequested, hcovers⟩

/-- What the rule answers on a map that holds the range. -/
theorem withinDelegationRange_answers (path : Option Str) {attrs : Attributes} {range : List Str}
    (h : attrs.get? attrDelegationRange = some (Value.strings range)) :
    ∃ result, readRun ((withinDelegationRange path).verify attrs) = .ok result ∧
      (result.passed = true ↔ ∃ p, path = some p ∧ ∃ entry ∈ range, rangeContains entry p = true) := by
  refine ⟨{ passed := withinDelegationRange.verify path attrs }, rfl, ?_⟩
  cases path with
  | none => exact iff_of_false (by simp [withinDelegationRange.verify]) (by simp)
  | some p =>
    have hverify : withinDelegationRange.verify (some p) attrs =
        (range.map Value.str).any fun entry => entry.str?.any (rangeContains · p) := by
      simp only [withinDelegationRange.verify, h, Value.strings, Value.list]
    simp [hverify, List.any_map, Value.str?, Function.comp_def]

end PolicyVerifier.Builtins

namespace PolicyVerifier.Server

open Js PolicyVerifier.Core PolicyVerifier.Builtins

/-! ## The decision -/

/-- What the two collects come to, from what the collectors of either pipeline resolved with. -/
def collected (maps : List Attributes) (lists : List (List AnyRule)) :
    Except Thrown (Attributes × List AnyRule) := do
  let attrs ← collectAttributes (.ok (maps.map some))
  let rules ← collectRules (.ok (lists.map some))
  .ok (attrs, rules)

theorem collected_iff {maps : List Attributes} {lists : List (List AnyRule)}
    {P : Attributes → List AnyRule → Prop} :
    (∃ attrs rules, collected maps lists = .ok (attrs, rules) ∧ P attrs rules) ↔
      ∃ attrs, merge maps = .ok attrs ∧ P attrs lists.flatten := by
  rw [collected, collectRules_whole, collectAttributes_whole]
  cases merge maps with
  | error e =>
    exact iff_of_false (fun ⟨_, _, h, _⟩ => absurd h (by simp [bind, Except.bind]))
      (fun ⟨_, h, _⟩ => absurd h (by simp))
  | ok merged =>
    constructor
    · rintro ⟨attrs, rules, heq, h⟩
      obtain ⟨rfl, rfl⟩ := Prod.mk.inj (Except.ok.inj heq)
      exact ⟨merged, rfl, h⟩
    · rintro ⟨attrs, heq, h⟩
      obtain rfl := Except.ok.inj heq
      exact ⟨merged, lists.flatten, rfl, h⟩

/-- Going on from what the collects came to, the call answers an allow. -/
def DecidesAllow (cfg : DeciderConfig) (entry : DecisionRequest) (input : DecisionInput) (s : Deciding)
    (world : World) (o : Except Thrown (Attributes × List AnyRule)) : Prop :=
  ∃ response, (Deciding.proceed cfg entry input s world o).settled = some (.ok response) ∧
    response.decision.isAllow = true

theorem fail_not_allow (cfg : DeciderConfig) (entry : DecisionRequest) (input : DecisionInput)
    (s : Deciding) (cause : Thrown) : ¬ ∃ response,
      (Deciding.fail cfg entry input s cause).settled = some (.ok response) ∧
        response.decision.isAllow = true := by
  rintro ⟨response, hsettled, hallow⟩
  unfold Deciding.fail at hsettled
  dsimp only at hsettled
  split at hsettled
  · exact absurd hsettled (by simp)
  · obtain rfl := Except.ok.inj (Option.some.inj hsettled)
    rw [Deciding.toResponse_isAllow] at hallow
    exact absurd hallow (by simp [Decision.isAllow])

theorem decidesAllow_iff {cfg : DeciderConfig} {entry : DecisionRequest} {input : DecisionInput}
    {s : Deciding} {world : World} (hs : s.settled = none)
    (o : Except Thrown (Attributes × List AnyRule)) : DecidesAllow cfg entry input s world o ↔
      ∃ attrs rules, o = .ok (attrs, rules) ∧
        Allows (evaluate world attrs rules cfg.evaluateOptions s.failures) := by
  cases o with
  | error cause =>
    refine iff_of_false (fail_not_allow cfg entry input s cause) ?_
    rintro ⟨attrs, rules, h, -⟩
    exact absurd h (by simp)
  | ok pair =>
    obtain ⟨attrs, rules⟩ := pair
    have hone : (∃ attrs' rules', Except.ok (attrs, rules) = Except.ok (ε := Thrown) (attrs', rules') ∧
        Allows (evaluate world attrs' rules' cfg.evaluateOptions s.failures)) ↔
        Allows (evaluate world attrs rules cfg.evaluateOptions s.failures) := by
      constructor
      · rintro ⟨attrs', rules', heq, h⟩
        obtain ⟨rfl, rfl⟩ := Prod.mk.inj (Except.ok.inj heq)
        exact h
      · exact fun h => ⟨attrs, rules, rfl, h⟩
    rw [hone]
    unfold DecidesAllow
    rcases heval : evaluate world attrs rules cfg.evaluateOptions s.failures with ⟨final, outcome⟩
    simp only [Deciding.proceed, heval]
    cases outcome with
    | done decision =>
      constructor
      · rintro ⟨response, hsettled, hallow⟩
        obtain rfl := Except.ok.inj (Option.some.inj hsettled)
        exact ⟨decision, rfl, (Deciding.toResponse_isAllow ..).symm.trans hallow⟩
      · rintro ⟨d, hd, hallow⟩
        obtain rfl := Outcome.done.inj hd
        exact ⟨_, rfl, (Deciding.toResponse_isAllow ..).trans hallow⟩
    | threw cause =>
      refine iff_of_false (fail_not_allow cfg entry input _ cause) ?_
      rintro ⟨decision, h, -⟩
      exact absurd h (by simp)
    | pending =>
      constructor
      · rintro ⟨response, hsettled, -⟩
        exact absurd (hs.symm.trans hsettled) (by simp)
      · rintro ⟨decision, h, -⟩
        exact absurd h (by simp)

/-- The rule does the same whatever is held under the key. -/
def DoesNotRead (key : Str) (rule : AnyRule) : Prop :=
  ∀ attrs : Attributes, SameOn (attrs.erase key) attrs rule

/-- A list of attribute maps and one of rule lists, that leave the range to its two collectors. -/
structure LeavesRange (maps : List Attributes) (lists : List (List AnyRule)) : Prop where
  writes : ∀ map ∈ maps, attrDelegationRange ∉ map.keys
  reads : ∀ rule ∈ lists.flatten, DoesNotRead attrDelegationRange rule
  types : ∀ rule ∈ lists.flatten, rule.ruleType ≠ js "delegation_range"

/-- What the two collectors do to a decision, over the claim they read. -/
structure Narrows (claim : Value) (type resource action : Str) (without withBoth : Prop) : Prop where
  /-- The decision stays an allow when there is no range, or an entry contains the request. -/
  allow_iff : withBoth ↔ without ∧ (NoRange claim type ∨ SomeEntryContains claim type resource action)
  /-- No deny becomes an allow. -/
  narrows : withBoth → without
  /-- A claim in another shape contains nothing. -/
  malformed : claim ≠ .undefined → (¬ ∃ items, IsEntryList claim items) → ¬ withBoth
  /-- Neither does an entry outside the grammar. -/
  outside : ∀ entry path, parseRangePath entry = none → rangeContains entry path = false
  /-- The requested path is the resource's segments and one action. -/
  requested : ∀ path, requestedRangePath resource action = some path → isName action = true ∧
    path.splitOn 0x2E = resource.splitOn 0x2E ++ [action] ∧
    ∀ elements, parseRangePath path = some elements ↔ Requested resource action elements

section Narrowing

variable {maps₁ maps₂ : List Attributes} {lists₁ lists₂ : List (List AnyRule)}

/-- With the range merged in, the other rules find what they find without it, and the rule the range. -/
theorem collected_range (h : LeavesRange (maps₁ ++ maps₂) (lists₁ ++ lists₂)) (range : List Str)
    (path : Option Str) (world : World) (options : EvaluateOptions) (failures failures' : FailureRecord) :
    (∃ attrs rules, collected (maps₁ ++ OrderedMap.ofList [(attrDelegationRange, Value.strings range)] ::
        maps₂) (lists₁ ++ [withinDelegationRange path] :: lists₂) = .ok (attrs, rules) ∧
        Allows (evaluate world attrs rules options failures')) ↔
      (∃ attrs rules, collected (maps₁ ++ maps₂) (lists₁ ++ lists₂) = .ok (attrs, rules) ∧
        Allows (evaluate world attrs rules options failures)) ∧
      ∃ p, path = some p ∧ ∃ entry ∈ range, rangeContains entry p = true := by
  obtain ⟨hgoes, hsplit⟩ := merge_insert_list (range.map Value.str) h.writes
  have hflat : (lists₁ ++ [withinDelegationRange path] :: lists₂).flatten =
      lists₁.flatten ++ withinDelegationRange path :: lists₂.flatten := by simp
  have hflat' : (lists₁ ++ lists₂).flatten = lists₁.flatten ++ lists₂.flatten := List.flatten_append
  have hrestricts : isRestrictingRule (withinDelegationRange path) = true :=
    decide_eq_true rfl
  have hreads := h.reads
  have htypes := h.types
  rw [hflat'] at hreads htypes
  have hinsert : ∀ attrs', merge (maps₁ ++ OrderedMap.ofList [(attrDelegationRange,
      Value.strings range)] :: maps₂) = .ok attrs' → (Allows (evaluate world attrs'
        (lists₁.flatten ++ withinDelegationRange path :: lists₂.flatten) options failures') ↔
      Allows (evaluate world (attrs'.erase attrDelegationRange)
        (lists₁.flatten ++ lists₂.flatten) options failures) ∧
      ∃ p, path = some p ∧ ∃ entry ∈ range, rangeContains entry p = true) := by
    intro attrs' hattrs'
    obtain ⟨result, hanswer, hpassed⟩ := withinDelegationRange_answers path
      (hsplit attrs' hattrs').2
    rw [← hpassed]
    exact evaluate_insert world hrestricts rfl hanswer htypes (fun r hr => hreads r hr attrs') options
      failures failures'
  rw [collected_iff, collected_iff, hflat, hflat']
  constructor
  · rintro ⟨attrs', hattrs', hallows⟩
    obtain ⟨hothers, hpasses⟩ := (hinsert attrs' hattrs').1 hallows
    exact ⟨⟨attrs'.erase attrDelegationRange, (hsplit attrs' hattrs').1, hothers⟩, hpasses⟩
  · rintro ⟨⟨attrs, hattrs, hothers⟩, hpasses⟩
    obtain ⟨attrs', hattrs'⟩ := hgoes attrs hattrs
    obtain rfl := Except.ok.inj ((hsplit attrs' hattrs').1.symm.trans hattrs)
    exact ⟨attrs', hattrs', (hinsert attrs' hattrs').2 ⟨hothers, hpasses⟩⟩

end Narrowing

/-- The two collectors of one type and one claim narrow every decision they are added to, wherever they
stand among the others. -/
theorem delegation_narrows (collector : DelegationRangeCollector)
    (ruleCollector : DelegationRangeRuleCollector) (htype : ruleCollector.type = collector.type)
    (hclaim : ruleCollector.claim = collector.claim) (context : CollectorContext)
    (maps₁ maps₂ : List Attributes) (lists₁ lists₂ : List (List AnyRule))
    (hothers : LeavesRange (maps₁ ++ maps₂) (lists₁ ++ lists₂)) (cfg cfg' : DeciderConfig)
    (hoptions : cfg'.evaluateOptions = cfg.evaluateOptions) (entry : DecisionRequest)
    (input : DecisionInput) (world : World) (s s' : Deciding) (hs : s.settled = none)
    (hs' : s'.settled = none) :
    Narrows (context.subject collector.claim) collector.type context.resource.raw context.action
      (DecidesAllow cfg entry input s world (collected (maps₁ ++ maps₂) (lists₁ ++ lists₂)))
      (DecidesAllow cfg' entry input s' world
        (collected (maps₁ ++ collector.collect context :: maps₂)
          (lists₁ ++ ruleCollector.collect context :: lists₂))) := by
  set claim := context.subject collector.claim with hclaimed
  have hiff : DecidesAllow cfg' entry input s' world
        (collected (maps₁ ++ collector.collect context :: maps₂)
          (lists₁ ++ ruleCollector.collect context :: lists₂)) ↔
      DecidesAllow cfg entry input s world (collected (maps₁ ++ maps₂) (lists₁ ++ lists₂)) ∧
        (NoRange claim collector.type ∨
          SomeEntryContains claim collector.type context.resource.raw context.action) := by
    rw [decidesAllow_iff hs, decidesAllow_iff hs', hoptions]
    cases hentries : entriesOfType claim collector.type with
    | none =>
      have hmap : collector.collect context = ∅ := by
        rw [DelegationRangeCollector.collect, ← hclaimed, hentries]
      have hrules : ruleCollector.collect context = [] := by
        rw [DelegationRangeRuleCollector.collect, hclaim, htype, ← hclaimed, hentries]
      have hflat : (lists₁ ++ [] :: lists₂).flatten = (lists₁ ++ lists₂).flatten := by simp
      have hnone : NoRange claim collector.type := entriesOfType_eq_none.1 hentries
      rw [hmap, hrules, collected_iff, collected_iff, merge_insert_empty, hflat,
        and_iff_left (Or.inl hnone)]
      exact exists_congr fun attrs => and_congr_right fun _ => evaluate_allows_same world _ _ _ _
    | some entries =>
      have hmap : collector.collect context = OrderedMap.ofList [(attrDelegationRange,
          Value.strings (rangePaths entries))] := by
        rw [DelegationRangeCollector.collect, ← hclaimed, hentries]
      have hrules : ruleCollector.collect context =
          [withinDelegationRange (requestedRangePath context.resource.raw context.action)] := by
        rw [DelegationRangeRuleCollector.collect, hclaim, htype, ← hclaimed, hentries]
      have hrange : ¬ NoRange claim collector.type := by
        rw [← entriesOfType_eq_none, hentries]
        simp
      rw [hmap, hrules, or_iff_right hrange, ← within_iff hentries]
      exact collected_range hothers _ _ world _ _ _
  refine ⟨hiff, fun h => (hiff.1 h).1, fun hpresent hshape hallow => ?_, fun e path he => ?_,
    fun path hpath => ?_⟩
  · rcases (hiff.1 hallow).2 with hnone | ⟨items, hitems, -⟩
    · rcases hnone with habsent | ⟨items, hitems, -⟩
      · exact hpresent habsent
      · exact hshape ⟨items, hitems⟩
    · exact hshape ⟨items, hitems⟩
  · rw [Bool.eq_false_iff]
    intro hcontains
    obtain ⟨within, requested, hwithin, -⟩ := rangeContains_iff.1 hcontains
    exact absurd (he.symm.trans hwithin) (by simp)
  · obtain ⟨hname, -, hsegments⟩ := requestedRangePath_eq_some hpath
    exact ⟨hname, hsegments, fun elements => requestedRangePath_elements hpath⟩

/-- The options both collectors are given. -/
def agentRange : Value := .obj 0 [(js "type", .str (js "agent_delegation"))]

/-- An agent whose token confines it to the reports of one project asks to read one. -/
def agentRequest : CollectorContext where
  subject name :=
    if name = js "authorization_details" then
      .arr 1 [.obj 2 [(js "type", .str (js "agent_delegation")), (js "path", .str (js "project:p1.report"))]]
    else .undefined
  resource := { raw := js "project:p1.report", resourceType := js "report", resourceId := none }
  action := js "read"

/-- A policy that grants the request. -/
def granting : AnyRule :=
  { ruleType := js "permission", code := js "missing_permission", message := js "Missing permission",
    verify := fun _ => { answer := .ok (.bool true) }, decide := fun _ => [] }

theorem delegation_narrows_agent : ∃ collector ruleCollector,
    DelegationRangeCollector.new agentRange = .ok collector ∧
    DelegationRangeRuleCollector.new agentRange = .ok ruleCollector ∧
    DecidesAllow Deciding.pairConfig Deciding.readOrder Deciding.alice
      (Deciding.start Deciding.pairConfig none) Deciding.quietWorld
      (collected [collector.collect agentRequest]
        [[granting], ruleCollector.collect agentRequest]) ∧
    SomeEntryContains (agentRequest.subject collector.claim) collector.type
      agentRequest.resource.raw agentRequest.action := by
  obtain ⟨collector, ruleCollector, hcollector, hrule, htype, hclaim, entries, hentries, hpaths⟩ :
      ∃ collector ruleCollector, DelegationRangeCollector.new agentRange = .ok collector ∧
        DelegationRangeRuleCollector.new agentRange = .ok ruleCollector ∧
        ruleCollector.type = collector.type ∧ ruleCollector.claim = collector.claim ∧
        ∃ entries, entriesOfType (agentRequest.subject collector.claim) collector.type = some entries ∧
          entries.map (Value.field · (js "path")) = [.str (js "project:p1.report")] :=
    ⟨_, _, rfl, rfl, rfl, rfl, _, rfl, rfl⟩
  have hothers : LeavesRange ([] ++ []) ([[granting]] ++ []) :=
    { writes := by simp
      reads := fun rule hr => by
        rw [List.mem_singleton.1 hr]
        exact fun attrs => ⟨rfl, rfl⟩
      types := fun rule hr => by
        rw [List.mem_singleton.1 hr]
        decide }
  have hnarrows := delegation_narrows collector ruleCollector htype hclaim agentRequest [] []
    [[granting]] [] hothers Deciding.pairConfig Deciding.pairConfig rfl Deciding.readOrder
    Deciding.alice Deciding.quietWorld
    (Deciding.start Deciding.pairConfig none) (Deciding.start Deciding.pairConfig none) rfl rfl
  have hgranted : DecidesAllow Deciding.pairConfig Deciding.readOrder Deciding.alice
      (Deciding.start Deciding.pairConfig none) Deciding.quietWorld (collected [] [[granting]]) :=
    ⟨_, rfl, rfl⟩
  have hwithin : SomeEntryContains (agentRequest.subject collector.claim) collector.type
      agentRequest.resource.raw agentRequest.action := by
    refine (within_iff hentries).1 ⟨js "project:p1.report.read", rfl, js "project:p1.report", ?_, ?_⟩
    · obtain ⟨entry, hentry, hfield⟩ := List.mem_map.1 (hpaths ▸ List.mem_singleton_self _)
      have hgrammar : (parseRangePath (js "project:p1.report")).isSome = true := by decide +kernel
      exact mem_rangePaths.2 ⟨⟨entry, hentry, hfield⟩, Option.isSome_iff_exists.1 hgrammar⟩
    · decide +kernel
  exact ⟨collector, ruleCollector, hcollector, hrule,
    hnarrows.allow_iff.2 ⟨hgranted, Or.inr hwithin⟩, hwithin⟩

end PolicyVerifier.Server
