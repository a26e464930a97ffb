import PolicyVerifier.Cedar.Proofs.AgentAnswerProofs
import PolicyVerifier.Lib.Machine

/-!
# What passes over an agent that others push to

A set the agent holds is somebody's whole push. So an answer that names a policy under a verifier's mark was
evaluated over that verifier's own set, whole, and what passes over the network passes in process too.
-/

namespace PolicyVerifier.Cedar

open Js PolicyVerifier.Core

variable {Policy : Type} (cedar : CedarEvaluator Policy) {sha256 : Str → Digest}

/-! ## The marks -/

theorem loadMark_length (source : PolicySource sha256) : (loadMark source.revision).length = 17 := by
  obtain ⟨digits, hmark, hlength, -⟩ := loadMark_computed sha256 source.files
  rw [source.computed, hmark, List.length_cons, hlength]

/-- An id the agent holds a policy under tells the mark it was pushed under. -/
theorem agentPolicyId_marks {source source' : PolicySource sha256} {id id' : Str}
    (h : agentPolicyId id source.revision = agentPolicyId id' source'.revision) :
    loadMark source.revision = loadMark source'.revision :=
  (List.append_inj' h (by rw [loadMark_length, loadMark_length])).2

section Run

variable {ι : Type} (verifiers : ι → Verifier sha256)

/-- Verifiers under one mark push one set: the first sixteen digits of a revision tell the sets apart. -/
def MarksTell : Prop :=
  ∀ v w, loadMark (verifiers v).source.revision = loadMark (verifiers w).source.revision →
    (verifiers v).source.files = (verifiers w).source.files

/-- A policy under a verifier's mark is held with the verifier's own set, and with all of it. -/
def Whole (held : Policies Policy) : Prop :=
  ∀ v id, agentPolicyId id (verifiers v).source.revision ∈ held.ids → PushedSet cedar (verifiers v).source held

/-- What anyone else pushes holds no policy under a verifier's mark. -/
def Unmarked (policies : List (Str × Str)) : Prop :=
  ∀ v id, agentPolicyId id (verifiers v).source.revision ∉ policies.map Prod.fst

variable {verifiers}

theorem whole_empty : Whole cedar verifiers ([] : Policies Policy) := by
  intro v id hid
  exact absurd hid (by simp [Policies.ids])

theorem whole_unmarked {texts : List (Str × Str)} {held : Policies Policy} (hunmarked : Unmarked verifiers texts)
    (h : cedar.compile texts = .ok held) : Whole cedar verifiers held := by
  intro v id hid
  rw [compile_ids cedar h] at hid
  exact absurd hid (hunmarked v id)

/-- What a verifier pushes is whole for every verifier. -/
theorem whole_pushed (hmarks : MarksTell verifiers) {v : ι} {texts : List (Str × Str)} {held : Policies Policy}
    (htexts : pushedTexts (verifiers v).source = .ok texts) (h : cedar.compile texts = .ok held) :
    Whole cedar verifiers held := by
  intro w id hid
  obtain ⟨named, hnamed, rfl⟩ := pushedTexts_ok_iff.1 htexts
  rw [compile_ids cedar h, List.map_map] at hid
  obtain ⟨policy, -, hpolicy⟩ := List.mem_map.1 hid
  have hfiles := hmarks v w (agentPolicyId_marks hpolicy)
  have hrevision : (verifiers v).source.revision = (verifiers w).source.revision := by
    rw [(verifiers v).source.computed, (verifiers w).source.computed, hfiles]
  refine ⟨_, pushedTexts_ok_iff.2 ⟨named, hfiles ▸ hnamed, rfl⟩, ?_⟩
  rw [← hrevision]
  exact h

/-! ## The run -/

variable (wording : Str × Str → Str) (unanswered : List Str → Thrown)

/-- What holds of an exchange at any time. -/
structure ExchangeInv (verifiers : ι → Verifier sha256) (exchange : AgentExchange ι Policy) : Prop where
  sent : authorizationCall exchange.request = .ok exchange.call
  evaluated : ∀ held answer, exchange.evaluated = some (held, answer) → Whole cedar verifiers held ∧
    answer = agentAnswer cedar wording unanswered held exchange.call
  read : ∀ body, exchange.outcome = some (.ok body) → ∃ held, exchange.evaluated = some (held, .ok body)

/-- What holds of the agent at any time. -/
structure AgentInv (verifiers : ι → Verifier sha256) (s : SharedAgent ι Policy) : Prop where
  whole : Whole cedar verifiers s.held
  exchanges : ∀ exchange ∈ s.exchanges, ExchangeInv cedar wording unanswered verifiers exchange

variable {wording unanswered} {s : SharedAgent ι Policy}

theorem AgentInv.put (inv : AgentInv cedar wording unanswered verifiers s) {texts : List (Str × Str)}
    (hwhole : ∀ held, cedar.compile texts = .ok held → Whole cedar verifiers held) :
    AgentInv cedar wording unanswered verifiers (s.put cedar texts) := by
  unfold SharedAgent.put
  cases hcompile : cedar.compile texts with
  | error errors => exact inv
  | ok held => exact ⟨hwhole held hcompile, inv.exchanges⟩

theorem AgentInv.update (inv : AgentInv cedar wording unanswered verifiers s) (n : Nat)
    {exchange : AgentExchange ι Policy} (h : ExchangeInv cedar wording unanswered verifiers exchange) :
    AgentInv cedar wording unanswered verifiers (s.update n exchange) := by
  refine ⟨inv.whole, fun other hother => ?_⟩
  rcases List.mem_or_eq_of_mem_set hother with hold | rfl
  · exact inv.exchanges other hold
  · exact h

theorem AgentInv.step (hmarks : MarksTell verifiers) (inv : AgentInv cedar wording unanswered verifiers s)
    {event : AgentEvent ι} (hothers : ∀ texts, event = .put texts → Unmarked verifiers texts)
    {s' : SharedAgent ι Policy} (h : s.step cedar wording unanswered verifiers event = some s') :
    AgentInv cedar wording unanswered verifiers s' := by
  unfold SharedAgent.step at h
  split at h
  · split at h
    · rename_i texts htexts
      obtain rfl := Option.some.inj h
      exact inv.put cedar fun held hcompile => whole_pushed cedar hmarks htexts hcompile
    · exact absurd h (by simp)
  · rename_i texts
    obtain rfl := Option.some.inj h
    exact inv.put cedar fun held hcompile => whole_unmarked cedar (hothers texts rfl) hcompile
  · obtain rfl := Option.some.inj h
    exact ⟨whole_empty cedar, inv.exchanges⟩
  · split at h
    · rename_i call hcall
      obtain rfl := Option.some.inj h
      refine ⟨inv.whole, fun exchange hexchange => ?_⟩
      rcases List.mem_append.1 hexchange with hold | hnew
      · exact inv.exchanges exchange hold
      · obtain rfl := List.mem_singleton.1 hnew
        exact ⟨hcall, by simp, by simp⟩
    · exact absurd h (by simp)
  · split at h
    · rename_i exchange hexchange
      have hbefore := inv.exchanges exchange (List.mem_of_getElem? hexchange)
      split at h
      · -- the agent comes to the call: what it holds now is what it evaluates over
        rename_i hfirst
        obtain rfl := Option.some.inj h
        refine inv.update cedar _ ⟨hbefore.sent, fun held answer heq => ?_, fun body hbody => ?_⟩
        · obtain ⟨rfl, rfl⟩ := Prod.mk.inj (Option.some.inj heq)
          exact ⟨inv.whole, rfl⟩
        · obtain ⟨held, hheld⟩ := hbefore.read body hbody
          rw [hheld] at hfirst
          exact absurd hfirst (by simp)
      · exact absurd h (by simp)
    · exact absurd h (by simp)
  · split at h
    · rename_i exchange hexchange
      have hbefore := inv.exchanges exchange (List.mem_of_getElem? hexchange)
      split at h
      · rename_i held answer hevaluated _
        obtain rfl := Option.some.inj h
        refine inv.update cedar _ ⟨hbefore.sent, hbefore.evaluated, fun body hbody => ⟨held, ?_⟩⟩
        rw [Option.some.inj hbody] at hevaluated
        exact hevaluated
      · exact absurd h (by simp)
    · exact absurd h (by simp)
  · split at h
    · rename_i exchange hexchange
      have hbefore := inv.exchanges exchange (List.mem_of_getElem? hexchange)
      split at h
      · obtain rfl := Option.some.inj h
        refine inv.update cedar _ ⟨hbefore.sent, hbefore.evaluated, fun body hbody => ?_⟩
        exact absurd (Option.some.inj hbody) (by simp)
      · exact absurd h (by simp)
    · exact absurd h (by simp)

theorem agentInv_run (hmarks : MarksTell verifiers) {events : List (AgentEvent ι)}
    (hothers : ∀ texts, AgentEvent.put texts ∈ events → Unmarked verifiers texts)
    (h : Machine.run (SharedAgent.step cedar wording unanswered verifiers) {} events = some s) :
    AgentInv cedar wording unanswered verifiers s := by
  refine Machine.run_invariant_of_guard
    (G := fun _ event => ∀ texts, event = .put texts → Unmarked verifiers texts)
    (fun a event b inv hg hstep => inv.step cedar hmarks hg hstep)
    ⟨whole_empty cedar, fun exchange hexchange => absurd hexchange (by simp)⟩ ?_ h
  rintro a event b ⟨pre, post, rfl, -, -⟩ texts rfl
  exact hothers texts (by simp)

end Run

/-! ## The law -/

/-- A collector in process over what a verifier was created from: what was loaded before it and after it, and what
it is bound to. -/
structure Twin (verifier : Verifier sha256) where
  before : List (PolicySource sha256)
  after : List (PolicySource sha256)
  rule : BoundRule
  module : WasmModule Policy
  set : WasmPolicySet
  created : create (cedarWasmEngine cedar (({} : WasmModule Policy).loads cedar before)) verifier.settings
    verifier.source = .ok (rule, (module, set))

/-- The engine of a collector in process. -/
def Twin.isAuthorized {cedar : CedarEvaluator Policy} {verifier : Verifier sha256} (twin : Twin cedar verifier) :
    CedarRequest → Except Thrown Value :=
  (twin.module.loads cedar twin.after).isAuthorized cedar twin.set

/-- Both rules are of one mapping and one revision, and the one in process answers from its own policies. -/
structure Twin.Own {cedar : CedarEvaluator Policy} {verifier : Verifier sha256} (twin : Twin cedar verifier)
    (compiled : Policies Policy) : Prop where
  compiles : Compiled cedar verifier.source compiled
  evaluates : OwnEvaluation cedar twin.rule compiled twin.isAuthorized
  rule : twin.rule = verifier.rule
  denies : verifier.rule.onNoDeterminingPolicy = .deny
  revision : verifier.rule.loadedRevision = verifier.source.revision

variable {cedar}

theorem Twin.own {verifier : Verifier sha256} (twin : Twin cedar verifier) : ∃ compiled, twin.Own compiled := by
  obtain ⟨-, -, hload, -, hrule⟩ := create_ok twin.created
  obtain ⟨hset, hmodule⟩ := load_wasm cedar hload
  obtain ⟨-, hdenies, hrevision⟩ := create_http verifier.created
  obtain ⟨compiled, hcompiled, hanswers⟩ :=
    WasmModule.isAuthorized_loaded cedar (WasmModule.Fresh.loads cedar fresh_start twin.before) hset
  have hsame : twin.rule = verifier.rule := by rw [hrule, (create_ok verifier.created).2.2.2.2]
  refine ⟨compiled, hcompiled, ownEvaluation fun request => ?_, hsame, hdenies, hrevision⟩
  rw [hsame, hrevision, Twin.isAuthorized, hmodule]
  exact hanswers twin.after request

theorem decide_passes {rule : BoundRule} {set : HttpPolicySet} {toStr : Value → Except Thrown Str}
    {numeral : ℚ → List Json.NumeralChar} {atCall atAnswer : AgentReadBack}
    {agent : AgentAuthorizationCall → Except Thrown Value} {aborted : Option Thrown} {attrs : Attributes}
    {reporter : Option Reporter} {evaluation : Option RuleEvaluation} {request : CedarRequest}
    (hbuilt : buildCedarRequest rule.mapping attrs = .ok request)
    (h : rule.decide toStr (answered numeral set atCall atAnswer agent) aborted attrs reporter =
      .ok (true, evaluation)) :
    ∃ d, isAuthorized numeral set atCall atAnswer agent request = .ok d ∧
      deliver toStr (interpret rule d.value).1 reporter = .ok (true, evaluation) := by
  simp only [BoundRule.decide, hbuilt] at h
  cases hd : isAuthorized numeral set atCall atAnswer agent request with
  | error cause =>
    simp only [answered, hd, Except.map] at h
    split at h
    · exact absurd h (by simp)
    · exact absurd (deliver_passed h) (by simp [callFailed, unconfirmedFailed])
  | ok d =>
    simp only [answered, hd, Except.map] at h
    exact ⟨d, rfl, h⟩

/-- A rule in process passes where its own policies allow, raise no error, and it abstains from nothing. -/
theorem Twin.Own.passes_iff {verifier : Verifier sha256} {twin : Twin cedar verifier} {compiled : Policies Policy}
    (own : twin.Own compiled) {toStr : Value → Except Thrown Str} (hstrings : ∀ s, toStr (.str s) = .ok s)
    {attrs : Attributes} {request : CedarRequest}
    (hbuilt : buildCedarRequest verifier.rule.mapping attrs = .ok request) (reporter : Option Reporter) :
    (∃ evaluation, twin.rule.verify toStr twin.isAuthorized attrs reporter = .ok (true, evaluation)) ↔
      ∃ response, cedar.authorize compiled request = .ok response ∧ response.allow = true ∧ response.errors = [] := by
  rw [← own.rule] at hbuilt
  cases hauthorize : cedar.authorize compiled request with
  | error errors =>
    refine iff_of_false ?_ (by simp)
    rintro ⟨evaluation, hpasses⟩
    rw [own.evaluates.notEvaluated toStr attrs reporter request errors hbuilt hauthorize] at hpasses
    exact absurd hpasses (by simp)
  | ok response =>
    by_cases herrors : response.errors = []
    · obtain ⟨passed, hpassed, hverify⟩ :=
        own.evaluates.decided toStr hstrings attrs reporter request response hbuilt hauthorize herrors
      have hallow : passed = true ↔ response.allow = true := by
        rw [hpassed, RulePasses, own.rule, own.denies]
        simp [herrors]
      rw [hverify]
      constructor
      · rintro ⟨evaluation, hpasses⟩
        exact ⟨response, rfl, hallow.1 (Prod.mk.inj (Except.ok.inj hpasses)).1, herrors⟩
      · rintro ⟨_, hsame, hallows, -⟩
        obtain rfl := Except.ok.inj hsame
        rw [hallow.2 hallows]
        exact ⟨_, rfl⟩
    · obtain ⟨evaluation, -, hverify⟩ :=
        own.evaluates.erred toStr attrs reporter request response hbuilt hauthorize herrors
      rw [hverify]
      refine iff_of_false ?_ ?_
      · rintro ⟨_, hpasses⟩
        exact absurd (Prod.mk.inj (Except.ok.inj hpasses)).1 (by simp)
      · rintro ⟨_, hsame, -, hnone⟩
        obtain rfl := Except.ok.inj hsame
        exact herrors hnone

/-- The names an answer over a verifier's own set is read as are those the evaluation in process gives. -/
theorem named_own {source : PolicySource sha256} {set : HttpPolicySet} (own : Own source set)
    {compiled : Policies Policy} {request : CedarRequest} {response inProcess : CedarResponse} {named : List Str}
    (hheld : PushedSet cedar source (compiled.rename fun id => agentPolicyId id source.revision))
    (hauthorize : cedar.authorize (compiled.rename fun id => agentPolicyId id source.revision) request = .ok response)
    (hrenamed : inProcess.Renamed (fun id => agentPolicyId id source.revision) response)
    (hnamed : response.reason.map set.ownIds.get? = named.map some) (id : Str) :
    id ∈ named ↔ id ∈ inProcess.reason := by
  have hkey : ∀ key id, key ∈ response.reason → (set.ownIds.get? key = some id ↔
      key = agentPolicyId id source.revision) := by
    intro key id hmem
    refine ⟨fun hget => ((own.ids key id).1 hget).2, fun heq => ?_⟩
    rw [heq] at hmem ⊢
    exact ownIds_pushed cedar own hheld (cedar.reason_mem _ request response hauthorize _ hmem)
  have hmem : id ∈ named ↔ some id ∈ named.map some := by simp
  rw [hmem, ← hnamed, List.mem_map]
  constructor
  · rintro ⟨key, hin, hget⟩
    rw [hkey key id hin] at hget
    rw [hget, hrenamed.reason.mem_iff, List.mem_map] at hin
    obtain ⟨id', hid', hsame⟩ := hin
    rwa [agentPolicyId_inj hsame] at hid'
  · intro hin
    have hkeyed : agentPolicyId id source.revision ∈ response.reason :=
      hrenamed.reason.mem_iff.2 (List.mem_map_of_mem hin)
    exact ⟨_, hkeyed, (hkey _ id hkeyed).2 rfl⟩

section Exchange

variable {wording : Str × Str → Str} {unanswered : List Str → Thrown} {verifier : Verifier sha256}
  {toStr : Value → Except Thrown Str} {numeral : ℚ → List Json.NumeralChar} {atCall atAnswer : AgentReadBack}
  {aborted : Option Thrown} {attrs : Attributes} {reporter : Option Reporter} {request : CedarRequest}

/-- What the rule reports of an answer of these policies. -/
def reportedOwn (verifier : Verifier sha256) (named : List Str) (reporter : Option Reporter) :
    Option RuleEvaluation :=
  reporter.map fun r => .completed (.unknown (some verifier.source.revision)) (reportedNames named r)

/-- An answer that allows by policies of the verifier's alone, without an error, passes. -/
theorem answer_passes (hstrings : ∀ s, toStr (.str s) = .ok s) {call : AgentAuthorizationCall}
    (hquiet : NotRefused atCall atAnswer) (hbuilt : buildCedarRequest verifier.rule.mapping attrs = .ok request)
    (hcall : authorizationCall request = .ok call) {response : CedarResponse} (hallow : response.allow = true)
    (herrors : response.errors = []) (hreason : response.reason ≠ []) {named : List Str}
    (hnamed : response.reason.map verifier.set.ownIds.get? = named.map some) :
    verifier.rule.decide toStr (answered numeral verifier.set atCall atAnswer fun _ => .ok (agentBody wording response))
      aborted attrs reporter = .ok (true, reportedOwn verifier named.eraseDups reporter) := by
  obtain ⟨-, hdeny, hrevision⟩ := create_http verifier.created
  have hread := readDecision_agentBody wording numeral response verifier.set.endpoint
  rw [hallow, herrors] at hread
  have hauthorized : isAuthorized numeral verifier.set atCall atAnswer (fun _ => .ok (agentBody wording response))
      request = .ok { decision := js "allow", reason := named.eraseDups, errors := [] } := by
    simp only [isAuthorized, hquiet.1, hquiet.2, hcall, hread, bind, Except.bind, pure, Except.pure]
    rcases ownDecision_cases
      { decision := { decision := js "allow", reason := response.reason, errors := [] }, errorItems := [] }
      verifier.set.ownIds verifier.set.ownMark with ⟨hsome, -⟩ | ⟨-, named', hnamed', hown⟩
    · rcases hsome with ⟨item, hitem, hnone⟩ | ⟨item, hitem, -⟩
      · have hin : verifier.set.ownIds.get? item ∈ named.map some := hnamed ▸ List.mem_map_of_mem hitem
        rw [hnone] at hin
        exact absurd hin (by simp)
      · exact absurd hitem (by simp)
    · have hsame : named' = named := by
        have := hnamed'.symm.trans hnamed
        exact List.map_injective_iff.2 (Option.some_injective _) this
      rw [hsame] at hown
      exact congrArg Except.ok hown
  have hne : named.eraseDups ≠ [] := by
    intro hnil
    have hempty : named = [] := by
      refine List.eq_nil_iff_forall_not_mem.2 fun id hid => ?_
      have := List.mem_eraseDups.2 hid
      rw [hnil] at this
      exact absurd this (by simp)
    rw [hempty] at hnamed
    exact hreason (List.map_eq_nil_iff.1 hnamed)
  have hinterpret := interpret_allow (create_http_unconfirmed verifier.created)
    { decision := js "allow", reason := named.eraseDups, errors := [] } rfl rfl hne rfl
  simp only [BoundRule.decide, hbuilt, answered, hauthorized, Except.map, hinterpret]
  rw [deliver_completed hstrings rfl rfl reporter, hrevision]
  rfl

/-- What passes was answered by an agent, without a refusal, as an allow of the verifier's own policies. -/
theorem passes_answer (wording : Str × Str → Str) (hstrings : ∀ s, toStr (.str s) = .ok s)
    (hbuilt : buildCedarRequest verifier.rule.mapping attrs = .ok request) {answer : Except Thrown Value}
    {evaluation : Option RuleEvaluation}
    (h : verifier.rule.decide toStr (answered numeral verifier.set atCall atAnswer fun _ => answer) aborted attrs
      reporter = .ok (true, evaluation)) :
    NotRefused atCall atAnswer ∧ ∃ body, answer = .ok body ∧ ∀ response, body = agentBody wording response →
      response.allow = true ∧ response.errors = [] ∧ response.reason ≠ [] ∧
      ∃ named : List Str, response.reason.map verifier.set.ownIds.get? = named.map some ∧
        evaluation = reportedOwn verifier named.eraseDups reporter := by
  obtain ⟨-, hdeny, hrevision⟩ := create_http verifier.created
  obtain ⟨d, hd, hdeliver⟩ := decide_passes hbuilt h
  obtain ⟨hforeign, hallow, hreason, herrors⟩ := interpret_passes hdeny (deliver_passed hdeliver).symm
  obtain ⟨hquiet, call, body, answer', hcall, hbody, hread, hown⟩ := isAuthorized_unmarked hd hforeign
  refine ⟨hquiet, body, hbody, ?_⟩
  rintro response rfl
  rw [readDecision_agentBody] at hread
  obtain rfl := Except.ok.inj hread
  rcases ownDecision_cases
    { decision :=
        { decision := if response.allow then js "allow" else js "deny", reason := response.reason
          errors := response.errors.map wording }
      errorItems := (response.errors.map wording).map .str } verifier.set.ownIds verifier.set.ownMark with
    ⟨-, foreign, hmarked⟩ | ⟨-, named, hnamed, hunmarked⟩
  · rw [hown, hmarked] at hforeign
    exact absurd hforeign (by simp)
  · have hdecision := hown.trans hunmarked
    have hallows : response.allow = true := by
      rw [hdecision] at hallow
      dsimp only at hallow
      cases hresponse : response.allow with
      | true => rfl
      | false =>
        rw [hresponse] at hallow
        exact absurd hallow (by decide)
    have hnone : response.errors = [] := by
      rw [hdecision] at herrors
      exact List.map_eq_nil_iff.1 herrors
    have hsome : response.reason ≠ [] := by
      intro hnil
      rw [hnil, List.map_nil] at hnamed
      have hnothing : named = [] := List.map_eq_nil_iff.1 hnamed.symm
      rw [hdecision, hnothing] at hreason
      exact hreason rfl
    refine ⟨hallows, hnone, hsome, named, hnamed, ?_⟩
    have hinterpret :=
      interpret_allow (create_http_unconfirmed verifier.created) d hforeign hallow hreason herrors
    rw [hinterpret] at hdeliver
    rw [deliver_completed hstrings rfl rfl reporter, hrevision] at hdeliver
    rw [← (Prod.mk.inj (Except.ok.inj hdeliver)).2, reportedOwn, hdecision]

/-- An agent answers what it can evaluate. -/
theorem agentAnswer_ok {held : Policies Policy} {call : AgentAuthorizationCall} {body : Value}
    (hrequest : call.request = some request) (h : agentAnswer cedar wording unanswered held call = .ok body) :
    ∃ response, cedar.authorize held request = .ok response ∧ body = agentBody wording response := by
  rw [agentAnswer, hrequest] at h
  dsimp only at h
  cases hauthorize : cedar.authorize held request with
  | error errors =>
    rw [hauthorize] at h
    exact absurd h (by simp)
  | ok response =>
    rw [hauthorize] at h
    exact ⟨response, rfl, (Except.ok.inj h).symm⟩

/-- An evaluation of a renamed set is the renamed evaluation of the set. -/
theorem renamed_back {compiled : Policies Policy} {response : CedarResponse} {revision : Str}
    (h : cedar.authorize (compiled.rename fun id => agentPolicyId id revision) request = .ok response) :
    ∃ inProcess, cedar.authorize compiled request = .ok inProcess ∧
      inProcess.Renamed (fun id => agentPolicyId id revision) response := by
  have hinj : Set.InjOn (fun id => agentPolicyId id revision) {id | id ∈ compiled.ids} :=
    fun id _ id' _ hsame => agentPolicyId_inj hsame
  cases hauthorize : cedar.authorize compiled request with
  | error errors =>
    obtain ⟨errors', herrors'⟩ := cedar.fails_renamed _ _ _ _ hinj hauthorize
    exact absurd (h.symm.trans herrors') (by simp)
  | ok inProcess =>
    obtain ⟨response', hresponse', hrenamed⟩ := cedar.renamed _ _ _ _ hinj hauthorize
    obtain rfl := Except.ok.inj (h.symm.trans hresponse')
    exact ⟨inProcess, rfl, hrenamed⟩

theorem renamed_errors {f : Str → Str} {response response' : CedarResponse} (h : response.Renamed f response') :
    response'.errors = [] ↔ response.errors = [] := by
  rw [← List.map_eq_nil_iff (f := Prod.fst), ← List.map_eq_nil_iff (f := Prod.fst) (l := response.errors),
    ← List.map_eq_nil_iff (f := f) (l := response.errors.map Prod.fst)]
  exact ⟨fun hnil => (hnil ▸ h.errors).nil_eq.symm, fun hnil => (hnil ▸ h.errors).eq_nil⟩

end Exchange

/-- What an exchange of a verifier's comes to, beside a collector in process over the same files. -/
structure AsInProcess {ι : Type} (verifier : Verifier sha256) (twin : Twin cedar verifier)
    (exchange : AgentExchange ι Policy) : Prop where
  /-- What passes was evaluated over the verifier's own set, all of it; it passes in process too, and the same
  policies are reported to have determined it. -/
  passes : ∀ toStr, (∀ s, toStr (.str s) = .ok s) → ∀ numeral atCall atAnswer aborted attrs reporter answer evaluation,
    exchange.outcome = some answer → buildCedarRequest verifier.rule.mapping attrs = .ok exchange.request →
    verifier.rule.decide toStr (answered numeral verifier.set atCall atAnswer fun _ => answer) aborted attrs reporter =
      .ok (true, evaluation) →
    (∃ held, exchange.evaluated = some (held, answer) ∧ PushedSet cedar verifier.source held) ∧
    ∃ names,
      evaluation = reporter.map (fun r =>
        .completed (.unknown (some verifier.source.revision)) (reportedNames names r)) ∧
      twin.rule.verify toStr twin.isAuthorized attrs reporter =
        .ok (true, reporter.map fun r => .completed (.revision verifier.source.revision) (reportedNames names r))
  /-- And what was evaluated over the verifier's own set passes wherever it does in process, where no refusal of the
  read-back applies. -/
  agrees : ∀ toStr, (∀ s, toStr (.str s) = .ok s) → ∀ numeral atCall atAnswer aborted attrs reporter held answer,
    NotRefused atCall atAnswer → exchange.evaluated = some (held, answer) → PushedSet cedar verifier.source held →
    buildCedarRequest verifier.rule.mapping attrs = .ok exchange.request →
    ((∃ evaluation, verifier.rule.decide toStr (answered numeral verifier.set atCall atAnswer fun _ => answer) aborted
        attrs reporter = .ok (true, evaluation)) ↔
      ∃ evaluation, twin.rule.verify toStr twin.isAuthorized attrs reporter = .ok (true, evaluation))

theorem reportedNames_congr {names names' : List Str} (h : ∀ name, name ∈ names ↔ name ∈ names') (r : Reporter) :
    reportedNames names r = reportedNames names' r := by
  cases r with
  | plain => rfl
  | bounding bound => rw [reportedNames, reportedNames, sort_eraseDups_eq_iff.2 h]

section Exchange

variable {ι : Type} {wording : Str × Str → Str} {unanswered : List Str → Thrown} {verifiers : ι → Verifier sha256}
  {exchange : AgentExchange ι Policy}

theorem passes_inProcess (inv : ExchangeInv cedar wording unanswered verifiers exchange)
    (twin : Twin cedar (verifiers exchange.verifier)) {toStr : Value → Except Thrown Str}
    (hstrings : ∀ s, toStr (.str s) = .ok s) {numeral : ℚ → List Json.NumeralChar} {atCall atAnswer : AgentReadBack}
    {aborted : Option Thrown} {attrs : Attributes} {reporter : Option Reporter} {answer : Except Thrown Value}
    {evaluation : Option RuleEvaluation} (houtcome : exchange.outcome = some answer)
    (hbuilt : buildCedarRequest (verifiers exchange.verifier).rule.mapping attrs = .ok exchange.request)
    (h : (verifiers exchange.verifier).rule.decide toStr
      (answered numeral (verifiers exchange.verifier).set atCall atAnswer fun _ => answer) aborted attrs reporter =
        .ok (true, evaluation)) :
    (∃ held, exchange.evaluated = some (held, answer) ∧
      PushedSet cedar (verifiers exchange.verifier).source held) ∧
    ∃ names,
      evaluation = reporter.map (fun r =>
        .completed (.unknown (some (verifiers exchange.verifier).source.revision)) (reportedNames names r)) ∧
      twin.rule.verify toStr twin.isAuthorized attrs reporter =
        .ok (true, reporter.map fun r =>
          .completed (.revision (verifiers exchange.verifier).source.revision) (reportedNames names r)) := by
  obtain ⟨compiled, town⟩ := twin.own
  obtain ⟨own, -, -⟩ := create_http (verifiers exchange.verifier).created
  obtain ⟨-, body, rfl, hallows⟩ := passes_answer wording hstrings hbuilt h
  obtain ⟨held, hevaluated⟩ := inv.read body houtcome
  obtain ⟨hwhole, hanswer⟩ := inv.evaluated held _ hevaluated
  obtain ⟨response, hauthorize, rfl⟩ := agentAnswer_ok (request_sent inv.sent) hanswer.symm
  obtain ⟨hallow, herrors, hreason, named, hnamed, hreported⟩ := hallows response rfl
  -- a policy the answer names was held under this verifier's mark, so all of its set was
  have hpushed : PushedSet cedar (verifiers exchange.verifier).source held := by
    obtain ⟨key, hkey⟩ := List.exists_mem_of_ne_nil _ hreason
    have hsome : (verifiers exchange.verifier).set.ownIds.get? key ∈ named.map some :=
      hnamed ▸ List.mem_map_of_mem hkey
    obtain ⟨id, -, hget⟩ := List.mem_map.1 hsome
    obtain ⟨-, rfl⟩ := (own.ids key id).1 hget.symm
    exact hwhole _ id (cedar.reason_mem held exchange.request response hauthorize _ hkey)
  refine ⟨⟨held, hevaluated, hpushed⟩, named.eraseDups, hreported, ?_⟩
  have hheld := pushedSet_renamed cedar town.compiles hpushed
  rw [hheld] at hauthorize hpushed
  obtain ⟨inProcess, hinProcess, hrenamed⟩ := renamed_back hauthorize
  have hnone := (renamed_errors hrenamed).1 herrors
  have hnames : ∀ name, name ∈ named.eraseDups ↔ name ∈ inProcess.reason := fun name =>
    List.mem_eraseDups.trans (named_own own hpushed hauthorize hrenamed hnamed name)
  obtain ⟨passed, hpassed, hverify⟩ := town.evaluates.decided toStr hstrings attrs reporter exchange.request inProcess
    (town.rule ▸ hbuilt) hinProcess hnone
  have htrue : passed = true := hpassed.2 ⟨hnone, Or.inl (hrenamed.allow ▸ hallow)⟩
  rw [hverify, htrue, town.rule, town.revision]
  refine congrArg (fun e => Except.ok (true, e)) (Option.map_congr fun r _ => ?_)
  rw [reportedNames_congr hnames r]

theorem inProcess_passes (inv : ExchangeInv cedar wording unanswered verifiers exchange)
    (twin : Twin cedar (verifiers exchange.verifier)) {toStr : Value → Except Thrown Str}
    (hstrings : ∀ s, toStr (.str s) = .ok s) {numeral : ℚ → List Json.NumeralChar} {atCall atAnswer : AgentReadBack}
    {aborted : Option Thrown} {attrs : Attributes} {reporter : Option Reporter} {held : Policies Policy}
    {answer : Except Thrown Value} (hquiet : NotRefused atCall atAnswer)
    (hevaluated : exchange.evaluated = some (held, answer))
    (hpushed : PushedSet cedar (verifiers exchange.verifier).source held)
    (hbuilt : buildCedarRequest (verifiers exchange.verifier).rule.mapping attrs = .ok exchange.request) :
    (∃ evaluation, (verifiers exchange.verifier).rule.decide toStr
      (answered numeral (verifiers exchange.verifier).set atCall atAnswer fun _ => answer) aborted attrs reporter =
        .ok (true, evaluation)) ↔
    ∃ evaluation, twin.rule.verify toStr twin.isAuthorized attrs reporter = .ok (true, evaluation) := by
  obtain ⟨compiled, town⟩ := twin.own
  obtain ⟨own, -, -⟩ := create_http (verifiers exchange.verifier).created
  obtain ⟨-, hanswer⟩ := inv.evaluated held answer hevaluated
  have hheld := pushedSet_renamed cedar town.compiles hpushed
  rw [town.passes_iff hstrings hbuilt reporter]
  constructor
  · rintro ⟨evaluation, h⟩
    obtain ⟨-, body, rfl, hallows⟩ := passes_answer wording hstrings hbuilt h
    obtain ⟨response, hauthorize, rfl⟩ := agentAnswer_ok (request_sent inv.sent) hanswer.symm
    obtain ⟨hallow, herrors, -⟩ := hallows response rfl
    rw [hheld] at hauthorize
    obtain ⟨inProcess, hinProcess, hrenamed⟩ := renamed_back hauthorize
    exact ⟨inProcess, hinProcess, hrenamed.allow ▸ hallow, (renamed_errors hrenamed).1 herrors⟩
  · rintro ⟨inProcess, hinProcess, hallow, herrors⟩
    have hinj : Set.InjOn (fun id => agentPolicyId id (verifiers exchange.verifier).source.revision)
        {id | id ∈ compiled.ids} := fun id _ id' _ hsame => agentPolicyId_inj hsame
    obtain ⟨response, hresponse, hrenamed⟩ := cedar.renamed _ _ _ _ hinj hinProcess
    rw [← hheld] at hresponse
    have hbody : answer = .ok (agentBody wording response) := by
      rw [hanswer, agentAnswer, request_sent inv.sent]
      dsimp only
      rw [hresponse]
    have hallows : response.allow = true := hrenamed.allow.trans hallow
    have hreason := cedar.allow_named held exchange.request response hresponse hallows
    -- every policy the answer names is of the set that was pushed
    obtain ⟨named, hnamed⟩ : ∃ named : List Str,
        response.reason.map (verifiers exchange.verifier).set.ownIds.get? = named.map some := by
      have hall : ∀ key ∈ response.reason, ∃ id, (verifiers exchange.verifier).set.ownIds.get? key = some id := by
        intro key hkey
        have hin : key ∈ inProcess.reason.map
            fun id => agentPolicyId id (verifiers exchange.verifier).source.revision := hrenamed.reason.mem_iff.1 hkey
        obtain ⟨id, -, rfl⟩ := List.mem_map.1 hin
        exact ⟨id, ownIds_pushed cedar own hpushed (cedar.reason_mem held exchange.request response hresponse _ hkey)⟩
      refine ⟨response.reason.map fun key => ((verifiers exchange.verifier).set.ownIds.get? key).getD [], ?_⟩
      rw [List.map_map]
      refine List.map_congr_left fun key hkey => ?_
      obtain ⟨id, hid⟩ := hall key hkey
      simp [hid]
    rw [hbody]
    exact ⟨_, answer_passes hstrings hquiet hbuilt inv.sent hallows ((renamed_errors hrenamed).2 herrors) hreason
      hnamed⟩

end Exchange

/-- However the pushes, the calls and the answers of any number of verifiers interleave on one agent, with pushes of
others and restarts, where verifiers under one mark push one set and no one else pushes a policy under a verifier's
mark: what passes was evaluated over the verifier's own set and passes in process by the same policies, and what was
evaluated over its own set, with no refusal of the read-back over it, is decided as in process. -/
theorem shared_agent_as_in_process {ι : Type} (cedar : CedarEvaluator Policy) (wording : Str × Str → Str)
    (unanswered : List Str → Thrown) (verifiers : ι → Verifier sha256) (hmarks : MarksTell verifiers)
    (events : List (AgentEvent ι))
    (hothers : ∀ texts, AgentEvent.put texts ∈ events → Unmarked verifiers texts) (s : SharedAgent ι Policy)
    (hrun : Machine.run (SharedAgent.step cedar wording unanswered verifiers) {} events = some s) :
    ∀ exchange ∈ s.exchanges, ∀ twin : Twin cedar (verifiers exchange.verifier),
      AsInProcess (verifiers exchange.verifier) twin exchange := by
  intro exchange hexchange twin
  have inv := (agentInv_run cedar hmarks hothers hrun).exchanges exchange hexchange
  constructor
  · intro toStr hstrings numeral atCall atAnswer aborted attrs reporter answer evaluation houtcome hbuilt hpasses
    exact passes_inProcess inv twin hstrings houtcome hbuilt hpasses
  · intro toStr hstrings numeral atCall atAnswer aborted attrs reporter held answer hquiet hevaluated hpushed hbuilt
    exact inProcess_passes inv twin hstrings hquiet hevaluated hpushed hbuilt

/-- Two verifiers of one agent: the one permits everything, the other forbids it. -/
def sweepingVerifiers : Bool → Verifier sweepingSha256
  | true =>
    { endpoint := js "http://localhost:8180", push := fun _ => .ok (), settings := idsSettings
      source := sweepingSource permitFile, rule := _, set := _, created := rfl }
  | false =>
    { endpoint := js "http://localhost:8180", push := fun _ => .ok (), settings := idsSettings
      source := sweepingSource forbidFile, rule := _, set := _, created := rfl }

theorem sweeping_marksTell : MarksTell sweepingVerifiers := by
  have hpermit : loadMark (sweepingVerifiers true).source.revision = js "@02e91050ebf7521a" := rfl
  have hforbid : loadMark (sweepingVerifiers false).source.revision = js "@2ddd51e958f51d28" := rfl
  intro v w h
  cases v with
  | true =>
    cases w with
    | true => rfl
    | false => exact absurd (hpermit.symm.trans (h.trans hforbid)) (by decide)
  | false =>
    cases w with
    | true => exact absurd (hforbid.symm.trans (h.trans hpermit)) (by decide)
    | false => rfl

/-- A call that is evaluated between the pushes of two verifiers, and read after the second. -/
def betweenPushes (request : CedarRequest) : List (AgentEvent Bool) :=
  [.put [(js "other", js "forbid(principal, action, resource);")], .push true, .call true request, .evaluate 0,
    .restart, .push false, .deliver 0]

set_option maxRecDepth 4000 in
theorem shared_agent_between_pushes : ∃ request s exchange answer,
    Machine.run (SharedAgent.step sweepingCedar Prod.snd (fun _ => .typeError []) sweepingVerifiers) {}
      (betweenPushes request) = some s ∧ exchange ∈ s.exchanges ∧ exchange.outcome = some answer ∧
    Nonempty (Twin sweepingCedar (sweepingVerifiers exchange.verifier)) ∧
    (∀ twin : Twin sweepingCedar (sweepingVerifiers exchange.verifier),
      AsInProcess (sweepingVerifiers exchange.verifier) twin exchange) ∧
    (sweepingVerifiers true).rule.decide stringsOnly
      (answered (fun _ => []) (sweepingVerifiers true).set quietReadBack quietReadBack fun _ => answer) none
      readDocument none = .ok (true, none) := by
  obtain ⟨request, s, exchange, answer, hrun, hexchanges, hverifier, houtcome, hpasses⟩ :
      ∃ request s exchange answer,
        Machine.run (SharedAgent.step sweepingCedar Prod.snd (fun _ => .typeError []) sweepingVerifiers) {}
          (betweenPushes request) = some s ∧ s.exchanges = [exchange] ∧ exchange.verifier = true ∧
        exchange.outcome = some answer ∧
        (sweepingVerifiers true).rule.decide stringsOnly
          (answered (fun _ => []) (sweepingVerifiers true).set quietReadBack quietReadBack fun _ => answer) none
          readDocument none = .ok (true, none) :=
    ⟨(buildCedarRequest idsOnly readDocument).toOption.get rfl, _, _,
      .ok (agentBody Prod.snd { allow := true, reason := [js "10-permit@02e91050ebf7521a"], errors := [] }),
      rfl, rfl, rfl, rfl, by rfl⟩
  have hothers : ∀ texts, AgentEvent.put texts ∈ betweenPushes request → Unmarked sweepingVerifiers texts := by
    intro texts htexts v id hid
    obtain rfl : texts = [(js "other", js "forbid(principal, action, resource);")] := by
      simpa [betweenPushes] using htexts
    have hlength : (agentPolicyId id (sweepingVerifiers v).source.revision).length = 5 :=
      congrArg List.length (List.mem_singleton.1 hid)
    have hmark := loadMark_length (sweepingVerifiers v).source
    rw [agentPolicyId, List.length_append] at hlength
    omega
  have hmem : exchange ∈ s.exchanges := by
    rw [hexchanges]
    exact List.mem_singleton_self exchange
  refine ⟨request, s, exchange, answer, hrun, hmem, houtcome, ?_, ?_, hpasses⟩
  · rw [hverifier]
    exact ⟨⟨[], [], _, _, _, rfl⟩⟩
  · exact shared_agent_as_in_process sweepingCedar Prod.snd (fun _ => .typeError []) sweepingVerifiers
      sweeping_marksTell (betweenPushes request) hothers s hrun exchange hmem

end PolicyVerifier.Cedar
