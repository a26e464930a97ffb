import PolicyVerifier.Server.Proofs.DecideProofs
import PolicyVerifier.Server.Proofs.VerifyBatchProofs
import PolicyVerifier.Server.Routes.Verify

/-!
# The decisions behind an answer

Every `decide` call of either route is a run of one decision's own machine, on an entry that validated, for
the subject the authenticator accepted. What a handler answers with is where those machines are.
-/

namespace PolicyVerifier.Server

open Js PolicyVerifier.Core

/-! ## What a decision settles with -/

/-- Once a decision has settled it stays settled. -/
theorem Deciding.settled_step {cfg : DeciderConfig} {entry : DecisionRequest} {input : DecisionInput}
    {d d' : Deciding} {e : DecideEvent} (h : Deciding.step cfg entry input d e = some d')
    {o : Except DecisionFault DecisionResponse} (ho : d.settled = some o) : d'.settled = some o := by
  cases Deciding.step_cases h with
  | fanOuts _ f g failures hf hg => exact ho
  | attributesCollected o' ho' hn => exact ho
  | rulesCollected o' ho' hn => exact ho
  | seeAttributes a ha =>
    unfold Deciding.joinBoth
    split
    · exact ho
    · exact ho
  | seeRules r hr =>
    unfold Deciding.joinBoth
    split
    · exact ho
    · exact ho
  | attributesFailed e he => exact ho
  | rulesFailed e he => exact ho
  | proceed world o' hj he hs =>
    rw [hs] at ho
    exact absurd ho (by simp)

/-- The call's machine is where a run of its decision leads. -/
def DecisionCall.Runs (cfg : RouterConfig) (call : DecisionCall) : Prop :=
  ∃ aborted, Machine.Reaches (cfg.decideStep call.entry call.input) (cfg.decideStart call.entry call.input aborted)
    call.deciding

theorem DecisionCall.Runs.start (cfg : RouterConfig) (entry : ValidatedDecisionRequest) (input : DecisionInput)
    (aborted : Option Thrown) :
    DecisionCall.Runs cfg { entry, input, deciding := cfg.decideStart entry input aborted } :=
  ⟨aborted, Machine.Reaches.refl _ _⟩

theorem DecisionCall.Runs.step {cfg : RouterConfig} {call : DecisionCall} (h : call.Runs cfg) {e : DecideEvent}
    {d : Deciding} (hd : cfg.decideStep call.entry call.input call.deciding e = some d) :
    DecisionCall.Runs cfg { call with deciding := d } := by
  obtain ⟨aborted, hreach⟩ := h
  exact ⟨aborted, hreach.step hd⟩

/-- The caller's abort is one of the steps a decision can take, or none. -/
theorem decideAbort_cases (cfg : RouterConfig) (entry : ValidatedDecisionRequest) (input : DecisionInput)
    (reason : Thrown) (d : Deciding) :
    cfg.decideAbort entry input reason d = d ∨
      cfg.decideStep entry input d (.callerAbort reason) = some (cfg.decideAbort entry input reason d) := by
  unfold RouterConfig.decideAbort
  cases h : cfg.decideStep entry input d (.callerAbort reason) with
  | none => exact Or.inl rfl
  | some d' => exact Or.inr rfl

theorem DecisionCall.Runs.abort {cfg : RouterConfig} {call : DecisionCall} (h : call.Runs cfg) (reason : Thrown) :
    DecisionCall.Runs cfg
      { call with deciding := cfg.decideAbort call.entry call.input reason call.deciding } := by
  rcases decideAbort_cases cfg call.entry call.input reason call.deciding with hsame | hstep
  · rw [hsame]
    exact h
  · exact h.step hstep

theorem settled_decideAbort {cfg : RouterConfig} {entry : ValidatedDecisionRequest} {input : DecisionInput}
    {reason : Thrown} {d : Deciding} {o : Except DecisionFault DecisionResponse} (ho : d.settled = some o) :
    (cfg.decideAbort entry input reason d).settled = some o := by
  rcases decideAbort_cases cfg entry input reason d with hsame | hstep
  · rw [hsame]
    exact ho
  · exact Deciding.settled_step hstep ho

/-- A call fails closed wherever it is. -/
theorem DecisionCall.Runs.failClosed {cfg : RouterConfig} {call : DecisionCall} (h : call.Runs cfg) :
    Deciding.FailClosed (cfg.decider call.entry call.input) call.deciding := by
  obtain ⟨aborted, es, hrun⟩ := h
  exact (Deciding.run_inv hrun).failClosed

/-! ## `POST /verify` -/

namespace Verify

variable {cfg : RouterConfig} {requestId : Option Str} {body : Value}

/-- Where the handler is, by what it has answered. -/
inductive Place (s : Verify) : Prop where
  | authenticating (hp : s.phase = .authenticating) (hc : s.call = none) (ha : s.answers = [])
  | deciding (call : DecisionCall) (hp : s.phase = .deciding) (hc : s.call = some call) (ha : s.answers = [])
  | refused (answer : Answer) (code message : Str) (hp : s.phase = .returned) (hc : s.call = none)
      (ha : s.answers = [.envelope answer]) (hb : answer.body = .error code message) (hs : 400 ≤ answer.status)
  | decided (call : DecisionCall) (response : DecisionResponse) (hp : s.phase = .returned)
      (hc : s.call = some call) (hd : call.deciding.settled = some (.ok response))
      (ha : s.answers = [.decision response])
  | faulted (call : DecisionCall) (fault : DecisionFault) (hp : s.phase = .returned) (hc : s.call = some call)
      (hd : call.deciding.settled = some (.error fault)) (ha : s.answers = [.envelope .internalError])
  | gone (reason : Thrown) (hp : s.phase = .returned) (hr : s.aborted = some reason) (ha : s.answers = [])

/-- The invariant of a request, after some events. -/
structure Inv (cfg : RouterConfig) (requestId : Option Str) (body : Value) (events : List VerifyEvent)
    (s : Verify) : Prop where
  parsed : ∀ entry, s.entry = some entry →
    parseDecisionRequest cfg.resourceParser cfg.limits body (js "body") = .ok entry
  authentications : s.authentications = if s.entry.isSome then 1 else 0
  call : ∀ call, s.call = some call → s.entry = some call.entry ∧ call.input.requestId = requestId ∧
    VerifyEvent.authenticated (.ok (.accepted call.input.subject)) ∈ events ∧ call.Runs cfg
  aborted : ∀ reason, s.aborted = some reason → VerifyEvent.close reason ∈ events
  place : Place s

/-- The catch block answers a 500, or nobody. -/
theorem caught_cases (cfg : RouterConfig) (s : Verify) (cause : Thrown) (failure : ClassifiedFailure) :
    (s.aborted = some cause ∧
      s.caught cfg cause failure = { s with phase := .returned, lines := s.lines ++ [.callerGone] }) ∨
    ∃ lines observations, s.caught cfg cause failure =
      { s with phase := .returned, lines, observations, answers := s.answers ++ [.envelope .internalError] } := by
  unfold caught
  split
  · rename_i haborted
    exact Or.inl ⟨haborted, rfl⟩
  · exact Or.inr ⟨_, _, rfl⟩

theorem authFailureStatus_ge (code : AuthenticationCode) : 400 ≤ authFailureStatus code := by
  unfold authFailureStatus
  split
  · omega
  · omega

theorem start_inv (cfg : RouterConfig) (requestId : Option Str) (body : Value) :
    Inv cfg requestId body [] (start cfg body) := by
  unfold start
  split
  · rename_i error hparse
    exact ⟨by simp [answer], rfl, by simp [answer], by simp [answer],
      .refused (.invalidRequest error) _ _ rfl rfl rfl rfl (by simp [Answer.invalidRequest])⟩
  · rename_i cause hparse
    exact ⟨by simp [caught, answer], rfl, by simp [caught, answer], by simp [caught, answer],
      .refused .internalError _ _ rfl rfl rfl rfl (by simp [Answer.internalError])⟩
  · rename_i entry hparse
    refine ⟨?_, rfl, by simp, by simp, .authenticating rfl rfl rfl⟩
    intro found hfound
    rw [hparse, Option.some.inj hfound]

/-- The handler goes on, with the request and its decision as they are. -/
theorem Inv.frame {events : List VerifyEvent} {s s' : Verify} (h : Inv cfg requestId body events s)
    (e : VerifyEvent) (hentry : s'.entry = s.entry) (hcount : s'.authentications = s.authentications)
    (hcall : s'.call = s.call) (haborted : s'.aborted = s.aborted) (hplace : Place s') :
    Inv cfg requestId body (events ++ [e]) s' := by
  refine ⟨?_, ?_, ?_, ?_, hplace⟩
  · rw [hentry]
    exact h.parsed
  · rw [hcount, hentry]
    exact h.authentications
  · intro call hc
    rw [hcall] at hc
    obtain ⟨hsame, hid, hmem, hruns⟩ := h.call call hc
    exact ⟨hentry.trans hsame, hid, List.mem_append_left _ hmem, hruns⟩
  · intro reason hr
    rw [haborted] at hr
    exact List.mem_append_left _ (h.aborted reason hr)

/-- What the catch block leaves, where nothing was answered yet. -/
theorem Inv.caught {events : List VerifyEvent} {s : Verify} (h : Inv cfg requestId body events s)
    (e : VerifyEvent) (hopen : s.answers = []) (cause : Thrown) (failure : ClassifiedFailure)
    (hcall : s.call = none ∨ ∃ call fault, s.call = some call ∧ call.deciding.settled = some (.error fault)) :
    Inv cfg requestId body (events ++ [e]) (s.caught cfg cause failure) := by
  rcases caught_cases cfg s cause failure with ⟨hr, hcaught⟩ | ⟨lines, observations, hcaught⟩
  · rw [hcaught]
    exact h.frame e rfl rfl rfl rfl (.gone cause rfl hr hopen)
  · rw [hcaught]
    refine h.frame e rfl rfl rfl rfl ?_
    have hanswers : s.answers ++ [VerifyAnswer.envelope .internalError] = [.envelope .internalError] := by
      rw [hopen, List.nil_append]
    rcases hcall with hnone | ⟨call, fault, hsome, hsettled⟩
    · exact .refused .internalError _ _ rfl hnone hanswers rfl (by simp [Answer.internalError])
    · exact .faulted call fault rfl hsome hsettled hanswers

/-- A phase that is not the last is one where nothing was answered. -/
theorem Place.open_authenticating {s : Verify} (h : Place s) (hp : s.phase = .authenticating) :
    s.call = none ∧ s.answers = [] := by
  cases h with
  | authenticating _ hc ha => exact ⟨hc, ha⟩
  | deciding _ hp' => rw [hp] at hp'; exact absurd hp' (by simp)
  | refused _ _ _ hp' => rw [hp] at hp'; exact absurd hp' (by simp)
  | decided _ _ hp' => rw [hp] at hp'; exact absurd hp' (by simp)
  | faulted _ _ hp' => rw [hp] at hp'; exact absurd hp' (by simp)
  | gone _ hp' => rw [hp] at hp'; exact absurd hp' (by simp)

theorem Place.open_deciding {s : Verify} (h : Place s) (hp : s.phase = .deciding) : s.answers = [] := by
  cases h with
  | authenticating hp' => rw [hp] at hp'; exact absurd hp' (by simp)
  | deciding _ _ _ ha => exact ha
  | refused _ _ _ hp' => rw [hp] at hp'; exact absurd hp' (by simp)
  | decided _ _ hp' => rw [hp] at hp'; exact absurd hp' (by simp)
  | faulted _ _ hp' => rw [hp] at hp'; exact absurd hp' (by simp)
  | gone _ hp' => rw [hp] at hp'; exact absurd hp' (by simp)

/-- The handler goes on from the authenticator's answer, before any decision. -/
theorem authenticated_inv {events : List VerifyEvent} {s : Verify} (h : Inv cfg requestId body events s)
    (hp : s.phase = .authenticating) {entry : ValidatedDecisionRequest} (hentry : s.entry = some entry)
    (o : Except Thrown AuthenticationResult) :
    Inv cfg requestId body (events ++ [.authenticated o]) (s.authenticated cfg requestId entry o) := by
  obtain ⟨hcall, hanswers⟩ := h.place.open_authenticating hp
  cases o with
  | error cause => exact h.caught _ hanswers cause .internal (Or.inl hcall)
  | ok result =>
    cases result with
    | refused code message =>
      refine h.frame _ rfl rfl rfl rfl ?_
      refine .refused (.unauthenticated code message) _ _ rfl hcall ?_ rfl (authFailureStatus_ge code)
      show s.answers ++ _ = _
      rw [hanswers]
      rfl
    | accepted subject =>
      refine ⟨h.parsed, h.authentications, ?_, ?_, .deciding _ rfl rfl hanswers⟩
      · intro call hc
        obtain rfl := Option.some.inj hc
        exact ⟨hentry, rfl, List.mem_append_right _ List.mem_cons_self, .start cfg entry _ s.aborted⟩
      · intro reason hr
        exact List.mem_append_left _ (h.aborted reason hr)

/-- A decision moves on, and stays settled where it has. -/
theorem Place.moved {s : Verify} (h : Place s) {call : DecisionCall} (hc : s.call = some call) {d : Deciding}
    (hd : ∀ o, call.deciding.settled = some o → d.settled = some o) :
    Place { s with call := some { call with deciding := d } } := by
  cases h with
  | authenticating _ hc' => rw [hc] at hc'; exact absurd hc' (by simp)
  | deciding call' hp hc' ha => exact .deciding _ hp rfl ha
  | refused _ _ _ _ hc' => rw [hc] at hc'; exact absurd hc' (by simp)
  | decided call' response hp hc' hs ha =>
    obtain rfl := Option.some.inj (hc.symm.trans hc')
    exact .decided _ response hp rfl (hd _ hs) ha
  | faulted call' fault hp hc' hs ha =>
    obtain rfl := Option.some.inj (hc.symm.trans hc')
    exact .faulted _ fault hp rfl (hd _ hs) ha
  | gone reason hp hr ha => exact .gone reason hp hr ha

/-- What a decision's own step does to the request. -/
theorem decide_inv {events : List VerifyEvent} {s : Verify} (h : Inv cfg requestId body events s)
    (e : VerifyEvent) {call : DecisionCall} (hc : s.call = some call) {d : Deciding}
    (hruns : DecisionCall.Runs cfg { call with deciding := d })
    (hd : ∀ o, call.deciding.settled = some o → d.settled = some o) :
    Inv cfg requestId body (events ++ [e]) { s with call := some { call with deciding := d } } := by
  refine ⟨h.parsed, h.authentications, ?_, ?_, h.place.moved hc hd⟩
  · intro call' hc'
    obtain rfl := Option.some.inj hc'
    obtain ⟨hentry, hid, hmem, -⟩ := h.call call hc
    exact ⟨hentry, hid, List.mem_append_left _ hmem, hruns⟩
  · intro reason hr
    exact List.mem_append_left _ (h.aborted reason hr)

/-- The handler answers what its decision settled with. -/
theorem proceed_inv {events : List VerifyEvent} {s s' : Verify} (h : Inv cfg requestId body events s)
    (hs : s.step cfg requestId .proceed = some s') : Inv cfg requestId body (events ++ [.proceed]) s' := by
  simp only [Verify.step] at hs
  split at hs
  · rename_i response hp hsettled
    obtain rfl := Option.some.inj hs
    obtain ⟨call, hc, hd⟩ := Option.bind_eq_some_iff.1 hsettled
    refine h.frame _ rfl rfl rfl rfl (.decided call response rfl hc hd ?_)
    show s.answers ++ _ = _
    rw [h.place.open_deciding hp]
    rfl
  · rename_i fault hp hsettled
    obtain rfl := Option.some.inj hs
    obtain ⟨call, hc, hd⟩ := Option.bind_eq_some_iff.1 hsettled
    exact h.caught _ (h.place.open_deciding hp) _ _ (Or.inr ⟨call, fault, hc, hd⟩)
  · exact absurd hs (by simp)

/-- The caller leaves. -/
theorem close_inv {events : List VerifyEvent} {s s' : Verify} {reason : Thrown}
    (h : Inv cfg requestId body events s) (hs : s.step cfg requestId (.close reason) = some s') :
    Inv cfg requestId body (events ++ [.close reason]) s' := by
  obtain rfl := Option.some.inj hs
  have haborted : ∀ found, s.aborted.or (some reason) = some found →
      VerifyEvent.close found ∈ events ++ [.close reason] := by
    intro found hfound
    cases ha : s.aborted with
    | none =>
      rw [ha, Option.none_or] at hfound
      obtain rfl := Option.some.inj hfound
      exact List.mem_append_right _ List.mem_cons_self
    | some first =>
      rw [ha, Option.some_or] at hfound
      exact List.mem_append_left _ (h.aborted found (ha.trans hfound))
  cases hc : s.call with
  | none =>
    refine ⟨h.parsed, h.authentications, by simp, haborted, ?_⟩
    cases h.place with
    | authenticating hp _ ha => exact .authenticating hp rfl ha
    | deciding _ _ hc' => rw [hc] at hc'; exact absurd hc' (by simp)
    | refused answer code message hp _ ha hb hst => exact .refused answer code message hp rfl ha hb hst
    | decided _ _ _ hc' => rw [hc] at hc'; exact absurd hc' (by simp)
    | faulted _ _ _ hc' => rw [hc] at hc'; exact absurd hc' (by simp)
    | gone cause hp hr ha => exact .gone cause hp (by rw [hr, Option.some_or]) ha
  | some call =>
    have hmoved := decide_inv h (.close reason) hc ((h.call call hc).2.2.2.abort reason)
      fun o ho => settled_decideAbort ho
    refine ⟨hmoved.parsed, hmoved.authentications, hmoved.call, haborted, ?_⟩
    cases hmoved.place with
    | authenticating _ hc' => exact absurd hc' (by simp)
    | deciding call' hp hc' ha => exact .deciding call' hp hc' ha
    | refused _ _ _ _ hc' => exact absurd hc' (by simp)
    | decided call' response hp hc' hd ha => exact .decided call' response hp hc' hd ha
    | faulted call' fault hp hc' hd ha => exact .faulted call' fault hp hc' hd ha
    | gone cause hp hr ha =>
      refine .gone cause hp ?_ ha
      show s.aborted.or _ = _
      rw [show s.aborted = some cause from hr, Option.some_or]

theorem step_inv {events : List VerifyEvent} {s s' : Verify} {e : VerifyEvent}
    (h : Inv cfg requestId body events s) (hs : s.step cfg requestId e = some s') :
    Inv cfg requestId body (events ++ [e]) s' := by
  cases e with
  | authenticated o =>
    simp only [Verify.step] at hs
    split at hs
    · rename_i entry hp hentry
      obtain rfl := Option.some.inj hs
      exact authenticated_inv h hp hentry o
    · exact absurd hs (by simp)
  | decide e =>
    have hstep : s.call.bind (fun call =>
        (cfg.decideStep call.entry call.input call.deciding e).map fun deciding =>
          { s with call := some { call with deciding } }) = some s' := by
      cases e <;> first | exact hs | exact absurd hs (by simp [Verify.step])
    obtain ⟨call, hc, hstep⟩ := Option.bind_eq_some_iff.1 hstep
    obtain ⟨d, hd, rfl⟩ := Option.map_eq_some_iff.1 hstep
    exact decide_inv h _ hc ((h.call call hc).2.2.2.step hd) fun o ho => Deciding.settled_step hd ho
  | proceed => exact proceed_inv h hs
  | close reason => exact close_inv h hs

theorem run_inv {events : List VerifyEvent} {s : Verify}
    (h : Machine.run (Verify.step cfg requestId) (Verify.start cfg body) events = some s) :
    Inv cfg requestId body events s :=
  Machine.run_history (start_inv cfg requestId body) (fun _ _ _ _ ha hs => step_inv ha hs) h

end Verify

end PolicyVerifier.Server
