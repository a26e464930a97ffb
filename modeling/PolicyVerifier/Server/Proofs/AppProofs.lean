import PolicyVerifier.Server.App
import PolicyVerifier.Server.Proofs.BatchDecisionsProofs

/-!
# Every request is answered once, and closed unless the evaluator opened it

Wherever a request is, its handler runs as the route's own machine does on the body that was read. What is
sent back follows from where that machine is.
-/

namespace PolicyVerifier.Server

open Js PolicyVerifier.Core

namespace Exchange

section

variable {Digest : Type} [DecidableEq Digest] (sha256 : List UInt8 → Digest) (app : AppConfig) (request : IncomingRequest)

/-! ## Where a request can be -/

/-- Where a request is after some events: its handler has run on its share of them. -/
inductive Reached (events : List ExchangeEvent) : Exchange → Prop where
  | turnedAway (header : Str) (hgate : admitted sha256 app request = false) : Reached events (.turnedAway header)
  | receiving (hgate : admitted sha256 app request = true) : Reached events .receiving
  | bodyRefused (err : Thrown) (hgate : admitted sha256 app request = true) :
      Reached events (denyOnBodyFailure app err)
  | verifying (body : Value) (s : Verify) (own : List VerifyEvent) (hgate : admitted sha256 app request = true)
      (he : request.endpoint = .verify) (hbody : ExchangeEvent.received (.ok body) ∈ events)
      (hrun : Machine.run (Verify.step app.router request.requestId) (Verify.start app.router body) own = some s)
      (hown : ∀ e ∈ own, ExchangeEvent.verify e ∈ events) : Reached events (.verifying body s)
  | batching (body : Value) (s : BatchDecisions) (own : List BatchDecisionsEvent)
      (hgate : admitted sha256 app request = true) (he : request.endpoint = .verifyBatch)
      (hbody : ExchangeEvent.received (.ok body) ∈ events)
      (hrun : Machine.run (BatchDecisions.step app.router request.requestId)
        (BatchDecisions.start app.router request.requestId body) own = some s)
      (hown : ∀ e ∈ own, ExchangeEvent.batch e ∈ events) : Reached events (.batching body s)

theorem start_reached : Reached sha256 app request [] (start sha256 app request) := by
  unfold start
  split
  · rename_i gate hgate
    split
    · rename_i hadmits
      exact .receiving (by rw [admitted, hgate]; exact hadmits)
    · rename_i hrefused
      refine .turnedAway gate.header ?_
      rw [admitted, hgate]
      simpa using hrefused
  · rename_i hgate
    exact .receiving (by rw [admitted, hgate]; rfl)

variable {sha256 app request}

theorem step_reached {events : List ExchangeEvent} {x x' : Exchange} {e : ExchangeEvent}
    (h : Reached sha256 app request events x) (hs : step app request x e = some x') :
    Reached sha256 app request (events ++ [e]) x' := by
  cases h with
  | turnedAway header hgate => cases e <;> exact absurd hs (by simp [step])
  | receiving hgate =>
    cases e with
    | verify e => exact absurd hs (by simp [step])
    | batch e => exact absurd hs (by simp [step])
    | received o =>
      cases o with
      | error err =>
        obtain rfl := Option.some.inj hs
        exact .bodyRefused err hgate
      | ok body =>
        have hread : ExchangeEvent.received (.ok body) ∈ events ++ [.received (.ok body)] :=
          List.mem_append_right _ List.mem_cons_self
        simp only [step] at hs
        cases he : request.endpoint with
        | verify =>
          rw [he] at hs
          obtain rfl := Option.some.inj hs
          exact .verifying body _ [] hgate he hread rfl (by simp)
        | verifyBatch =>
          rw [he] at hs
          obtain rfl := Option.some.inj hs
          exact .batching body _ [] hgate he hread rfl (by simp)
  | bodyRefused err hgate =>
    have hstuck : step app request (denyOnBodyFailure app err) e = none := by
      unfold denyOnBodyFailure
      cases bodyParserFailure err <;> cases e <;> rfl
    rw [hstuck] at hs
    exact absurd hs (by simp)
  | verifying body s own hgate he hbody hrun hown =>
    cases e with
    | received o => exact absurd hs (by simp [step])
    | batch e => exact absurd hs (by simp [step])
    | verify e =>
      obtain ⟨s', hs', rfl⟩ := Option.map_eq_some_iff.1 hs
      refine .verifying body s' (own ++ [e]) hgate he (List.mem_append_left _ hbody) (Machine.run_concat hrun hs') ?_
      intro f hf
      rcases List.mem_append.1 hf with hf | hf
      · exact List.mem_append_left _ (hown f hf)
      · rw [List.mem_singleton.1 hf]
        exact List.mem_append_right _ List.mem_cons_self
  | batching body s own hgate he hbody hrun hown =>
    cases e with
    | received o => exact absurd hs (by simp [step])
    | verify e => exact absurd hs (by simp [step])
    | batch e =>
      obtain ⟨s', hs', rfl⟩ := Option.map_eq_some_iff.1 hs
      refine .batching body s' (own ++ [e]) hgate he (List.mem_append_left _ hbody) (Machine.run_concat hrun hs') ?_
      intro f hf
      rcases List.mem_append.1 hf with hf | hf
      · exact List.mem_append_left _ (hown f hf)
      · rw [List.mem_singleton.1 hf]
        exact List.mem_append_right _ List.mem_cons_self

theorem run_reached {events : List ExchangeEvent} {x : Exchange}
    (h : Machine.run (step app request) (start sha256 app request) events = some x) :
    Reached sha256 app request events x :=
  Machine.run_history (start_reached sha256 app request) (fun _ _ _ _ ha hs => step_reached ha hs) h

/-! ## What is sent back -/

variable (sha256 app request)

/-- The entries of a body that is valid for its endpoint. -/
def ValidBody (body : Value) (entries : List ValidatedDecisionRequest) : Prop :=
  match request.endpoint with
  | .verify => ∃ entry, entries = [entry] ∧
      parseDecisionRequest app.router.resourceParser app.router.limits body (js "body") = .ok entry
  | .verifyBatch => ValidBatch (app.router.batch request.requestId) body entries

/-- The authenticator accepted a subject. -/
def AcceptedIn (events : List ExchangeEvent) (subject : SubjectAttributes) : Prop :=
  ExchangeEvent.verify (.authenticated (.ok (.accepted subject))) ∈ events ∨
    ExchangeEvent.batch (.handler (.authenticated (.ok (.accepted subject)))) ∈ events

/-- The caller left. -/
def CallerLeft (events : List ExchangeEvent) : Prop :=
  ∃ reason, ExchangeEvent.verify (.close reason) ∈ events ∨ ExchangeEvent.batch (.handler (.close reason)) ∈ events

/-- The handler has returned. -/
def Returned : Exchange → Prop
  | .turnedAway _ => True
  | .receiving => False
  | .bodyRefused _ _ _ => True
  | .verifying _ s => s.phase = .returned
  | .batching _ s => s.batch.phase = .returned

/-- What holds of a request, after any events. -/
structure Law (events : List ExchangeEvent) (x : Exchange) : Prop where
  /-- There is at most one reply. -/
  once : (x.replies request).length ≤ 1
  /-- A caller the gate does not know is answered before anything of the request is read. -/
  gated : admitted sha256 app request = false →
    x.replies request = [Answer.callerUnauthenticated.reply none] ∧ x.authentications = 0 ∧ x.calls = []
  /-- Behind the gate every reply carries the caller's request id, where it is one. -/
  echoed : admitted sha256 app request = true → ∀ reply ∈ x.replies request, reply.requestId = request.requestId
  /-- Nobody is authenticated before the body has validated. -/
  body_first : 0 < x.authentications → ∃ body entries, ExchangeEvent.received (.ok body) ∈ events ∧
    ValidBody app request body entries
  /-- What is decided is an entry of the body, for the subject that was accepted, and fails closed. -/
  called : ∀ call ∈ x.calls, (∃ body entries, ExchangeEvent.received (.ok body) ∈ events ∧
      ValidBody app request body entries ∧ call.entry ∈ entries) ∧
    call.input.requestId = request.requestId ∧ AcceptedIn events call.input.subject ∧
    Deciding.FailClosed (app.router.decider call.entry call.input) call.deciding
  /-- A reply is the deny envelope, or the decision of every entry in the entries' order. -/
  answered : ∀ reply ∈ x.replies request,
    (reply.decisions = [] ∧ 400 ≤ reply.status ∧ ∃ code message, reply.body = .error code message) ∨
    ∃ body, ExchangeEvent.received (.ok body) ∈ events ∧
      ValidBody app request body (x.calls.map DecisionCall.entry) ∧
      List.Forall₂ (fun call response => call.deciding.settled = some (.ok response)) x.calls reply.decisions
  /-- A single decision is a 200 exactly when it is an allow. -/
  granted : request.endpoint = .verify → ∀ reply ∈ x.replies request,
    (reply.status = 200 ↔ ∃ response, reply.decisions = [response] ∧ response.decision.isAllow = true)
  /-- As many decisions are reported as a reply gives. -/
  reported : ∀ reply ∈ x.replies request, reply.decisions ≠ [] →
    (x.logs.filter LogLine.isDecision).length = reply.decisions.length
  /-- A handler that returns without a reply has nobody to reply to. -/
  silent : x.Returned → x.replies request = [] → CallerLeft events

variable {sha256 app request}

/-- Each decision that settled with an answer is one line. -/
theorem reported_of_settled {cfg : RouterConfig} {calls : List DecisionCall} {responses : List DecisionResponse}
    (h : List.Forall₂ (fun call response => call.deciding.settled = some (.ok response)) calls responses)
    (hclosed : ∀ call ∈ calls, Deciding.FailClosed (cfg.decider call.entry call.input) call.deciding) :
    ((calls.flatMap fun call => call.deciding.logs).filter LogLine.isDecision).length = responses.length := by
  induction h with
  | nil => rfl
  | cons hsettled _ ih =>
    have hone := (hclosed _ List.mem_cons_self).reported
    have hrest := ih fun call hcall => hclosed call (List.mem_cons_of_mem _ hcall)
    rw [hsettled] at hone
    rw [List.flatMap_cons, List.filter_append, List.length_append, hone, hrest, List.length_cons, Nat.add_comm]
    rfl

/-- The reply of an envelope gives no decision. -/
theorem envelope_reply {answer : Answer} {code message : Str} (h : answer.body = .error code message)
    (requestId : Option Str) : (answer.reply requestId).decisions = [] ∧
      (answer.reply requestId).body = .error code message := by
  unfold Answer.reply Reply.decisions
  rw [h]
  exact ⟨rfl, rfl⟩

/-! ## `POST /verify` -/

/-- What `/verify` has answered so far: nothing, one envelope, or the one decision. -/
theorem verify_answers {s : Verify} (h : s.Place) : s.answers = [] ∨
    (∃ answer code message, s.answers = [.envelope answer] ∧ answer.body = .error code message ∧
      400 ≤ answer.status) ∨
    ∃ call response, s.answers = [.decision response] ∧ s.call = some call ∧
      call.deciding.settled = some (.ok response) := by
  cases h with
  | authenticating _ _ ha => exact Or.inl ha
  | deciding _ _ _ ha => exact Or.inl ha
  | refused answer code message _ _ ha hb hs => exact Or.inr (Or.inl ⟨answer, code, message, ha, hb, hs⟩)
  | decided call response _ hc hd ha => exact Or.inr (Or.inr ⟨call, response, ha, hc, hd⟩)
  | faulted _ _ _ _ _ ha =>
    exact Or.inr (Or.inl ⟨.internalError, _, _, ha, rfl, by simp [Answer.internalError]⟩)
  | gone _ _ _ ha => exact Or.inl ha

/-- Its reply is the envelope, or the decision of the call it made. -/
theorem verify_replies {body : Value} {s : Verify} (h : s.Place) {reply : Reply}
    (hreply : reply ∈ (Exchange.verifying body s).replies request) : reply.requestId = request.requestId ∧
      ((reply.decisions = [] ∧ 400 ≤ reply.status ∧ ∃ code message, reply.body = .error code message) ∨
        ∃ call response, reply.decisions = [response] ∧ s.call = some call ∧
          call.deciding.settled = some (.ok response) ∧
          reply.status = if response.decision.isAllow then 200 else 403) := by
  obtain ⟨answer, hanswer, rfl⟩ := List.mem_map.1 hreply
  rcases verify_answers h with hnil | ⟨envelope, code, message, hsingle, hb, hs⟩ | ⟨call, response, hsingle, hc, hd⟩
  · rw [hnil] at hanswer
    exact absurd hanswer (by simp)
  · rw [hsingle] at hanswer
    obtain rfl := List.mem_singleton.1 hanswer
    obtain ⟨hnone, hbody'⟩ := envelope_reply hb request.requestId
    exact ⟨rfl, Or.inl ⟨hnone, hs, code, message, hbody'⟩⟩
  · rw [hsingle] at hanswer
    obtain rfl := List.mem_singleton.1 hanswer
    exact ⟨rfl, Or.inr ⟨call, response, rfl, hc, hd, rfl⟩⟩

theorem verifying_law {events : List ExchangeEvent} {body : Value} {s : Verify} {own : List VerifyEvent}
    (hgate : admitted sha256 app request = true) (he : request.endpoint = .verify)
    (hbody : ExchangeEvent.received (.ok body) ∈ events)
    (hrun : Machine.run (Verify.step app.router request.requestId) (Verify.start app.router body) own = some s)
    (hown : ∀ e ∈ own, ExchangeEvent.verify e ∈ events) : Law sha256 app request events (.verifying body s) := by
  have hinv := Verify.run_inv hrun
  have hvalid : ∀ entry, s.entry = some entry → ValidBody app request body [entry] := by
    intro entry hentry
    show (match request.endpoint with | .verify => _ | .verifyBatch => _)
    rw [he]
    exact ⟨entry, rfl, hinv.parsed entry hentry⟩
  have hcalled : ∀ call ∈ s.call.toList, s.entry = some call.entry ∧
      call.input.requestId = request.requestId ∧ AcceptedIn events call.input.subject ∧
      Deciding.FailClosed (app.router.decider call.entry call.input) call.deciding := by
    intro call hcall
    obtain ⟨hentry, hid, hmem, hruns⟩ := hinv.call call (Option.mem_toList.1 hcall)
    exact ⟨hentry, hid, Or.inl (hown _ hmem), hruns.failClosed⟩
  have hone : ∀ {call response}, s.call = some call → call.deciding.settled = some (.ok response) →
      List.Forall₂ (fun (call : DecisionCall) response => call.deciding.settled = some (.ok response))
        s.call.toList [response] := by
    intro call response hc hd
    rw [hc]
    exact .cons hd .nil
  have hplaces := verify_answers hinv.place
  have hreplies : ∀ reply ∈ (Exchange.verifying body s).replies request, _ := fun _ => verify_replies hinv.place
  refine ⟨?_, ?_, ?_, ?_, ?_, ?_, ?_, ?_, ?_⟩
  · rw [replies, List.length_map]
    rcases hplaces with hnil | ⟨envelope, code, message, hsingle, -⟩ | ⟨call, response, hsingle, -⟩
    · rw [hnil]
      exact Nat.zero_le _
    · rw [hsingle]
      exact le_rfl
    · rw [hsingle]
      exact le_rfl
  · intro hrefused
    rw [hgate] at hrefused
    exact absurd hrefused (by simp)
  · intro _ reply hreply
    exact (hreplies reply hreply).1
  · intro hcount
    have hsome : s.entry.isSome = true := by
      by_contra hnone
      have hzero := hinv.authentications
      rw [if_neg hnone] at hzero
      exact absurd hcount (by rw [show (Exchange.verifying body s).authentications = 0 from hzero]; simp)
    obtain ⟨entry, hentry⟩ := Option.isSome_iff_exists.1 hsome
    exact ⟨body, [entry], hbody, hvalid entry hentry⟩
  · intro call hcall
    obtain ⟨hentry, hid, haccepted, hclosed⟩ := hcalled call hcall
    exact ⟨⟨body, [call.entry], hbody, hvalid _ hentry, List.mem_singleton_self _⟩, hid, haccepted, hclosed⟩
  · intro reply hreply
    rcases (hreplies reply hreply).2 with hdeny | ⟨call, response, hdecisions, hc, hd, -⟩
    · exact Or.inl hdeny
    · refine Or.inr ⟨body, hbody, ?_, ?_⟩
      · show ValidBody app request body (s.call.toList.map _)
        rw [hc]
        exact hvalid call.entry (hinv.call call hc).1
      · rw [hdecisions]
        exact hone hc hd
  · intro _ reply hreply
    rcases (hreplies reply hreply).2 with ⟨hnone, hstatus, -⟩ | ⟨call, response, hdecisions, -, -, hstatus⟩
    · refine iff_of_false (by omega) ?_
      rintro ⟨response, hdecisions, -⟩
      rw [hnone] at hdecisions
      exact absurd hdecisions (by simp)
    · rw [hstatus, hdecisions]
      cases hallow : response.decision.isAllow with
      | true => exact iff_of_true rfl ⟨response, rfl, hallow⟩
      | false =>
        refine iff_of_false (by simp) ?_
        rintro ⟨found, hfound, htrue⟩
        obtain rfl := (List.cons.inj hfound).1
        rw [hallow] at htrue
        exact absurd htrue (by simp)
  · intro reply hreply hsome
    rcases (hreplies reply hreply).2 with ⟨hnone, -⟩ | ⟨call, response, hdecisions, hc, hd, -⟩
    · exact absurd hnone hsome
    · rw [hdecisions]
      exact reported_of_settled (hone hc hd) fun call hcall => (hcalled call hcall).2.2.2
  · intro hreturned hnil
    have hanswers : s.answers = [] := List.map_eq_nil_iff.1 hnil
    cases hinv.place with
    | authenticating hp _ _ => exact absurd (hp.symm.trans hreturned) (by simp)
    | deciding _ hp _ _ => exact absurd (hp.symm.trans hreturned) (by simp)
    | refused _ _ _ _ _ ha => exact absurd (ha.symm.trans hanswers) (by simp)
    | decided _ _ _ _ _ ha => exact absurd (ha.symm.trans hanswers) (by simp)
    | faulted _ _ _ _ _ ha => exact absurd (ha.symm.trans hanswers) (by simp)
    | gone reason _ hr _ => exact ⟨reason, Or.inl (hown _ (hinv.aborted reason hr))⟩

/-! ## `POST /verify/batch` -/

variable {cfg : RouterConfig} {requestId : Option Str} {body : Value}

/-- The calls of a batch, each with its machine. -/
def batchCalls (s : BatchDecisions) : List DecisionCall :=
  List.zipWith (fun call deciding => { entry := call.entry, input := call.input, deciding }) s.batch.calls s.deciding

theorem mem_batchCalls {events : List BatchDecisionsEvent} {s : BatchDecisions}
    (h : BatchDecisions.Inv cfg requestId body events s) {call : DecisionCall} (hcall : call ∈ batchCalls s) :
    call.Runs cfg ∧ ∃ own ∈ s.batch.calls, own.entry = call.entry ∧ own.input = call.input := by
  obtain ⟨i, hi⟩ := List.mem_iff_getElem?.1 hcall
  obtain ⟨own, d, hown, hd, rfl⟩ := List.getElem?_zipWith_eq_some.1 hi
  exact ⟨(forall₂_getElem? h.deciding hown hd).1, own, List.mem_of_getElem? hown, rfl, rfl⟩

/-- The responses of the calls are what their machines settled with. -/
theorem batchCalls_settled {calls : List DecideCall} {deciding : List Deciding} {responses : List DecisionResponse}
    (h : List.Forall₂ (BatchDecisions.Answers cfg) calls deciding) (hlength : responses.length = calls.length)
    (hresponses : ∀ (i : Nat) call, calls[i]? = some call → ∃ response, responses[i]? = some response ∧
      call.outcome = some (.ok response)) :
    List.Forall₂ (fun (call : DecisionCall) response => call.deciding.settled = some (.ok response))
      (List.zipWith (fun call deciding => { entry := call.entry, input := call.input, deciding }) calls deciding)
      responses := by
  induction h generalizing responses with
  | nil => rw [List.length_eq_zero_iff.1 hlength]; exact .nil
  | cons hcall _ ih =>
    obtain ⟨first, rest, rfl⟩ := List.exists_cons_of_length_eq_add_one hlength
    obtain ⟨response, hread, houtcome⟩ := hresponses 0 _ rfl
    obtain rfl := Option.some.inj hread
    refine .cons (hcall.2 _ houtcome) (ih (by simpa using hlength) ?_)
    intro i call hi
    exact hresponses (i + 1) call hi

theorem batchCalls_entries {calls : List DecideCall} {deciding : List Deciding}
    (h : List.Forall₂ (BatchDecisions.Answers cfg) calls deciding) :
    (List.zipWith (fun (call : DecideCall) deciding => ({ entry := call.entry, input := call.input, deciding } : DecisionCall))
      calls deciding).map DecisionCall.entry = calls.map DecideCall.entry := by
  induction h with
  | nil => rfl
  | cons _ _ ih =>
    rw [List.zipWith_cons_cons, List.map_cons, List.map_cons, ih]

/-- What a batch has come to, by what it has answered. -/
inductive BatchPlace (cfg : RouterConfig) (requestId : Option Str) (body : Value) (s : BatchDecisions) : Prop where
  | undecided (hc : s.batch.calls = []) (hn : s.batch.authentications = 0 ∨
      ∃ entries, ValidBatch (cfg.batch requestId) body entries)
      (ha : ∀ a ∈ s.batch.answers, a.status ≠ 200)
  | running (entries : List ValidatedDecisionRequest) (hv : ValidBatch (cfg.batch requestId) body entries)
      (hc : ∀ call ∈ s.batch.calls, call.entry ∈ entries)
      (ha : ∀ a ∈ s.batch.answers, a.status = 200 → ∃ responses, a = .decided (responses.map some) ∧
        s.batch.calls.map DecideCall.entry = entries ∧
        List.Forall₂ (fun (call : DecisionCall) response => call.deciding.settled = some (.ok response))
          (batchCalls s) responses)

theorem batch_place {events : List BatchDecisionsEvent} {s : BatchDecisions}
    (h : BatchDecisions.Inv cfg requestId body events s) :
    s.batch.answers.length ≤ 1 ∧ BatchPlace cfg requestId body s := by
  obtain ⟨own, hrun⟩ := h.handler
  by_cases hvalid : ∃ entries, ValidBatch (cfg.batch requestId) body entries
  · obtain ⟨entries, hentries⟩ := hvalid
    obtain ⟨⟨rfl, -, hstate⟩, hwidth⟩ := Batch.valid_run cfg.concurrent hentries hrun
    rcases hstate with hundecided | hinv
    · obtain ⟨hstatus, hanswers⟩ := hundecided.answers_ne_ok
      exact ⟨hanswers, .undecided hundecided.calls (Or.inr ⟨_, hentries⟩) hstatus⟩
    · refine ⟨hinv.answers_le, .running s.batch.entries hentries ?_ ?_⟩
      · intro call hcall
        obtain ⟨i, hi⟩ := List.mem_iff_getElem?.1 hcall
        exact List.mem_of_getElem? (hinv.wired.call_at i call hi).2
      · intro a ha hok
        obtain ⟨-, responses, rfl, hlength, hindices, hcalls⟩ := hinv.ok_answer hwidth ha hok
        have hcount : s.batch.calls.length = s.batch.entries.length := by
          rw [← List.length_map (f := DecideCall.index), hindices, List.length_range]
        refine ⟨responses, rfl, ?_, ?_⟩
        · refine List.ext_getElem? fun i => ?_
          rw [List.getElem?_map]
          cases hi : s.batch.calls[i]? with
          | none =>
            have hout : s.batch.entries.length ≤ i := hcount ▸ List.getElem?_eq_none_iff.1 hi
            rw [List.getElem?_eq_none_iff.2 hout]
            rfl
          | some call => exact (hcalls i call hi).1.symm
        · refine batchCalls_settled h.deciding (hlength.trans hcount.symm) fun i call hi => ?_
          exact (hcalls i call hi).2
  · obtain ⟨hundecided, hcount, -⟩ := Batch.invalid_run hvalid hrun
    obtain ⟨hstatus, hanswers⟩ := hundecided.answers_ne_ok
    exact ⟨hanswers, .undecided hundecided.calls (Or.inl hcount) hstatus⟩

/-- A batch's reply is an envelope, or what every call of it settled with, in order. -/
theorem batch_replies {events : List BatchDecisionsEvent} {s : BatchDecisions}
    (hinv : BatchDecisions.Inv cfg request.requestId body events s)
    (hplace : BatchPlace cfg request.requestId body s) (hheard : Batch.Heard s.batch) {reply : Reply}
    (hreply : reply ∈ (Exchange.batching body s).replies request) : reply.requestId = request.requestId ∧
      ((reply.decisions = [] ∧ 400 ≤ reply.status ∧ ∃ code message, reply.body = .error code message) ∨
        ValidBatch (cfg.batch request.requestId) body ((batchCalls s).map DecisionCall.entry) ∧
        List.Forall₂ (fun (call : DecisionCall) response => call.deciding.settled = some (.ok response))
          (batchCalls s) reply.decisions) := by
  obtain ⟨answer, hanswer, rfl⟩ := List.mem_map.1 hreply
  rcases hheard.spoken answer hanswer with ⟨slots, rfl⟩ | ⟨code, message, hb, hs⟩
  · cases hplace with
    | undecided _ _ ha => exact absurd rfl (ha _ hanswer)
    | running entries hv _ ha =>
      obtain ⟨responses, hslots, hentries, hsettled⟩ := ha _ hanswer rfl
      have hdecisions : ((Answer.decided slots).reply request.requestId).decisions = responses := by
        have hslots' : slots = responses.map some := ResponseBody.decisions.inj (congrArg Answer.body hslots)
        show slots.filterMap id = responses
        rw [hslots', List.filterMap_map]
        exact List.filterMap_some
      refine ⟨rfl, Or.inr ⟨?_, ?_⟩⟩
      · rw [batchCalls, batchCalls_entries hinv.deciding, hentries]
        exact hv
      · rw [hdecisions]
        exact hsettled
  · obtain ⟨hnone, hbody'⟩ := envelope_reply hb request.requestId
    exact ⟨rfl, Or.inl ⟨hnone, hs, code, message, hbody'⟩⟩

theorem batching_law {events : List ExchangeEvent} {s : BatchDecisions} {own : List BatchDecisionsEvent}
    (hgate : admitted sha256 app request = true) (he : request.endpoint = .verifyBatch)
    (hbody : ExchangeEvent.received (.ok body) ∈ events)
    (hrun : Machine.run (BatchDecisions.step app.router request.requestId)
      (BatchDecisions.start app.router request.requestId body) own = some s)
    (hown : ∀ e ∈ own, ExchangeEvent.batch e ∈ events) : Law sha256 app request events (.batching body s) := by
  have hinv := BatchDecisions.run_inv hrun
  obtain ⟨honce, hplace⟩ := batch_place hinv
  have hheard : Batch.Heard s.batch := by
    obtain ⟨events', hrun'⟩ := hinv.handler
    exact Machine.run_invariant (fun _ _ _ ha hs => ha.step hs) (Batch.start_heard _ body) hrun'
  have hvalid : ∀ entries, ValidBatch (app.router.batch request.requestId) body entries →
      ValidBody app request body entries := by
    intro entries hentries
    show (match request.endpoint with | .verify => _ | .verifyBatch => _)
    rw [he]
    exact hentries
  have hclosed : ∀ call ∈ batchCalls s, Deciding.FailClosed (app.router.decider call.entry call.input)
      call.deciding := fun call hcall => (mem_batchCalls hinv hcall).1.failClosed
  have hreplies := fun (reply : Reply) (hreply : reply ∈ (Exchange.batching body s).replies request) =>
    batch_replies hinv hplace hheard hreply
  refine ⟨?_, ?_, ?_, ?_, ?_, ?_, ?_, ?_, ?_⟩
  · rw [replies, List.length_map]
    exact honce
  · intro hrefused
    rw [hgate] at hrefused
    exact absurd hrefused (by simp)
  · intro _ reply hreply
    exact (hreplies reply hreply).1
  · intro hcount
    have hentries : ∃ entries, ValidBatch (app.router.batch request.requestId) body entries := by
      cases hplace with
      | undecided _ hn _ =>
        rcases hn with hzero | hentries
        · rw [show (Exchange.batching body s).authentications = 0 from hzero] at hcount
          exact absurd hcount (by simp)
        · exact hentries
      | running entries hv _ _ => exact ⟨entries, hv⟩
    obtain ⟨entries, hv⟩ := hentries
    exact ⟨body, entries, hbody, hvalid entries hv⟩
  · intro call hcall
    obtain ⟨hruns, own', hmem, hentry, hinput⟩ := mem_batchCalls hinv hcall
    obtain ⟨hid, haccepted⟩ := hinv.inputs own' hmem
    rw [hinput] at hid haccepted
    refine ⟨?_, hid, Or.inr (hown _ haccepted), hruns.failClosed⟩
    cases hplace with
    | undecided hc _ _ =>
      rw [hc] at hmem
      exact absurd hmem (by simp)
    | running entries hv hc _ => exact ⟨body, entries, hbody, hvalid entries hv, hentry ▸ hc own' hmem⟩
  · intro reply hreply
    rcases (hreplies reply hreply).2 with hdeny | ⟨hv, hsettled⟩
    · exact Or.inl hdeny
    · exact Or.inr ⟨body, hbody, hvalid _ hv, hsettled⟩
  · intro hverify
    rw [he] at hverify
    exact absurd hverify (by simp)
  · intro reply hreply hsome
    rcases (hreplies reply hreply).2 with ⟨hnone, -⟩ | ⟨-, hsettled⟩
    · exact absurd hnone hsome
    · exact reported_of_settled hsettled hclosed
  · intro hreturned hnil
    obtain ⟨reason, hr⟩ := Option.isSome_iff_exists.1 (hheard.silent hreturned (List.map_eq_nil_iff.1 hnil))
    exact ⟨reason, Or.inr (hown _ (hinv.aborted reason hr))⟩

/-! ## The law of a request -/

/-- A request that has not reached a handler, with at most an envelope. -/
theorem closed_law {events : List ExchangeEvent} {x : Exchange} (hcalls : x.calls = [])
    (hcount : x.authentications = 0)
    (hgated : admitted sha256 app request = false → x.replies request = [Answer.callerUnauthenticated.reply none])
    (hreplies : x.replies request = [] ∧ ¬ x.Returned ∨ ∃ reply code message, x.replies request = [reply] ∧
      reply.body = .error code message ∧ 400 ≤ reply.status ∧
      (admitted sha256 app request = true → reply.requestId = request.requestId)) :
    Law sha256 app request events x := by
  have hreply : ∀ reply ∈ x.replies request,
      (reply.decisions = [] ∧ 400 ≤ reply.status ∧ ∃ code message, reply.body = .error code message) ∧
      (admitted sha256 app request = true → reply.requestId = request.requestId) := by
    intro reply hmem
    rcases hreplies with ⟨hnil, -⟩ | ⟨only, code, message, hone, hb, hs, hid⟩
    · rw [hnil] at hmem
      exact absurd hmem (by simp)
    · rw [hone] at hmem
      obtain rfl := List.mem_singleton.1 hmem
      refine ⟨⟨?_, hs, code, message, hb⟩, hid⟩
      unfold Reply.decisions
      rw [hb]
  refine ⟨?_, fun h => ⟨hgated h, hcount, hcalls⟩, ?_, ?_, ?_, ?_, ?_, ?_, ?_⟩
  · rcases hreplies with ⟨hnil, -⟩ | ⟨only, code, message, hone, -⟩
    · rw [hnil]
      exact Nat.zero_le _
    · rw [hone]
      exact le_rfl
  · intro hadmitted reply hmem
    exact (hreply reply hmem).2 hadmitted
  · intro hpos
    rw [hcount] at hpos
    exact absurd hpos (by simp)
  · intro call hcall
    rw [hcalls] at hcall
    exact absurd hcall (by simp)
  · intro reply hmem
    exact Or.inl (hreply reply hmem).1
  · intro _ reply hmem
    obtain ⟨⟨hnone, hstatus, -⟩, -⟩ := hreply reply hmem
    refine iff_of_false (by omega) ?_
    rintro ⟨response, hdecisions, -⟩
    rw [hnone] at hdecisions
    exact absurd hdecisions (by simp)
  · intro reply hmem hsome
    exact absurd (hreply reply hmem).1.1 hsome
  · intro hreturned hnil
    rcases hreplies with ⟨-, hopen⟩ | ⟨only, code, message, hone, -⟩
    · exact absurd hreturned hopen
    · rw [hone] at hnil
      exact absurd hnil (by simp)

/-- The answers of the body parser's failures are refusals. -/
theorem bodyParserFailure_refuses {err : Thrown} {answer : Answer} (h : bodyParserFailure err = some answer) :
    ∃ code message, answer.body = .error code message ∧ 400 ≤ answer.status := by
  unfold bodyParserFailure at h
  split at h
  · split_ifs at h
    · exact Option.some.inj h ▸ ⟨_, _, rfl, by simp⟩
    · exact Option.some.inj h ▸ ⟨_, _, rfl, by simp⟩
    · exact Option.some.inj h ▸ ⟨_, _, rfl, by simp⟩
    · exact Option.some.inj h ▸ ⟨_, _, rfl, by simp⟩
  · exact absurd h (by simp)

theorem bodyRefused_law {events : List ExchangeEvent} (err : Thrown) (hgate : admitted sha256 app request = true) :
    Law sha256 app request events (denyOnBodyFailure app err) := by
  have hopen : admitted sha256 app request = false →
      (denyOnBodyFailure app err).replies request = [Answer.callerUnauthenticated.reply none] := by
    intro hrefused
    rw [hgate] at hrefused
    exact absurd hrefused (by simp)
  unfold denyOnBodyFailure at hopen ⊢
  split
  · rename_i refusal hrefusal
    rw [hrefusal] at hopen
    obtain ⟨code, message, hb, hs⟩ := bodyParserFailure_refuses hrefusal
    refine closed_law rfl rfl hopen (Or.inr ⟨refusal.reply request.requestId, code, message, rfl, ?_, hs, fun _ => rfl⟩)
    exact (envelope_reply hb _).2
  · rename_i hunmapped
    rw [hunmapped] at hopen
    refine closed_law rfl rfl hopen (Or.inr ⟨_, _, _, rfl, rfl, ?_, fun _ => rfl⟩)
    show 400 ≤ 500
    omega

theorem Reached.law {events : List ExchangeEvent} {x : Exchange} (h : Reached sha256 app request events x) :
    Law sha256 app request events x := by
  cases h with
  | turnedAway header hgate =>
    refine closed_law rfl rfl (fun _ => rfl) (Or.inr ⟨_, _, _, rfl, rfl, ?_, ?_⟩)
    · show 400 ≤ 401
      omega
    · intro hadmitted
      rw [hgate] at hadmitted
      exact absurd hadmitted (by simp)
  | receiving hgate =>
    refine closed_law rfl rfl ?_ (Or.inl ⟨rfl, id⟩)
    intro hrefused
    rw [hgate] at hrefused
    exact absurd hrefused (by simp)
  | bodyRefused err hgate => exact bodyRefused_law err hgate
  | verifying body s own hgate he hbody hrun hown => exact verifying_law hgate he hbody hrun hown
  | batching body s own hgate he hbody hrun hown => exact batching_law hgate he hbody hrun hown

/-! ## The law of a request -/

/-- The evaluator allowed the call, on what every collector of both pipelines resolved with. -/
def Allowed (cfg : RouterConfig) (call : DecisionCall) : Prop :=
  ∃ attrs rules world failures final decision maps lists,
    FanOut.AllResolved (cfg.attributePipeline call.entry call.input).fanOut call.deciding.attributeFanOut maps ∧
    FanOut.AllResolved (cfg.rulePipeline call.entry call.input).fanOut call.deciding.ruleFanOut lists ∧
    merge maps = .ok attrs ∧ rules = lists.flatten ∧
    evaluate world attrs rules (cfg.decider call.entry call.input).evaluateOptions failures = (final, .done decision) ∧
    decision.isAllow = true

theorem allowed_of_closed {cfg : RouterConfig} {call : DecisionCall}
    (h : Deciding.FailClosed (cfg.decider call.entry call.input) call.deciding) {response : DecisionResponse}
    (hsettled : call.deciding.settled = some (.ok response)) (hallow : response.decision.isAllow = true) :
    Allowed cfg call := by
  obtain ⟨attrs, rules, world, failures, final, decision, hevaluated, hrun, hdecision⟩ :=
    h.allow response hsettled hallow
  obtain ⟨maps, lists, hmaps, hlists, hmerge, hflat⟩ :=
    h.evaluated_all attrs rules (by rw [hevaluated]; exact List.mem_cons_self)
  exact ⟨attrs, rules, world, failures, final, decision, maps, lists, hmaps, hlists, hmerge, hflat, hrun, hdecision⟩

end

end Exchange

open Exchange in
/-- In every run of a request through the app and every order of its events, the request is answered at most
once and as its law says, and each allow in a reply was given by the evaluator, to a call for an entry of the
body, on all that the collectors of both pipelines came to. -/
theorem exchange_fails_closed {Digest : Type} [DecidableEq Digest] (sha256 : List UInt8 → Digest) (app : AppConfig)
    (request : IncomingRequest) (events : List ExchangeEvent) (x : Exchange)
    (h : Machine.run (step app request) (start sha256 app request) events = some x) :
    Law sha256 app request events x ∧
    ∀ reply ∈ x.replies request, ∀ response ∈ reply.decisions, response.decision.isAllow = true →
      ∃ call ∈ x.calls, call.deciding.settled = some (.ok response) ∧ Allowed app.router call := by
  have hlaw := (run_reached h).law
  refine ⟨hlaw, ?_⟩
  intro reply hreply response hresponse hallow
  rcases hlaw.answered reply hreply with ⟨hnone, -⟩ | ⟨body, -, -, hsettled⟩
  · rw [hnone] at hresponse
    exact absurd hresponse (by simp)
  · obtain ⟨call, hcall, hd⟩ := forall₂_mem_right hsettled hresponse
    exact ⟨call, hcall, hd, allowed_of_closed (hlaw.called call hcall).2.2.2 hd hallow⟩

/-! ## A decision that is allowed -/

/-- One collector in each pipeline, behind a gate, allowed on an empty rule set. -/
def gatedApp : AppConfig where
  callerAuth := some { header := js "x-caller-token", token := js "gate-key" }
  router :=
    { resourceParser := fun raw => .parsed { raw, resourceType := raw, resourceId := none }
      limits :=
        { maxResourceLength := 512, maxActionLength := 64, maxContextEntries := 64, maxContextValueLength := 1024 }
      maxBatchSize := 50
      batchable := by decide
      batchConcurrency := 2
      concurrent := by decide
      attributePipeline := fun _ _ => Deciding.pairConfig.attributePipeline
      rulePipeline := fun _ _ => Deciding.pairConfig.rulePipeline
      onEmptyRuleSet := .str (js "allow")
      ruleTimeoutMs := .rat 2000
      evaluateDeadlineMs := .rat 5000
      metrics := some { observesCollectorFailures := true } }

/-- A caller that presents its credential and a request id. -/
def knownCaller : IncomingRequest where
  endpoint := .verify
  get := fun name =>
    if name = js "x-caller-token" then some (js "gate-key")
    else if name = js "x-request-id" then some (js "req-1")
    else none

/-- Both collectors answer, and the handler goes on from what its decision settled with. -/
def allowedRun : List ExchangeEvent :=
  [.received (.ok (sentEntry (js "order"))), .verify (.authenticated (.ok (.accepted fun _ => .str (js "alice"))))] ++
    ([DecideEvent.attributes .startLane, .rules .startLane, .attributes .job, .rules .job,
      .rules (.settle 0 (.ok [])), .attributes (.settle 0 (.ok OrderedMap.empty))] ++
      List.replicate 7 (DecideEvent.rules .job) ++ List.replicate 7 (DecideEvent.attributes .job) ++
      [DecideEvent.rulesCollected, .attributesCollected, .joinRules, .joinAttributes,
        .proceed Deciding.quietWorld]).map (fun e => ExchangeEvent.verify (.decide e)) ++
    [.verify .proceed]

/-- Where that run ends. -/
def allowedEnd : Option Exchange :=
  Machine.run (Exchange.step gatedApp knownCaller) (Exchange.start id gatedApp knownCaller) allowedRun

/-- It ends with one reply, of one decision. -/
theorem allowedRun_replies : ∃ x reply response,
    Machine.run (Exchange.step gatedApp knownCaller) (Exchange.start id gatedApp knownCaller) allowedRun = some x ∧
    x.replies knownCaller = [reply] ∧ reply.status = 200 ∧ reply.requestId = some (js "req-1") ∧
    reply.decisions = [response] ∧ response.decision.isAllow = true := by
  have hruns : allowedEnd.isSome = true := by decide +kernel
  have hsent : (allowedEnd.map fun x => (x.replies knownCaller).map fun reply =>
      (reply.status, reply.requestId, reply.decisions.map fun response => response.decision.isAllow)) =
      some [(200, some (js "req-1"), [true])] := by decide +kernel
  obtain ⟨x, hx⟩ := Option.isSome_iff_exists.1 hruns
  rw [hx, Option.map_some] at hsent
  obtain ⟨reply, hone, hreply⟩ := List.map_eq_singleton_iff.1 (Option.some.inj hsent)
  obtain ⟨hstatus, hrest⟩ := Prod.mk.inj hreply
  obtain ⟨hid, hdecisions⟩ := Prod.mk.inj hrest
  obtain ⟨response, hresponse, hallow⟩ := List.map_eq_singleton_iff.1 hdecisions
  exact ⟨x, reply, response, hx, hone, hstatus, hid, hresponse, hallow⟩

/-- A known caller's request is answered with one 200 under its id, and the allow is the evaluator's. -/
theorem exchange_fails_closed_allowed : ∃ x,
    Machine.run (Exchange.step gatedApp knownCaller) (Exchange.start id gatedApp knownCaller) allowedRun = some x ∧
    (x.replies knownCaller).map (fun reply => (reply.status, reply.requestId)) = [(200, some (js "req-1"))] ∧
    ∃ call ∈ x.calls, Exchange.Allowed gatedApp.router call := by
  obtain ⟨x, reply, response, hx, hone, hstatus, hid, hresponse, hallow⟩ := allowedRun_replies
  obtain ⟨-, hallowed⟩ := exchange_fails_closed id gatedApp knownCaller allowedRun x hx
  obtain ⟨call, hcall, -, hgranted⟩ := hallowed reply (by rw [hone]; exact List.mem_cons_self) response
    (by rw [hresponse]; exact List.mem_cons_self) hallow
  refine ⟨x, hx, ?_, call, hcall, hgranted⟩
  rw [hone, List.map_singleton, hstatus, hid]

end PolicyVerifier.Server
