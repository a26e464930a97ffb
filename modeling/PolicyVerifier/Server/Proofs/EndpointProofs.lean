import PolicyVerifier.Server.Proofs.AppProofs
import PolicyVerifier.Server.Proofs.ContextProofs

/-!
# A batch decides each entry as `/verify` does

What an entry validates to does not depend on where it stands, and its decision runs as it would alone. So
each slot of a batch is what `/verify` can answer for that entry, and what `/verify` answers is a slot of a
batch of one.
-/

namespace PolicyVerifier.Server

open Js PolicyVerifier.Core

/-! ## The label is only named -/

section Label

variable {parser : Str → ParseOutcome} {limits : RequestLimits} {label : Str}

theorem checkIdentifier_label {value : Value} {field s : Str} {maxLength : Nat}
    (h : checkIdentifier value field label maxLength = .ok s) (label' : Str) :
    checkIdentifier value field label' maxLength = .ok s := by
  unfold checkIdentifier at h ⊢
  split at h
  · split_ifs at h with hempty hlong hspace
    rw [if_neg hempty, if_neg hlong, if_neg hspace]
    exact h
  · exact absurd h (by simp)

theorem checkContext_label {ref : Nat} {props : List (Str × Value)}
    (h : checkContext label limits (.obj ref props) = none) (label' : Str) :
    checkContext label' limits (.obj ref props) = none := by
  have hcontainer : ∀ node ∈ [Value.obj ref props], node.isObject = true := by
    intro node hnode
    rw [List.mem_singleton.1 hnode]
    rfl
  rw [checkContext, checkPending_none_iff (Nat.zero_le _) hcontainer] at h ⊢
  exact h

theorem checkedContext_label {context : Value} {read : Option (List (Str × Value))}
    (h : checkedContext context label limits = .ok read) (label' : Str) :
    checkedContext context label' limits = .ok read := by
  unfold checkedContext at h ⊢
  split at h
  · exact h
  · rename_i ref props
    cases hcheck : checkContext label limits (.obj ref props) with
    | some badContext => rw [hcheck] at h; exact absurd h (by simp)
    | none =>
      rw [hcheck] at h
      rw [checkContext_label hcheck label']
      exact h
  · exact absurd h (by simp)

theorem checkFields_label {raw : Value} {fields : DecisionRequest × Option (List (Str × Value))}
    (h : checkFields limits raw label = .ok fields) (label' : Str) : checkFields limits raw label' = .ok fields := by
  obtain ⟨resource, hresource, h⟩ := ExceptFold.bind_eq_ok h
  obtain ⟨action, haction, h⟩ := ExceptFold.bind_eq_ok h
  obtain ⟨context, hcontext, h⟩ := ExceptFold.bind_eq_ok h
  unfold checkFields
  rw [checkIdentifier_label hresource label', checkIdentifier_label haction label',
    checkedContext_label hcontext label']
  exact h

/-- What an entry validates to is the same wherever it stands. -/
theorem parseDecisionRequest_label {raw : Value} {entry : ValidatedDecisionRequest}
    (h : parseDecisionRequest parser limits raw label = .ok entry) (label' : Str) :
    parseDecisionRequest parser limits raw label' = .ok entry := by
  unfold parseDecisionRequest at h ⊢
  split at h
  · rename_i ref props
    dsimp only at h ⊢
    split at h
    · exact absurd h (by simp)
    rename_i hkeys
    rw [if_neg hkeys]
    cases hfields : checkFields limits (.obj ref props) label with
    | error error => rw [hfields] at h; exact absurd h (by simp)
    | ok fields =>
      rw [hfields] at h
      rw [checkFields_label hfields label']
      dsimp only at h ⊢
      cases hparse : parser fields.1.resource with
      | threw cause => rw [hparse] at h; exact absurd h (by simp)
      | refused raw detail => rw [hparse] at h; exact absurd h (by simp)
      | parsed resource => rw [hparse] at h; exact h
  · exact absurd h (by simp)

end Label

/-! ## An entry of a batch, alone -/

namespace Verify

variable {cfg : RouterConfig} {requestId : Option Str} {entry : ValidatedDecisionRequest} {input : DecisionInput}

/-- A request follows the run of its decision; the caller's abort is the caller leaving. -/
theorem follows {d d' : Deciding} {es : List DecideEvent}
    (h : Machine.run (cfg.decideStep entry input) d es = some d') {s : Verify}
    (hc : s.call = some { entry, input, deciding := d }) :
    ∃ own s', Machine.run (Verify.step cfg requestId) s own = some s' ∧
      s'.call = some { entry, input, deciding := d' } ∧ s'.phase = s.phase ∧ s'.answers = s.answers := by
  induction es generalizing d s with
  | nil =>
    obtain rfl := Option.some.inj h
    exact ⟨[], s, rfl, hc, rfl, rfl⟩
  | cons e es ih =>
    obtain ⟨next, hnext, hrest⟩ := Machine.run_cons_eq_some.1 h
    have hstep : ∃ f t, Verify.step cfg requestId s f = some t ∧ t.call = some { entry, input, deciding := next } ∧
        t.phase = s.phase ∧ t.answers = s.answers := by
      by_cases habort : ∃ reason, e = .callerAbort reason
      · obtain ⟨reason, rfl⟩ := habort
        have hcall : s.call.map (fun call =>
            { call with deciding := cfg.decideAbort call.entry call.input reason call.deciding }) =
            some { entry, input, deciding := next } := by
          rw [hc, Option.map_some, RouterConfig.decideAbort, hnext]
          rfl
        exact ⟨.close reason, _, rfl, hcall, rfl, rfl⟩
      · have hdecide : Verify.step cfg requestId s (.decide e) =
            some { s with call := some { entry, input, deciding := next } } := by
          have hread : Verify.step cfg requestId s (.decide e) = s.call.bind fun call =>
              (cfg.decideStep call.entry call.input call.deciding e).map fun deciding =>
                { s with call := some { call with deciding } } := by
            cases e with
            | callerAbort reason => exact absurd ⟨reason, rfl⟩ habort
            | _ => rfl
          rw [hread, hc, Option.bind_some, hnext, Option.map_some]
        exact ⟨.decide e, _, hdecide, rfl, rfl, rfl⟩
    obtain ⟨f, t, hf, htcall, htphase, htanswers⟩ := hstep
    obtain ⟨own, s', hrun, hcall, hphase, hanswers⟩ := ih hrest htcall
    exact ⟨f :: own, s', Machine.run_cons_eq_some.2 ⟨t, hf, hrun⟩, hcall, hphase.trans htphase,
      hanswers.trans htanswers⟩

/-- A valid body is authenticated and decided, under a signal that may have aborted by then. -/
theorem called {body : Value} (hparse : parseDecisionRequest cfg.resourceParser cfg.limits body (js "body") = .ok entry)
    (hid : input.requestId = requestId) (aborted : Option Thrown) :
    ∃ own s, Machine.run (Verify.step cfg requestId) (Verify.start cfg body) own = some s ∧
      s.call = some { entry, input, deciding := cfg.decideStart entry input aborted } ∧ s.phase = .deciding ∧
      s.answers = [] := by
  have hstart : Verify.start cfg body = { phase := .authenticating, entry := some entry, authentications := 1 } := by
    unfold Verify.start
    rw [hparse]
  obtain ⟨subject, id⟩ := input
  obtain rfl : id = requestId := hid
  rw [hstart]
  cases aborted with
  | none => exact ⟨[.authenticated (.ok (.accepted subject))], _, rfl, rfl, rfl, rfl⟩
  | some reason => exact ⟨[.close reason, .authenticated (.ok (.accepted subject))], _, rfl, rfl, rfl, rfl⟩

/-- What a decision can come to on an entry, `/verify` can answer for it. -/
theorem answers_decision {body : Value}
    (hparse : parseDecisionRequest cfg.resourceParser cfg.limits body (js "body") = .ok entry)
    (hid : input.requestId = requestId) {d : Deciding}
    (hruns : DecisionCall.Runs cfg { entry, input, deciding := d }) {response : DecisionResponse}
    (hd : d.settled = some (.ok response)) :
    ∃ own s, Machine.run (Verify.step cfg requestId) (Verify.start cfg body) own = some s ∧
      s.answers = [.decision response] := by
  obtain ⟨aborted, es, hes⟩ := hruns
  obtain ⟨first, t, hfirst, htcall, htphase, htanswers⟩ := called hparse hid aborted
  obtain ⟨own, s, hown, hcall, hphase, hanswers⟩ := @follows cfg requestId entry input _ _ _ hes _ htcall
  have hproceed : Verify.step cfg requestId s .proceed = some (s.answer (.decision response)) := by
    simp only [Verify.step]
    rw [hphase.trans htphase, hcall, Option.bind_some, hd]
  refine ⟨first ++ own ++ [.proceed], _, Machine.run_concat ?_ hproceed, ?_⟩
  · rw [Machine.run_append, hfirst, Option.bind_some, hown]
  · show s.answers ++ _ = _
    rw [hanswers, htanswers]
    rfl

end Verify

/-! ## A batch of one -/

/-- The body of a batch of one entry. -/
def batchOfOne (item : Value) : Value := .obj 0 [(js "decisions", .list [item])]

theorem batchOfOne_valid {cfg : RouterConfig} {requestId : Option Str} {item : Value}
    {entry : ValidatedDecisionRequest}
    (hparse : parseDecisionRequest cfg.resourceParser cfg.limits item (js "body") = .ok entry) :
    ValidBatch (cfg.batch requestId) (batchOfOne item) [entry] := by
  refine ⟨⟨0, _, rfl, ?_⟩, 0, [item], rfl, by simp, cfg.batchable, rfl, ?_⟩
  · intro prop hprop
    rw [List.mem_singleton.1 hprop]
  · intro i found read hfound hread
    cases i with
    | zero =>
      obtain rfl := Option.some.inj hfound
      obtain rfl := Option.some.inj hread
      exact parseDecisionRequest_label hparse _
    | succ i => exact absurd hfound (by simp)

namespace BatchDecisions

variable {cfg : RouterConfig} {requestId : Option Str} {entry : ValidatedDecisionRequest} {input : DecisionInput}

/-- A batch of one entry while its decision is out. -/
def oneLane (entry : ValidatedDecisionRequest) (input : DecisionInput) (aborted : Option Thrown) (d : Deciding) :
    BatchDecisions where
  batch :=
    { phase := .deciding, entries := [entry], aborted, authentications := 1, next := 1, lanes := [.deciding 0]
      calls := [{ index := 0, entry, input }], decisions := [none] }
  deciding := [d]

/-- A batch of one follows the run of its decision. -/
theorem oneLane_follows {d d' : Deciding} {es : List DecideEvent}
    (h : Machine.run (cfg.decideStep entry input) d es = some d') (aborted : Option Thrown) :
    ∃ own aborted', Machine.run (BatchDecisions.step cfg requestId) (oneLane entry input aborted d) own =
      some (oneLane entry input aborted' d') := by
  induction es generalizing d aborted with
  | nil =>
    obtain rfl := Option.some.inj h
    exact ⟨[], aborted, rfl⟩
  | cons e es ih =>
    obtain ⟨next, hnext, hrest⟩ := Machine.run_cons_eq_some.1 h
    have hstep : ∃ f aborted', BatchDecisions.step cfg requestId (oneLane entry input aborted d) f =
        some (oneLane entry input aborted' next) := by
      by_cases habort : ∃ reason, e = .callerAbort reason
      · obtain ⟨reason, rfl⟩ := habort
        have hleft : cfg.decideAbort entry input reason d = next := by
          rw [RouterConfig.decideAbort, hnext]
          rfl
        refine ⟨.handler (.close reason), aborted.or (some reason), ?_⟩
        rw [← hleft]
        rfl
      · have hread : BatchDecisions.step cfg requestId (oneLane entry input aborted d) (.decide 0 e) =
            (cfg.decideStep entry input d e).map fun d => oneLane entry input aborted d := by
          cases e with
          | callerAbort reason => exact absurd ⟨reason, rfl⟩ habort
          | _ => rfl
        refine ⟨.decide 0 e, aborted, ?_⟩
        rw [hread, hnext]
        rfl
    obtain ⟨f, aborted', hf⟩ := hstep
    obtain ⟨own, last, hrun⟩ := ih hrest aborted'
    exact ⟨f :: own, last, Machine.run_cons_eq_some.2 ⟨_, hf, hrun⟩⟩

/-- A batch of one that has answered. -/
def oneAnswered (entry : ValidatedDecisionRequest) (input : DecisionInput) (aborted : Option Thrown) (d : Deciding)
    (response : DecisionResponse) : BatchDecisions where
  batch :=
    { phase := .returned, entries := [entry], aborted, authentications := 1, next := 1, lanes := [.counted]
      calls := [{ index := 0, entry, input, outcome := some (.ok response) }], decisions := [some response]
      all := some (.ok ()), answers := [.decided [some response]] }
  deciding := [d]

/-- Its decision settled, a batch of one is answered with it. -/
theorem oneLane_answers {d : Deciding} {response : DecisionResponse} (hd : d.settled = some (.ok response))
    (aborted : Option Thrown) :
    Machine.run (BatchDecisions.step cfg requestId) (oneLane entry input aborted d)
      [.settled 0, .handler (.resume 0), .handler (.laneEnded 0), .handler .proceed] =
      some (oneAnswered entry input aborted d response) := by
  have hsettled : BatchDecisions.step cfg requestId (oneLane entry input aborted d) (.settled 0) =
      some
        { batch :=
            { (oneLane entry input aborted d).batch with
              calls := [{ index := 0, entry, input, outcome := some (.ok response) }] }
          deciding := [d] } := by
    show d.settled.bind _ = _
    rw [hd]
    rfl
  rw [Machine.run_cons, hsettled]
  rfl

/-- The one lane of a batch of one. -/
theorem decideAll_one {entries : List ValidatedDecisionRequest} (hentries : entries = [entry])
    (aborted : Option Thrown) :
    Batch.decideAll (cfg.batch requestId) input
      { phase := .authenticating, entries, aborted, authentications := 1 } =
      (oneLane entry input aborted (cfg.decideStart entry input aborted)).batch := by
  have hwidth : min (cfg.batch requestId).batchConcurrency [entry].length = 1 := min_eq_right cfg.concurrent
  unfold Batch.decideAll
  rw [hentries, hwidth]
  rfl

/-- A valid body of one entry is authenticated, and its decision begins. -/
theorem oneLane_called {item : Value}
    (hparse : parseDecisionRequest cfg.resourceParser cfg.limits item (js "body") = .ok entry)
    (hid : input.requestId = requestId) (aborted : Option Thrown) :
    ∃ own, Machine.run (BatchDecisions.step cfg requestId) (start cfg requestId (batchOfOne item)) own =
      some (oneLane entry input aborted (cfg.decideStart entry input aborted)) := by
  have hstart : start cfg requestId (batchOfOne item) =
      { batch := { phase := .authenticating, entries := [entry], authentications := 1 }, deciding := [] } := by
    unfold BatchDecisions.start Batch.start
    rw [show parseBatch (cfg.batch requestId).resourceParser (cfg.batch requestId).limits
      (cfg.batch requestId).maxBatchSize (batchOfOne item) = .ok [entry] from
        parseBatch_ok_iff.2 (batchOfOne_valid hparse)]
  obtain ⟨subject, id⟩ := input
  obtain rfl : id = requestId := hid
  have haccepted : BatchDecisions.step cfg id
      { batch := { phase := .authenticating, entries := [entry], aborted, authentications := 1 }, deciding := [] }
      (.handler (.authenticated (.ok (.accepted subject)))) =
      some (oneLane entry { subject, requestId := id } aborted
        (cfg.decideStart entry { subject, requestId := id } aborted)) := by
    show some (follow cfg [] (Batch.decideAll (cfg.batch id) { subject, requestId := id } _)) = _
    rw [decideAll_one rfl aborted]
    rfl
  rw [hstart]
  cases aborted with
  | none => exact ⟨[.handler (.authenticated (.ok (.accepted subject)))], Machine.run_cons_eq_some.2 ⟨_, haccepted, rfl⟩⟩
  | some reason =>
    exact ⟨[.handler (.close reason), .handler (.authenticated (.ok (.accepted subject)))],
      Machine.run_cons_eq_some.2 ⟨_, rfl, Machine.run_cons_eq_some.2 ⟨_, haccepted, rfl⟩⟩⟩

/-- What a decision can come to on an entry, a batch of that entry can answer. -/
theorem answers_decision {item : Value}
    (hparse : parseDecisionRequest cfg.resourceParser cfg.limits item (js "body") = .ok entry)
    (hid : input.requestId = requestId) {d : Deciding}
    (hruns : DecisionCall.Runs cfg { entry, input, deciding := d }) {response : DecisionResponse}
    (hd : d.settled = some (.ok response)) :
    ∃ own s, Machine.run (BatchDecisions.step cfg requestId) (start cfg requestId (batchOfOne item)) own = some s ∧
      s.batch.answers = [.decided [some response]] := by
  obtain ⟨aborted, es, hes⟩ := hruns
  obtain ⟨first, hfirst⟩ := oneLane_called hparse hid aborted
  obtain ⟨own, aborted', hown⟩ := @oneLane_follows cfg requestId entry input _ _ _ hes aborted
  have hlast := @oneLane_answers cfg requestId entry input _ _ hd aborted'
  refine ⟨first ++ (own ++ [.settled 0, .handler (.resume 0), .handler (.laneEnded 0), .handler .proceed]),
    oneAnswered entry input aborted' d response, ?_, rfl⟩
  rw [Machine.run_append, hfirst, Option.bind_some, Machine.run_append, hown, Option.bind_some]
  exact hlast

end BatchDecisions

/-! ## Through the app -/

namespace Exchange

section

variable {Digest : Type} [DecidableEq Digest] {sha256 : List UInt8 → Digest} {app : AppConfig} {request : IncomingRequest}

theorem start_of_admitted (h : admitted sha256 app request = true) : start sha256 app request = .receiving := by
  unfold admitted at h
  unfold start
  split
  · rename_i gate hgate
    rw [hgate, Option.all_some] at h
    rw [if_pos h]
  · rfl

/-- What the handler's own machine does, the app does. -/
theorem verifying_run {body : Value} {s s' : Verify} {own : List VerifyEvent}
    (h : Machine.run (Verify.step app.router request.requestId) s own = some s') :
    Machine.run (step app request) (.verifying body s) (own.map ExchangeEvent.verify) = some (.verifying body s') := by
  induction own generalizing s with
  | nil =>
    obtain rfl := Option.some.inj h
    rfl
  | cons e own ih =>
    obtain ⟨t, ht, hrest⟩ := Machine.run_cons_eq_some.1 h
    refine Machine.run_cons_eq_some.2 ⟨.verifying body t, ?_, ih hrest⟩
    show (s.step app.router request.requestId e).map _ = _
    rw [ht, Option.map_some]

theorem batching_run {body : Value} {s s' : BatchDecisions} {own : List BatchDecisionsEvent}
    (h : Machine.run (BatchDecisions.step app.router request.requestId) s own = some s') :
    Machine.run (step app request) (.batching body s) (own.map ExchangeEvent.batch) = some (.batching body s') := by
  induction own generalizing s with
  | nil =>
    obtain rfl := Option.some.inj h
    rfl
  | cons e own ih =>
    obtain ⟨t, ht, hrest⟩ := Machine.run_cons_eq_some.1 h
    refine Machine.run_cons_eq_some.2 ⟨.batching body t, ?_, ih hrest⟩
    show (s.step app.router request.requestId e).map _ = _
    rw [ht, Option.map_some]

/-- A request with this body can be answered with these decisions. -/
def CanAnswer (sha256 : List UInt8 → Digest) (app : AppConfig) (request : IncomingRequest) (body : Value)
    (decisions : List DecisionResponse) : Prop :=
  ∃ events x reply,
    Machine.run (step app request) (start sha256 app request) (.received (.ok body) :: events) = some x ∧
    x.replies request = [reply] ∧ reply.decisions = decisions

theorem verify_canAnswer {get : Str → Option Str} (hgate : admitted sha256 app ⟨.verify, get⟩ = true) {body : Value}
    {call : DecisionCall} (hruns : call.Runs app.router)
    (hparse : parseDecisionRequest app.router.resourceParser app.router.limits body (js "body") = .ok call.entry)
    (hid : call.input.requestId = acceptRequestId (get requestIdHeader)) {response : DecisionResponse}
    (hd : call.deciding.settled = some (.ok response)) :
    CanAnswer sha256 app ⟨.verify, get⟩ body [response] := by
  obtain ⟨own, s, hrun, hanswers⟩ := Verify.answers_decision hparse hid hruns hd
  refine ⟨own.map ExchangeEvent.verify, .verifying body s,
    (VerifyAnswer.decision response).reply (acceptRequestId (get requestIdHeader)), ?_, ?_, rfl⟩
  · rw [start_of_admitted hgate]
    exact Machine.run_cons_eq_some.2 ⟨_, rfl, verifying_run hrun⟩
  · show s.answers.map _ = _
    rw [hanswers]
    rfl

theorem batch_canAnswer {get : Str → Option Str} (hgate : admitted sha256 app ⟨.verifyBatch, get⟩ = true) {item : Value}
    {call : DecisionCall} (hruns : call.Runs app.router)
    (hparse : parseDecisionRequest app.router.resourceParser app.router.limits item (js "body") = .ok call.entry)
    (hid : call.input.requestId = acceptRequestId (get requestIdHeader)) {response : DecisionResponse}
    (hd : call.deciding.settled = some (.ok response)) :
    CanAnswer sha256 app ⟨.verifyBatch, get⟩ (batchOfOne item) [response] := by
  obtain ⟨own, s, hrun, hanswers⟩ := BatchDecisions.answers_decision hparse hid hruns hd
  refine ⟨own.map ExchangeEvent.batch, .batching (batchOfOne item) s,
    (Answer.decided [some response]).reply (acceptRequestId (get requestIdHeader)), ?_, ?_, rfl⟩
  · rw [start_of_admitted hgate]
    exact Machine.run_cons_eq_some.2 ⟨_, rfl, batching_run hrun⟩
  · show s.batch.answers.map _ = _
    rw [hanswers]
    rfl

/-- Behind a reply with decisions the gate let the request through, and every call is a run of its decision. -/
theorem Reached.runs {events : List ExchangeEvent} {x : Exchange} (h : Reached sha256 app request events x) :
    ∀ call ∈ x.calls, admitted sha256 app request = true ∧ call.Runs app.router := by
  cases h with
  | turnedAway header hgate => exact fun call hcall => absurd hcall (by simp [calls])
  | receiving hgate => exact fun call hcall => absurd hcall (by simp [calls])
  | bodyRefused err hgate =>
    intro call hcall
    unfold denyOnBodyFailure at hcall
    split at hcall
    · exact absurd hcall (by simp [calls])
    · exact absurd hcall (by simp [calls])
  | verifying body s own hgate he hbody hrun hown =>
    intro call hcall
    exact ⟨hgate, ((Verify.run_inv hrun).call call (Option.mem_toList.1 hcall)).2.2.2⟩
  | batching body s own hgate he hbody hrun hown =>
    intro call hcall
    exact ⟨hgate, (mem_batchCalls (BatchDecisions.run_inv hrun) hcall).1⟩

end

end Exchange

open Exchange in
/-- For every app and the headers of any request: each decision of a batch's reply is one `/verify` can give for
that entry of the body alone, and the decision of a reply of `/verify` is one that a batch of its body alone can
give. -/
theorem endpoints_agree {Digest : Type} [DecidableEq Digest] (sha256 : List UInt8 → Digest) (app : AppConfig)
    (get : Str → Option Str) :
    (∀ events x, Machine.run (step app ⟨.verifyBatch, get⟩) (start sha256 app ⟨.verifyBatch, get⟩) events = some x →
      ∀ reply ∈ x.replies ⟨.verifyBatch, get⟩, reply.decisions ≠ [] → ∃ body ref items,
        ExchangeEvent.received (.ok body) ∈ events ∧ body.field (js "decisions") = .arr ref items ∧
        items.length = reply.decisions.length ∧
        ∀ (i : Nat) item response, items[i]? = some item → reply.decisions[i]? = some response →
          CanAnswer sha256 app ⟨.verify, get⟩ item [response]) ∧
    (∀ events x, Machine.run (step app ⟨.verify, get⟩) (start sha256 app ⟨.verify, get⟩) events = some x →
      ∀ reply ∈ x.replies ⟨.verify, get⟩, reply.decisions ≠ [] → ∃ body,
        ExchangeEvent.received (.ok body) ∈ events ∧
        CanAnswer sha256 app ⟨.verifyBatch, get⟩ (batchOfOne body) reply.decisions) := by
  constructor
  · intro events x h reply hreply hsome
    have hreached := run_reached h
    rcases hreached.law.answered reply hreply with ⟨hnone, -⟩ | ⟨body, hbody, hvalid, hsettled⟩
    · exact absurd hnone hsome
    obtain ⟨-, ref, items, hitems, -, -, hlength, hparsed⟩ : ValidBatch _ body _ := hvalid
    rw [List.length_map] at hlength
    refine ⟨body, ref, items, hbody, hitems, hlength.symm.trans hsettled.length_eq, ?_⟩
    intro i item response hitem hresponse
    have hlt : i < x.calls.length := hlength ▸ (List.getElem?_eq_some_iff.1 hitem).1
    have hcall := List.getElem?_eq_getElem hlt
    have hd := forall₂_getElem? hsettled hcall hresponse
    have hmem := List.mem_of_getElem? hcall
    obtain ⟨hgate, hruns⟩ := hreached.runs _ hmem
    have hparse := hparsed i item _ hitem (by rw [List.getElem?_map, hcall, Option.map_some])
    exact verify_canAnswer hgate hruns (parseDecisionRequest_label hparse _) (hreached.law.called _ hmem).2.1 hd
  · intro events x h reply hreply hsome
    have hreached := run_reached h
    rcases hreached.law.answered reply hreply with ⟨hnone, -⟩ | ⟨body, hbody, hvalid, hsettled⟩
    · exact absurd hnone hsome
    obtain ⟨entry, hentry, hparse⟩ : ∃ entry, x.calls.map DecisionCall.entry = [entry] ∧
      parseDecisionRequest app.router.resourceParser app.router.limits body (js "body") = .ok entry := hvalid
    obtain ⟨call, hcalls, rfl⟩ := List.map_eq_singleton_iff.1 hentry
    rw [hcalls] at hsettled
    obtain ⟨response, rest, hd, hrest, hdecisions⟩ := List.forall₂_cons_left_iff.1 hsettled
    rw [List.forall₂_nil_left_iff.1 hrest] at hdecisions
    have hmem : call ∈ x.calls := by rw [hcalls]; exact List.mem_cons_self
    obtain ⟨hgate, hruns⟩ := hreached.runs _ hmem
    refine ⟨body, hbody, ?_⟩
    rw [hdecisions]
    exact batch_canAnswer hgate hruns hparse (hreached.law.called _ hmem).2.1 hd

open Exchange in
/-- The decision a known caller gets of `/verify` is one that a batch of its body can give, and what that batch
gives is what `/verify` can. -/
theorem endpoints_agree_allowed : ∃ response item, response.decision.isAllow = true ∧
    CanAnswer id gatedApp ⟨.verifyBatch, knownCaller.get⟩ (batchOfOne (sentEntry (js "order"))) [response] ∧
    CanAnswer id gatedApp ⟨.verify, knownCaller.get⟩ item [response] := by
  obtain ⟨x, reply, response, hx, hone, -, -, hresponse, hallow⟩ := allowedRun_replies
  have hsent : reply ∈ x.replies knownCaller := by
    rw [hone]
    exact List.mem_cons_self
  obtain ⟨hbatch, hverify⟩ := endpoints_agree id gatedApp knownCaller.get
  obtain ⟨body, hbody, hbatched⟩ := hverify allowedRun x hx reply hsent (by rw [hresponse]; simp)
  obtain rfl : body = sentEntry (js "order") := by simpa [allowedRun] using hbody
  rw [hresponse] at hbatched
  have hgiven := hbatched
  obtain ⟨events, y, reply', hrun, hone', hresponse'⟩ := hbatched
  obtain ⟨-, -, items, -, -, hlength, halone⟩ := hbatch _ y hrun reply' (by rw [hone']; exact List.mem_cons_self)
    (by rw [hresponse']; simp)
  rw [hresponse'] at hlength halone
  obtain ⟨item, rfl⟩ := List.length_eq_one_iff.1 hlength
  exact ⟨response, item, hallow, hgiven, halone 0 item response rfl rfl⟩

end PolicyVerifier.Server
