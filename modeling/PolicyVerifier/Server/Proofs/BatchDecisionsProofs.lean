import PolicyVerifier.Server.Proofs.VerifyProofs

/-!
# The decisions behind a batch

The handler's machine and the machines of its `decide` calls, side by side: the handler only ever runs as it
would alone, fed with what the decisions themselves settled with.
-/

namespace PolicyVerifier.Server

open Js PolicyVerifier.Core

/-! ## What one step of the handler does -/

namespace Batch

variable {cfg : BatchConfig}

/-- The calls have grown by calls that are out, each with an input that has the property. -/
def Calling (P : DecisionInput → Prop) (s s' : Batch) : Prop :=
  ∃ more, s'.calls = s.calls ++ more ∧ ∀ call ∈ more, call.outcome = none ∧ P call.input

theorem Calling.refl {P : DecisionInput → Prop} {s s' : Batch} (h : s'.calls = s.calls) : Calling P s s' :=
  ⟨[], by rw [h, List.append_nil], by simp⟩

theorem Calling.trans {P : DecisionInput → Prop} {s t u : Batch} (hst : Calling P s t) (htu : Calling P t u) :
    Calling P s u := by
  obtain ⟨more, hmore, hout⟩ := hst
  obtain ⟨later, hlater, hlast⟩ := htu
  refine ⟨more ++ later, by rw [hlater, hmore, List.append_assoc], ?_⟩
  intro call hcall
  rcases List.mem_append.1 hcall with hcall | hcall
  · exact hout call hcall
  · exact hlast call hcall

theorem pull_calling {P : DecisionInput → Prop} {input : DecisionInput} (hP : P input) (s : Batch) :
    Calling P s (s.pull input).1 := by
  rcases pull_eq input s with ⟨entry, -, -, hpull⟩ | ⟨-, hpull⟩
  · rw [hpull]
    refine ⟨[_], rfl, ?_⟩
    intro call hcall
    rw [List.mem_singleton.1 hcall]
    exact ⟨rfl, hP⟩
  · rw [hpull]
    exact .refl rfl

theorem startLanes_calling {P : DecisionInput → Prop} {input : DecisionInput} (hP : P input) (s : Batch) (n : Nat) :
    Calling P s ((startLane input)^[n] s) := by
  induction n with
  | zero => exact .refl rfl
  | succ n ih =>
    rw [Function.iterate_succ_apply']
    refine ih.trans ?_
    obtain ⟨more, hmore, hout⟩ := pull_calling hP ((startLane input)^[n] s)
    exact ⟨more, hmore, hout⟩

/-- Where starting lanes leaves the handler. -/
theorem startLanes_same (input : DecisionInput) (s : Batch) (n : Nat) :
    ((startLane input)^[n] s).phase = s.phase ∧ ((startLane input)^[n] s).aborted = s.aborted ∧
      ((startLane input)^[n] s).answers = s.answers := by
  induction n with
  | zero => exact ⟨rfl, rfl, rfl⟩
  | succ n ih =>
    rw [Function.iterate_succ_apply']
    have hsame := pull_same input ((startLane input)^[n] s)
    exact ⟨hsame.phase.trans ih.1, hsame.aborted.trans ih.2.1, hsame.answers.trans ih.2.2⟩

/-- Whose input a call of the handler's has: the subject's that was accepted, or an earlier call's. -/
def InputOf (cfg : BatchConfig) (e : BatchEvent) (s : Batch) (input : DecisionInput) : Prop :=
  (∃ subject, e = .authenticated (.ok (.accepted subject)) ∧ input = decisionInput cfg subject) ∨
    ∃ call ∈ s.calls, input = call.input

theorem caught_calls (cfg : BatchConfig) (s : Batch) (cause : Thrown) (failure : ClassifiedFailure) :
    (s.caught cfg cause failure).calls = s.calls := by
  unfold caught
  split
  · rfl
  · rfl

theorem step_calling {s s' : Batch} {e : BatchEvent} (hs : s.step cfg e = some s')
    (he : ∀ i o, e ≠ .settle i o) : Calling (InputOf cfg e s) s s' := by
  cases e with
  | authenticated o =>
    simp only [Batch.step] at hs
    split at hs
    · obtain rfl := Option.some.inj hs
      cases o with
      | error cause => exact .refl (caught_calls cfg s cause .internal)
      | ok result =>
        cases result with
        | refused code message => exact .refl rfl
        | accepted subject =>
          obtain ⟨more, hmore, hout⟩ := startLanes_calling
            (P := InputOf cfg (.authenticated (.ok (.accepted subject))) s) (Or.inl ⟨subject, rfl, rfl⟩)
            { s with
              phase := .deciding
              decisions := List.replicate s.entries.length none
              all := if min cfg.batchConcurrency s.entries.length = 0 then some (.ok ()) else none }
            (min cfg.batchConcurrency s.entries.length)
          exact ⟨more, hmore, hout⟩
    · exact absurd hs (by simp)
  | settle i o => exact absurd rfl (he i o)
  | resume l =>
    simp only [Batch.step] at hs
    split at hs
    · split at hs
      · exact absurd hs (by simp)
      · rename_i call hcall
        obtain ⟨o, -, rfl⟩ := Option.map_eq_some_iff.1 hs
        cases o with
        | error fault => exact .refl rfl
        | ok response =>
          obtain ⟨more, hmore, hout⟩ := pull_calling (P := InputOf cfg (.resume l) s)
            (Or.inr ⟨call, List.mem_of_getElem? hcall, rfl⟩)
            { s with decisions := s.decisions.set _ (some response) }
          exact ⟨more, hmore, hout⟩
    · exact absurd hs (by simp)
  | laneEnded l =>
    simp only [Batch.step] at hs
    split at hs
    · obtain rfl := Option.some.inj hs
      split
      · exact .refl rfl
      · exact .refl rfl
    · obtain rfl := Option.some.inj hs
      exact .refl rfl
    · exact absurd hs (by simp)
  | proceed =>
    simp only [Batch.step] at hs
    split at hs
    · obtain rfl := Option.some.inj hs
      exact .refl rfl
    · obtain rfl := Option.some.inj hs
      exact .refl (caught_calls cfg _ _ _)
    · exact absurd hs (by simp)
  | close reason =>
    obtain rfl := Option.some.inj hs
    exact .refl rfl

/-- What the handler can have answered: the slots, or the envelope. -/
def Spoken (a : Answer) : Prop :=
  (∃ slots, a = .decided slots) ∨ ∃ code message, a.body = .error code message ∧ 400 ≤ a.status

/-- What a step leaves of what the handler has said: nothing more, with nobody there to be answered where it
returns, or one answer. -/
inductive Said (s s' : Batch) : Prop where
  | nothing (ha : s'.answers = s.answers) (hp : s'.phase = .returned → s.phase = .returned ∨ s'.aborted.isSome = true)
  | answered (a : Answer) (ha : s'.answers = s.answers ++ [a]) (hs : Spoken a)

theorem caught_said (cfg : BatchConfig) (s : Batch) (cause : Thrown) (failure : ClassifiedFailure) :
    Said s (s.caught cfg cause failure) ∧ (s.caught cfg cause failure).aborted = s.aborted := by
  unfold caught
  split
  · rename_i haborted
    exact ⟨.nothing rfl fun _ => Or.inr (by rw [haborted]; rfl), rfl⟩
  · exact ⟨.answered .internalError rfl (Or.inr ⟨_, _, rfl, by simp [Answer.internalError]⟩), rfl⟩

/-- What a step does to the answers, and to who is there to read them. -/
theorem step_said {s s' : Batch} {e : BatchEvent} (hs : s.step cfg e = some s') :
    Said s s' ∧ (s'.aborted = s.aborted ∨ ∃ reason, e = .close reason ∧ s'.aborted = s.aborted.or (some reason)) := by
  cases e with
  | authenticated o =>
    simp only [Batch.step] at hs
    split at hs
    · obtain rfl := Option.some.inj hs
      cases o with
      | error cause =>
        obtain ⟨hsaid, haborted⟩ := caught_said cfg s cause .internal
        exact ⟨hsaid, Or.inl haborted⟩
      | ok result =>
        cases result with
        | refused code message =>
          exact ⟨.answered _ rfl (Or.inr ⟨_, _, rfl, Verify.authFailureStatus_ge code⟩), Or.inl rfl⟩
        | accepted subject =>
          obtain ⟨hphase, haborted, hanswers⟩ := startLanes_same (decisionInput cfg subject)
            { s with
              phase := .deciding
              decisions := List.replicate s.entries.length none
              all := if min cfg.batchConcurrency s.entries.length = 0 then some (.ok ()) else none }
            (min cfg.batchConcurrency s.entries.length)
          refine ⟨.nothing hanswers fun hp => ?_, Or.inl haborted⟩
          exact absurd (hphase.symm.trans hp) (by simp)
    · exact absurd hs (by simp)
  | settle i o =>
    simp only [Batch.step] at hs
    split at hs
    · exact absurd hs (by simp)
    split at hs
    · exact absurd hs (by simp)
    · obtain rfl := Option.some.inj hs
      exact ⟨.nothing rfl Or.inl, Or.inl rfl⟩
  | resume l =>
    simp only [Batch.step] at hs
    split at hs
    · rename_i i hlane
      split at hs
      · exact absurd hs (by simp)
      · rename_i call hcall
        obtain ⟨o, -, rfl⟩ := Option.map_eq_some_iff.1 hs
        cases o with
        | error fault => exact ⟨.nothing rfl Or.inl, Or.inl rfl⟩
        | ok response =>
          have hsame := pull_same call.input { s with decisions := s.decisions.set i (some response) }
          exact ⟨.nothing hsame.answers fun hp => Or.inl (hsame.phase.symm.trans hp), Or.inl hsame.aborted⟩
    · exact absurd hs (by simp)
  | laneEnded l =>
    simp only [Batch.step] at hs
    split at hs
    · obtain rfl := Option.some.inj hs
      split
      · exact ⟨.nothing rfl Or.inl, Or.inl rfl⟩
      · exact ⟨.nothing rfl Or.inl, Or.inl rfl⟩
    · obtain rfl := Option.some.inj hs
      exact ⟨.nothing rfl Or.inl, Or.inl rfl⟩
    · exact absurd hs (by simp)
  | proceed =>
    simp only [Batch.step] at hs
    split at hs
    · obtain rfl := Option.some.inj hs
      exact ⟨.answered _ rfl (Or.inl ⟨_, rfl⟩), Or.inl rfl⟩
    · obtain rfl := Option.some.inj hs
      rename_i fault hp hall
      obtain ⟨hsaid, haborted⟩ := caught_said cfg { s with abandoned := true } fault.original fault.failure
      refine ⟨?_, Or.inl haborted⟩
      cases hsaid with
      | nothing ha hp => exact .nothing ha hp
      | answered a ha hsp => exact .answered a ha hsp
    · exact absurd hs (by simp)
  | close reason =>
    obtain rfl := Option.some.inj hs
    exact ⟨.nothing rfl Or.inl, Or.inr ⟨reason, rfl, rfl⟩⟩

/-- A handler that has returned has answered, or there is nobody to answer. -/
structure Heard (s : Batch) : Prop where
  spoken : ∀ a ∈ s.answers, Spoken a
  silent : s.phase = .returned → s.answers = [] → s.aborted.isSome = true

theorem Heard.step {s s' : Batch} {e : BatchEvent} (h : Heard s) (hs : s.step cfg e = some s') : Heard s' := by
  obtain ⟨hsaid, haborted⟩ := step_said hs
  have hkept : s.aborted.isSome = true → s'.aborted.isSome = true := by
    intro hsome
    rcases haborted with hsame | ⟨reason, -, hor⟩
    · rw [hsame]
      exact hsome
    · rw [hor, Option.isSome_or, hsome, Bool.true_or]
  cases hsaid with
  | nothing ha hp =>
    refine ⟨?_, ?_⟩
    · rw [ha]
      exact h.spoken
    · intro hphase hnil
      rw [ha] at hnil
      rcases hp hphase with hreturned | hgone
      · exact hkept (h.silent hreturned hnil)
      · exact hgone
  | answered a ha hsp =>
    refine ⟨?_, ?_⟩
    · intro b hb
      rw [ha] at hb
      rcases List.mem_append.1 hb with hb | hb
      · exact h.spoken b hb
      · rw [List.mem_singleton.1 hb]
        exact hsp
    · intro _ hnil
      rw [ha] at hnil
      exact absurd hnil (by simp)

theorem start_heard (cfg : BatchConfig) (body : Value) : Heard (start cfg body) := by
  unfold start
  split
  · rename_i error hparse
    refine ⟨?_, fun _ hnil => absurd hnil (by simp [answer])⟩
    intro a ha
    rw [List.mem_singleton.1 ha]
    exact Or.inr ⟨_, _, rfl, by simp [Answer.invalidRequest]⟩
  · rename_i cause hparse
    refine ⟨?_, fun _ hnil => absurd hnil (by simp [caught, answer])⟩
    intro a ha
    rw [List.mem_singleton.1 ha]
    exact Or.inr ⟨_, _, rfl, by simp [Answer.internalError]⟩
  · exact ⟨by simp, fun hp => absurd hp (by simp)⟩

end Batch

/-! ## Two lists, place by place -/

section Places

variable {α β : Type} {R : α → β → Prop}

theorem forall₂_getElem? {xs : List α} {ys : List β} (h : List.Forall₂ R xs ys) {i : Nat} {x : α} {y : β}
    (hx : xs[i]? = some x) (hy : ys[i]? = some y) : R x y := by
  induction h generalizing i with
  | nil => exact absurd hx (by simp)
  | cons hxy _ ih =>
    cases i with
    | zero =>
      obtain rfl := Option.some.inj hx
      obtain rfl := Option.some.inj hy
      exact hxy
    | succ i => exact ih hx hy

theorem forall₂_set_left {xs : List α} {ys : List β} (h : List.Forall₂ R xs ys) {i : Nat} {x : α}
    (hx : ∀ y, ys[i]? = some y → R x y) : List.Forall₂ R (xs.set i x) ys := by
  induction h generalizing i with
  | nil => exact .nil
  | cons hxy hrest ih =>
    cases i with
    | zero => exact .cons (hx _ rfl) hrest
    | succ i => exact .cons hxy (ih hx)

theorem forall₂_set_right {xs : List α} {ys : List β} (h : List.Forall₂ R xs ys) {i : Nat} {y : β}
    (hy : ∀ x, xs[i]? = some x → R x y) : List.Forall₂ R xs (ys.set i y) := by
  induction h generalizing i with
  | nil => exact .nil
  | cons hxy hrest ih =>
    cases i with
    | zero => exact .cons (hy _ rfl) hrest
    | succ i => exact .cons hxy (ih hy)

theorem forall₂_zipWith_right {xs : List α} {ys : List β} (h : List.Forall₂ R xs ys) {f : α → β → β}
    (hf : ∀ x y, R x y → R x (f x y)) : List.Forall₂ R xs (List.zipWith f xs ys) := by
  induction h with
  | nil => exact .nil
  | cons hxy _ ih => exact .cons (hf _ _ hxy) ih

theorem forall₂_mem_right {xs : List α} {ys : List β} (h : List.Forall₂ R xs ys) {y : β} (hy : y ∈ ys) :
    ∃ x ∈ xs, R x y := by
  induction h with
  | nil => exact absurd hy (by simp)
  | cons hxy _ ih =>
    rcases List.mem_cons.1 hy with rfl | hy
    · exact ⟨_, List.mem_cons_self, hxy⟩
    · obtain ⟨x, hx, hr⟩ := ih hy
      exact ⟨x, List.mem_cons_of_mem _ hx, hr⟩

end Places

/-! ## The handler with its decisions -/

namespace BatchDecisions

variable {cfg : RouterConfig} {requestId : Option Str} {body : Value}

/-- A call's machine runs, and has settled with what the call has. -/
def Answers (cfg : RouterConfig) (call : DecideCall) (d : Deciding) : Prop :=
  DecisionCall.Runs cfg { entry := call.entry, input := call.input, deciding := d } ∧
    ∀ o, call.outcome = some o → d.settled = some o

/-- The invariant of a batch request with its decisions, after some events. -/
structure Inv (cfg : RouterConfig) (requestId : Option Str) (body : Value) (events : List BatchDecisionsEvent)
    (s : BatchDecisions) : Prop where
  handler : Machine.Reaches (Batch.step (cfg.batch requestId)) (Batch.start (cfg.batch requestId) body) s.batch
  deciding : List.Forall₂ (Answers cfg) s.batch.calls s.deciding
  inputs : ∀ call ∈ s.batch.calls, call.input.requestId = requestId ∧
    BatchDecisionsEvent.handler (.authenticated (.ok (.accepted call.input.subject))) ∈ events
  aborted : ∀ reason, s.batch.aborted = some reason → BatchDecisionsEvent.handler (.close reason) ∈ events

theorem start_inv (cfg : RouterConfig) (requestId : Option Str) (body : Value) :
    Inv cfg requestId body [] (start cfg requestId body) := by
  have hstart : (Batch.start (cfg.batch requestId) body).calls = [] ∧
      (Batch.start (cfg.batch requestId) body).aborted = none := by
    unfold Batch.start
    split
    · exact ⟨rfl, rfl⟩
    · exact ⟨rfl, rfl⟩
    · exact ⟨rfl, rfl⟩
  refine ⟨Machine.Reaches.refl _ _, ?_, ?_, ?_⟩
  · show List.Forall₂ _ (Batch.start (cfg.batch requestId) body).calls []
    rw [hstart.1]
    exact .nil
  · intro call hcall
    rw [show (start cfg requestId body).batch.calls = [] from hstart.1] at hcall
    exact absurd hcall (by simp)
  · intro reason hr
    rw [show (start cfg requestId body).batch.aborted = none from hstart.2] at hr
    exact absurd hr (by simp)

/-- The calls a step of the handler has made begin their decisions. -/
theorem follow_answers {b b' : Batch} {P : DecisionInput → Prop} (hcalls : Batch.Calling P b b')
    {deciding : List Deciding} (h : List.Forall₂ (Answers cfg) b.calls deciding) :
    List.Forall₂ (Answers cfg) b'.calls (follow cfg deciding b').deciding := by
  obtain ⟨more, hmore, hout⟩ := hcalls
  have hdrop : b'.calls.drop deciding.length = more := by
    rw [hmore, ← h.length_eq, List.drop_left]
  show List.Forall₂ _ b'.calls (deciding ++ (b'.calls.drop deciding.length).map _)
  rw [hdrop, hmore]
  refine List.rel_append h ?_
  rw [List.forall₂_map_right_iff, List.forall₂_same]
  intro call hcall
  refine ⟨.start cfg call.entry call.input b'.aborted, ?_⟩
  intro o ho
  rw [(hout call hcall).1] at ho
  exact absurd ho (by simp)

/-- A step of the handler's own, with the decisions it leaves or aborts. -/
theorem handler_inv {events : List BatchDecisionsEvent} {s : BatchDecisions} {e : BatchEvent} {b : Batch}
    (h : Inv cfg requestId body events s) (hs : Batch.step (cfg.batch requestId) s.batch e = some b)
    (he : ∀ i o, e ≠ .settle i o) {deciding : List Deciding}
    (hdeciding : List.Forall₂ (Answers cfg) s.batch.calls deciding) :
    Inv cfg requestId body (events ++ [.handler e]) (follow cfg deciding b) := by
  have hcalls := Batch.step_calling hs he
  refine ⟨h.handler.step hs, follow_answers hcalls hdeciding, ?_, ?_⟩
  · obtain ⟨more, hmore, hout⟩ := hcalls
    intro call hcall
    have hold : ∀ c ∈ s.batch.calls, c.input.requestId = requestId ∧
        BatchDecisionsEvent.handler (.authenticated (.ok (.accepted c.input.subject))) ∈ events ++ [.handler e] := by
      intro c hc
      obtain ⟨hid, hmem⟩ := h.inputs c hc
      exact ⟨hid, List.mem_append_left _ hmem⟩
    rw [show (follow cfg deciding b).batch.calls = s.batch.calls ++ more from hmore] at hcall
    rcases List.mem_append.1 hcall with hcall | hcall
    · exact hold call hcall
    · rcases (hout call hcall).2 with ⟨subject, rfl, hinput⟩ | ⟨c, hc, hinput⟩
      · rw [hinput]
        exact ⟨rfl, List.mem_append_right _ List.mem_cons_self⟩
      · rw [hinput]
        exact hold c hc
  · intro reason hr
    rcases (Batch.step_said hs).2 with hsame | ⟨found, rfl, hor⟩
    · exact List.mem_append_left _ (h.aborted reason (hsame.symm.trans hr))
    · have hread : s.batch.aborted.or (some found) = some reason := hor.symm.trans hr
      cases ha : s.batch.aborted with
      | none =>
        rw [ha, Option.none_or] at hread
        obtain rfl := Option.some.inj hread
        exact List.mem_append_right _ List.mem_cons_self
      | some first =>
        rw [ha, Option.some_or] at hread
        exact List.mem_append_left _ (h.aborted reason (ha.trans hread))

/-- The caller leaving aborts every decision, and settles none otherwise. -/
theorem abort_answers {s : BatchDecisions} (h : List.Forall₂ (Answers cfg) s.batch.calls s.deciding)
    (reason : Thrown) : List.Forall₂ (Answers cfg) s.batch.calls (s.abort cfg reason) := by
  refine forall₂_zipWith_right h ?_
  rintro call d ⟨hruns, hsettled⟩
  exact ⟨hruns.abort reason, fun o ho => settled_decideAbort (hsettled o ho)⟩

/-- A decision moves on. -/
theorem decide_inv {events : List BatchDecisionsEvent} {s : BatchDecisions} {i : Nat} {e : DecideEvent}
    (h : Inv cfg requestId body events s) {call : DecideCall} {d d' : Deciding}
    (hcall : s.batch.calls[i]? = some call) (hd : s.deciding[i]? = some d)
    (hstep : cfg.decideStep call.entry call.input d e = some d') :
    Inv cfg requestId body (events ++ [.decide i e]) { s with deciding := s.deciding.set i d' } := by
  refine ⟨h.handler, forall₂_set_right h.deciding ?_, ?_, ?_⟩
  · intro found hfound
    obtain rfl := Option.some.inj (hcall.symm.trans hfound)
    obtain ⟨hruns, hsettled⟩ := forall₂_getElem? h.deciding hcall hd
    exact ⟨hruns.step hstep, fun o ho => Deciding.settled_step hstep (hsettled o ho)⟩
  · intro c hc
    obtain ⟨hid, hmem⟩ := h.inputs c hc
    exact ⟨hid, List.mem_append_left _ hmem⟩
  · intro reason hr
    exact List.mem_append_left _ (h.aborted reason hr)

/-- A call settles with what its decision settled with. -/
theorem settled_inv {events : List BatchDecisionsEvent} {s : BatchDecisions} {i : Nat} {b : Batch} {d : Deciding}
    {o : Except DecisionFault DecisionResponse} (h : Inv cfg requestId body events s)
    (hd : s.deciding[i]? = some d) (ho : d.settled = some o)
    (hs : Batch.step (cfg.batch requestId) s.batch (.settle i o) = some b) :
    Inv cfg requestId body (events ++ [.settled i]) { s with batch := b } := by
  have hreach := h.handler.step hs
  simp only [Batch.step] at hs
  split at hs
  · exact absurd hs (by simp)
  rename_i call hcall
  split at hs
  · exact absurd hs (by simp)
  obtain rfl := Option.some.inj hs
  obtain ⟨hruns, -⟩ := forall₂_getElem? h.deciding hcall hd
  refine ⟨hreach, forall₂_set_left h.deciding ?_, ?_, ?_⟩
  · intro found hfound
    obtain rfl := Option.some.inj (hd.symm.trans hfound)
    exact ⟨hruns, fun o' ho' => Option.some.inj ho' ▸ ho⟩
  · intro c hc
    rcases List.mem_or_eq_of_mem_set hc with hc | rfl
    · obtain ⟨hid, hmem⟩ := h.inputs c hc
      exact ⟨hid, List.mem_append_left _ hmem⟩
    · obtain ⟨hid, hmem⟩ := h.inputs call (List.mem_of_getElem? hcall)
      exact ⟨hid, List.mem_append_left _ hmem⟩
  · intro reason hr
    exact List.mem_append_left _ (h.aborted reason hr)

theorem step_inv {events : List BatchDecisionsEvent} {s s' : BatchDecisions} {e : BatchDecisionsEvent}
    (h : Inv cfg requestId body events s) (hs : s.step cfg requestId e = some s') :
    Inv cfg requestId body (events ++ [e]) s' := by
  cases e with
  | handler e =>
    by_cases hclose : ∃ reason, e = .close reason
    · obtain ⟨reason, rfl⟩ := hclose
      have hleft : (Batch.step (cfg.batch requestId) s.batch (.close reason)).map
          (follow cfg (s.abort cfg reason)) = some s' := hs
      obtain ⟨b, hb, rfl⟩ := Option.map_eq_some_iff.1 hleft
      exact handler_inv h hb (by simp) (abort_answers h.deciding reason)
    · have hown : (∀ i o, e ≠ .settle i o) ∧
          (Batch.step (cfg.batch requestId) s.batch e).map (follow cfg s.deciding) = some s' := by
        cases e with
        | settle i o => exact absurd hs (by simp [BatchDecisions.step])
        | close reason => exact absurd ⟨reason, rfl⟩ hclose
        | authenticated o => exact ⟨by simp, hs⟩
        | resume l => exact ⟨by simp, hs⟩
        | laneEnded l => exact ⟨by simp, hs⟩
        | proceed => exact ⟨by simp, hs⟩
      obtain ⟨b, hb, rfl⟩ := Option.map_eq_some_iff.1 hown.2
      exact handler_inv h hb hown.1 h.deciding
  | decide i e =>
    have hstep : ∃ call d d', s.batch.calls[i]? = some call ∧ s.deciding[i]? = some d ∧
        cfg.decideStep call.entry call.input d e = some d' ∧ s' = { s with deciding := s.deciding.set i d' } := by
      cases hcall : s.batch.calls[i]? with
      | none => exact absurd hs (by cases e <;> simp [BatchDecisions.step, hcall])
      | some call =>
        cases hd : s.deciding[i]? with
        | none => exact absurd hs (by cases e <;> simp [BatchDecisions.step, hcall, hd])
        | some d =>
          have hmap : (cfg.decideStep call.entry call.input d e).map
              (fun d => { s with deciding := s.deciding.set i d }) = some s' := by
            cases e with
            | callerAbort reason => exact absurd hs (by simp [BatchDecisions.step])
            | _ => simpa [BatchDecisions.step, hcall, hd] using hs
          obtain ⟨d', hd', rfl⟩ := Option.map_eq_some_iff.1 hmap
          exact ⟨call, d, d', rfl, rfl, hd', rfl⟩
    obtain ⟨call, d, d', hcall, hd, hd', rfl⟩ := hstep
    exact decide_inv h hcall hd hd'
  | settled i =>
    obtain ⟨o, hread, hmap⟩ := Option.bind_eq_some_iff.1 hs
    obtain ⟨d, hd, ho⟩ := Option.bind_eq_some_iff.1 hread
    obtain ⟨b, hb, rfl⟩ := Option.map_eq_some_iff.1 hmap
    exact settled_inv h hd ho hb

theorem run_inv {events : List BatchDecisionsEvent} {s : BatchDecisions}
    (h : Machine.run (BatchDecisions.step cfg requestId) (start cfg requestId body) events = some s) :
    Inv cfg requestId body events s :=
  Machine.run_history (start_inv cfg requestId body) (fun _ _ _ _ ha hs => step_inv ha hs) h

end BatchDecisions

end PolicyVerifier.Server
