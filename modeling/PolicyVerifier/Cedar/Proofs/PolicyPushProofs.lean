import Mathlib.Tactic.Linarith
import PolicyVerifier.Cedar.PolicyPush
import PolicyVerifier.Cedar.Proofs.AgentSetReadProofs
import PolicyVerifier.Cedar.Proofs.HttpEngineProofs
import PolicyVerifier.Cedar.Proofs.HttpLoadProofs
import PolicyVerifier.Cedar.Proofs.PolicyNamingProofs
import PolicyVerifier.Lib.Machine

/-!
# How a push ends

A push sends its set again only where nothing was answered to it before the deadline, as often as the deadline
leaves time for, and resolves with the agent's copy of exactly the set it sent.
-/

namespace PolicyVerifier.Cedar

open Js PolicyVerifier.Core

variable {F : Type}

/-! ## What a push is to come to -/

/-- What the requests of a run came to, in order. -/
def fetches (events : List (PushEvent F)) : List (Fetched F) :=
  events.filterMap fun
    | .settled fetched _ _ => some fetched
    | .fired _ => none

@[simp] theorem fetches_nil : fetches ([] : List (PushEvent F)) = [] := rfl

@[simp] theorem fetches_settled (events : List (PushEvent F)) (fetched : Fetched F) (clock : ℚ)
    (warn : Except Thrown Unit) : fetches (events ++ [.settled fetched clock warn]) = fetches events ++ [fetched] := by
  simp [fetches]

@[simp] theorem fetches_fired (events : List (PushEvent F)) (clock : ℚ) :
    fetches (events ++ [.fired clock]) = fetches events := by
  simp [fetches]

variable [DecidableEq F] (platform : ReadPlatform F) (call : PushCall)

/-- How the last of some requests failed. -/
def lastFailure (fetched : List (Fetched F)) : Option Str :=
  fetched.getLast?.bind fun
    | .rejected failure => some (describeFailure platform.failures failure.cause)
    | .answered _ => none

/-- What the last request of a push ends it with, after requests that were all rejected in time. -/
def EndsWith (deadline : ℚ) (before : List (Fetched F)) (clock : ℚ) (warn : Except Thrown Unit)
    (outcome : Except Thrown AgentPolicySet) : Fetched F → Prop
  | .answered response => outcome = pushAnswered platform call response
  | .rejected failure =>
    if failure.aborted then outcome = pushLate call (before.length + 1) (lastFailure platform before)
    else
      (deadline ≤ clock + call.retryMs ∧
        outcome = pushUnreachable call (before.length + 1) (describeFailure platform.failures failure.cause)) ∨
      ∃ cause, clock + call.retryMs < deadline ∧ warn = .error cause ∧ outcome = .error cause

/-- What the events of a push say of where it is. -/
structure PushInv (deadline : ℚ) (events : List (PushEvent F)) (s : PolicyPush) : Prop where
  due : s.deadline = deadline
  requests : ∀ request ∈ s.requests, request.url = call.endpoint ++ js "/v1/policies" ∧
    request.headers = call.headers ∧ request.body = call.policies ∧ request.redirect = js "manual" ∧
    1 ≤ request.timeoutMs ∧ request.sentAt + request.timeoutMs = max (request.sentAt + 1) deadline
  attempts : s.requests.length = s.attempt
  sending : s.phase = .sending → (∀ fetched ∈ fetches events, RejectedInTime fetched) ∧
    s.attempt = (fetches events).length + 1 ∧ s.previousFailure = lastFailure platform (fetches events) ∧
    events.length + 1 = 2 * (fetches events).length + 1
  waiting : s.phase = .waiting → (∀ fetched ∈ fetches events, RejectedInTime fetched) ∧
    s.attempt = (fetches events).length ∧ s.previousFailure = lastFailure platform (fetches events) ∧
    events.length + 1 = 2 * (fetches events).length
  settled : ∀ outcome, s.phase = .settled outcome → ∃ before fetched clock warn,
    events = before ++ [.settled fetched clock warn] ∧ (∀ earlier ∈ fetches before, RejectedInTime earlier) ∧
    s.attempt = (fetches before).length + 1 ∧ before.length + 1 = 2 * (fetches before).length + 1 ∧
    EndsWith platform call deadline (fetches before) clock warn outcome fetched

/-- A request's signal ends by the deadline, or a millisecond after the request was sent. -/
theorem signal_ends (clock deadline : ℚ) : clock + max 1 (deadline - clock) = max (clock + 1) deadline := by
  rw [← max_add_add_left, add_sub_cancel]

theorem pushInv_start (now clock : ℚ) :
    PushInv platform call (now + call.loadTimeoutMs) [] (PolicyPush.start call now clock) where
  due := rfl
  requests := by
    intro request hrequest
    obtain rfl := List.mem_singleton.1 hrequest
    exact ⟨rfl, rfl, rfl, rfl, le_max_left _ _, signal_ends _ _⟩
  attempts := rfl
  sending := fun _ => ⟨by simp, rfl, rfl, rfl⟩
  waiting := fun h => absurd h (by simp [PolicyPush.start, PolicyPush.send])
  settled := fun outcome h => absurd h (by simp [PolicyPush.start, PolicyPush.send])

variable {platform call}

/-- A request that is rejected in time is followed by the retry's wait, or by the end. -/
theorem PushInv.rejected {deadline : ℚ} {events : List (PushEvent F)} {s : PolicyPush}
    (inv : PushInv platform call deadline events s) (hphase : s.phase = .sending) (failure : CaughtFailure F)
    (clock : ℚ) (warn : Except Thrown Unit) :
    PushInv platform call deadline (events ++ [.settled (.rejected failure) clock warn])
      (s.rejected platform call failure clock warn) := by
  obtain ⟨hearlier, hattempt, hprevious, hlength⟩ := inv.sending hphase
  have hends : ∀ outcome s', s'.phase = .settled outcome → s'.deadline = s.deadline → s'.requests = s.requests →
      s'.attempt = s.attempt →
      EndsWith platform call deadline (fetches events) clock warn outcome (.rejected failure) →
      PushInv platform call deadline (events ++ [.settled (.rejected failure) clock warn]) s' := by
    intro outcome s' hsettled hdeadline hrequests hcount hend
    refine ⟨hdeadline.trans inv.due, hrequests ▸ inv.requests, ?_, ?_, ?_, ?_⟩
    · rw [hrequests, inv.attempts, hcount]
    · intro h
      exact absurd (hsettled.symm.trans h) (by simp)
    · intro h
      exact absurd (hsettled.symm.trans h) (by simp)
    · intro outcome' h
      obtain rfl := PushPhase.settled.inj (hsettled.symm.trans h)
      exact ⟨events, .rejected failure, clock, warn, rfl, hearlier, hcount.trans hattempt, hlength, hend⟩
  unfold PolicyPush.rejected
  by_cases haborted : failure.aborted = true
  · rw [if_pos haborted]
    refine hends _ _ rfl rfl rfl rfl ?_
    rw [EndsWith, if_pos haborted, ← hattempt, ← hprevious]
  · rw [if_neg haborted]
    dsimp only
    by_cases hlate : s.deadline ≤ clock + call.retryMs
    · rw [if_pos hlate]
      refine hends _ _ rfl rfl rfl rfl ?_
      rw [EndsWith, if_neg haborted, ← hattempt, ← inv.due]
      exact Or.inl ⟨hlate, rfl⟩
    · rw [if_neg hlate]
      cases hwarn : warn with
      | error cause =>
        subst hwarn
        refine hends _ _ rfl rfl rfl rfl ?_
        rw [EndsWith, if_neg haborted, ← inv.due]
        exact Or.inr ⟨cause, not_le.1 hlate, rfl, rfl⟩
      | ok _ =>
        -- the push waits, and its next request is one more
        refine ⟨inv.due, inv.requests, inv.attempts, fun h => absurd h (by simp), fun _ => ⟨?_, ?_, ?_, ?_⟩,
          fun outcome h => absurd h (by simp)⟩
        · rw [fetches_settled]
          intro fetched hfetched
          rcases List.mem_append.1 hfetched with hold | hnew
          · exact hearlier fetched hold
          · obtain rfl := List.mem_singleton.1 hnew
            exact ⟨failure, rfl, by simpa using haborted⟩
        · rw [fetches_settled, List.length_append]
          exact hattempt
        · rw [fetches_settled, lastFailure, List.getLast?_append_of_ne_nil _ (by simp)]
          rfl
        · rw [fetches_settled, List.length_append, List.length_append, List.length_singleton, List.length_singleton]
          omega

theorem PushInv.step {deadline : ℚ} {events : List (PushEvent F)} {s s' : PolicyPush} {event : PushEvent F}
    (inv : PushInv platform call deadline events s) (h : s.step platform call event = some s') :
    PushInv platform call deadline (events ++ [event]) s' := by
  cases event with
  | settled fetched clock warn =>
    unfold PolicyPush.step at h
    cases hphase : s.phase with
    | sending =>
      rw [hphase] at h
      cases fetched with
      | rejected failure =>
        obtain rfl := Option.some.inj h
        exact inv.rejected hphase failure clock warn
      | answered response =>
        obtain rfl := Option.some.inj h
        obtain ⟨hearlier, hattempt, -, hlength⟩ := inv.sending hphase
        refine ⟨inv.due, inv.requests, inv.attempts, fun h => absurd h (by simp [PolicyPush.settle]),
          fun h => absurd h (by simp [PolicyPush.settle]), fun outcome h => ?_⟩
        obtain rfl := PushPhase.settled.inj h
        exact ⟨events, .answered response, clock, warn, rfl, hearlier, hattempt, hlength, rfl⟩
    | waiting =>
      rw [hphase] at h
      exact absurd h (by simp)
    | settled outcome =>
      rw [hphase] at h
      exact absurd h (by simp)
  | fired clock =>
    unfold PolicyPush.step at h
    cases hphase : s.phase with
    | waiting =>
      rw [hphase] at h
      obtain rfl := Option.some.inj h
      obtain ⟨hearlier, hattempt, hprevious, hlength⟩ := inv.waiting hphase
      refine ⟨inv.due, ?_, ?_, fun _ => ⟨?_, ?_, ?_, ?_⟩, fun h => absurd h (by simp [PolicyPush.send]),
        fun outcome h => absurd h (by simp [PolicyPush.send])⟩
      · intro request hrequest
        rcases List.mem_append.1 hrequest with hold | hnew
        · exact inv.requests request hold
        · obtain rfl := List.mem_singleton.1 hnew
          refine ⟨rfl, rfl, rfl, rfl, le_max_left _ _, ?_⟩
          rw [← inv.due]
          exact signal_ends _ _
      · rw [PolicyPush.send, List.length_append, inv.attempts]
        rfl
      · rw [fetches_fired]
        exact hearlier
      · rw [fetches_fired, PolicyPush.send, hattempt]
      · rw [fetches_fired]
        exact hprevious
      · rw [fetches_fired, List.length_append, List.length_singleton]
        omega
    | sending =>
      rw [hphase] at h
      exact absurd h (by simp)
    | settled outcome =>
      rw [hphase] at h
      exact absurd h (by simp)

theorem pushInv_run {now clock : ℚ} {events : List (PushEvent F)} {s : PolicyPush}
    (h : Machine.run (PolicyPush.step platform call) (PolicyPush.start call now clock) events = some s) :
    PushInv platform call (now + call.loadTimeoutMs) events s :=
  Machine.run_history (pushInv_start platform call now clock) (fun _ _ _ _ inv hstep => inv.step hstep) h

/-! ## The copy -/

/-- The agent's copy of a set: the list of policies a 2xx within the bound was read as, which has the ids that were
sent and no other. -/
def AgentCopy (platform : ReadPlatform F) (call : PushCall) (response : AgentResponse F) (copy : AgentPolicySet) :
    Prop :=
  response.ok = true ∧ (∃ text, ReadWhole platform response call.maxAnswerBytes text ∧
    ∃ body, platform.json text = some body ∧ IsSetOf body copy.entries) ∧
  copy.entries.length = call.policies.length ∧ ∀ policy ∈ call.policies, copy.has policy.1 = true

theorem pushedCopy_ok_iff {response : AgentResponse F} {copy : AgentPolicySet} :
    pushedCopy platform call response = .ok copy ↔
      (∃ text, ReadWhole platform response call.maxAnswerBytes text ∧
        ∃ body, platform.json text = some body ∧ IsSetOf body copy.entries) ∧
      copy.entries.length = call.policies.length ∧ ∀ policy ∈ call.policies, copy.has policy.1 = true := by
  unfold pushedCopy
  simp only [← boundedText_eq_some_iff, ← agentPolicySetOf_eq_some_iff]
  cases boundedText platform response call.maxAnswerBytes with
  | error failure => simp [cedarEngineError]
  | ok text =>
    cases text with
    | none => simp [cedarEngineError]
    | some text =>
      simp only [Except.ok.injEq, Option.some.injEq, exists_eq_left', parseJson]
      have hset : (∃ body, platform.json text = some body ∧ agentPolicySetOf body = some copy) ↔
          agentPolicySetOf ((platform.json text).getD .undefined) = some copy := by
        cases platform.json text with
        | none => simp [agentPolicySetOf, Value.items?]
        | some body => simp
      rw [hset]
      cases agentPolicySetOf ((platform.json text).getD .undefined) with
      | none => simp [pushedCopy.notTheSet, cedarEngineError]
      | some read =>
        dsimp only
        by_cases hsame : read.entries.length ≠ call.policies.length ∨
            call.policies.any (fun policy => !read.has policy.1) = true
        · rw [if_pos hsame]
          refine iff_of_false (by simp [pushedCopy.notTheSet, cedarEngineError]) ?_
          rintro ⟨hread, hlength, hall⟩
          obtain rfl := Option.some.inj hread
          rcases hsame with hne | hany
          · exact hne hlength
          · obtain ⟨policy, hpolicy, hhas⟩ := List.any_eq_true.1 hany
            rw [hall policy hpolicy] at hhas
            exact absurd hhas (by simp)
        · rw [if_neg hsame]
          rw [not_or, not_not, Bool.not_eq_true, List.any_eq_false] at hsame
          rw [Except.ok.injEq, Option.some.injEq]
          refine ⟨fun hread => ⟨hread, ?_⟩, fun h => h.1⟩
          subst hread
          exact ⟨hsame.1, fun policy hpolicy => by simpa using hsame.2 policy hpolicy⟩

theorem pushAnswered_ok_iff {response : AgentResponse F} {copy : AgentPolicySet} :
    pushAnswered platform call response = .ok copy ↔ AgentCopy platform call response copy := by
  unfold pushAnswered AgentCopy
  dsimp only
  by_cases hok : response.ok = true
  · rw [if_pos hok, pushedCopy_ok_iff]
    exact (and_iff_right hok).symm
  · rw [if_neg hok]
    refine iff_of_false ?_ fun h => hok h.1
    split
    · simp [cedarEngineError]
    · split
      · simp [cedarEngineError]
      · simp [cedarEngineError]

omit [DecidableEq F] in
/-- Where no id was sent twice, the copy's ids are those that were sent. -/
theorem AgentCopy.ids {response : AgentResponse F} {copy : AgentPolicySet}
    (h : AgentCopy platform call response copy) (hsent : (call.policies.map Prod.fst).Nodup) :
    copy.keys.Perm (call.policies.map Prod.fst) := by
  obtain ⟨-, -, hlength, hall⟩ := h
  have hsub : call.policies.map Prod.fst ⊆ copy.keys := by
    intro id hid
    obtain ⟨policy, hpolicy, rfl⟩ := List.mem_map.1 hid
    exact (OrderedMap.get?_isSome_iff copy policy.1).1 (hall policy hpolicy)
  refine ((List.subperm_of_subset hsent hsub).perm_of_length_le ?_).symm
  rw [OrderedMap.keys, List.length_map, List.length_map, hlength]

/-! ## Time -/

/-- The clock goes on, and a timer does not fire before its time. -/
def Timely (call : PushCall) (s : PolicyPush) : PushEvent F → Prop
  | .settled _ clock _ => s.clock ≤ clock
  | .fired clock => s.clock + call.retryMs ≤ clock

/-- What the clock says of the requests that were sent. -/
structure PushClock (call : PushCall) (now : ℚ) (s : PolicyPush) : Prop where
  deadline : s.deadline = now + call.loadTimeoutMs
  first : 1 ≤ s.attempt
  spent : now + (s.attempt - 1) * call.retryMs ≤ s.clock
  time : s.attempt = 1 ∨ ((s.attempt : ℚ) - 1) * call.retryMs < call.loadTimeoutMs
  waiting : s.phase = .waiting → s.clock + call.retryMs < s.deadline
  timeouts : ∀ request ∈ s.requests, request.timeoutMs ≤ max 1 (call.loadTimeoutMs : ℚ)

omit [DecidableEq F] in
theorem pushClock_start {now clock : ℚ} (h : now ≤ clock) :
    PushClock call now (PolicyPush.start call now clock) where
  deadline := rfl
  first := le_refl 1
  spent := by
    show now + ((1 : ℕ) - 1) * (call.retryMs : ℚ) ≤ clock
    simpa using h
  time := Or.inl rfl
  waiting := fun h => absurd h (by simp [PolicyPush.start, PolicyPush.send])
  timeouts := by
    intro request hrequest
    obtain rfl := List.mem_singleton.1 hrequest
    refine max_le_max (le_refl 1) ?_
    show now + (call.loadTimeoutMs : ℚ) - clock ≤ call.loadTimeoutMs
    linarith

theorem PushClock.step {now : ℚ} {s s' : PolicyPush} {event : PushEvent F} (inv : PushClock call now s)
    (htimely : Timely call s event) (h : s.step platform call event = some s') : PushClock call now s' := by
  cases event with
  | settled fetched clock warn =>
    have hclock : s.clock ≤ clock := htimely
    unfold PolicyPush.step at h
    cases hphase : s.phase with
    | sending =>
      rw [hphase] at h
      have hsettle : ∀ outcome, PushClock call now (s.settle outcome) := fun outcome =>
        ⟨inv.deadline, inv.first, inv.spent, inv.time, fun h => absurd h (by simp [PolicyPush.settle]), inv.timeouts⟩
      cases fetched with
      | answered response =>
        obtain rfl := Option.some.inj h
        exact hsettle _
      | rejected failure =>
        obtain rfl := Option.some.inj h
        unfold PolicyPush.rejected
        split
        · exact hsettle _
        · dsimp only
          split
          · exact ⟨inv.deadline, inv.first, inv.spent.trans hclock, inv.time,
              fun h => absurd h (by simp [PolicyPush.settle]), inv.timeouts⟩
          · rename_i hlate
            cases warn with
            | error cause =>
              exact ⟨inv.deadline, inv.first, inv.spent.trans hclock, inv.time,
                fun h => absurd h (by simp [PolicyPush.settle]), inv.timeouts⟩
            | ok _ =>
              exact ⟨inv.deadline, inv.first, inv.spent.trans hclock, inv.time, fun _ => not_le.1 hlate,
                inv.timeouts⟩
    | waiting =>
      rw [hphase] at h
      exact absurd h (by simp)
    | settled outcome =>
      rw [hphase] at h
      exact absurd h (by simp)
  | fired clock =>
    have hclock : s.clock + call.retryMs ≤ clock := htimely
    unfold PolicyPush.step at h
    cases hphase : s.phase with
    | waiting =>
      rw [hphase] at h
      obtain rfl := Option.some.inj h
      have htime := inv.waiting hphase
      have hdeadline := inv.deadline
      have hspent := inv.spent
      -- the time the requests so far have taken, and the retry's own, are within the deadline
      have hnext : now + s.attempt * call.retryMs ≤ clock := by linarith
      have hmore : (s.attempt : ℚ) * call.retryMs < call.loadTimeoutMs := by linarith
      have hcount : ((s.attempt + 1 : ℕ) : ℚ) - 1 = s.attempt := by
        push_cast
        ring
      refine ⟨inv.deadline, Nat.le_add_left 1 _, ?_, Or.inr ?_, fun h => absurd h (by simp [PolicyPush.send]), ?_⟩
      · show now + (((s.attempt + 1 : ℕ) : ℚ) - 1) * call.retryMs ≤ clock
        rw [hcount]
        exact hnext
      · show (((s.attempt + 1 : ℕ) : ℚ) - 1) * call.retryMs < call.loadTimeoutMs
        rw [hcount]
        exact hmore
      · intro request hrequest
        rcases List.mem_append.1 hrequest with hold | hnew
        · exact inv.timeouts request hold
        · obtain rfl := List.mem_singleton.1 hnew
          refine max_le_max (le_refl 1) ?_
          have hretry : (0 : ℚ) ≤ s.attempt * call.retryMs := by positivity
          show s.deadline - clock ≤ call.loadTimeoutMs
          linarith
    | sending =>
      rw [hphase] at h
      exact absurd h (by simp)
    | settled outcome =>
      rw [hphase] at h
      exact absurd h (by simp)

/-! ## Two copies of a set -/

/-- Two copies are the same where they hold the same under every id. -/
theorem sameAgentSet_iff {a b : AgentPolicySet} : sameAgentSet a b = true ↔ ∀ id, a.get? id = b.get? id := by
  have hall : (a.entries.all fun entry => decide (b.get? entry.1 = some entry.2)) = true ↔
      ∀ entry ∈ a.entries, b.get? entry.1 = some entry.2 := by simp
  rw [sameAgentSet, Bool.and_eq_true, decide_eq_true_iff, hall]
  constructor
  · rintro ⟨hlength, hsame⟩
    have hsub : a.entries ⊆ b.entries := fun entry hentry =>
      (OrderedMap.get?_eq_some_iff b entry.1 entry.2).1 (hsame entry hentry)
    have hperm : a.entries.Perm b.entries :=
      (List.subperm_of_subset (List.Nodup.of_map _ a.nodup) hsub).perm_of_length_le (le_of_eq hlength.symm)
    intro id
    refine Option.ext fun content => ?_
    rw [OrderedMap.get?_eq_some_iff, OrderedMap.get?_eq_some_iff, hperm.mem_iff]
  · intro hsame
    have hmem : ∀ entry, entry ∈ a.entries ↔ entry ∈ b.entries := by
      intro entry
      rw [← OrderedMap.get?_eq_some_iff a entry.1 entry.2, hsame entry.1, OrderedMap.get?_eq_some_iff]
    have hperm : a.entries.Perm b.entries :=
      (List.perm_ext_iff_of_nodup (List.Nodup.of_map _ a.nodup) (List.Nodup.of_map _ b.nodup)).2 hmem
    refine ⟨hperm.length_eq, fun entry hentry => ?_⟩
    rw [← hsame entry.1]
    exact (OrderedMap.get?_eq_some_iff a entry.1 entry.2).2 hentry

theorem keys_perm {a b : AgentPolicySet} (h : ∀ id, a.get? id = b.get? id) : a.keys.Perm b.keys := by
  refine (List.perm_ext_iff_of_nodup a.nodup_keys b.nodup_keys).2 fun id => ?_
  rw [← OrderedMap.get?_isSome_iff, ← OrderedMap.get?_isSome_iff, h id]

/-- No id of a load is pushed twice. -/
theorem pushed_nodup {sha256 : Str → Digest} {platform : Platform} {call : LoadCall sha256} {job : LoadJob}
    (h : prepare platform call = .ok job) : (job.policies.map Prod.fst).Nodup := by
  obtain ⟨named, hnames, hpolicies, -⟩ := prepare_ok h
  obtain ⟨-, hnodup, rfl⟩ := namePolicies_ok_iff.1 hnames
  have hids : ((layout (call.source.files.filter nonBlank) fun file => [file.text]).map fun policy =>
      (agentPolicyId policy.id call.source.revision, policy.text)).map Prod.fst =
      ((layout (call.source.files.filter nonBlank) fun file => [file.text]).map NamedPolicy.id).map
        fun id => agentPolicyId id call.source.revision := by
    rw [List.map_map, List.map_map]
    rfl
  rw [hpolicies, hids]
  exact hnodup.map fun _ _ hsame => agentPolicyId_inj hsame

/-! ## The law -/

/-- How the requests of a push follow each other, and what it ends with. -/
structure PushLaw (platform : ReadPlatform F) (call : PushCall) (now clock : ℚ) (events : List (PushEvent F))
    (s : PolicyPush) : Prop where
  /-- Every request carries the whole set to the endpoint that was configured, and to no other, under a signal that
  ends by the deadline, or a millisecond after the request was sent where the deadline is no later than that. -/
  sent : ∀ request ∈ s.requests, request.url = call.endpoint ++ js "/v1/policies" ∧
    request.headers = call.headers ∧ request.body = call.policies ∧ request.redirect = js "manual" ∧
    1 ≤ request.timeoutMs ∧
    request.sentAt + request.timeoutMs = max (request.sentAt + 1) (now + call.loadTimeoutMs)
  /-- What settles a request otherwise than by rejecting it before the deadline ends the push: nothing is sent after
  any answer. -/
  once : ∀ before fetched clock warn after, events = before ++ .settled fetched clock warn :: after →
    ¬ RejectedInTime fetched → after = [] ∧ ∃ outcome, s.phase = .settled outcome
  /-- It ends with what its last request came to, and says how many were sent and how the one before it failed. -/
  ends : ∀ outcome, s.phase = .settled outcome → ∃ before fetched clock warn,
    events = before ++ [.settled fetched clock warn] ∧ (∀ earlier ∈ fetches before, RejectedInTime earlier) ∧
    s.requests.length = (fetches before).length + 1 ∧
    EndsWith platform call (now + call.loadTimeoutMs) (fetches before) clock warn outcome fetched
  /-- It resolves with the agent's own copy of the set, where it answered one. -/
  resolves : ∀ copy, s.phase = .settled (.ok copy) ↔ ∃ before response clock warn,
    events = before ++ [.settled (.answered response) clock warn] ∧ AgentCopy platform call response copy
  /-- It does not go on for ever where the clock goes on and no timer is early: the pauses between its requests fit
  into the deadline, and no signal is longer. -/
  bounded : now ≤ clock → (∀ a e b,
      Machine.Occurs (PolicyPush.step platform call) (PolicyPush.start call now clock) events a e b → Timely call a e) →
    events.length < 2 * s.requests.length ∧
    (s.requests.length = 1 ∨ ((s.requests.length : ℚ) - 1) * call.retryMs < call.loadTimeoutMs) ∧
    ∀ request ∈ s.requests, request.timeoutMs ≤ max 1 (call.loadTimeoutMs : ℚ)

/-- An end that resolves is an answer's. -/
theorem EndsWith.resolves {deadline : ℚ} {before : List (Fetched F)} {clock : ℚ} {warn : Except Thrown Unit}
    {copy : AgentPolicySet} {fetched : Fetched F}
    (h : EndsWith platform call deadline before clock warn (.ok copy) fetched) :
    ∃ response, fetched = .answered response ∧ AgentCopy platform call response copy := by
  cases fetched with
  | answered response => exact ⟨response, rfl, pushAnswered_ok_iff.1 (Eq.symm h)⟩
  | rejected failure =>
    rw [EndsWith] at h
    split at h
    · exact absurd h (by simp [pushLate, cedarEngineError])
    · rcases h with ⟨-, hunreachable⟩ | ⟨cause, -, -, hthrown⟩
      · exact absurd hunreachable (by simp [pushUnreachable, cedarEngineError])
      · exact absurd hthrown (by simp)

theorem pushLaw {now clock : ℚ} {events : List (PushEvent F)} {s : PolicyPush}
    (h : Machine.run (PolicyPush.step platform call) (PolicyPush.start call now clock) events = some s) :
    PushLaw platform call now clock events s := by
  have inv := pushInv_run h
  have honce : ∀ before fetched at_ warn after, events = before ++ .settled fetched at_ warn :: after →
      ¬ RejectedInTime fetched → after = [] ∧ ∃ outcome, s.phase = .settled outcome := by
    intro before fetched at_ warn after hevents hnot
    have hmem : fetched ∈ fetches events := by
      rw [hevents]
      exact List.mem_filterMap.2 ⟨.settled fetched at_ warn, by simp, rfl⟩
    cases hphase : s.phase with
    | sending => exact absurd ((inv.sending hphase).1 fetched hmem) hnot
    | waiting => exact absurd ((inv.waiting hphase).1 fetched hmem) hnot
    | settled outcome =>
      obtain ⟨earlier, last, clock', warn', hlast, hearlier, -⟩ := inv.settled outcome hphase
      refine ⟨?_, outcome, rfl⟩
      rcases List.eq_nil_or_concat after with rfl | ⟨front, final, rfl⟩
      · rfl
      · -- the request would stand before the last one, and these were all rejected in time
        have hsplit : (before ++ .settled fetched at_ warn :: front) ++ [final] =
            earlier ++ [.settled last clock' warn'] := by
          rw [← hlast, hevents]
          simp
        obtain ⟨rfl, -⟩ := List.append_inj' hsplit rfl
        exact absurd (hearlier fetched (List.mem_filterMap.2 ⟨.settled fetched at_ warn, by simp, rfl⟩)) hnot
  refine ⟨inv.requests, honce, ?_, fun copy => ⟨fun hphase => ?_, ?_⟩, fun hstart htimely => ?_⟩
  · intro outcome hphase
    obtain ⟨before, fetched, clock', warn', hevents, hearlier, hattempt, -, hend⟩ := inv.settled outcome hphase
    exact ⟨before, fetched, clock', warn', hevents, hearlier, inv.attempts.trans hattempt, hend⟩
  · obtain ⟨before, fetched, clock', warn', hevents, -, -, -, hend⟩ := inv.settled _ hphase
    obtain ⟨response, rfl, hcopy⟩ := hend.resolves
    exact ⟨before, response, clock', warn', hevents, hcopy⟩
  · rintro ⟨before, response, clock', warn', hevents, hcopy⟩
    have hnot : ¬ RejectedInTime (.answered response) := by
      rintro ⟨failure, hfailure, -⟩
      exact absurd hfailure (by simp)
    obtain ⟨-, outcome, hphase⟩ := honce before _ clock' warn' [] hevents hnot
    obtain ⟨before', fetched, clock'', warn'', hevents', -, -, -, hend⟩ := inv.settled outcome hphase
    have hsplit : before ++ [.settled (.answered response) clock' warn'] =
        before' ++ [.settled fetched clock'' warn''] := by rw [← hevents, hevents']
    obtain ⟨-, hlast⟩ := List.append_inj' hsplit rfl
    obtain ⟨rfl, -, -⟩ := PushEvent.settled.inj (List.singleton_inj.1 hlast)
    have houtcome : outcome = pushAnswered platform call response := hend
    rw [hphase, houtcome, pushAnswered_ok_iff.2 hcopy]
  · have hclock : PushClock call now s := by
      refine Machine.run_invariant_of_guard (G := fun a e => Timely call a e)
        (fun a e b hinv hguard hstep => hinv.step hguard hstep) (pushClock_start hstart) htimely h
    refine ⟨?_, ?_, hclock.timeouts⟩
    · rw [inv.attempts]
      cases hphase : s.phase with
      | sending =>
        obtain ⟨-, hattempt, -, hlength⟩ := inv.sending hphase
        omega
      | waiting =>
        obtain ⟨-, hattempt, -, hlength⟩ := inv.waiting hphase
        have hfirst := hclock.first
        omega
      | settled outcome =>
        obtain ⟨before, fetched, clock', warn', hevents, -, hattempt, hlength, -⟩ := inv.settled outcome hphase
        rw [hevents, List.length_append, List.length_singleton]
        omega
    · rw [inv.attempts]
      exact hclock.time

/-- What a load boots on: the set that `load` makes of its source where the push is accepted, and the agent's own copy
of exactly its ids, read back as it was accepted. -/
structure BootsOn {sha256 : Str → Digest} (load : LoadCall sha256) (job : LoadJob) (pushed : AgentPolicySet) :
    Prop where
  loads : ∀ push : List (Str × Str) → Except Str Unit, push job.policies = .ok () →
    loadHttp job.set.endpoint push load.source = .ok job.set
  ids : pushed.keys.Perm (job.policies.map Prod.fst)
  readBack : ∀ outcome clock draw system, readBackOf job pushed outcome clock draw = .ok system →
    ∃ held, outcome = .ok (.held held) ∧ (∀ id, held.get? id = pushed.get? id) ∧
      held.keys.Perm (job.policies.map Prod.fst) ∧ system.readBack.baseline = pushed ∧ system.readBack.refusal = none

theorem readBackOf_ok {job : LoadJob} {pushed : AgentPolicySet} {outcome : Except Thrown AgentSetRead}
    {clock : Except Thrown ℚ} {draw : Option ℚ} {system : ReadBackSystem}
    (h : readBackOf job pushed outcome clock draw = .ok system) :
    ∃ held, outcome = .ok (.held held) ∧ sameAgentSet held pushed = true ∧ system.readBack.baseline = pushed ∧
      system.readBack.refusal = none := by
  obtain ⟨first, hfirst, h⟩ := ExceptFold.bind_eq_ok h
  cases first with
  | unverifiable reason => exact absurd h (by simp [unlike])
  | held held =>
    by_cases hsame : sameAgentSet held pushed = true
    · rw [unlike, if_pos hsame] at h
      obtain ⟨at_, -, h⟩ := ExceptFold.bind_eq_ok h
      obtain rfl := Except.ok.inj h
      exact ⟨held, hfirst, hsame, rfl, rfl⟩
    · rw [unlike, if_neg hsame] at h
      exact absurd h (by simp)

/-- However the requests of a load's push settle, and whenever: it is sent again only where nothing was answered, it
ends in bounded time, and the load boots only on an agent that holds exactly its set. -/
theorem load_boots_on_own_set {sha256 : Str → Digest} (platform : ReadPlatform F) (urls : Platform)
    (load : LoadCall sha256) (job : LoadJob) (hprepare : prepare urls load = .ok job) (now clock : ℚ)
    (events : List (PushEvent F)) (s : PolicyPush)
    (hrun : Machine.run (PolicyPush.step platform (load.push job)) (PolicyPush.start (load.push job) now clock) events =
      some s) :
    PushLaw platform (load.push job) now clock events s ∧
      ∀ pushed, s.phase = .settled (.ok pushed) → BootsOn load job pushed := by
  have law := pushLaw hrun
  refine ⟨law, fun pushed hphase => ?_⟩
  obtain ⟨before, response, at_, warn, -, hcopy⟩ := (law.resolves pushed).1 hphase
  have hids := hcopy.ids (pushed_nodup hprepare)
  refine ⟨fun push hpush => loadHttp_of_prepare hprepare hpush, hids, fun outcome at_ draw system hread => ?_⟩
  obtain ⟨held, hheld, hsame, hbaseline, hrefusal⟩ := readBackOf_ok hread
  have hget := sameAgentSet_iff.1 hsame
  exact ⟨held, hheld, hget, (keys_perm hget).trans hids, hbaseline, hrefusal⟩

/-- The load of a permit into that agent. -/
def permitLoad : LoadCall fun _ => permitDigest where
  source := permitSource
  config := { endpoint := .str (js "http://127.0.0.1:8180") }

/-- What the agent answers the push with. -/
def permitCopyText : Str :=
  js "[\x7b\"id\":\"10-permit@02e91050ebf7521a\",\"content\":\"permit(principal, action, resource);\"\x7d]"

/-- Failures that are their message, and `JSON.parse` on that answer. -/
def permitPlatform : ReadPlatform Str where
  number _ := .nan
  json text :=
    if text = permitCopyText then
      some (.list [.obj 0
        [(js "id", .str (js "10-permit@02e91050ebf7521a")),
          (js "content", .str (js "permit(principal, action, resource);"))]])
    else none
  failures :=
    { isError := fun _ => some true, string := fun _ => none, message := some
      isAggregateError := fun _ => some false, errors := fun _ => none, code := fun _ => some none
      cause := fun _ => some none }

/-- An agent that is not up yet, and answers the second request. -/
def permitRun : List (PushEvent Str) :=
  [.settled (.rejected { cause := some (js "fetch failed"), aborted := false }) 20 (.ok ()), .fired 520,
    .settled (.answered { status := 200, body := some { chunks := [utf8Bytes permitCopyText] } }) 540 (.ok ())]

variable (platform call) in
theorem rejected_waits (s : PolicyPush) (failure : CaughtFailure F) {clock : ℚ} (haborted : failure.aborted = false)
    (htime : clock + call.retryMs < s.deadline) :
    s.rejected platform call failure clock (.ok ()) =
      { s with previousFailure := some (describeFailure platform.failures failure.cause), clock, phase := .waiting } := by
  rw [PolicyPush.rejected, haborted, if_neg (by simp)]
  dsimp only
  rw [if_neg (not_le.2 htime)]

set_option maxRecDepth 4000 in
theorem load_boots_on_permit : ∃ job s pushed, prepare localPlatform permitLoad = .ok job ∧
    Machine.run (PolicyPush.step permitPlatform (permitLoad.push job)) (PolicyPush.start (permitLoad.push job) 0 0)
      permitRun = some s ∧
    s.phase = .settled (.ok pushed) ∧ PushLaw permitPlatform (permitLoad.push job) 0 0 permitRun s ∧
    BootsOn permitLoad job pushed := by
  obtain ⟨job, pushed, hprepare, hanswer⟩ : ∃ job pushed, prepare localPlatform permitLoad = .ok job ∧
      pushAnswered permitPlatform (permitLoad.push job)
        { status := 200, body := some { chunks := [utf8Bytes permitCopyText] } } = .ok pushed := ⟨_, _, rfl, by rfl⟩
  obtain ⟨s, hrun, hphase⟩ : ∃ s, Machine.run (PolicyPush.step permitPlatform (permitLoad.push job))
      (PolicyPush.start (permitLoad.push job) 0 0) permitRun = some s ∧ s.phase = .settled (.ok pushed) := by
    have htime : (20 : ℚ) + (permitLoad.push job).retryMs <
        (PolicyPush.start (permitLoad.push job) 0 0).deadline := by
      show (20 : ℚ) + (500 : ℕ) < 0 + (10000 : ℕ)
      norm_num
    have hwaits := rejected_waits permitPlatform (permitLoad.push job) (PolicyPush.start (permitLoad.push job) 0 0)
      { cause := some (js "fetch failed"), aborted := false } rfl htime
    refine ⟨_, Machine.run_cons_eq_some.2 ⟨_, congrArg some hwaits, rfl⟩, ?_⟩
    exact congrArg PushPhase.settled hanswer
  obtain ⟨law, hboots⟩ := load_boots_on_own_set permitPlatform localPlatform permitLoad job hprepare 0 0 permitRun s hrun
  exact ⟨job, s, pushed, hprepare, hrun, hphase, law, hboots pushed hphase⟩

end PolicyVerifier.Cedar
