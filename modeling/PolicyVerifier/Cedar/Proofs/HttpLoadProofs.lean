import PolicyVerifier.Cedar.HttpLoad
import PolicyVerifier.Cedar.Proofs.HttpEngineProofs
import PolicyVerifier.Lib.ExceptFold
import PolicyVerifier.Lib.Machine
import PolicyVerifier.Lib.Reservation

/-!
# One collector per agent

The table of taken agents is exact: an agent is in it while one load awaits its answers or has resolved, and
never otherwise, as long as the two calls of the logger that stand outside what releases an agent return.
-/

namespace PolicyVerifier.Cedar

open Js PolicyVerifier.Core Machine

variable {sha256 : Str → Digest}

/-! ## Spellings of an agent -/

/-- A URL's origin and path are read again as they were written. -/
def Reparses (url : Str → Option Url) : Prop := ∀ raw u, url raw = some u →
  (u.protocol = js "http:" ∨ u.protocol = js "https:") → ∃ again, url u.endpoint = some again ∧
    again.protocol = u.protocol ∧ again.hostname = u.hostname ∧ again.port = u.port ∧
    again.pathname = if stripSlashes u.pathname = [] then js "/" else stripSlashes u.pathname

/-- Two URLs that differ in how a loopback host is spelt, in naming the default port or in trailing slashes. -/
structure Url.SameAgent (u v : Url) : Prop where
  protocol : u.protocol = v.protocol
  host : u.hostname = v.hostname ∨ isLoopbackHost u.hostname = true ∧ isLoopbackHost v.hostname = true
  port : u.effectivePort = v.effectivePort
  path : stripSlashes u.pathname = stripSlashes v.pathname

theorem checkEndpoint_ok {platform : Platform} {origin raw endpoint : Str}
    (h : checkEndpoint platform origin raw = .ok endpoint) : ∃ u, platform.url raw = some u ∧
      (u.protocol = js "http:" ∨ u.protocol = js "https:") ∧ endpoint = u.endpoint := by
  unfold checkEndpoint at h
  split at h
  · exact absurd h (by simp [cedarEngineError])
  · rename_i u hu
    split at h
    · exact absurd h (by simp [cedarEngineError])
    · rename_i hprotocol
      split at h
      · exact absurd h (by simp [cedarEngineError])
      · split at h
        · exact absurd h (by simp [cedarEngineError])
        · split at h
          · exact absurd h (by simp [cedarEngineError])
          · refine ⟨u, hu, ?_, (Except.ok.inj h).symm⟩
            by_contra hneither
            exact hprotocol (not_or.1 hneither)

theorem agentKey_endpoint {platform : Platform} (hurl : Reparses platform.url) {raw : Str} {u : Url}
    (hu : platform.url raw = some u) (hprotocol : u.protocol = js "http:" ∨ u.protocol = js "https:") :
    agentKey platform u.endpoint = .ok (u.protocol ++ js "//" ++ u.agentHost ++ js ":" ++ u.effectivePort ++
      if stripSlashes u.pathname = [] then js "/" else stripSlashes u.pathname) := by
  obtain ⟨again, hagain, hp, hh, hport, hpath⟩ := hurl raw u hu hprotocol
  simp only [agentKey, hagain, Url.agentHost, Url.effectivePort, hp, hh, hport, hpath]

theorem agentKey_of_sameAgent {platform : Platform} (hurl : Reparses platform.url)
    {origin origin' raw raw' endpoint endpoint' : Str} {u v : Url}
    (h : checkEndpoint platform origin raw = .ok endpoint)
    (h' : checkEndpoint platform origin' raw' = .ok endpoint') (hu : platform.url raw = some u)
    (hv : platform.url raw' = some v) (hsame : u.SameAgent v) :
    agentKey platform endpoint = agentKey platform endpoint' := by
  obtain ⟨u', hu', hprotocol, rfl⟩ := checkEndpoint_ok h
  obtain ⟨v', hv', hprotocol', rfl⟩ := checkEndpoint_ok h'
  obtain rfl := Option.some.inj (hu.symm.trans hu')
  obtain rfl := Option.some.inj (hv.symm.trans hv')
  have hhost : u.agentHost = v.agentHost := by
    unfold Url.agentHost
    rcases hsame.host with heq | ⟨hloop, hloop'⟩
    · rw [heq]
    · rw [if_pos hloop, if_pos hloop']
  rw [agentKey_endpoint hurl hu hprotocol, agentKey_endpoint hurl hv hprotocol', hsame.protocol, hhost,
    hsame.port, hsame.path]

/-! ## What a load goes by -/

theorem layoutError_ok_iff {α : Type} {x : Except Str α} {a : α} : layoutError x = .ok a ↔ x = .ok a := by
  cases x with
  | ok b => simp [layoutError]
  | error message => simp [layoutError, cedarEngineError]

/-- What a load pushes and the set it keeps are made of the policies of its source alone. -/
theorem prepare_ok {platform : Platform} {call : LoadCall sha256} {job : LoadJob}
    (h : prepare platform call = .ok job) : ∃ named, httpPolicies call.source.files = .ok named ∧
      job.policies = named.map (fun policy => (agentPolicyId policy.id call.source.revision, policy.text)) ∧
      job.set =
        { endpoint := job.set.endpoint
          ownIds := .ofList (named.map fun policy => (agentPolicyId policy.id call.source.revision, policy.id))
          ownMark := loadMark call.source.revision } := by
  obtain ⟨endpoint, -, h⟩ := ExceptFold.bind_eq_ok h
  obtain ⟨headers, -, h⟩ := ExceptFold.bind_eq_ok h
  obtain ⟨maxAnswerBytes, -, h⟩ := ExceptFold.bind_eq_ok h
  obtain ⟨readBackIntervalMs, -, h⟩ := ExceptFold.bind_eq_ok h
  obtain ⟨named, hnamed, h⟩ := ExceptFold.bind_eq_ok h
  obtain ⟨agent, -, h⟩ := ExceptFold.bind_eq_ok h
  obtain rfl := Except.ok.inj h
  exact ⟨named, layoutError_ok_iff.1 hnamed, rfl, rfl⟩

/-- A load whose push is accepted is one whose set is `loadHttp`'s. -/
theorem loadHttp_of_prepare {platform : Platform} {call : LoadCall sha256} {job : LoadJob}
    (h : prepare platform call = .ok job) {push : List (Str × Str) → Except Str Unit}
    (hpush : push job.policies = .ok ()) : loadHttp job.set.endpoint push call.source = .ok job.set := by
  obtain ⟨named, hnamed, hpolicies, hset⟩ := prepare_ok h
  rw [hpolicies] at hpush
  rw [hset]
  simp only [loadHttp, hnamed, bind, Except.bind, hpush]
  rfl

/-! ## Who holds an agent -/

/-- The agent a load holds: its own, while it is not rejected. -/
def Load.holds (load : Load) : Option Str :=
  match load.phase with
  | .rejected _ => none
  | _ => load.job.map LoadJob.agent

namespace HttpEngine

/-- The agent the load of this number holds. -/
def holder (s : HttpEngine) (i : Nat) : Option Str := s.loads[i]?.bind Load.holds

/-- An agent is taken. -/
def Taken (s : HttpEngine) (agent : Str) : Prop := agent ∈ s.loaded.keys

/-- The agents that are taken are the ones some load holds, each one load. -/
abbrev Exact (s : HttpEngine) : Prop := Reservation.Exact s.Taken s.holder

theorem holder_length (s : HttpEngine) : s.holder s.loads.length = none := by
  rw [holder, List.getElem?_eq_none (le_refl _)]
  rfl

theorem holder_add (s : HttpEngine) (job : Option LoadJob) (phase : LoadPhase) :
    (s.add job phase).holder = Function.update s.holder s.loads.length (Load.holds { job, phase }) := by
  funext i
  rw [Function.update_apply]
  split
  · rename_i hi
    rw [hi, holder, add, List.getElem?_concat_length]
    rfl
  · rename_i hi
    show (s.loads ++ [_])[i]?.bind Load.holds = s.loads[i]?.bind Load.holds
    by_cases hlt : i < s.loads.length
    · rw [List.getElem?_append_left hlt]
    · have hlast : i - s.loads.length ≠ 0 := by omega
      rw [List.getElem?_append_right (by omega), List.getElem?_eq_none (by omega : s.loads.length ≤ i),
        List.getElem?_eq_none (by simpa [Nat.one_le_iff_ne_zero] using hlast)]

theorem holder_put {s : HttpEngine} {i : Nat} (hi : i < s.loads.length) (job : LoadJob) (phase : LoadPhase) :
    (s.put i job phase).holder = Function.update s.holder i (Load.holds { job := some job, phase }) := by
  funext j
  rw [Function.update_apply]
  show (s.loads.set i _)[j]?.bind Load.holds = _
  split
  · rename_i hj
    rw [hj, List.getElem?_set_self hi]
    rfl
  · rename_i hj
    rw [List.getElem?_set_ne fun h => hj h.symm]
    rfl

theorem taken_reserve {s : HttpEngine} {job : LoadJob} {agent : Str} :
    (s.reserve job).Taken agent ↔ agent = job.agent ∨ s.Taken agent := by
  exact OrderedMap.keys_set ..

theorem taken_release {s : HttpEngine} {job : LoadJob} {agent : Str} :
    (s.release job).Taken agent ↔ agent ≠ job.agent ∧ s.Taken agent := by
  rw [Taken, Taken, ← OrderedMap.get?_isSome_iff, ← OrderedMap.get?_isSome_iff, release, OrderedMap.get?_erase]
  split
  · rename_i heq
    exact iff_of_false (by simp) fun h => h.1 heq.symm
  · rename_i hne
    rw [and_iff_right fun h => hne h.symm]

theorem taken_iff {s : HttpEngine} {agent : Str} : s.Taken agent ↔ s.loaded.get? agent ≠ none := by
  rw [Taken, ← OrderedMap.get?_isSome_iff, Option.isSome_iff_ne_none]

/-! ## What a turn preserves -/

variable {platform : Platform} {s s' : HttpEngine}

/-- The two calls of the logger outside what releases an agent return, where this turn makes them: the warning
of a load that takes its agent without a token, and the line of a load whose set was read back as pushed. -/
def LoggerHolds (platform : Platform) (s : HttpEngine) : LoadEvent sha256 → Prop
  | .load call => ∀ job, prepare platform call = .ok job → s.loaded.get? job.agent = none →
      job.headers.authorization = none → call.warn = .ok ()
  | .pushSettled _ _ => True
  | .readSettled load outcome clock draw info => ∀ job pushed readBack,
      s.loads[load]? = some { job := some job, phase := .reading pushed } →
      readBackOf job pushed outcome clock draw = .ok readBack → info = .ok ()

/-- A load that is rejected at its call holds nothing. -/
theorem Exact.add_rejected (h : s.Exact) (job : Option LoadJob) (cause : Thrown) :
    (s.add job (.rejected cause)).Exact := by
  show Reservation.Exact s.Taken (s.add job (.rejected cause)).holder
  rw [holder_add]
  show Reservation.Exact s.Taken (Function.update s.holder s.loads.length none)
  rw [← s.holder_length, Function.update_eq_self]
  exact h

/-- A load that takes a free agent holds it. -/
theorem Exact.add_pushing (h : s.Exact) {job : LoadJob} (hfree : s.loaded.get? job.agent = none) :
    ((s.reserve job).add (some job) .pushing).Exact := by
  have hacquire : Reservation.Exact (fun agent => agent = job.agent ∨ s.Taken agent)
      (Function.update s.holder s.loads.length (some job.agent)) :=
    h.acquire s.holder_length fun htaken => taken_iff.1 htaken hfree
  have hholder : ((s.reserve job).add (some job) .pushing).holder =
      Function.update s.holder s.loads.length (some job.agent) := holder_add (s.reserve job) _ _
  show Reservation.Exact (s.reserve job).Taken _
  rw [hholder]
  exact hacquire.congr fun agent => taken_reserve

section Held

variable {i : Nat} {job : LoadJob} {phase : LoadPhase}

theorem lt_length_of_get (hload : s.loads[i]? = some { job := some job, phase }) : i < s.loads.length :=
  (List.getElem?_eq_some_iff.1 hload).1

/-- A load that is rejected after it took its agent gives it back. -/
theorem Exact.release_rejected (h : s.Exact) (hload : s.loads[i]? = some { job := some job, phase })
    (hholds : Load.holds { job := some job, phase } = some job.agent) (cause : Thrown) :
    ((s.release job).put i job (.rejected cause)).Exact := by
  have hi : s.holder i = some job.agent := by
    rw [holder, hload]
    exact hholds
  have hholder : ((s.release job).put i job (.rejected cause)).holder = Function.update s.holder i none :=
    holder_put (s := s.release job) (lt_length_of_get hload) job _
  show Reservation.Exact (s.release job).Taken _
  rw [hholder]
  exact (h.release hi).congr fun agent => taken_release

/-- A load that goes on holds what it held. -/
theorem Exact.put_holding (h : s.Exact) (hload : s.loads[i]? = some { job := some job, phase })
    {next : LoadPhase} (hholds : Load.holds { job := some job, phase } = some job.agent)
    (hnext : Load.holds { job := some job, phase := next } = some job.agent) : (s.put i job next).Exact := by
  have hi : s.holder i = some job.agent := by
    rw [holder, hload]
    exact hholds
  show Reservation.Exact s.Taken (s.put i job next).holder
  rw [holder_put (lt_length_of_get hload), hnext, ← hi, Function.update_eq_self]
  exact h

end Held

section Start

variable {call : LoadCall sha256} {job : LoadJob}

theorem start_unread {cause : Thrown} (hprepare : prepare platform call = .error cause) :
    s.start platform call = s.add none (.rejected cause) := by
  rw [start, hprepare]

theorem start_held {description : Str} (hprepare : prepare platform call = .ok job)
    (hheld : s.loaded.get? job.agent = some description) :
    s.start platform call = s.add (some job) (.rejected (alreadyHolds job.set.endpoint description)) := by
  simp only [start, hprepare, hheld]

theorem start_free (hprepare : prepare platform call = .ok job) (hfree : s.loaded.get? job.agent = none)
    (hwarn : job.headers.authorization = none → call.warn = .ok ()) :
    s.start platform call = (s.reserve job).add (some job) .pushing := by
  simp only [start, hprepare, hfree]
  split
  · rfl
  · rename_i htoken
    rw [hwarn (by simpa using htoken)]

theorem start_thrown {cause : Thrown} (hprepare : prepare platform call = .ok job)
    (hfree : s.loaded.get? job.agent = none) (htoken : job.headers.authorization = none)
    (hwarn : call.warn = .error cause) :
    s.start platform call = (s.reserve job).add (some job) (.rejected cause) := by
  simp only [start, hprepare, hfree, htoken, hwarn]
  rfl

end Start

theorem exact_start (h : s.Exact) (call : LoadCall sha256)
    (hlogger : LoggerHolds platform s (.load call)) : (s.start platform call).Exact := by
  cases hprepare : prepare platform call with
  | error cause =>
    rw [start_unread hprepare]
    exact h.add_rejected none cause
  | ok job =>
    cases hfree : s.loaded.get? job.agent with
    | some description =>
      rw [start_held hprepare hfree]
      exact h.add_rejected (some job) _
    | none =>
      rw [start_free hprepare hfree (hlogger job hprepare hfree)]
      exact h.add_pushing hfree

/-- One turn keeps the table exact. -/
theorem exact_step (h : s.Exact) (e : LoadEvent sha256) (hlogger : LoggerHolds platform s e)
    (hstep : s.step platform e = some s') : s'.Exact := by
  cases e with
  | load call =>
    obtain rfl := Option.some.inj hstep
    exact exact_start h call hlogger
  | pushSettled i outcome =>
    simp only [step] at hstep
    split at hstep
    · rename_i job hload
      obtain rfl := Option.some.inj hstep
      cases outcome with
      | error cause => exact h.release_rejected hload rfl cause
      | ok pushed => exact h.put_holding hload rfl rfl
    · exact absurd hstep (by simp)
  | readSettled i outcome clock draw info =>
    simp only [step] at hstep
    split at hstep
    · rename_i job pushed hload
      obtain rfl := Option.some.inj hstep
      cases hread : readBackOf job pushed outcome clock draw with
      | error cause => exact h.release_rejected hload rfl cause
      | ok readBack =>
        rw [hlogger job pushed readBack hload hread]
        exact h.put_holding hload rfl rfl
    · exact absurd hstep (by simp)

/-- A turn in which such a call throws takes an agent that no load holds. -/
theorem not_exact_step (h : s.Exact) (e : LoadEvent sha256) (hlogger : ¬ LoggerHolds platform s e)
    (hstep : s.step platform e = some s') : ¬ s'.Exact := by
  cases e with
  | load call =>
    obtain rfl := Option.some.inj hstep
    simp only [LoggerHolds, not_forall] at hlogger
    obtain ⟨job, hprepare, hfree, htoken, hwarn⟩ := hlogger
    cases hcall : call.warn with
    | ok u => exact absurd hcall hwarn
    | error cause =>
      rw [start_thrown hprepare hfree htoken hcall]
      intro hexact
      have hholder : ((s.reserve job).add (some job) (.rejected cause)).holder = s.holder := by
        rw [holder_add]
        show Function.update s.holder s.loads.length none = s.holder
        rw [← s.holder_length, Function.update_eq_self]
      refine h.lost (k := job.agent) (fun htaken => taken_iff.1 htaken hfree) ?_
      rw [← hholder]
      exact hexact.congr fun agent => taken_reserve.symm
  | pushSettled i outcome => exact absurd trivial hlogger
  | readSettled i outcome clock draw info =>
    simp only [LoggerHolds, not_forall] at hlogger
    obtain ⟨job, pushed, readBack, hload, hread, hinfo⟩ := hlogger
    cases info with
    | ok u => exact absurd rfl hinfo
    | error cause =>
      have hs' : s' = s.put i job (.rejected cause) := by
        simpa [step, hload, afterRead, hread] using hstep.symm
      rw [hs']
      intro hexact
      have hi : s.holder i = some job.agent := by
        rw [holder, hload]
        rfl
      have hholder : (s.put i job (.rejected cause)).holder = Function.update s.holder i none :=
        holder_put (lt_length_of_get hload) job _
      obtain ⟨j, hj⟩ := (hexact.held job.agent).1 ((h.held job.agent).2 ⟨i, hi⟩)
      rw [hholder, Function.update_apply] at hj
      split at hj
      · exact absurd hj (by simp)
      · rename_i hne
        exact hne (h.one j i job.agent hj hi)

/-! ## Runs -/

/-- A settled load stays as it settled. -/
theorem resolved_step {i : Nat} {job : LoadJob} {readBack : ReadBackSystem} {e : LoadEvent sha256}
    (hload : s.loads[i]? = some { job := some job, phase := .resolved readBack })
    (hstep : s.step platform e = some s') :
    s'.loads[i]? = some { job := some job, phase := .resolved readBack } := by
  have hkept : ∀ j (next : Load), s.loads[j]? ≠ some { job := some job, phase := .resolved readBack } →
      (s.loads.set j next)[i]? = some { job := some job, phase := .resolved readBack } := by
    intro j next hj
    rw [List.getElem?_set_ne]
    · exact hload
    · rintro rfl
      exact hj hload
  have hadded : ∀ last : List Load, (s.loads ++ last)[i]? =
      some { job := some job, phase := .resolved readBack } := fun last => by
    rw [List.getElem?_append_left (lt_length_of_get hload), hload]
  cases e with
  | load call =>
    obtain rfl := Option.some.inj hstep
    cases hprepare : prepare platform call with
    | error cause => exact start_unread hprepare ▸ hadded _
    | ok new =>
      cases hfree : s.loaded.get? new.agent with
      | some description => exact start_held hprepare hfree ▸ hadded _
      | none =>
        by_cases hwarn : new.headers.authorization = none → call.warn = .ok ()
        · exact start_free hprepare hfree hwarn ▸ hadded _
        · obtain ⟨htoken, hthrows⟩ := Classical.not_imp.1 hwarn
          cases hcall : call.warn with
          | ok u => exact absurd hcall hthrows
          | error cause => exact start_thrown hprepare hfree htoken hcall ▸ hadded _
  | pushSettled j outcome =>
    simp only [step] at hstep
    split at hstep
    · rename_i other hother
      obtain rfl := Option.some.inj hstep
      have hne : s.loads[j]? ≠ some { job := some job, phase := .resolved readBack } := by simp [hother]
      cases outcome <;> exact hkept j _ hne
    · exact absurd hstep (by simp)
  | readSettled j outcome clock draw info =>
    simp only [step] at hstep
    split at hstep
    · rename_i other pushed hother
      obtain rfl := Option.some.inj hstep
      have hne : s.loads[j]? ≠ some { job := some job, phase := .resolved readBack } := by simp [hother]
      cases readBackOf other pushed outcome clock draw with
      | error cause => exact hkept j _ hne
      | ok system => cases info <;> exact hkept j _ hne
    · exact absurd hstep (by simp)

/-- What holds of an engine's loads while each of them has its agent to itself. -/
structure OneCollectorPerAgent (sha256 : Str → Digest) (platform : Platform) (s : HttpEngine) : Prop where
  /-- No two loads hold one agent. -/
  one : ∀ i j agent, s.holder i = some agent → s.holder j = some agent → i = j
  /-- An agent is taken exactly while a load that was not rejected holds it. -/
  taken : ∀ agent, s.Taken agent ↔ ∃ i, s.holder i = some agent
  /-- A load of an agent that another holds is refused. -/
  refused : ∀ (call : LoadCall sha256) job i, prepare platform call = .ok job →
    s.holder i = some job.agent → ∃ description, s.step platform (.load call) =
      some (s.add (some job) (.rejected (alreadyHolds job.set.endpoint description)))
  /-- A load of an agent that none holds is not, whatever loads of it were rejected before. -/
  admitted : ∀ (call : LoadCall sha256) job, prepare platform call = .ok job →
    (∀ i, s.holder i ≠ some job.agent) → (job.headers.authorization = none → call.warn = .ok ()) →
      s.step platform (.load call) = some ((s.reserve job).add (some job) .pushing)

theorem oneCollector_of_exact (h : s.Exact) : OneCollectorPerAgent sha256 platform s := by
  refine ⟨h.one, h.held, fun call job i hprepare hi => ?_, fun call job hprepare hnone hwarn => ?_⟩
  · have htaken := taken_iff.1 ((h.held job.agent).2 ⟨i, hi⟩)
    obtain ⟨description, hheld⟩ := Option.ne_none_iff_exists'.1 htaken
    exact ⟨description, congrArg some (start_held hprepare hheld)⟩
  · have hfree : s.loaded.get? job.agent = none := by
      by_contra htaken
      obtain ⟨i, hi⟩ := (h.held job.agent).1 (taken_iff.2 htaken)
      exact hnone i hi
    exact congrArg some (start_free hprepare hfree hwarn)

theorem exact_empty : ({} : HttpEngine).Exact :=
  ⟨fun i j agent hi => absurd hi (by simp [holder]), fun agent => by simp [Taken, holder]⟩

/-- In every run in which those calls of the logger return, each load has its agent to itself, from when it takes
it until it is rejected; a load that resolved has it ever after; and the spellings of an agent are one agent. -/
theorem one_collector_per_agent (platform : Platform) (hurl : Reparses platform.url)
    (es fs : List (LoadEvent sha256)) (s t : HttpEngine) (hs : Machine.run (step platform) {} es = some s)
    (ht : Machine.run (step platform) s fs = some t)
    (hlogger : ∀ a e b, Occurs (step platform) {} (es ++ fs) a e b → LoggerHolds platform a e) :
    OneCollectorPerAgent sha256 platform t ∧
      (∀ (i : Nat) job readBack, s.loads[i]? = some { job := some job, phase := .resolved readBack } →
        t.loads[i]? = some { job := some job, phase := .resolved readBack }) ∧
      ∀ origin origin' raw raw' endpoint endpoint' u v, checkEndpoint platform origin raw = .ok endpoint →
        checkEndpoint platform origin' raw' = .ok endpoint' → platform.url raw = some u →
        platform.url raw' = some v → u.SameAgent v → agentKey platform endpoint = agentKey platform endpoint' := by
  refine ⟨?_, fun i job readBack hload => ?_, fun origin origin' raw raw' endpoint endpoint' u v h h' hu hv =>
    agentKey_of_sameAgent hurl h h' hu hv⟩
  · have hrun : Machine.run (step platform) {} (es ++ fs) = some t := by
      rw [run_append, hs]
      exact ht
    exact oneCollector_of_exact
      (run_invariant_of_guard (fun a e b ha hquiet he => exact_step ha e hquiet he) exact_empty hlogger hrun)
  · exact run_invariant (I := fun s => s.loads[i]? = some { job := some job, phase := .resolved readBack })
      (fun a e b ha he => resolved_step ha he) hload ht

end HttpEngine

/-! ## A run, and a warning that throws -/

/-- A platform that reads one agent's address. -/
def localPlatform : Platform where
  url raw :=
    if raw = js "http://127.0.0.1:8180" then
      some
        { protocol := js "http:", hostname := js "127.0.0.1", port := js "8180", pathname := js "/"
          origin := js "http://127.0.0.1:8180" }
    else none
  number _ := .nan
  string _ := []
  numeral _ := []

theorem localPlatform_reparses : Reparses localPlatform.url := by
  intro raw u hu _
  obtain ⟨-, rfl⟩ : raw = js "http://127.0.0.1:8180" ∧ _ = u := by simpa [localPlatform] using hu
  exact ⟨_, rfl, rfl, rfl, rfl, rfl⟩

/-- An empty policy set, loaded into that agent without a token. -/
def localCall (warn : Except Thrown Unit) : LoadCall fun _ => permitDigest where
  source := { files := [], description := js "inline policies", revision := _, computed := rfl }
  config := { endpoint := .str (js "http://127.0.0.1:8180") }
  warn

/-- The load's push, its first read, and another load of its agent. -/
def localRun : List (LoadEvent fun _ => permitDigest) :=
  [.load (localCall (.ok ())), .pushSettled 0 (.ok ∅), .readSettled 0 (.ok (.held ∅)) (.ok 0) none (.ok ())]

/-- What that call goes by, whatever its logger does. -/
theorem prepare_localCall : ∃ job, (∀ warn, prepare localPlatform (localCall warn) = .ok job) ∧
    job.headers.authorization = none ∧ job.description = js "inline policies" := by
  have hread : ∃ job, prepare localPlatform (localCall (.ok ())) = .ok job ∧
      job.headers.authorization = none ∧ job.description = js "inline policies" := ⟨_, rfl, rfl, rfl⟩
  obtain ⟨job, hprepare, htoken, hdescription⟩ := hread
  have hwarn : ∀ warn, prepare localPlatform (localCall warn) = prepare localPlatform (localCall (.ok ())) :=
    fun _ => rfl
  exact ⟨job, fun warn => (hwarn warn).trans hprepare, htoken, hdescription⟩

/-- An event whose calls of the logger return. -/
def LoadEvent.quiet : LoadEvent sha256 → Prop
  | .load call => call.warn = .ok ()
  | .pushSettled _ _ => True
  | .readSettled _ _ _ _ info => info = .ok ()

theorem LoadEvent.quiet.loggerHolds {e : LoadEvent sha256} (h : e.quiet) (platform : Platform) (s : HttpEngine) :
    HttpEngine.LoggerHolds platform s e := by
  cases e with
  | load call => exact fun _ _ _ _ => h
  | pushSettled _ _ => trivial
  | readSettled _ _ _ _ _ => exact fun _ _ _ _ _ => h

namespace HttpEngine

theorem one_collector_per_agent_local : ∃ s t,
    Machine.run (step localPlatform) {} localRun = some s ∧
    Machine.run (step localPlatform) s [.load (localCall (.ok ()))] = some t ∧
    OneCollectorPerAgent (fun _ => permitDigest) localPlatform t := by
  refine ⟨_, _, rfl, rfl, (one_collector_per_agent localPlatform localPlatform_reparses localRun
    [.load (localCall (.ok ()))] _ _ rfl rfl ?_).1⟩
  rintro a e b ⟨pre, post, hes, -, -⟩
  have hmem : e ∈ localRun ++ [.load (localCall (.ok ()))] := by simp [hes]
  refine LoadEvent.quiet.loggerHolds ?_ localPlatform a
  simp only [localRun, List.cons_append, List.nil_append, List.mem_cons, List.not_mem_nil, or_false] at hmem
  rcases hmem with rfl | rfl | rfl | rfl
  · rfl
  · trivial
  · rfl
  · rfl

/-- A warning that throws rejects the load and leaves its agent taken: the next load of it is refused. -/
theorem warning_leaves_agent_taken : ∃ s,
    Machine.run (step localPlatform) {} [.load (localCall (.error (.other .null)))] = some s ∧
    (∀ i agent, s.holder i ≠ some agent) ∧
    (∃ job, s.step localPlatform (.load (localCall (.ok ()))) =
      some (s.add (some job) (.rejected (alreadyHolds job.set.endpoint (js "inline policies"))))) ∧
    ¬ OneCollectorPerAgent (fun _ => permitDigest) localPlatform s := by
  obtain ⟨job, hprepare, htoken, hdescription⟩ := prepare_localCall
  have hstart : ({} : HttpEngine).start localPlatform (localCall (.error (.other .null))) =
      (({} : HttpEngine).reserve job).add (some job) (.rejected (.other .null)) :=
    start_thrown (hprepare _) rfl htoken rfl
  have hnone : ∀ i agent,
      ((({} : HttpEngine).reserve job).add (some job) (.rejected (.other .null))).holder i ≠ some agent := by
    intro i agent
    rw [holder_add, Function.update_apply]
    split
    · simp [Load.holds]
    · simp [holder, reserve]
  have hheld : ((({} : HttpEngine).reserve job).add (some job) (.rejected (.other .null))).loaded.get? job.agent =
      some (js "inline policies") := by
    rw [← hdescription]
    exact (OrderedMap.get?_set ..).trans (if_pos rfl)
  refine ⟨_, congrArg some hstart, hnone, ⟨job, congrArg some (start_held (hprepare _) hheld)⟩, fun hone => ?_⟩
  obtain ⟨i, hi⟩ := (hone.taken job.agent).1 (taken_reserve.2 (Or.inl rfl))
  exact hnone i job.agent hi

end HttpEngine

end PolicyVerifier.Cedar
