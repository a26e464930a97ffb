import PolicyVerifier.Standalone.Shutdown

/-!
# How a shutdown ends

What has happened so far decides the state: the first of the close callback and the deadline is what `finish`
reports, and the first of the cleanup's settling and its budget is what it found. Later callbacks find the
guards down. So the exit is called once, with the code those two firsts come to.
-/

namespace PolicyVerifier.Standalone

open Js ShutdownState

/-! ## What decides -/

/-- The events a drain ends with. -/
def endsDrain : ShutdownEvent → Bool
  | .closed _ _ => true
  | .deadline _ => true
  | _ => false

/-- The events the wait for a cleanup's promise ends with. -/
def endsWait : ShutdownEvent → Bool
  | .cleanupSettles _ _ => true
  | .budget _ => true
  | _ => false

/-- The code and the reason of a drain that ended so. -/
def drainVerdict : ShutdownEvent → Nat × Str
  | .closed _ none => (0, js "drained")
  | .closed _ (some _) => (1, js "close-failed")
  | _ => (1, js "drain-timeout")

/-- What a wait that ended so comes to. -/
def waitOutcome : ShutdownEvent → CleanupOutcome
  | .cleanupSettles _ none => .completed
  | .cleanupSettles _ (some err) => .failed err
  | _ => .timedOut

/-- What the cleanup comes to, in the events so far. -/
def cleanupOutcome (cleanup : Option CleanupCall) (events : List ShutdownEvent) : CleanupOutcome :=
  match cleanup with
  | none => .completed
  | some .returns => .completed
  | some (.throws err) => .failed err
  | some .promise =>
    match events.find? endsWait with
    | none => .pending
    | some e => waitOutcome e

/-- The code of the exit: the drain's, unless the cleanup did not complete. -/
def exitCode (code : Nat) : CleanupOutcome → Nat
  | .completed => code
  | _ => 1

theorem waitOutcome_ne_pending (e : ShutdownEvent) : waitOutcome e ≠ .pending := by
  unfold waitOutcome
  split <;> exact nofun

theorem cleanupOutcome_concat_of_not {e : ShutdownEvent} (h : endsWait e = false) (cleanup : Option CleanupCall)
    (events : List ShutdownEvent) : cleanupOutcome cleanup (events ++ [e]) = cleanupOutcome cleanup events := by
  unfold cleanupOutcome
  rw [Machine.first_concat_of_not h]

/-- What settles the wait settles the outcome, where nothing has before. -/
theorem cleanupOutcome_concat {e : ShutdownEvent} (h : endsWait e = true) (cleanup : Option CleanupCall)
    (events : List ShutdownEvent) :
    cleanupOutcome cleanup (events ++ [e]) = (cleanupOutcome cleanup events).settle (waitOutcome e) := by
  rcases cleanup with _ | ⟨- | err | -⟩
  · rfl
  · rfl
  · rfl
  · unfold cleanupOutcome
    dsimp only
    cases hfirst : events.find? endsWait with
    | none => rw [Machine.first_concat_of_none hfirst h]; rfl
    | some first =>
      rw [Machine.first_concat hfirst]
      dsimp only
      have hdecided := waitOutcome_ne_pending first
      revert hdecided
      cases waitOutcome first <;> simp [CleanupOutcome.settle]

/-! ## What a step does -/

section

variable {options : GracefulShutdownOptions} {s s' : ShutdownState}

theorem step_closed {id : Nat} {err : Option Value} (h : step options s (.closed id err) = some s') :
    ∃ drain, s.drains[id]? = some drain ∧ drain.closing = true ∧ s' = s.closed options id drain err := by
  obtain ⟨drain, hdrain, h⟩ := Option.bind_eq_some_iff.1 h
  split at h
  · exact ⟨drain, hdrain, ‹_›, (Option.some.inj h).symm⟩
  · exact absurd h (by simp)

theorem step_deadline {id : Nat} (h : step options s (.deadline id) = some s') :
    ∃ drain, s.drains[id]? = some drain ∧ drain.deadline = .armed ∧ s' = s.deadlinePassed options id drain := by
  obtain ⟨drain, hdrain, h⟩ := Option.bind_eq_some_iff.1 h
  split at h
  · exact ⟨drain, hdrain, ‹_›, (Option.some.inj h).symm⟩
  · exact absurd h (by simp)

theorem step_cleanupSettles {id : Nat} {err : Option Value}
    (h : step options s (.cleanupSettles id err) = some s') :
    ∃ call, s.finishes[id]? = some call ∧ call.settling = true ∧ s' = s.cleanupSettled id call err := by
  obtain ⟨call, hcall, h⟩ := Option.bind_eq_some_iff.1 h
  split at h
  · exact ⟨call, hcall, ‹_›, (Option.some.inj h).symm⟩
  · exact absurd h (by simp)

theorem step_budget {id : Nat} (h : step options s (.budget id) = some s') :
    ∃ call, s.finishes[id]? = some call ∧ call.budget = some .armed ∧ s' = s.budgetPassed id call := by
  obtain ⟨call, hcall, h⟩ := Option.bind_eq_some_iff.1 h
  split at h
  · exact ⟨call, hcall, ‹_›, (Option.some.inj h).symm⟩
  · exact absurd h (by simp)

theorem step_resume {id : Nat} (h : step options s (.resume id) = some s') :
    ∃ call, s.finishes[id]? = some call ∧ call.resumed = false ∧ s.resumed options id call = some s' := by
  obtain ⟨call, hcall, h⟩ := Option.bind_eq_some_iff.1 h
  split at h
  · exact absurd h (by simp)
  · exact ⟨call, hcall, by simpa using ‹¬call.resumed = true›, h⟩

/-- What goes on after the await: the exit is called, and the other calls are left alone. -/
theorem resumed_eq_some {id : Nat} {call : Finish} (h : s.resumed options id call = some s') :
    call.outcome ≠ .pending ∧ s'.exits = s.exits ++ [exitCode call.code call.outcome] ∧
      s'.finishes = s.finishes.set id { call with budget := call.budget.map Timer.clear, resumed := true } ∧
        s'.drains = s.drains ∧ s'.shuttingDown = s.shuttingDown ∧ s'.finished = s.finished ∧
          s'.cleanups = s.cleanups := by
  unfold ShutdownState.resumed at h
  cases houtcome : call.outcome <;> rw [houtcome] at h
  · exact absurd h (by simp)
  all_goals
    obtain rfl := Option.some.inj h
    exact ⟨nofun, rfl, rfl, rfl, rfl, rfl, rfl⟩

/-- A wait that is over can be gone on from. -/
theorem exists_resumed {id : Nat} {call : Finish} (h : call.outcome ≠ .pending) :
    ∃ s', s.resumed options id call = some s' := by
  unfold ShutdownState.resumed
  cases houtcome : call.outcome
  · exact absurd houtcome h
  all_goals exact ⟨_, rfl⟩

end

/-! ## What every state holds of the events so far -/

/-- The drain, as the events so far leave it. -/
structure DrainInv (events : List ShutdownEvent) (s : ShutdownState) : Prop where
  /-- The handler sets up one drain. -/
  setUp : s.shuttingDown = false ∧ s.drains = [] ∨ s.shuttingDown = true ∧ ∃ drain, s.drains = [drain]
  before : s.drains = [] → events.find? endsDrain = none
  /-- The deadline is armed until the drain has ended. -/
  armed : ∀ drain ∈ s.drains, drain.deadline = .armed ↔ events.find? endsDrain = none
  /-- The callback comes once. -/
  closing : ∀ drain ∈ s.drains, drain.closing = true → ∀ id err, .closed id err ∉ events

/-- The call of `finish` for a drain that ended with `ending`. -/
structure FinishInv (options : GracefulShutdownOptions) (events : List ShutdownEvent) (ending : ShutdownEvent)
    (exits : List Nat) (call : Finish) : Prop where
  verdict : (call.code, call.reason) = drainVerdict ending
  outcome : call.outcome = cleanupOutcome options.cleanup events
  /-- A promise settles once. -/
  settling : call.settling = true → options.cleanup = some .promise ∧ ∀ id err, .cleanupSettles id err ∉ events
  exits : exits = if call.resumed then [exitCode call.code call.outcome] else []
  resumed : call.resumed = true → call.outcome ≠ .pending

/-- What a state is, after these events. -/
structure Inv (options : GracefulShutdownOptions) (events : List ShutdownEvent) (s : ShutdownState) : Prop where
  drain : DrainInv events s
  /-- Until the drain ends nothing is finished. -/
  running : events.find? endsDrain = none → s.finished = false ∧ s.finishes = [] ∧ s.cleanups = 0 ∧ s.exits = [] ∧
    events.find? endsWait = none ∧ ∀ id err, .cleanupSettles id err ∉ events
  /-- And then one call of `finish` is. -/
  ended : ∀ ending, events.find? endsDrain = some ending → s.finished = true ∧
    s.cleanups = (if options.cleanup.isSome then 1 else 0) ∧
      ∃ call, s.finishes = [call] ∧ FinishInv options events ending s.exits call

theorem inv_init (options : GracefulShutdownOptions) : Inv options [] {} where
  drain := ⟨Or.inl ⟨rfl, rfl⟩, fun _ => rfl, fun _ h => absurd h List.not_mem_nil, fun _ h => absurd h List.not_mem_nil⟩
  running _ := ⟨rfl, rfl, rfl, rfl, rfl, fun _ _ => List.not_mem_nil⟩
  ended _ h := absurd h (by simp)

/-! ## Each event -/

section

variable {options : GracefulShutdownOptions} {events : List ShutdownEvent} {s s' : ShutdownState}
  {e : ShutdownEvent}

/-- What has not happened yet has not happened after another event either. -/
theorem absent_concat {about : Nat → Option Value → ShutdownEvent} (hno : ∀ id err, about id err ∉ events)
    (hother : ∀ id err, about id err ≠ e) : ∀ id err, about id err ∉ events ++ [e] := by
  intro id err
  have hlast : about id err ∉ [e] := fun hmem => hother id err (List.mem_singleton.1 hmem)
  exact List.not_mem_append (hno id err) hlast

theorem ne_closed (hends : endsDrain e = false) (id : Nat) (err : Option Value) : .closed id err ≠ e := by
  rintro rfl
  exact absurd hends (by simp [endsDrain])

theorem ne_cleanupSettles (hwait : endsWait e = false) (id : Nat) (err : Option Value) :
    .cleanupSettles id err ≠ e := by
  rintro rfl
  exact absurd hwait (by simp [endsWait])

/-- The drain where only the rest of the state changes. -/
theorem DrainInv.congr (h : DrainInv events s) (hshutting : s'.shuttingDown = s.shuttingDown)
    (hdrains : s'.drains = s.drains) : DrainInv events s' where
  setUp := by rw [hshutting, hdrains]; exact h.setUp
  before := by rw [hdrains]; exact h.before
  armed := by rw [hdrains]; exact h.armed
  closing := by rw [hdrains]; exact h.closing

/-- The drain after an event that is not about it. -/
theorem DrainInv.concat (h : DrainInv events s) (hends : endsDrain e = false) : DrainInv (events ++ [e]) s where
  setUp := h.setUp
  before hnil := by rw [Machine.first_concat_of_not hends]; exact h.before hnil
  armed := by rw [Machine.first_concat_of_not hends]; exact h.armed
  closing drain hdrain hclosing := absent_concat (h.closing drain hdrain hclosing) (ne_closed hends)

/-- The drain as the first signal sets it up. -/
theorem DrainInv.started (h : DrainInv events s) (hnil : s.drains = []) (hshutting : s'.shuttingDown = true)
    (hdrains : s'.drains = s.drains ++ [({} : Drain)]) : DrainInv events s' := by
  have hrunning := h.before hnil
  have honly : s'.drains = [{}] := by rw [hdrains, hnil]; rfl
  refine ⟨Or.inr ⟨hshutting, {}, honly⟩, fun _ => hrunning, fun drain hmem => ?_, fun drain _ _ id err hclosed => ?_⟩
  · rw [honly, List.mem_singleton] at hmem
    subst hmem
    exact iff_of_true rfl hrunning
  · exact absurd (List.find?_eq_none.1 hrunning _ hclosed) (by simp [endsDrain])

/-- The one drain there is. -/
theorem DrainInv.eq_singleton (h : DrainInv events s) {id : Nat} {drain : Drain} (hat : s.drains[id]? = some drain) :
    id = 0 ∧ s.drains = [drain] := by
  rcases h.setUp with ⟨-, hnil⟩ | ⟨-, only, honly⟩
  · rw [hnil] at hat
    exact absurd hat (by simp)
  · rw [honly, List.getElem?_singleton] at hat
    split at hat
    · exact ⟨‹_›, honly.trans (congrArg (fun d => [d]) (Option.some.inj hat))⟩
    · exact absurd hat (by simp)

/-- The drain once it has ended: the deadline is not armed any more. -/
theorem DrainInv.ended (h : DrainInv events s) {id : Nat} {drain drain' : Drain}
    (hat : s.drains[id]? = some drain) (hshutting : s'.shuttingDown = s.shuttingDown)
    (hdrains : s'.drains = s.drains.set id drain') (hends : endsDrain e = true)
    (harmed : drain'.deadline ≠ .armed)
    (hclosing : drain'.closing = true → ∀ id err, .closed id err ∉ events ++ [e]) :
    DrainInv (events ++ [e]) s' := by
  obtain ⟨rfl, honly⟩ := h.eq_singleton hat
  have hdrain' : s'.drains = [drain'] := by rw [hdrains, honly]; rfl
  have hfirst : (events ++ [e]).find? endsDrain ≠ none := by
    cases hfind : events.find? endsDrain with
    | none => rw [Machine.first_concat_of_none hfind hends]; simp
    | some first => rw [Machine.first_concat hfind]; simp
  refine ⟨?_, fun hnil => absurd (hdrain'.symm.trans hnil) (by simp), ?_, ?_⟩
  · rcases h.setUp with ⟨-, hnil⟩ | ⟨hdown, -⟩
    · exact absurd (honly.symm.trans hnil) (by simp)
    · exact Or.inr ⟨hshutting.trans hdown, drain', hdrain'⟩
  · intro drain hdrain
    rw [hdrain', List.mem_singleton] at hdrain
    subst hdrain
    exact iff_of_false harmed hfirst
  · intro drain hdrain
    rw [hdrain', List.mem_singleton] at hdrain
    subst hdrain
    exact hclosing

/-- The call of `finish` after an event that is not about its wait. -/
theorem FinishInv.concat {ending : ShutdownEvent} {exits : List Nat} {call : Finish}
    (h : FinishInv options events ending exits call) (hwait : endsWait e = false) :
    FinishInv options (events ++ [e]) ending exits call where
  verdict := h.verdict
  outcome := by rw [cleanupOutcome_concat_of_not hwait]; exact h.outcome
  settling hsettling := by
    obtain ⟨hpromise, hno⟩ := h.settling hsettling
    exact ⟨hpromise, absent_concat hno (ne_cleanupSettles hwait)⟩
  exits := h.exits
  resumed := h.resumed

/-- The call of `finish` that a drain's end makes. -/
theorem finishInv_awaited {ending : ShutdownEvent} {code : Nat} {reason : Str}
    (hverdict : (code, reason) = drainVerdict ending) (hwait : events.find? endsWait = none)
    (hno : ∀ id err, .cleanupSettles id err ∉ events) :
    FinishInv options events ending [] (awaited code reason options.cleanup) := by
  have hpromise : cleanupOutcome (some .promise) events = .pending := by
    rw [cleanupOutcome, hwait]
  obtain ⟨cleanup, drainTimeoutMs, cleanupTimeoutMs⟩ := options
  rcases cleanup with _ | ⟨- | err | -⟩
  · exact ⟨hverdict, rfl, nofun, rfl, nofun⟩
  · exact ⟨hverdict, rfl, nofun, rfl, nofun⟩
  · exact ⟨hverdict, rfl, nofun, rfl, nofun⟩
  · exact ⟨hverdict, hpromise.symm, fun _ => ⟨rfl, hno⟩, rfl, nofun⟩

theorem finish_of_finished (h : s.finished = true) (code : Nat) (reason : String) :
    s.finish options code reason = s := if_pos h

/-- Nothing differs but the drain, the server and the log. -/
structure SameFinish (s s' : ShutdownState) : Prop where
  finished : s'.finished = s.finished
  finishes : s'.finishes = s.finishes
  cleanups : s'.cleanups = s.cleanups
  exits : s'.exits = s.exits

/-- An event that ends a drain, where the state but for the drain is as it was. -/
theorem Inv.drainEnded (h : Inv options events s) (hends : endsDrain e = true) (hwait : endsWait e = false)
    (hdrain : DrainInv (events ++ [e]) s') (hsame : SameFinish s s') {code : Nat} {reason : String}
    (hverdict : (code, js reason) = drainVerdict e) :
    Inv options (events ++ [e]) (s'.finish options code reason) := by
  obtain ⟨hfinished, hfinishes, hcleanups, hexits⟩ := hsame
  cases hfind : events.find? endsDrain with
  | none =>
    obtain ⟨hnot, hnil, hzero, hnone, hwaiting, hno⟩ := h.running hfind
    have hfirst : (events ++ [e]).find? endsDrain = some e := Machine.first_concat_of_none hfind hends
    have hno' : ∀ id err, .cleanupSettles id err ∉ events ++ [e] := absent_concat hno (ne_cleanupSettles hwait)
    have hwaiting' : (events ++ [e]).find? endsWait = none := by
      rw [Machine.first_concat_of_not hwait, hwaiting]
    have hfinish : s'.finish options code reason = { s' with
        finished := true
        cleanups := if options.cleanup.isSome then s'.cleanups + 1 else s'.cleanups
        finishes := s'.finishes ++ [awaited code (js reason) options.cleanup] } :=
      if_neg (by rw [hfinished, hnot]; simp)
    rw [hfinish, hcleanups, hfinishes, hzero, hnil]
    refine ⟨hdrain.congr rfl rfl, fun hnone' => absurd (hfirst.symm.trans hnone') (by simp), fun ending hending => ?_⟩
    obtain rfl := Option.some.inj (hfirst.symm.trans hending)
    refine ⟨rfl, rfl, _, rfl, ?_⟩
    show FinishInv options _ e s'.exits _
    rw [hexits, hnone]
    exact finishInv_awaited hverdict hwaiting' hno'
  | some first =>
    obtain ⟨hdone, hcount, call, hcall, hinv⟩ := h.ended first hfind
    have hfirst : (events ++ [e]).find? endsDrain = some first := Machine.first_concat hfind e
    rw [finish_of_finished (hfinished.trans hdone)]
    refine ⟨hdrain, fun hnone' => absurd (hfirst.symm.trans hnone') (by simp), fun ending hending => ?_⟩
    obtain rfl := Option.some.inj (hfirst.symm.trans hending)
    refine ⟨hfinished.trans hdone, hcleanups.trans hcount, call, hfinishes.trans hcall, ?_⟩
    rw [hexits]
    exact hinv.concat hwait

/-- An event after which nothing differs but the drain, and which is about neither wait. -/
theorem Inv.quiet (h : Inv options events s) (hends : endsDrain e = false) (hwait : endsWait e = false)
    (hdrain : DrainInv (events ++ [e]) s') (hsame : SameFinish s s') : Inv options (events ++ [e]) s' where
  drain := hdrain
  running hfind := by
    obtain ⟨hfinished, hfinishes, hcleanups, hexits⟩ := hsame
    rw [Machine.first_concat_of_not hends] at hfind
    obtain ⟨hnot, hnil, hzero, hnone, hwaiting, hno⟩ := h.running hfind
    refine ⟨hfinished.trans hnot, hfinishes.trans hnil, hcleanups.trans hzero, hexits.trans hnone, ?_, ?_⟩
    · rw [Machine.first_concat_of_not hwait, hwaiting]
    · exact absent_concat hno (ne_cleanupSettles hwait)
  ended ending hending := by
    rw [Machine.first_concat_of_not hends] at hending
    obtain ⟨hdone, hcount, call, hcall, hinv⟩ := h.ended ending hending
    obtain ⟨hfinished, hfinishes, hcleanups, hexits⟩ := hsame
    rw [hfinished, hcleanups, hfinishes, hexits]
    exact ⟨hdone, hcount, call, hcall, hinv.concat hwait⟩

theorem inv_signal (h : Inv options events s) (name : Signal) :
    Inv options (events ++ [.signal name]) (s.handler options) := by
  unfold ShutdownState.handler
  split
  · exact h.quiet rfl rfl (h.drain.concat rfl) ⟨rfl, rfl, rfl, rfl⟩
  · rename_i hidle
    rcases h.drain.setUp with ⟨-, hnil⟩ | ⟨hdown, -⟩
    · have hdrain : DrainInv events { s with
          shuttingDown := true
          drains := s.drains ++ [{}] } := h.drain.started hnil rfl rfl
      exact h.quiet rfl rfl ((hdrain.concat rfl).congr rfl rfl) ⟨rfl, rfl, rfl, rfl⟩
    · exact absurd hdown hidle

theorem inv_closed (h : Inv options events s) {id : Nat} {err : Option Value} {drain : Drain}
    (hat : s.drains[id]? = some drain) :
    Inv options (events ++ [.closed id err]) (s.closed options id drain err) := by
  have hcleared : drain.deadline.clear ≠ .armed := by cases drain.deadline <;> exact nofun
  have hdrain : DrainInv (events ++ [.closed id err]) { s with
      drains := s.drains.set id { drain with deadline := drain.deadline.clear, closing := false } } :=
    h.drain.ended hat rfl rfl rfl hcleared fun hclosing => absurd hclosing (by simp)
  cases err with
  | none =>
    have hverdict : (0, js "drained") = drainVerdict (.closed id none) := rfl
    exact h.drainEnded rfl rfl hdrain ⟨rfl, rfl, rfl, rfl⟩ hverdict
  | some err =>
    have hverdict : (1, js "close-failed") = drainVerdict (.closed id (some err)) := rfl
    refine h.drainEnded rfl rfl ?_ ?_ hverdict
    · exact hdrain.congr rfl rfl
    · exact ⟨rfl, rfl, rfl, rfl⟩

theorem inv_deadline (h : Inv options events s) {id : Nat} {drain : Drain} (hat : s.drains[id]? = some drain) :
    Inv options (events ++ [.deadline id]) (s.deadlinePassed options id drain) := by
  have hdrain : DrainInv (events ++ [.deadline id]) { s with
      drains := s.drains.set id { drain with deadline := .fired } } := by
    refine h.drain.ended hat rfl rfl rfl (by simp) fun hclosing => ?_
    have hno := h.drain.closing drain (List.mem_of_getElem? hat) hclosing
    exact absent_concat hno fun _ _ => nofun
  have hverdict : (1, js "drain-timeout") = drainVerdict (.deadline id) := rfl
  refine h.drainEnded rfl rfl ?_ ?_ hverdict
  · exact hdrain.congr rfl rfl
  · exact ⟨rfl, rfl, rfl, rfl⟩

/-- The one call of `finish` there is, where there is any. -/
theorem Inv.eq_singleton (h : Inv options events s) {id : Nat} {call : Finish} (hat : s.finishes[id]? = some call) :
    id = 0 ∧ s.finishes = [call] ∧ ∃ ending, events.find? endsDrain = some ending ∧ s.finished = true ∧
      s.cleanups = (if options.cleanup.isSome then 1 else 0) ∧
        FinishInv options events ending s.exits call := by
  cases hfind : events.find? endsDrain with
  | none =>
    obtain ⟨-, hnil, -⟩ := h.running hfind
    rw [hnil] at hat
    exact absurd hat (by simp)
  | some ending =>
    obtain ⟨hdone, hcount, only, honly, hinv⟩ := h.ended ending hfind
    rw [honly, List.getElem?_singleton] at hat
    split at hat
    · obtain rfl := Option.some.inj hat
      exact ⟨‹_›, honly, ending, rfl, hdone, hcount, hinv⟩
    · exact absurd hat (by simp)

/-- An event that is about the call of `finish`. -/
theorem Inv.finishChanged (h : Inv options events s) {id : Nat} {call call' : Finish}
    (hat : s.finishes[id]? = some call) (hdrain : DrainInv (events ++ [e]) s') (hfinished : s'.finished = s.finished)
    (hfinishes : s'.finishes = s.finishes.set id call') (hcleanups : s'.cleanups = s.cleanups)
    (hinv : ∀ ending, FinishInv options events ending s.exits call →
      FinishInv options (events ++ [e]) ending s'.exits call') :
    Inv options (events ++ [e]) s' := by
  obtain ⟨rfl, honly, ending, hfind, hdone, hcount, hcall⟩ := h.eq_singleton hat
  have hfirst : (events ++ [e]).find? endsDrain = some ending := Machine.first_concat hfind e
  refine ⟨hdrain, fun hnone => absurd (hfirst.symm.trans hnone) (by simp), fun ending' hending => ?_⟩
  obtain rfl := Option.some.inj (hfirst.symm.trans hending)
  refine ⟨hfinished.trans hdone, hcleanups.trans hcount, call', ?_, hinv ending hcall⟩
  rw [hfinishes, honly]
  rfl

/-- What settles a wait leaves the exit as it is. -/
theorem FinishInv.settled {ending : ShutdownEvent} {exits : List Nat} {call call' : Finish}
    (h : FinishInv options events ending exits call) (hwait : endsWait e = true)
    (hcode : call'.code = call.code) (hreason : call'.reason = call.reason) (hresumed : call'.resumed = call.resumed)
    (houtcome : call'.outcome = call.outcome.settle (waitOutcome e))
    (hsettling : call'.settling = true →
      options.cleanup = some .promise ∧ ∀ id err, .cleanupSettles id err ∉ events ++ [e]) :
    FinishInv options (events ++ [e]) ending exits call' where
  verdict := by rw [hcode, hreason]; exact h.verdict
  outcome := by rw [houtcome, h.outcome, cleanupOutcome_concat hwait]
  settling := hsettling
  exits := by
    rw [hcode, hresumed, h.exits]
    split
    · rename_i hresumed
      have hdecided := h.resumed hresumed
      rw [houtcome]
      revert hdecided
      cases call.outcome <;> simp [CleanupOutcome.settle]
    · rfl
  resumed hres := by
    rw [hresumed] at hres
    have hdecided := h.resumed hres
    rw [houtcome]
    revert hdecided
    cases call.outcome <;> simp [CleanupOutcome.settle]

theorem inv_cleanupSettles (h : Inv options events s) {id : Nat} {err : Option Value} {call : Finish}
    (hat : s.finishes[id]? = some call) :
    Inv options (events ++ [.cleanupSettles id err]) (s.cleanupSettled id call err) := by
  refine h.finishChanged hat ((h.drain.concat rfl).congr rfl rfl) rfl rfl rfl fun ending hinv => ?_
  refine hinv.settled rfl rfl rfl rfl ?_ nofun
  cases err <;> rfl

theorem inv_budget (h : Inv options events s) {id : Nat} {call : Finish} (hat : s.finishes[id]? = some call) :
    Inv options (events ++ [.budget id]) (s.budgetPassed id call) := by
  refine h.finishChanged hat ((h.drain.concat rfl).congr rfl rfl) rfl rfl rfl fun ending hinv => ?_
  refine hinv.settled rfl rfl rfl rfl rfl fun hsettling => ?_
  obtain ⟨hpromise, hno⟩ := hinv.settling hsettling
  exact ⟨hpromise, absent_concat hno fun _ _ => nofun⟩

theorem inv_resume (h : Inv options events s) {id : Nat} {call : Finish} (hat : s.finishes[id]? = some call)
    (hfresh : call.resumed = false) (hstep : s.resumed options id call = some s') :
    Inv options (events ++ [.resume id]) s' := by
  obtain ⟨hdecided, hexits, hfinishes, hdrains, hshutting, hfinished, hcleanups⟩ := resumed_eq_some hstep
  refine h.finishChanged hat ((h.drain.concat rfl).congr hshutting hdrains) hfinished hfinishes hcleanups
    fun ending hinv => ?_
  have hkept : FinishInv options (events ++ [.resume id]) ending s.exits call := hinv.concat rfl
  have hnone : s.exits = [] := by rw [hinv.exits, hfresh]; rfl
  refine ⟨hkept.verdict, hkept.outcome, hkept.settling, ?_, fun _ => hdecided⟩
  rw [hexits, hnone]
  rfl

/-- Every step keeps what its state holds of the events. -/
theorem inv_step (h : Inv options events s) (hstep : step options s e = some s') :
    Inv options (events ++ [e]) s' := by
  cases e with
  | signal name =>
    obtain rfl := Option.some.inj hstep
    exact inv_signal h name
  | closed id err =>
    obtain ⟨drain, hat, -, rfl⟩ := step_closed hstep
    exact inv_closed h hat
  | deadline id =>
    obtain ⟨drain, hat, -, rfl⟩ := step_deadline hstep
    exact inv_deadline h hat
  | cleanupSettles id err =>
    obtain ⟨call, hat, -, rfl⟩ := step_cleanupSettles hstep
    exact inv_cleanupSettles h hat
  | budget id =>
    obtain ⟨call, hat, -, rfl⟩ := step_budget hstep
    exact inv_budget h hat
  | resume id =>
    obtain ⟨call, hat, hfresh, hgo⟩ := step_resume hstep
    exact inv_resume h hat hfresh hgo

theorem inv_run (h : Machine.run (step options) {} events = some s) : Inv options events s :=
  Machine.run_history (inv_init options) (fun _ _ _ _ hinv hstep => inv_step hinv hstep) h

end

/-! ## How it ends -/

/-- The close succeeded before the drain deadline. -/
def ClosedInTime (events : List ShutdownEvent) : Prop :=
  ∃ before after id, events = before ++ .closed id none :: after ∧ ∀ id, .deadline id ∉ before

/-- There is no cleanup, or it completed within its budget. -/
def CleanedInBudget (options : GracefulShutdownOptions) (events : List ShutdownEvent) : Prop :=
  match options.cleanup with
  | none => True
  | some .returns => True
  | some (.throws _) => False
  | some .promise =>
    ∃ before after id, events = before ++ .cleanupSettles id none :: after ∧ ∀ id, .budget id ∉ before

/-- The drain ended, or its deadline passed. -/
def DrainOver (events : List ShutdownEvent) : Prop :=
  (∃ id err, .closed id err ∈ events) ∨ ∃ id, .deadline id ∈ events

/-- There is no cleanup to wait for, or no more. -/
def WaitOver (options : GracefulShutdownOptions) (events : List ShutdownEvent) : Prop :=
  options.cleanup = some .promise →
    (∃ id err, .cleanupSettles id err ∈ events) ∨ ∃ id, .budget id ∈ events

/-- What holds of a run of the shutdown. -/
structure ShutdownSound (options : GracefulShutdownOptions) (events : List ShutdownEvent) (s : ShutdownState) :
    Prop where
  exit_once : s.exits.length ≤ 1
  cleanup_once : s.cleanups ≤ 1
  /-- The cleanup is not started before the drain is over. -/
  cleanup_after : 0 < s.cleanups → DrainOver events
  code : ∀ code ∈ s.exits, code = 0 ↔ ClosedInTime events ∧ CleanedInBudget options events
  /-- Once the drain and the wait are over the exit is called, or all there is left to do is to call it. -/
  exited : DrainOver events → WaitOver options events →
    s.exits ≠ [] ∨ ∃ s', step options s (.resume 0) = some s' ∧ s'.exits ≠ []

section

variable {options : GracefulShutdownOptions} {events : List ShutdownEvent} {s : ShutdownState}

theorem endsDrain_iff {e : ShutdownEvent} :
    endsDrain e = true ↔ (∃ id err, e = .closed id err) ∨ ∃ id, e = .deadline id := by
  cases e <;> simp [endsDrain]

theorem endsWait_iff {e : ShutdownEvent} :
    endsWait e = true ↔ (∃ id err, e = .cleanupSettles id err) ∨ ∃ id, e = .budget id := by
  cases e <;> simp [endsWait]

theorem drainOver_iff : DrainOver events ↔ events.find? endsDrain ≠ none := by
  rw [ne_eq, List.find?_eq_none, DrainOver]
  push Not
  constructor
  · rintro (⟨id, err, hmem⟩ | ⟨id, hmem⟩)
    · exact ⟨_, hmem, rfl⟩
    · exact ⟨_, hmem, rfl⟩
  · rintro ⟨e, hmem, hends⟩
    rcases endsDrain_iff.1 hends with ⟨id, err, rfl⟩ | ⟨id, rfl⟩
    · exact Or.inl ⟨id, err, hmem⟩
    · exact Or.inr ⟨id, hmem⟩

/-- The callback of `close` comes once, so a success with no deadline before it is what ends the drain. -/
theorem closedInTime_iff (h : Machine.run (step options) {} events = some s) :
    ClosedInTime events ↔ ∃ id, events.find? endsDrain = some (.closed id none) := by
  constructor
  · rintro ⟨before, after, id, rfl, hno⟩
    obtain ⟨a, b, ha, hb⟩ := Machine.run_split h
    obtain ⟨drain, hat, hclosing, -⟩ := step_closed hb
    have hfresh := (inv_run ha).drain.closing drain (List.mem_of_getElem? hat) hclosing
    refine ⟨id, List.find?_eq_some_iff_append.2 ⟨rfl, before, after, rfl, fun e he => ?_⟩⟩
    rw [Bool.not_eq_true', ← Bool.not_eq_true, endsDrain_iff]
    rintro (⟨id', err, rfl⟩ | ⟨id', rfl⟩)
    · exact hfresh id' err he
    · exact hno id' he
  · rintro ⟨id, hfind⟩
    obtain ⟨-, before, after, rfl, hbefore⟩ := List.find?_eq_some_iff_append.1 hfind
    exact ⟨before, after, id, rfl, fun id' hmem => absurd (hbefore _ hmem) (by simp [endsDrain])⟩

/-- A promise settles once, so fulfilment with no budget passed before it is what ends the wait. -/
theorem completed_iff (h : Machine.run (step options) {} events = some s) :
    cleanupOutcome options.cleanup events = .completed ↔ CleanedInBudget options events := by
  unfold CleanedInBudget cleanupOutcome
  rcases options.cleanup with _ | ⟨- | err | -⟩
  · exact iff_of_true rfl trivial
  · exact iff_of_true rfl trivial
  · exact iff_of_false nofun id
  dsimp only
  constructor
  · intro hcompleted
    cases hfind : events.find? endsWait with
    | none => rw [hfind] at hcompleted; exact absurd hcompleted nofun
    | some e =>
      rw [hfind] at hcompleted
      obtain ⟨hends, before, after, rfl, hbefore⟩ := List.find?_eq_some_iff_append.1 hfind
      have hno : ∀ id, .budget id ∉ before := fun id hmem => absurd (hbefore _ hmem) (by simp [endsWait])
      rcases endsWait_iff.1 hends with ⟨id, _ | err, rfl⟩ | ⟨id, rfl⟩
      · exact ⟨before, after, id, rfl, hno⟩
      · exact absurd hcompleted nofun
      · exact absurd hcompleted nofun
  · rintro ⟨before, after, id, rfl, hno⟩
    obtain ⟨a, b, ha, hb⟩ := Machine.run_split h
    obtain ⟨call, hat, hsettling, -⟩ := step_cleanupSettles hb
    obtain ⟨-, -, ending, -, -, -, hcall⟩ := (inv_run ha).eq_singleton hat
    have hfresh := (hcall.settling hsettling).2
    have hfind : (before ++ .cleanupSettles id none :: after).find? endsWait = some (.cleanupSettles id none) := by
      refine List.find?_eq_some_iff_append.2 ⟨rfl, before, after, rfl, fun e he => ?_⟩
      rw [Bool.not_eq_true', ← Bool.not_eq_true, endsWait_iff]
      rintro (⟨id', err, rfl⟩ | ⟨id', rfl⟩)
      · exact hfresh id' err he
      · exact hno id' he
    rw [hfind]
    rfl

theorem exitCode_eq_zero_iff {code : Nat} {outcome : CleanupOutcome} :
    exitCode code outcome = 0 ↔ code = 0 ∧ outcome = .completed := by
  cases outcome <;> simp [exitCode]

theorem drainVerdict_eq_zero_iff {e : ShutdownEvent} (h : endsDrain e = true) :
    (drainVerdict e).1 = 0 ↔ ∃ id, e = .closed id none := by
  rcases endsDrain_iff.1 h with ⟨id, _ | err, rfl⟩ | ⟨id, rfl⟩
  · simp [drainVerdict]
  · simp [drainVerdict]
  · simp [drainVerdict]

/-- A wait that is over has come to something. -/
theorem outcome_ne_pending (h : WaitOver options events) : cleanupOutcome options.cleanup events ≠ .pending := by
  unfold cleanupOutcome
  rcases hcleanup : options.cleanup with _ | ⟨- | err | -⟩
  · exact nofun
  · exact nofun
  · exact nofun
  cases hfind : events.find? endsWait with
  | none =>
    rw [List.find?_eq_none] at hfind
    rcases h hcleanup with ⟨id, err, hmem⟩ | ⟨id, hmem⟩
    · exact absurd rfl (hfind _ hmem)
    · exact absurd rfl (hfind _ hmem)
  | some e => exact waitOutcome_ne_pending e

end

/-- In every run of the shutdown, whatever comes in whatever order: the exit is called at most once and the
cleanup started at most once, after the drain, and the code is zero exactly where the close succeeded in time
and the cleanup in its budget. -/
theorem shutdown_sound (options : GracefulShutdownOptions) (events : List ShutdownEvent) (s : ShutdownState)
    (h : Machine.run (step options) {} events = some s) : ShutdownSound options events s := by
  have hinv := inv_run h
  cases hfind : events.find? endsDrain with
  | none =>
    obtain ⟨-, -, hzero, hnone, -⟩ := hinv.running hfind
    have hnot : ¬ DrainOver events := fun hover => drainOver_iff.1 hover hfind
    exact {
      exit_once := by rw [hnone]; exact Nat.zero_le 1
      cleanup_once := by rw [hzero]; exact Nat.zero_le 1
      cleanup_after := fun hpos => absurd hpos (by rw [hzero]; exact lt_irrefl 0)
      code := fun code hcode => absurd hcode (by rw [hnone]; exact List.not_mem_nil)
      exited := fun hover => absurd hover hnot }
  | some ending =>
    obtain ⟨-, hcount, call, honly, hcall⟩ := hinv.ended ending hfind
    have hends : endsDrain ending = true := List.find?_some hfind
    have hverdict : call.code = (drainVerdict ending).1 := congrArg Prod.fst hcall.verdict
    have hclosed : ClosedInTime events ↔ ∃ id, ending = .closed id none := by
      rw [closedInTime_iff h, hfind]
      simp
    have hcode : exitCode call.code call.outcome = 0 ↔ ClosedInTime events ∧ CleanedInBudget options events := by
      rw [exitCode_eq_zero_iff, hverdict, drainVerdict_eq_zero_iff hends, ← hclosed, hcall.outcome, completed_iff h]
    exact {
      exit_once := by rw [hcall.exits]; split <;> simp
      cleanup_once := by rw [hcount]; split <;> simp
      cleanup_after := fun _ => drainOver_iff.2 (by rw [hfind]; simp)
      code := by
        intro code hmem
        rw [hcall.exits] at hmem
        split at hmem
        · rw [List.mem_singleton.1 hmem, hcode]
        · exact absurd hmem List.not_mem_nil
      exited := by
        intro _ hover
        cases hresumed : call.resumed with
        | true =>
          left
          rw [hcall.exits, hresumed]
          simp
        | false =>
          right
          have hdecided : call.outcome ≠ .pending := by
            rw [hcall.outcome]
            exact outcome_ne_pending hover
          have hgo : ∃ s', s.resumed options 0 call = some s' := exists_resumed hdecided
          obtain ⟨s', hs'⟩ := hgo
          refine ⟨s', ?_, ?_⟩
          · simp [step, honly, hresumed, hs']
          · rw [(resumed_eq_some hs').2.1]
            simp }

/-- Two signals, a close in time and a cleanup that settles. -/
theorem shutdown_sound_clean :
    let options : GracefulShutdownOptions := { cleanup := some .promise }
    let events : List ShutdownEvent :=
      [.signal .sigterm, .signal .sigint, .closed 0 none, .cleanupSettles 0 none, .resume 0]
    ∃ s, Machine.run (step options) {} events = some s ∧ s.exits = [0] ∧ ShutdownSound options events s :=
  ⟨_, rfl, rfl, shutdown_sound _ _ _ rfl⟩

end PolicyVerifier.Standalone
