import PolicyVerifier.Cedar.AgentReadBack

/-!
# What holds in every state of the read-back

At most one check is out, and it is the one poll knows. What the counters say is what the ledger
says: how many calls were answered, and how many of them up to the latest point accounted for.
-/

namespace PolicyVerifier.Cedar

open Js

/-! ## What one step does to the refusal -/

/-- A refusal that begins, or changes kind, is a new generation. -/
def Moves (r r' : AgentReadBack) : Prop :=
  (r'.generation = r.generation ∧ (r'.refusal = r.refusal ∨ r'.refusal = none)) ∨
    r.generation < r'.generation

namespace AgentReadBack

variable {r : AgentReadBack}

theorem refuse_refusal (r : AgentReadBack) (why : ReadBackRefusal) :
    (r.refuse why).refusal = some why := by
  unfold refuse
  split
  · assumption
  · rfl

theorem refuse_answeredCalls (r : AgentReadBack) (why : ReadBackRefusal) :
    (r.refuse why).answeredCalls = r.answeredCalls ∧
    (r.refuse why).countedCalls = r.countedCalls ∧ (r.refuse why).running = r.running ∧
    (r.refuse why).baseline = r.baseline := by
  unfold refuse
  split <;> exact ⟨rfl, rfl, rfl, rfl⟩

theorem refuse_moves (r : AgentReadBack) (why : ReadBackRefusal) : Moves r (r.refuse why) := by
  unfold refuse
  split
  · exact Or.inl ⟨rfl, Or.inl rfl⟩
  · exact Or.inr (Nat.lt_succ_self _)

theorem readRejected_moves (r : AgentReadBack) : Moves r r.readRejected := by
  unfold readRejected
  dsimp only
  split
  · exact Or.inl ⟨rfl, Or.inl rfl⟩
  · split
    · exact refuse_moves { r with countedCalls := r.answeredCalls } _
    · exact Or.inl ⟨rfl, Or.inl rfl⟩

theorem readAnswered_moves (r : AgentReadBack) (answeredBefore : Nat) (answer : AgentSetRead)
    (logFails : Bool) : Moves r (r.readAnswered answeredBefore answer logFails).1 := by
  unfold readAnswered
  dsimp only
  cases answer with
  | unverifiable reason => exact refuse_moves { r with countedCalls := _, unreachableStreak := _ } _
  | held set =>
    dsimp only
    split
    · split
      · exact Or.inl ⟨rfl, Or.inr rfl⟩
      · exact Or.inl ⟨rfl, Or.inl rfl⟩
    · exact refuse_moves { r with countedCalls := _, unreachableStreak := _ } _

theorem pushed_moves (r : AgentReadBack) (copy : Option AgentPolicySet) : Moves r (r.pushed copy) := by
  cases copy with
  | none => exact Or.inl ⟨rfl, Or.inl rfl⟩
  | some set => exact Or.inl ⟨rfl, Or.inr rfl⟩

end AgentReadBack

namespace ReadBackSystem

variable {options : AgentReadBackOptions} {s s' : ReadBackSystem}

theorem poll_cases (options : AgentReadBackOptions) (s : ReadBackSystem) (clock : ClockReadings) :
    s.poll options clock = s ∨ s.readBack.running = none ∧ s.poll options clock =
      { s with
        readBack := { s.readBack with lastCheck := clock.start, running := some s.nextCheck }
        checks := s.checks ++
          [{ id := s.nextCheck, refusing := s.readBack.refusal.isSome,
             phase := .reading s.readBack.answeredCalls, startedAt := s.ledger.time }]
        nextCheck := s.nextCheck + 1
        deeds := s.deeds ++ [.readSent s.nextCheck] } := by
  unfold poll
  split
  · exact Or.inl rfl
  · rename_i hrunning
    split
    · exact Or.inr ⟨by simpa using hrunning, rfl⟩
    · exact Or.inl rfl

/-- What a step can be, from the state whose time has gone on. -/
inductive StepCase (options : AgentReadBackOptions) (s : ReadBackSystem) :
    ReadBackEvent → ReadBackSystem → Prop where
  | polled (clock : ClockReadings) : StepCase options s (.poll clock) (s.poll options clock)
  | called (clock : ClockReadings) : StepCase options s (.call clock) (s.poll options clock).isAuthorized
  | answered (call generation : Nat) (out : s.calls call = some generation) :
      StepCase options s (.answer call) (s.answer call generation)
  | failed (call generation : Nat) (out : s.calls call = some generation) :
      StepCase options s (.fail call) { s with calls := Function.update s.calls call none }
  | readAnswered (check : Check) (answeredBefore : Nat) (answer : AgentSetRead) (logFails : Bool)
      (readBack : AgentReadBack) (pushes : Bool) (out : s.check? check.id = some check)
      (reading : check.phase = .reading answeredBefore)
      (read : s.readBack.readAnswered answeredBefore answer logFails = (readBack, pushes)) :
      StepCase options s (.readAnswered check.id answer logFails)
        ((advance { s with
            readBack
            deeds := s.deeds ++ if pushes then [Deed.pushSent check.id] else []
            ledger := { s.ledger with lastReadStart := check.startedAt } }
          { check with
            phase := if pushes then .pushing else .returned
            readEmpty := answer.showsEmpty s.readBack.baseline }).noteLift s.readBack)
  | readRejected (check : Check) (answeredBefore : Nat) (out : s.check? check.id = some check)
      (reading : check.phase = .reading answeredBefore) :
      StepCase options s (.readRejected check.id)
        (advance { s with
            readBack := s.readBack.readRejected
            ledger := { s.ledger with lastRejection := s.ledger.time } }
          { check with phase := .returned })
  | pushEnded (check : Check) (copy : Option AgentPolicySet)
      (out : s.check? check.id = some check) (pushing : check.phase = .pushing) :
      StepCase options s (.pushEnded check.id copy)
        ((advance { s with readBack := s.readBack.pushed copy }
          { check with phase := .returned }).noteLift s.readBack)
  | settled (check : Check) (draw : Option ℚ) (out : s.check? check.id = some check)
      (returned : check.phase = .returned) :
      StepCase options s (.settle check.id draw)
        { s with
          readBack := s.readBack.settled options check.refusing draw
          checks := s.checks.filter fun c => c.id ≠ check.id }

theorem check?_id {id : Nat} {check : Check} (h : s.check? id = some check) : check.id = id := by
  simpa using List.find?_some h

theorem step_cases {e : ReadBackEvent} (h : step options s e = some s') :
    StepCase options s.tick e s' := by
  unfold step at h
  generalize s.tick = t at h ⊢
  cases e with
  | poll clock =>
    obtain rfl := Option.some.inj h
    exact .polled clock
  | call clock =>
    obtain rfl := Option.some.inj h
    exact .called clock
  | answer call =>
    obtain ⟨generation, hout, rfl⟩ := Option.map_eq_some_iff.1 h
    exact .answered call generation hout
  | fail call =>
    simp only [act] at h
    split at h
    · rename_i generation hout
      obtain rfl := Option.some.inj h
      exact .failed call generation hout
    · exact absurd h (by simp)
  | readAnswered id answer logFails =>
    simp only [act] at h
    split at h
    · rename_i check hout
      split at h
      · rename_i answeredBefore hphase
        obtain rfl := Option.some.inj h
        obtain rfl := check?_id hout
        exact .readAnswered check answeredBefore answer logFails _ _ hout hphase rfl
      · exact absurd h (by simp)
    · exact absurd h (by simp)
  | readRejected id =>
    simp only [act] at h
    split at h
    · rename_i check hout
      split at h
      · rename_i answeredBefore hphase
        obtain rfl := Option.some.inj h
        obtain rfl := check?_id hout
        exact .readRejected check answeredBefore hout hphase
      · exact absurd h (by simp)
    · exact absurd h (by simp)
  | pushEnded id copy =>
    simp only [act] at h
    split at h
    · rename_i check hout
      split at h
      · rename_i hphase
        obtain rfl := Option.some.inj h
        obtain rfl := check?_id hout
        exact .pushEnded check copy hout hphase
      · exact absurd h (by simp)
    · exact absurd h (by simp)
  | settle id draw =>
    simp only [act] at h
    split at h
    · rename_i check hout
      split at h
      · rename_i hphase
        obtain rfl := Option.some.inj h
        obtain rfl := check?_id hout
        exact .settled check draw hout hphase
      · exact absurd h (by simp)
    · exact absurd h (by simp)

end ReadBackSystem

/-! ## The invariant -/

/-- How many calls were answered up to a time. -/
def Ledger.answeredBy (l : Ledger) (t : Nat) : Nat :=
  (l.answers.filter fun u => decide (u ≤ t)).length

theorem answeredBy_all {l : Ledger} {t : Nat} (h : ∀ u ∈ l.answers, u ≤ t) :
    l.answeredBy t = l.answers.length := by
  rw [Ledger.answeredBy, List.filter_eq_self.2 (by simpa using h)]

/-- The counters say what the ledger says. -/
structure Counted (r : AgentReadBack) (l : Ledger) : Prop where
  answered : r.answeredCalls = l.answers.length
  past : ∀ t ∈ l.answers, t ≤ l.time
  points : l.accounted ≤ l.time
  counted : r.countedCalls = l.answeredBy l.accounted

/-- What a check that is out holds: while its read is out, how many calls were answered before it
started, after everything accounted for; while its push is out, a refusal begun on an empty set. -/
def CheckOk (r : AgentReadBack) (l : Ledger) (c : Check) : Prop :=
  match c.phase with
  | .reading answeredBefore => answeredBefore = l.answeredBy c.startedAt ∧
      l.accounted ≤ c.startedAt ∧ c.startedAt ≤ l.time
  | .pushing => r.refusal = some .alteredPolicySet ∧ c.readEmpty = true
  | .returned => True

theorem checkOk_reading {r : AgentReadBack} {l : Ledger} {c : Check} {answeredBefore : Nat}
    (h : c.phase = .reading answeredBefore) : CheckOk r l c ↔
      answeredBefore = l.answeredBy c.startedAt ∧ l.accounted ≤ c.startedAt ∧ c.startedAt ≤ l.time := by
  rw [CheckOk, h]

theorem checkOk_pushing {r : AgentReadBack} {l : Ledger} {c : Check} (h : c.phase = .pushing) :
    CheckOk r l c ↔ r.refusal = some .alteredPolicySet ∧ c.readEmpty = true := by
  rw [CheckOk, h]

theorem checkOk_returned {r : AgentReadBack} {l : Ledger} {c : Check} (h : c.phase = .returned) :
    CheckOk r l c := by
  rw [CheckOk, h]
  trivial

/-- The counters and the ledger as time goes on and a call may be answered; what was accounted for
is behind. -/
theorem Counted.later {r r' : AgentReadBack} {l l' : Ledger} (h : Counted r l)
    (hanswers : (l'.answers = l.answers ∧ r'.answeredCalls = r.answeredCalls) ∨
      (l'.answers = l.answers ++ [l.time + 1] ∧ r'.answeredCalls = r.answeredCalls + 1))
    (hcounted : r'.countedCalls = r.countedCalls) (haccounted : l'.accounted = l.accounted)
    (htime : l'.time = l.time + 1) : Counted r' l' := by
  have hpoints := h.points
  rcases hanswers with ⟨hans, hcalls⟩ | ⟨hans, hcalls⟩
  · refine ⟨by rw [hcalls, hans, h.answered], fun t ht => ?_, by omega, ?_⟩
    · have := h.past t (hans ▸ ht)
      omega
    · rw [hcounted, haccounted, h.counted, Ledger.answeredBy, Ledger.answeredBy, hans]
  · refine ⟨by rw [hcalls, hans, h.answered]; simp, fun t ht => ?_, by omega, ?_⟩
    · rw [hans] at ht
      rcases List.mem_append.1 ht with ht | ht
      · have := h.past t ht
        omega
      · have := List.mem_singleton.1 ht
        omega
    · have hlate : ¬ l.time + 1 ≤ l.accounted := by omega
      rw [hcounted, haccounted, h.counted, Ledger.answeredBy, Ledger.answeredBy, hans,
        List.filter_append]
      simp [hlate]

/-- A check that is out is left as it is while only calls come and go. -/
theorem CheckOk.later {r r' : AgentReadBack} {l l' : Ledger} {c : Check} (h : CheckOk r l c)
    (hrefusal : r'.refusal = r.refusal)
    (hanswers : l'.answers = l.answers ∨ l'.answers = l.answers ++ [l.time + 1])
    (haccounted : l'.accounted = l.accounted) (htime : l'.time = l.time + 1) : CheckOk r' l' c := by
  cases hp : c.phase with
  | reading answeredBefore =>
    rw [checkOk_reading hp] at h ⊢
    obtain ⟨hbefore, hpoints, hpast⟩ := h
    refine ⟨?_, by omega, by omega⟩
    rcases hanswers with hans | hans
    · rw [hbefore, Ledger.answeredBy, Ledger.answeredBy, hans]
    · have hlate : ¬ l.time + 1 ≤ c.startedAt := by omega
      rw [hbefore, Ledger.answeredBy, Ledger.answeredBy, hans, List.filter_append]
      simp [hlate]
  | pushing =>
    rw [checkOk_pushing hp] at h ⊢
    exact ⟨hrefusal.trans h.1, h.2⟩
  | returned => exact checkOk_returned hp

/-- A step at which everything answered so far is accounted for. -/
theorem Counted.accountedAll {r r' : AgentReadBack} {l l' : Ledger} (h : Counted r l)
    (hanswers : l'.answers = l.answers) (hcalls : r'.answeredCalls = r.answeredCalls)
    (hcounted : r'.countedCalls = r.answeredCalls) (haccounted : l'.accounted = l.time + 1)
    (htime : l'.time = l.time + 1) : Counted r' l' := by
  have hall : ∀ t ∈ l'.answers, t ≤ l.time := by
    rw [hanswers]
    exact h.past
  refine ⟨by rw [hcalls, hanswers, h.answered], fun t ht => ?_, by omega, ?_⟩
  · have := hall t ht
    omega
  · rw [hcounted, haccounted, h.answered, ← hanswers]
    exact (answeredBy_all fun t ht => Nat.le_succ_of_le (hall t ht)).symm

/-- The invariant of the read-back. -/
structure ReadBackSystem.Inv (s : ReadBackSystem) : Prop where
  counted : Counted s.readBack s.ledger
  checks : s.checks = [] ∧ s.readBack.running = none ∨
    ∃ c, s.checks = [c] ∧ s.readBack.running = some c.id ∧ CheckOk s.readBack s.ledger c

namespace ReadBackSystem

variable {options : AgentReadBackOptions} {s s' : ReadBackSystem}

theorem Inv.check_eq (h : Inv s) {check : Check} (out : s.tick.check? check.id = some check) :
    s.checks = [check] ∧ s.readBack.running = some check.id ∧ CheckOk s.readBack s.ledger check := by
  have hmem : check ∈ s.checks := List.mem_of_find?_eq_some out
  rcases h.checks with ⟨hnil, -⟩ | ⟨c, hone, hrunning, hok⟩
  · rw [hnil] at hmem
    exact absurd hmem (by simp)
  · rw [hone] at hmem
    obtain rfl := List.mem_singleton.1 hmem
    exact ⟨hone, hrunning, hok⟩

/-- A step that leaves the checks and the counters alone. -/
theorem Inv.later {s' : ReadBackSystem} (h : Inv s) (hchecks : s'.checks = s.checks)
    (hrunning : s'.readBack.running = s.readBack.running)
    (hrefusal : s'.readBack.refusal = s.readBack.refusal)
    (hcounted : s'.readBack.countedCalls = s.readBack.countedCalls)
    (hanswers : (s'.ledger.answers = s.ledger.answers ∧
        s'.readBack.answeredCalls = s.readBack.answeredCalls) ∨
      (s'.ledger.answers = s.ledger.answers ++ [s.ledger.time + 1] ∧
        s'.readBack.answeredCalls = s.readBack.answeredCalls + 1))
    (haccounted : s'.ledger.accounted = s.ledger.accounted)
    (htime : s'.ledger.time = s.ledger.time + 1) : Inv s' := by
  refine ⟨h.counted.later hanswers hcounted haccounted htime, ?_⟩
  rw [hchecks, hrunning]
  refine h.checks.imp id ?_
  rintro ⟨c, hone, hrun, hok⟩
  exact ⟨c, hone, hrun, hok.later hrefusal (hanswers.imp And.left And.left) haccounted htime⟩

theorem advance_checks {check check' : Check} (h : s.checks = [check])
    (hid : check'.id = check.id) : (s.advance check').checks = [check'] := by
  simp [advance, h, hid]

theorem noteLift_cases (s : ReadBackSystem) (before : AgentReadBack) :
    (before.refusal.isSome = true ∧ s.readBack.refusal = none ∧
      s.noteLift before = { s with ledger := { s.ledger with lastLift := s.ledger.time } }) ∨
    (¬ (before.refusal.isSome = true ∧ s.readBack.refusal = none) ∧ s.noteLift before = s) := by
  unfold noteLift
  split
  · rename_i h
    exact Or.inl ⟨h.1, h.2, rfl⟩
  · rename_i h
    exact Or.inr ⟨h, rfl⟩

theorem inv_poll (h : Inv s) (clock : ClockReadings) : Inv (s.tick.poll options clock) := by
  rcases poll_cases options s.tick clock with heq | ⟨hrunning, heq⟩
  · rw [heq]
    exact h.later rfl rfl rfl rfl (Or.inl ⟨rfl, rfl⟩) rfl rfl
  · rw [heq]
    have hnil : s.checks = [] := by
      rcases h.checks with ⟨hnil, -⟩ | ⟨c, -, hsome, -⟩
      · exact hnil
      · exact absurd (hsome.symm.trans hrunning) (by simp)
    have hpoints := h.counted.points
    refine ⟨h.counted.later (Or.inl ⟨rfl, rfl⟩) rfl rfl rfl,
      Or.inr ⟨{ id := s.nextCheck, refusing := s.readBack.refusal.isSome,
                phase := .reading s.readBack.answeredCalls, startedAt := s.ledger.time + 1 },
        ?_, rfl, ?_⟩⟩
    · show s.checks ++ _ = _
      rw [hnil]
      rfl
    · rw [checkOk_reading rfl]
      refine ⟨?_, Nat.le_succ_of_le hpoints, le_rfl⟩
      exact h.counted.answered.trans
        (answeredBy_all fun t ht => Nat.le_succ_of_le (h.counted.past t ht)).symm

theorem readAnswered_running (r : AgentReadBack) (answeredBefore : Nat) (answer : AgentSetRead)
    (logFails : Bool) :
    (r.readAnswered answeredBefore answer logFails).1.running = r.running ∧
    (r.readAnswered answeredBefore answer logFails).1.answeredCalls = r.answeredCalls := by
  unfold AgentReadBack.readAnswered
  dsimp only
  cases answer with
  | unverifiable reason =>
    have h := AgentReadBack.refuse_answeredCalls
      { r with countedCalls := answeredBefore, unreachableStreak := false } .unverifiablePolicySet
    exact ⟨h.2.2.1, h.1⟩
  | held set =>
    dsimp only
    split
    · split <;> exact ⟨rfl, rfl⟩
    · have h := AgentReadBack.refuse_answeredCalls
        { r with countedCalls := answeredBefore, unreachableStreak := false } .alteredPolicySet
      exact ⟨h.2.2.1, h.1⟩

/-- What a read that got an answer comes to: a refusal, or a lift, or nothing. -/
theorem readAnswered_counts (r : AgentReadBack) (answeredBefore : Nat) (answer : AgentSetRead)
    (logFails : Bool) :
    ((r.readAnswered answeredBefore answer logFails).1.refusal = none ∧ r.refusal.isSome = true ∧
      (r.readAnswered answeredBefore answer logFails).1.countedCalls = r.answeredCalls) ∨
    (¬ (r.refusal.isSome = true ∧ (r.readAnswered answeredBefore answer logFails).1.refusal = none) ∧
      (r.readAnswered answeredBefore answer logFails).1.countedCalls = answeredBefore) := by
  unfold AgentReadBack.readAnswered
  dsimp only
  cases answer with
  | unverifiable reason =>
    refine Or.inr ⟨?_, (AgentReadBack.refuse_answeredCalls _ _).2.1⟩
    simp [AgentReadBack.refuse_refusal]
  | held set =>
    dsimp only
    split
    · split
      · rename_i hsome
        exact Or.inl ⟨rfl, hsome, rfl⟩
      · rename_i hnone
        exact Or.inr ⟨fun h => hnone h.1, rfl⟩
    · refine Or.inr ⟨?_, (AgentReadBack.refuse_answeredCalls _ _).2.1⟩
      simp [AgentReadBack.refuse_refusal]

/-- This load's set is pushed again only where the read showed an empty set that differs from the
baseline, and only under the refusal that begins. -/
theorem readAnswered_pushes {r : AgentReadBack} {answeredBefore : Nat} {answer : AgentSetRead}
    {logFails : Bool} (h : (r.readAnswered answeredBefore answer logFails).2 = true) :
    answer.showsEmpty r.baseline = true ∧
    (r.readAnswered answeredBefore answer logFails).1.refusal = some .alteredPolicySet := by
  unfold AgentReadBack.readAnswered at h ⊢
  dsimp only at h ⊢
  cases answer with
  | unverifiable reason => exact absurd h (by simp)
  | held set =>
    dsimp only at h ⊢
    split at h
    · exact absurd h (by simp)
    · rename_i hdiffers
      rw [if_neg hdiffers]
      refine ⟨?_, AgentReadBack.refuse_refusal _ _⟩
      rw [Bool.and_eq_true] at h
      rw [AgentSetRead.showsEmpty, h.1]
      simpa using hdiffers

theorem readRejected_counts (r : AgentReadBack) : r.readRejected.countedCalls = r.answeredCalls ∧
    r.readRejected.answeredCalls = r.answeredCalls ∧ r.readRejected.running = r.running := by
  unfold AgentReadBack.readRejected
  dsimp only
  split
  · exact ⟨rfl, rfl, rfl⟩
  · split
    · have h := AgentReadBack.refuse_answeredCalls { r with countedCalls := r.answeredCalls }
        .unverifiablePolicySet
      exact ⟨h.2.1, h.1, h.2.2.1⟩
    · exact ⟨rfl, rfl, rfl⟩

theorem inv_isAuthorized (h : Inv s) : Inv s.isAuthorized := by
  unfold isAuthorized
  split <;> exact ⟨h.counted, h.checks⟩

/-- A read that got an answer keeps the invariant. -/
theorem inv_readAnswered (h : Inv s) {check : Check} {answeredBefore : Nat} {answer : AgentSetRead}
    {logFails : Bool} {readBack : AgentReadBack} {pushes : Bool} (out : s.tick.check? check.id = some check)
    (reading : check.phase = .reading answeredBefore)
    (read : s.readBack.readAnswered answeredBefore answer logFails = (readBack, pushes)) :
    Inv ((advance { s.tick with
        readBack
        deeds := s.tick.deeds ++ if pushes then [Deed.pushSent check.id] else []
        ledger := { s.tick.ledger with lastReadStart := check.startedAt } }
      { check with
        phase := if pushes then .pushing else .returned
        readEmpty := answer.showsEmpty s.readBack.baseline }).noteLift s.readBack) := by
  have hpoints := h.counted.points
  obtain ⟨hone, hrunning, hok⟩ := h.check_eq out
  obtain ⟨hbefore, hlast, hpast⟩ := (checkOk_reading reading).1 hok
  obtain ⟨hrun, hcalls⟩ := readAnswered_running s.readBack answeredBefore answer logFails
  have hcounts := readAnswered_counts s.readBack answeredBefore answer logFails
  have hpushes := @readAnswered_pushes s.readBack answeredBefore answer logFails
  rw [read] at hrun hcalls hcounts hpushes
  set check' : Check := { check with
    phase := if pushes then .pushing else .returned
    readEmpty := answer.showsEmpty s.readBack.baseline } with hcheck'
  have hok' : ∀ l, CheckOk readBack l check' := by
    intro l
    cases hp : pushes with
    | false => exact checkOk_returned (by rw [hcheck', hp]; rfl)
    | true =>
      obtain ⟨hempty, hrefusal⟩ := hpushes hp
      exact (checkOk_pushing (by rw [hcheck', hp]; rfl)).2 ⟨hrefusal, hempty⟩
  set after : ReadBackSystem := advance { s.tick with
      readBack
      deeds := s.tick.deeds ++ if pushes then [Deed.pushSent check.id] else []
      ledger := { s.tick.ledger with lastReadStart := check.startedAt } } check' with hafter
  have hchecks : after.checks = [check'] := advance_checks hone rfl
  rcases noteLift_cases after s.readBack with ⟨hsome, hnone, hnote⟩ | ⟨hno, hnote⟩
  · -- a lift: everything answered so far is accounted for
    have hcounted : readBack.countedCalls = s.readBack.answeredCalls := by
      rcases hcounts with ⟨-, -, h⟩ | ⟨hno, -⟩
      · exact h
      · exact absurd ⟨hsome, hnone⟩ hno
    have hmax : max check.startedAt (max s.ledger.lastRejection (s.ledger.time + 1)) =
        s.ledger.time + 1 := by
      unfold Ledger.accounted at hpoints
      omega
    rw [hnote]
    exact ⟨h.counted.accountedAll rfl hcalls hcounted hmax rfl,
      Or.inr ⟨check', hchecks, hrun.trans hrunning, hok' _⟩⟩
  · -- no lift: the calls before the read began are
    have hcounted : readBack.countedCalls = answeredBefore := by
      rcases hcounts with ⟨hnone, hsome, -⟩ | ⟨-, h⟩
      · exact absurd ⟨hsome, hnone⟩ hno
      · exact h
    have hmax : max check.startedAt (max s.ledger.lastRejection s.ledger.lastLift) =
        check.startedAt := by
      unfold Ledger.accounted at hlast
      omega
    rw [hnote]
    refine ⟨⟨hcalls.trans h.counted.answered, fun t ht => Nat.le_succ_of_le (h.counted.past t ht),
      ?_, ?_⟩, Or.inr ⟨check', hchecks, hrun.trans hrunning, hok' _⟩⟩
    · show max check.startedAt (max s.ledger.lastRejection s.ledger.lastLift) ≤ s.ledger.time + 1
      omega
    · show readBack.countedCalls = Ledger.answeredBy _
        (max check.startedAt (max s.ledger.lastRejection s.ledger.lastLift))
      rw [hmax, hcounted]
      exact hbefore

/-- A rejected read keeps the invariant. -/
theorem inv_readRejected (h : Inv s) {check : Check} (out : s.tick.check? check.id = some check) :
    Inv (advance { s.tick with
        readBack := s.tick.readBack.readRejected
        ledger := { s.tick.ledger with lastRejection := s.tick.ledger.time } }
      { check with phase := .returned }) := by
  have hpoints := h.counted.points
  obtain ⟨hone, hrunning, hok⟩ := h.check_eq out
  obtain ⟨hcounts, hcalls, hrun⟩ := readRejected_counts s.readBack
  have hmax : max s.ledger.lastReadStart (max (s.ledger.time + 1) s.ledger.lastLift) =
      s.ledger.time + 1 := by
    unfold Ledger.accounted at hpoints
    omega
  exact ⟨h.counted.accountedAll rfl hcalls hcounts hmax rfl,
    Or.inr ⟨{ check with phase := .returned }, advance_checks hone rfl, hrun.trans hrunning,
      checkOk_returned rfl⟩⟩

/-- The end of a push keeps the invariant. -/
theorem inv_pushEnded (h : Inv s) {check : Check} {copy : Option AgentPolicySet}
    (out : s.tick.check? check.id = some check) (pushing : check.phase = .pushing) :
    Inv ((advance { s.tick with readBack := s.tick.readBack.pushed copy }
      { check with phase := .returned }).noteLift s.tick.readBack) := by
  have hpoints := h.counted.points
  obtain ⟨hone, hrunning, hok⟩ := h.check_eq out
  obtain ⟨hrefusal, -⟩ := (checkOk_pushing pushing).1 hok
  set after : ReadBackSystem := advance { s.tick with readBack := s.tick.readBack.pushed copy }
    { check with phase := .returned } with hafter
  have hchecks : after.checks = [{ check with phase := .returned }] := advance_checks hone rfl
  have hsome : s.tick.readBack.refusal.isSome = true := by
    rw [show s.tick.readBack.refusal = _ from hrefusal]
    rfl
  rcases noteLift_cases after s.tick.readBack with ⟨-, hnone, hnote⟩ | ⟨hno, hnote⟩
  · rw [hnote]
    cases copy with
    | none => exact absurd (hrefusal.symm.trans hnone) (by simp)
    | some set =>
      have hmax : max s.ledger.lastReadStart (max s.ledger.lastRejection (s.ledger.time + 1)) =
          s.ledger.time + 1 := by
        unfold Ledger.accounted at hpoints
        omega
      exact ⟨h.counted.accountedAll rfl rfl rfl hmax rfl,
        Or.inr ⟨_, hchecks, hrunning, checkOk_returned rfl⟩⟩
  · rw [hnote]
    cases copy with
    | none =>
      exact ⟨h.counted.later (Or.inl ⟨rfl, rfl⟩) rfl rfl rfl,
        Or.inr ⟨_, hchecks, hrunning, checkOk_returned rfl⟩⟩
    | some set => exact absurd ⟨hsome, rfl⟩ hno

/-- Every step keeps the invariant. -/
theorem step_inv {e : ReadBackEvent} (h : Inv s) (hs : step options s e = some s') : Inv s' := by
  cases step_cases hs with
  | polled clock => exact inv_poll h clock
  | called clock => exact inv_isAuthorized (inv_poll h clock)
  | answered call generation out =>
    exact h.later rfl rfl rfl rfl (Or.inr ⟨rfl, rfl⟩) rfl rfl
  | failed call generation out => exact h.later rfl rfl rfl rfl (Or.inl ⟨rfl, rfl⟩) rfl rfl
  | readAnswered check answeredBefore answer logFails readBack pushes out reading read =>
    exact inv_readAnswered h out reading read
  | readRejected check answeredBefore out reading => exact inv_readRejected h out
  | pushEnded check copy out pushing => exact inv_pushEnded h out pushing
  | settled check draw out returned =>
    obtain ⟨hone, -, -⟩ := h.check_eq out
    refine ⟨h.counted.later (Or.inl ⟨rfl, rfl⟩) rfl rfl rfl, Or.inl ⟨?_, rfl⟩⟩
    show s.checks.filter (fun c => c.id ≠ check.id) = []
    rw [hone]
    simp

end ReadBackSystem

end PolicyVerifier.Cedar
