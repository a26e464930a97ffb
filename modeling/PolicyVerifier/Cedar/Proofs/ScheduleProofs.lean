import Mathlib.Tactic.Linarith
import PolicyVerifier.Cedar.Proofs.ReadBackProofs
import PolicyVerifier.Js.Proofs.RoundingProofs

/-!
# When the set is read back

What a record of the run says (when the last check started, what was drawn since, how many checks have
ended since the refusal in effect began) decides whether a poll starts a check.
-/

namespace PolicyVerifier.Cedar

open Js ReadBackSystem

/-! ## The record -/

/-- What is recorded of a run: the clock at the last check's start, or at construction before the first;
the last draw; and how many checks have ended since the refusal in effect began, the one that began it
included. -/
structure Schedule where
  lastStart : ℚ
  draw : Option ℚ
  ended : Nat := 0

/-- The clock of an event that polls. -/
def ReadBackEvent.clock? : ReadBackEvent → Option ClockReadings
  | .poll clock => some clock
  | .call clock => some clock
  | _ => none

/-- The record after a step. A step that starts a check gives it the next number. -/
def Schedule.after (schedule : Schedule) (s : ReadBackSystem) (e : ReadBackEvent) (s' : ReadBackSystem) :
    Schedule where
  lastStart :=
    match e.clock? with
    | some clock => if s'.nextCheck = s.nextCheck then schedule.lastStart else clock.start
    | none => schedule.lastStart
  draw :=
    match e with
    | .settle _ draw => draw
    | _ => schedule.draw
  ended :=
    if s'.readBack.refusal = none then 0
    else
      match e with
      | .settle _ _ => schedule.ended + 1
      | _ => schedule.ended

/-- A step of the read-back, and of the record of it. -/
def recordStep (options : AgentReadBackOptions) (t : ReadBackSystem × Schedule) (e : ReadBackEvent) :
    Option (ReadBackSystem × Schedule) :=
  (step options t.1 e).map fun s' => (s', t.2.after t.1 e s')

/-- Whether the step started a check: its read is sent at once. -/
def Starts (s s' : ReadBackSystem) : Prop := ∃ check, Did s s' (.readSent check)

/-- Whether the event polls, while no check is out, once the time since the last start has come to the
wait: the difference of two clock readings, as a double. -/
def Due (s : ReadBackSystem) (schedule : Schedule) (e : ReadBackEvent) (wait : ℚ) : Prop :=
  ∃ clock, e.clock? = some clock ∧ s.checks = [] ∧ wait ≤ nearestDouble (clock.now - schedule.lastStart)

/-! ## What the waits come to -/

section

variable {options : AgentReadBackOptions} {s s' : ReadBackSystem} {schedule : Schedule}

/-- Whatever is drawn, half the interval and the share of the other half come to half of it at least and to all of
it at most, rounding included. -/
theorem share_bounds {drawn : ℚ} (hlow : 0 ≤ drawn) (hhigh : drawn ≤ 1) :
    1 / 2 ≤ nearestDouble (1 / 2 + nearestDouble (1 / 2 * drawn)) ∧
      nearestDouble (1 / 2 + nearestDouble (1 / 2 * drawn)) ≤ 1 := by
  have hone : IsDouble 1 := by decide +kernel
  have hhalf : IsDouble (1 / 2) := by decide +kernel
  have hleast : 0 ≤ nearestDouble (1 / 2 * drawn) := isDouble_zero.le_nearest le_rfl (by positivity)
  have hmost : nearestDouble (1 / 2 * drawn) ≤ 1 / 2 := hhalf.nearest_le (by positivity) (by linarith)
  exact ⟨hhalf.le_nearest (by norm_num) (by linarith), hone.nearest_le (by linarith) (by linarith)⟩

/-- Whatever is drawn, the wait is a double from half the interval to all of it. -/
theorem drawWait_bounds (hinterval : 1000 ≤ options.intervalMs) (hdouble : IsDouble options.intervalMs)
    (draw : Option ℚ) :
    options.intervalMs / 2 ≤ drawWait options draw ∧ drawWait options draw ≤ options.intervalMs ∧
      IsDouble (drawWait options draw) := by
  obtain ⟨hleast, hmost⟩ := share_bounds (le_min (le_max_right (draw.getD 1) 0) zero_le_one)
    (min_le_right (max (draw.getD 1) 0) 1)
  unfold drawWait
  dsimp only
  generalize nearestDouble (1 / 2 + nearestDouble (1 / 2 * min (max (draw.getD 1) 0) 1)) = share at hleast hmost ⊢
  have hhalf : options.intervalMs / 2 ≤ options.intervalMs * share := by nlinarith
  have hall : options.intervalMs * share ≤ options.intervalMs := by nlinarith
  have hpositive : 0 ≤ options.intervalMs * share := by linarith
  refine ⟨?_, hdouble.nearest_le hpositive hall, nearestDouble_isDouble hpositive⟩
  exact (hdouble.half (by linarith)).le_nearest (by linarith) hhalf

/-- The wait after `ended` checks of a refusal. -/
def recheckWait (options : AgentReadBackOptions) (ended : Nat) : ℚ :=
  min options.intervalMs (1000 * 2 ^ (ended - 1))

theorem recheckWait_isDouble (hdouble : IsDouble options.intervalMs) (ended : Nat) :
    IsDouble (recheckWait options ended) := by
  have hsecond : IsDouble 1000 := by decide +kernel
  exact hdouble.min (hsecond.mul_two_pow (by norm_num) (ended - 1))

theorem recheckWait_least (hinterval : 1000 ≤ options.intervalMs) (ended : Nat) : 1000 ≤ recheckWait options ended := by
  have hpow : (1 : ℚ) ≤ 2 ^ (ended - 1) := one_le_pow₀ one_le_two
  exact le_min hinterval (by linarith)

/-- The wait doubles with every check but the first, up to the interval. -/
theorem recheckWait_double (hinterval : 1000 ≤ options.intervalMs) (hdouble : IsDouble options.intervalMs)
    {ended : Nat} (hended : ended ≠ 0) :
    min (nearestDouble (recheckWait options ended * 2)) options.intervalMs = recheckWait options (ended + 1) := by
  have hleast := recheckWait_least hinterval ended
  have hexact : IsDouble (recheckWait options ended * 2) :=
    (isDouble_mul_two_iff (by linarith)).2 (recheckWait_isDouble hdouble ended)
  obtain ⟨k, rfl⟩ := Nat.exists_eq_succ_of_ne_zero hended
  have hpow : (1000 * 2 ^ (k + 1) : ℚ) = 1000 * 2 ^ k * 2 := by rw [pow_succ, mul_assoc]
  have hbelow : options.intervalMs ≤ options.intervalMs * 2 := by linarith
  rw [hexact]
  unfold recheckWait
  rw [Nat.succ_eq_add_one, Nat.add_sub_cancel, Nat.add_sub_cancel, hpow, min_mul_of_nonneg _ _ zero_le_two,
    min_right_comm, min_eq_right hbelow]

/-! ## What every state holds of the record -/

/-- The read-back's own times are the ones the record gives. -/
structure Paced (options : AgentReadBackOptions) (s : ReadBackSystem) (schedule : Schedule) : Prop where
  lastCheck : s.readBack.lastCheck = schedule.lastStart
  wait : s.readBack.wait = drawWait options schedule.draw
  /-- With nothing refused none is counted, and a check that found a refusal has lifted it. -/
  quiet : s.readBack.refusal = none →
    schedule.ended = 0 ∧ ∀ c ∈ s.checks, c.refusing = true → c.phase = .returned
  /-- While a refusal lasts, the check that began it is out exactly until the first has ended. -/
  begun : s.readBack.refusal ≠ none → ((∃ c ∈ s.checks, c.refusing = false) ↔ schedule.ended = 0)
  /-- The time to the next check is the series', but for the check that lifted a refusal. -/
  recheck : (s.readBack.refusal = none ∧ ∃ c ∈ s.checks, c.refusing = true) ∨
    s.readBack.recheckMs = recheckWait options schedule.ended

/-- What a step of a check leaves as it is. -/
def SameTimes (r r' : AgentReadBack) : Prop :=
  r'.lastCheck = r.lastCheck ∧ r'.wait = r.wait ∧ r'.recheckMs = r.recheckMs

theorem refuse_sameTimes (r : AgentReadBack) (why : ReadBackRefusal) : SameTimes r (r.refuse why) := by
  unfold AgentReadBack.refuse
  split <;> exact ⟨rfl, rfl, rfl⟩

theorem readRejected_sameTimes (r : AgentReadBack) : SameTimes r r.readRejected := by
  unfold AgentReadBack.readRejected
  dsimp only
  split
  · exact ⟨rfl, rfl, rfl⟩
  · split
    · exact refuse_sameTimes { r with countedCalls := r.answeredCalls } _
    · exact ⟨rfl, rfl, rfl⟩

theorem readAnswered_sameTimes (r : AgentReadBack) (answeredBefore : Nat) (answer : AgentSetRead)
    (logFails : Bool) : SameTimes r (r.readAnswered answeredBefore answer logFails).1 := by
  unfold AgentReadBack.readAnswered
  dsimp only
  cases answer with
  | unverifiable reason => exact refuse_sameTimes { r with countedCalls := _, unreachableStreak := _ } _
  | held set =>
    dsimp only
    split
    · split <;> exact ⟨rfl, rfl, rfl⟩
    · exact refuse_sameTimes { r with countedCalls := _, unreachableStreak := _ } _

theorem pushed_sameTimes (r : AgentReadBack) (copy : Option AgentPolicySet) : SameTimes r (r.pushed copy) := by
  cases copy <;> exact ⟨rfl, rfl, rfl⟩

/-- A step that starts no check and ends none records at most that nothing is refused any more. -/
theorem after_kept {e : ReadBackEvent} (hsettle : ∀ id draw, e ≠ .settle id draw)
    (hnext : s'.nextCheck = s.nextCheck) : schedule.after s e s' =
      { schedule with ended := if s'.readBack.refusal = none then 0 else schedule.ended } := by
  cases e with
  | settle id draw => exact absurd rfl (hsettle id draw)
  | poll clock => simp [Schedule.after, ReadBackEvent.clock?, hnext]
  | call clock => simp [Schedule.after, ReadBackEvent.clock?, hnext]
  | _ => simp [Schedule.after, ReadBackEvent.clock?]

/-- A step that starts a check records the clock at its start. -/
theorem after_started {e : ReadBackEvent} {clock : ClockReadings} (hclock : e.clock? = some clock)
    (hnext : s'.nextCheck ≠ s.nextCheck) : schedule.after s e s' = { schedule with
      lastStart := clock.start
      ended := if s'.readBack.refusal = none then 0 else schedule.ended } := by
  cases e with
  | poll clock' =>
    obtain rfl := Option.some.inj hclock
    simp [Schedule.after, ReadBackEvent.clock?, hnext]
  | call clock' =>
    obtain rfl := Option.some.inj hclock
    simp [Schedule.after, ReadBackEvent.clock?, hnext]
  | _ => exact absurd hclock (by simp [ReadBackEvent.clock?])

/-- What is counted of a refusal stays as it is where the refusal does. -/
theorem Paced.ended_kept (h : Paced options s schedule) (hrefusal : s'.readBack.refusal = s.readBack.refusal) :
    (if s'.readBack.refusal = none then 0 else schedule.ended) = schedule.ended := by
  split
  · rename_i hnone
    exact (h.quiet (hrefusal.symm.trans hnone)).1.symm
  · rfl

/-- A step that leaves the checks, the refusal and the times alone. -/
theorem Paced.kept (h : Paced options s schedule) {e : ReadBackEvent}
    (hsettle : ∀ id draw, e ≠ .settle id draw) (hchecks : s'.checks = s.checks)
    (hrefusal : s'.readBack.refusal = s.readBack.refusal) (hsame : SameTimes s.readBack s'.readBack)
    (hnext : s'.nextCheck = s.nextCheck) : Paced options s' (schedule.after s e s') := by
  obtain ⟨hlast, hwait, hrecheck⟩ := hsame
  rw [after_kept hsettle hnext, h.ended_kept hrefusal]
  exact ⟨hlast.trans h.lastCheck, hwait.trans h.wait, hrefusal ▸ hchecks ▸ h.quiet,
    hrefusal ▸ hchecks ▸ h.begun, hrefusal ▸ hchecks ▸ hrecheck ▸ h.recheck⟩

/-- A step of the check that is out: where nothing is refused after it, the check has returned. -/
theorem Paced.checked (h : Paced options s schedule) {e : ReadBackEvent}
    (hsettle : ∀ id draw, e ≠ .settle id draw) {check check' : Check} (hone : s.checks = [check])
    (hphase : check.phase ≠ .returned) (hchecks : s'.checks = [check'])
    (hrefusing : check'.refusing = check.refusing) (hsame : SameTimes s.readBack s'.readBack)
    (hlift : s'.readBack.refusal = none → check'.phase = .returned)
    (hnext : s'.nextCheck = s.nextCheck) : Paced options s' (schedule.after s e s') := by
  obtain ⟨hlast, hwait, hrecheckMs⟩ := hsame
  -- with nothing refused before the step, the check found nothing refused either
  have hquiet : s.readBack.refusal = none → schedule.ended = 0 ∧ check.refusing = false := by
    intro hnone
    obtain ⟨hended, hreturned⟩ := h.quiet hnone
    refine ⟨hended, ?_⟩
    cases hc : check.refusing with
    | false => rfl
    | true => exact absurd (hreturned check (by simp [hone]) hc) hphase
  have hbegun : check.refusing = false ↔ schedule.ended = 0 := by
    by_cases hnone : s.readBack.refusal = none
    · exact iff_of_true (hquiet hnone).2 (hquiet hnone).1
    · simpa [hone] using h.begun hnone
  have hrecheck : s.readBack.recheckMs = recheckWait options schedule.ended := by
    rcases h.recheck with ⟨hnone, c, hc, hrefusing⟩ | hrecheck
    · rw [hone, List.mem_singleton] at hc
      rw [hc, (hquiet hnone).2] at hrefusing
      exact absurd hrefusing (by simp)
    · exact hrecheck
  rw [after_kept hsettle hnext]
  refine ⟨hlast.trans h.lastCheck, hwait.trans h.wait, fun hnone => ?_, fun hsome => ?_, ?_⟩
  · refine ⟨if_pos hnone, fun c hc _ => ?_⟩
    rw [hchecks, List.mem_singleton] at hc
    exact hc ▸ hlift hnone
  · dsimp only
    rw [if_neg hsome, hchecks]
    simpa [hrefusing] using hbegun
  · dsimp only
    rw [hchecks, hrecheckMs, hrecheck]
    by_cases hnone : s'.readBack.refusal = none
    · rw [if_pos hnone]
      cases hc : check.refusing with
      | true => exact .inl ⟨hnone, check', by simp, hrefusing.trans hc⟩
      | false => exact .inr (by rw [hbegun.1 hc])
    · rw [if_neg hnone]
      exact .inr rfl

/-- A check that starts finds the refusal there is. -/
theorem Paced.polled (h : Paced options s schedule) (hinv : Inv s) {e : ReadBackEvent}
    {clock : ClockReadings} (hclock : e.clock? = some clock)
    (hreadBack : s'.readBack = (s.tick.poll options clock).readBack)
    (hchecks : s'.checks = (s.tick.poll options clock).checks)
    (hnext : s'.nextCheck = (s.tick.poll options clock).nextCheck) :
    Paced options s' (schedule.after s e s') := by
  have hsettle : ∀ id draw, e ≠ .settle id draw := by
    rintro id draw rfl
    exact absurd hclock (by simp [ReadBackEvent.clock?])
  rcases poll_cases options s.tick clock with heq | ⟨hrunning, heq⟩
  · rw [heq] at hreadBack hchecks hnext
    exact h.kept hsettle hchecks (by rw [hreadBack]; rfl) (by rw [hreadBack]; exact ⟨rfl, rfl, rfl⟩) hnext
  · rw [heq] at hreadBack hchecks hnext
    have hnil : s.checks = [] := by
      rcases hinv.checks with ⟨hnil, -⟩ | ⟨c, -, hsome, -⟩
      · exact hnil
      · exact absurd (hsome.symm.trans hrunning) (by simp)
    have hrefusal : s'.readBack.refusal = s.readBack.refusal := by rw [hreadBack]; rfl
    have hrecheck : s'.readBack.recheckMs = recheckWait options schedule.ended := by
      rcases h.recheck with ⟨-, c, hc, -⟩ | hrecheck
      · rw [hnil] at hc
        exact absurd hc (by simp)
      · rw [hreadBack]
        exact hrecheck
    have hstarted : s'.checks =
        [{ id := s.nextCheck, refusing := s.readBack.refusal.isSome,
           phase := .reading s.readBack.answeredCalls, startedAt := s.ledger.time + 1 }] := by
      rw [hchecks]
      show s.checks ++ _ = _
      rw [hnil]
      rfl
    have hstarts : s'.nextCheck ≠ s.nextCheck := by
      rw [hnext]
      exact Nat.succ_ne_self s.nextCheck
    rw [after_started hclock hstarts, h.ended_kept hrefusal]
    refine ⟨by rw [hreadBack], by rw [hreadBack]; exact h.wait, fun hnone => ?_, fun hsome => ?_, .inr hrecheck⟩
    · rw [hrefusal] at hnone
      refine ⟨(h.quiet hnone).1, fun c hc hrefusing => ?_⟩
      rw [hstarted, List.mem_singleton] at hc
      subst hc
      rw [hnone] at hrefusing
      exact absurd hrefusing (by simp)
    · rw [hrefusal] at hsome
      have hbefore := h.begun hsome
      rw [hstarted, ← hbefore, hnil]
      simpa using hsome

/-- A check that ends is one more since the refusal began; its draw is the wait where nothing is
refused. -/
theorem Paced.settled (h : Paced options s schedule) (hinv : Inv s) (hinterval : 1000 ≤ options.intervalMs)
    (hdouble : IsDouble options.intervalMs) {check : Check} {draw : Option ℚ} (out : s.tick.check? check.id = some check)
    (hreadBack : s'.readBack = s.readBack.settled options check.refusing draw) (hchecks : s'.checks = []) :
    Paced options s' (schedule.after s (.settle check.id draw) s') := by
  obtain ⟨hone, -, -⟩ := hinv.check_eq out
  have hzero : recheckWait options 0 = 1000 ∧ recheckWait options 1 = 1000 := by
    simp [recheckWait, hinterval]
  refine ⟨by rw [hreadBack]; exact h.lastCheck, by rw [hreadBack]; rfl, fun hnone => ?_, fun hsome => ?_, .inr ?_⟩
  · exact ⟨if_pos hnone, by simp [hchecks]⟩
  · simp [Schedule.after, hchecks, hsome]
  · have hrefusal : s'.readBack.refusal = s.readBack.refusal := by rw [hreadBack]; rfl
    have hrecheckMs : s'.readBack.recheckMs =
        if check.refusing && s.readBack.refusal.isSome then
          min (nearestDouble (s.readBack.recheckMs * 2)) options.intervalMs
        else recheckWhileRefusingMs := by rw [hreadBack]; rfl
    have hended : (schedule.after s (.settle check.id draw) s').ended =
        if s.readBack.refusal = none then 0 else schedule.ended + 1 := by rw [← hrefusal]; rfl
    rw [hrecheckMs, hended]
    by_cases hnone : s.readBack.refusal = none
    · simp [hnone, hzero, recheckWhileRefusingMs]
    · have hbegun := h.begun hnone
      rw [if_neg hnone]
      cases hc : check.refusing with
      | false =>
        have hnew : schedule.ended = 0 := hbegun.1 ⟨check, by simp [hone], hc⟩
        simp [hnew, hzero, recheckWhileRefusingMs]
      | true =>
        have hold : schedule.ended ≠ 0 := by
          intro hzero
          obtain ⟨c, hmem, hrefusing⟩ := hbegun.2 hzero
          rw [hone, List.mem_singleton] at hmem
          rw [hmem, hc] at hrefusing
          exact absurd hrefusing (by simp)
        have hrecheck : s.readBack.recheckMs = recheckWait options schedule.ended :=
          h.recheck.resolve_left fun hlifted => hnone hlifted.1
        rw [Bool.true_and, if_pos (Option.isSome_iff_ne_none.2 hnone), hrecheck,
          recheckWait_double hinterval hdouble hold]

theorem isAuthorized_checks (s : ReadBackSystem) :
    s.isAuthorized.checks = s.checks ∧ s.isAuthorized.nextCheck = s.nextCheck := by
  unfold isAuthorized
  split <;> exact ⟨rfl, rfl⟩

theorem noteLift_nextCheck (s : ReadBackSystem) (before : AgentReadBack) :
    (s.noteLift before).nextCheck = s.nextCheck := by
  unfold noteLift
  split <;> rfl

/-- Every step keeps the times the record gives. -/
theorem step_paced (hinterval : 1000 ≤ options.intervalMs) (hdouble : IsDouble options.intervalMs)
    {e : ReadBackEvent} (hinv : Inv s) (h : Paced options s schedule) (hs : step options s e = some s') :
    Paced options s' (schedule.after s e s') := by
  cases step_cases hs with
  | polled clock => exact h.polled hinv rfl rfl rfl rfl
  | called clock =>
    obtain ⟨hchecks, hnext⟩ := isAuthorized_checks (s.tick.poll options clock)
    exact h.polled hinv rfl (isAuthorized_readBack _) hchecks hnext
  | answered call generation out => exact h.kept (by simp) rfl rfl ⟨rfl, rfl, rfl⟩ rfl
  | failed call generation out => exact h.kept (by simp) rfl rfl ⟨rfl, rfl, rfl⟩ rfl
  | readAnswered check answeredBefore answer logFails readBack pushes out reading read =>
    obtain ⟨hone, -, -⟩ := hinv.check_eq out
    have hsame := readAnswered_sameTimes s.readBack answeredBefore answer logFails
    have hpushes := @readAnswered_pushes s.readBack answeredBefore answer logFails
    rw [show s.readBack.readAnswered answeredBefore answer logFails = _ from read] at hsame hpushes
    refine h.checked (by simp) hone (by simp [reading])
      ((noteLift_checks _ _).trans (advance_checks hone rfl)) rfl ?_ (fun hnone => ?_)
      (noteLift_nextCheck _ _)
    · rw [noteLift_readBack]
      exact hsame
    · rw [noteLift_readBack] at hnone
      cases hp : pushes with
      | false => rfl
      | true => exact absurd ((hpushes hp).2.symm.trans hnone) (by simp)
  | readRejected check answeredBefore out reading =>
    obtain ⟨hone, -, -⟩ := hinv.check_eq out
    exact h.checked (by simp) hone (by simp [reading]) (advance_checks hone rfl) rfl
      (readRejected_sameTimes s.readBack) (fun _ => rfl) rfl
  | pushEnded check copy out pushing =>
    obtain ⟨hone, -, -⟩ := hinv.check_eq out
    refine h.checked (by simp) hone (by simp [pushing])
      ((noteLift_checks _ _).trans (advance_checks hone rfl)) rfl ?_ (fun _ => rfl) (noteLift_nextCheck _ _)
    rw [noteLift_readBack]
    exact pushed_sameTimes s.readBack copy
  | settled check draw out returned =>
    obtain ⟨hone, -, -⟩ := hinv.check_eq out
    refine h.settled hinv hinterval hdouble out rfl ?_
    show s.checks.filter (fun c => c.id ≠ check.id) = []
    rw [hone]
    simp

/-! ## When a poll starts a check -/

/-- A poll starts a check where none runs and one is due. -/
theorem poll_starts_iff {clock : ClockReadings} {new : List Deed}
    (hdeeds : s'.deeds = (s.tick.poll options clock).deeds ++ new) (hnew : ∀ check, .readSent check ∉ new) :
    Starts s s' ↔ s.readBack.running = none ∧ s.readBack.due options clock.now = true := by
  have hpolled : (s.tick.poll options clock).deeds = s.deeds ++
      if s.readBack.running = none ∧ s.readBack.due options clock.now = true then [.readSent s.nextCheck]
      else [] := by
    unfold poll
    by_cases hrunning : s.tick.readBack.running.isSome = true
    · have hsome : s.readBack.running ≠ none := Option.isSome_iff_ne_none.1 hrunning
      rw [if_pos hrunning, if_neg fun h => hsome h.1]
      exact (List.append_nil _).symm
    · have hnone : s.readBack.running = none := by simpa [tick] using hrunning
      rw [if_neg hrunning]
      by_cases hdue : s.tick.readBack.due options clock.now = true
      · rw [if_pos hdue, if_pos ⟨hnone, hdue⟩]
        rfl
      · rw [if_neg hdue, if_neg fun h => hdue h.2]
        exact (List.append_nil _).symm
  rw [hpolled, List.append_assoc] at hdeeds
  unfold Starts
  simp only [did_append hdeeds, List.mem_append, hnew, or_false]
  split
  · rename_i h
    exact iff_of_true ⟨s.nextCheck, by simp⟩ h
  · rename_i h
    exact iff_of_false (by simp) h

/-- A check is started by a poll alone, where none runs and one is due. -/
theorem step_starts_iff {e : ReadBackEvent} (hs : step options s e = some s') :
    Starts s s' ↔ ∃ clock, e.clock? = some clock ∧ s.readBack.running = none ∧
      s.readBack.due options clock.now = true := by
  have hother : e.clock? = none → (∃ new, s'.deeds = s.deeds ++ new ∧ ∀ check, .readSent check ∉ new) →
      (Starts s s' ↔ ∃ clock, e.clock? = some clock ∧ s.readBack.running = none ∧
        s.readBack.due options clock.now = true) := by
    rintro hclock ⟨new, hdeeds, hnew⟩
    refine iff_of_false ?_ (by simp [hclock])
    rintro ⟨check, hdid⟩
    exact hnew check ((did_append hdeeds).1 hdid)
  cases step_cases hs with
  | polled clock =>
    have hnothing : (s.tick.poll options clock).deeds = (s.tick.poll options clock).deeds ++ [] :=
      (List.append_nil _).symm
    rw [poll_starts_iff hnothing (by simp)]
    simp [ReadBackEvent.clock?]
  | called clock =>
    have hdeeds : ∃ new, (s.tick.poll options clock).isAuthorized.deeds =
        (s.tick.poll options clock).deeds ++ new ∧ ∀ check, .readSent check ∉ new := by
      unfold isAuthorized
      split
      · exact ⟨_, rfl, by simp⟩
      · exact ⟨_, rfl, by simp⟩
    obtain ⟨new, hdeeds, hnew⟩ := hdeeds
    rw [poll_starts_iff hdeeds hnew]
    simp [ReadBackEvent.clock?]
  | answered call generation out =>
    refine hother rfl ⟨_, rfl, ?_⟩
    intro check
    split <;> simp
  | failed call generation out => exact hother rfl ⟨[], (List.append_nil _).symm, by simp⟩
  | readAnswered check answeredBefore answer logFails readBack pushes out reading read =>
    refine hother rfl ⟨_, noteLift_deeds _ _, ?_⟩
    intro other
    split <;> simp
  | readRejected check answeredBefore out reading =>
    exact hother rfl ⟨[], (List.append_nil _).symm, by simp⟩
  | pushEnded check copy out pushing =>
    exact hother rfl ⟨[], (noteLift_deeds _ _).trans (List.append_nil _).symm, by simp⟩
  | settled check draw out returned => exact hother rfl ⟨[], (List.append_nil _).symm, by simp⟩

/-- A check is due once the record's time since the last start has come to the record's wait. -/
theorem starts_iff_due (hinv : Inv s) (h : Paced options s schedule) {e : ReadBackEvent}
    (hs : step options s e = some s') : Starts s s' ↔ Due s schedule e
      (if s.readBack.refusal = none then drawWait options schedule.draw
        else recheckWait options schedule.ended) := by
  have hrunning : s.readBack.running = none ↔ s.checks = [] := by
    rcases hinv.checks with ⟨hnil, hnone⟩ | ⟨c, hone, hsome, -⟩
    · exact iff_of_true hnone hnil
    · exact iff_of_false (by simp [hsome]) (by simp [hone])
  rw [step_starts_iff hs, Due]
  refine exists_congr fun clock => and_congr_right fun _ => ?_
  rw [hrunning]
  refine and_congr_right fun hnil => ?_
  have hrecheck : s.readBack.recheckMs = recheckWait options schedule.ended :=
    h.recheck.resolve_left fun hlifted => by simp [hnil] at hlifted
  have hcapped : min options.intervalMs (recheckWait options schedule.ended) =
      recheckWait options schedule.ended := by simp [recheckWait]
  unfold AgentReadBack.due
  dsimp only
  rw [decide_eq_true_eq, h.lastCheck, h.wait, hrecheck, hcapped]

/-! ## The schedule -/

/-- When the set is read back, over every run. -/
structure ReadBackSchedule (options : AgentReadBackOptions) (start : ReadBackSystem × Schedule) : Prop where
  /-- Every run is recorded. -/
  recorded : ∀ es s, Machine.run (step options) start.1 es = some s →
    ∃ schedule, Machine.run (recordStep options) start es = some (s, schedule)
  /-- With nothing refused a poll starts a check where none is out and the last draw's wait is over: from
  half the interval to all of it, whatever was drawn. -/
  quiet : ∀ es s schedule, Machine.run (recordStep options) start es = some (s, schedule) →
    s.readBack.refusal = none →
    options.intervalMs / 2 ≤ drawWait options schedule.draw ∧
      drawWait options schedule.draw ≤ options.intervalMs ∧
      ∀ e s', step options s e = some s' → (Starts s s' ↔ Due s schedule e (drawWait options schedule.draw))
  /-- While a refusal lasts, whatever kind it changes to, the waits double from a second on. -/
  refusing : ∀ es s schedule, Machine.run (recordStep options) start es = some (s, schedule) →
    s.readBack.refusal ≠ none → ∀ e s', step options s e = some s' →
      (Starts s s' ↔ Due s schedule e (min options.intervalMs (1000 * 2 ^ (schedule.ended - 1))))
  /-- A refusal that begins is counted anew: the wait after the check that began it is a second. -/
  begins : ∀ es s schedule e s' schedule',
    Machine.run (recordStep options) start es = some (s, schedule) →
    recordStep options (s, schedule) e = some (s', schedule') → s.readBack.refusal = none →
    s'.readBack.refusal ≠ none →
    schedule'.ended = 0 ∧ min options.intervalMs (1000 * 2 ^ (1 - 1)) = 1000
  /-- Rounding keeps no check back: where the exact time has come to the wait, one is started. -/
  onTime : ∀ es s schedule, Machine.run (recordStep options) start es = some (s, schedule) →
    ∀ e s' clock, step options s e = some s' → e.clock? = some clock → s.checks = [] →
    (if s.readBack.refusal = none then drawWait options schedule.draw
      else min options.intervalMs (1000 * 2 ^ (schedule.ended - 1))) ≤ clock.now - schedule.lastStart →
    Starts s s'

theorem recordStep_eq_some {t : ReadBackSystem × Schedule} {e : ReadBackEvent} {t' : ReadBackSystem × Schedule}
    (h : recordStep options t e = some t') : step options t.1 e = some t'.1 ∧ t'.2 = t.2.after t.1 e t'.1 := by
  obtain ⟨s', hs, rfl⟩ := Option.map_eq_some_iff.1 h
  exact ⟨hs, rfl⟩

theorem run_recorded {es : List ReadBackEvent} (schedule : Schedule)
    (h : Machine.run (step options) s es = some s') :
    ∃ schedule', Machine.run (recordStep options) (s, schedule) es = some (s', schedule') := by
  induction es generalizing s schedule with
  | nil =>
    obtain rfl := Option.some.inj h
    exact ⟨schedule, rfl⟩
  | cons e es ih =>
    obtain ⟨next, he, hrest⟩ := Machine.run_cons_eq_some.1 h
    obtain ⟨schedule', hrun⟩ := ih (schedule.after s e next) hrest
    exact ⟨schedule', Machine.run_cons_eq_some.2 ⟨_, by rw [recordStep, he, Option.map_some], hrun⟩⟩

/-- Every state of a recorded run is as the invariant and the record have it. -/
theorem run_paced (hinterval : 1000 ≤ options.intervalMs) (hdouble : IsDouble options.intervalMs) {now : ℚ}
    {draw : Option ℚ} {es : List ReadBackEvent}
    (h : Machine.run (recordStep options)
      (createAgentReadBack options now draw, { lastStart := now, draw }) es = some (s, schedule)) :
    Inv s ∧ Paced options s schedule := by
  refine Machine.run_invariant (I := fun t : ReadBackSystem × Schedule => Inv t.1 ∧ Paced options t.1 t.2)
    (fun t e t' ht hs => ?_) ⟨start_inv options now draw, ?_⟩ h
  · obtain ⟨hstep, hafter⟩ := recordStep_eq_some hs
    exact ⟨step_inv ht.1 hstep, hafter ▸ step_paced hinterval hdouble ht.1 ht.2 hstep⟩
  · refine ⟨rfl, rfl, fun _ => ⟨rfl, by simp [createAgentReadBack]⟩, fun hsome => absurd rfl hsome, .inr ?_⟩
    simp [createAgentReadBack, recheckWait, recheckWhileRefusingMs, hinterval]

/-- For every clock, every draw and every run of checks and polls, the set is read back on schedule. An interval is
a number, so a double. -/
theorem read_back_schedule (options : AgentReadBackOptions) (hinterval : 1000 ≤ options.intervalMs)
    (hdouble : IsDouble options.intervalMs) (now : ℚ) (draw : Option ℚ) :
    ReadBackSchedule options (createAgentReadBack options now draw, { lastStart := now, draw }) where
  recorded := fun es s h => run_recorded _ h
  quiet := by
    intro es s schedule hrun hnone
    obtain ⟨hinv, hpaced⟩ := run_paced hinterval hdouble hrun
    obtain ⟨hlow, hhigh, -⟩ := drawWait_bounds hinterval hdouble schedule.draw
    refine ⟨hlow, hhigh, fun e s' hs => ?_⟩
    have hstarts := starts_iff_due hinv hpaced hs
    rwa [if_pos hnone] at hstarts
  refusing := by
    intro es s schedule hrun hsome e s' hs
    obtain ⟨hinv, hpaced⟩ := run_paced hinterval hdouble hrun
    have hstarts := starts_iff_due hinv hpaced hs
    rwa [if_neg hsome] at hstarts
  begins := by
    intro es s schedule e s' schedule' hrun hs hnone hsome
    obtain ⟨hinv, hpaced⟩ := run_paced hinterval hdouble hrun
    obtain ⟨hstep, hafter⟩ := recordStep_eq_some hs
    refine ⟨?_, by simp [hinterval]⟩
    have hsettle : ∀ id draw, e ≠ .settle id draw := by
      rintro id draw rfl
      cases step_cases hstep with
      | settled check draw out returned => exact hsome hnone
    have hkept : schedule'.ended = schedule.ended := by
      rw [show schedule' = schedule.after s e s' from hafter]
      unfold Schedule.after
      dsimp only
      rw [if_neg hsome]
      cases e with
      | settle id draw => exact absurd rfl (hsettle id draw)
      | _ => rfl
    exact hkept.trans (hpaced.quiet hnone).1
  onTime := by
    intro es s schedule hrun e s' clock hs hclock hnil hexact
    obtain ⟨hinv, hpaced⟩ := run_paced hinterval hdouble hrun
    refine (starts_iff_due hinv hpaced hs).2 ⟨clock, hclock, hnil, ?_⟩
    obtain ⟨hlow, -, hdrawn⟩ := drawWait_bounds hinterval hdouble schedule.draw
    split at hexact
    · rename_i hnone
      rw [if_pos hnone]
      exact hdrawn.le_nearest (by linarith) hexact
    · rename_i hsome
      rw [if_neg hsome]
      have hleast := recheckWait_least hinterval schedule.ended
      exact (recheckWait_isDouble hdouble schedule.ended).le_nearest (by linarith) hexact

/-- Half a minute between reads; a draw of a tenth has the first at 16.5 seconds, where the exact product would be
later. It finds a set that cannot be compared, and the next is due a second after it started. -/
theorem read_back_schedule_half_minute :
    let options : AgentReadBackOptions := { pushed := ∅, intervalMs := 30000 }
    let draw := some (nearestDouble (1 / 10))
    let start := (createAgentReadBack options 0 draw, ({ lastStart := 0, draw } : Schedule))
    ReadBackSchedule options start ∧
      (Machine.run (recordStep options) start
        [.poll ⟨16499, 16499⟩, .poll ⟨16500, 16501⟩, .readAnswered 0 (.unverifiable []) false, .settle 0 none,
          .poll ⟨17500, 17500⟩, .poll ⟨17501, 17501⟩]).map
        (fun t => (t.1.readBack.refusal, t.2.ended, t.2.lastStart, t.1.checks.length)) =
        some (some .unverifiablePolicySet, 1, 17501, 1) :=
  ⟨read_back_schedule _ (by norm_num) (by decide +kernel) 0 _, by decide +kernel⟩

end

end PolicyVerifier.Cedar
