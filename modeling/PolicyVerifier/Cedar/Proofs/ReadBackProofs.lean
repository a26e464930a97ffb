import PolicyVerifier.Cedar.Proofs.ReadBackInv

/-!
# What the read-back promises

An answer is used only when nothing was refused while its call was out, and what a read shows decides
from then on what is refused, what is pushed and what is accounted for.
-/

namespace PolicyVerifier.Cedar

open Js ReadBackSystem

/-! ## Steps -/

/-- What the step did that can be seen from outside. -/
def Did (a b : ReadBackSystem) (deed : Deed) : Prop := deed ∈ b.deeds.drop a.deeds.length

section

variable {options : AgentReadBackOptions} {a b s s' : ReadBackSystem}

theorem did_append {new : List Deed} {deed : Deed} (h : b.deeds = a.deeds ++ new) :
    Did a b deed ↔ deed ∈ new := by
  rw [Did, h, List.drop_left]

@[simp] theorem noteLift_readBack (s : ReadBackSystem) (before : AgentReadBack) :
    (s.noteLift before).readBack = s.readBack := by
  unfold noteLift
  split <;> rfl

@[simp] theorem noteLift_deeds (s : ReadBackSystem) (before : AgentReadBack) :
    (s.noteLift before).deeds = s.deeds := by
  unfold noteLift
  split <;> rfl

@[simp] theorem noteLift_calls (s : ReadBackSystem) (before : AgentReadBack) :
    (s.noteLift before).calls = s.calls ∧ (s.noteLift before).nextCall = s.nextCall := by
  unfold noteLift
  split <;> exact ⟨rfl, rfl⟩

@[simp] theorem isAuthorized_readBack (s : ReadBackSystem) :
    s.isAuthorized.readBack = s.readBack := by
  unfold isAuthorized
  split <;> rfl

/-- A poll leaves the refusal and the calls as they are, and does no more than send a read. -/
theorem poll_keeps (options : AgentReadBackOptions) (s : ReadBackSystem) (clock : ClockReadings) :
    (s.poll options clock).readBack.refusal = s.readBack.refusal ∧
    (s.poll options clock).readBack.generation = s.readBack.generation ∧
    (s.poll options clock).readBack.begun = s.readBack.begun ∧
    (s.poll options clock).calls = s.calls ∧ (s.poll options clock).nextCall = s.nextCall ∧
    ∃ new, (s.poll options clock).deeds = s.deeds ++ new ∧ ∀ d ∈ new, ∃ check, d = .readSent check := by
  rcases poll_cases options s clock with heq | ⟨-, heq⟩
  · rw [heq]
    exact ⟨rfl, rfl, rfl, rfl, rfl, [], (List.append_nil _).symm, by simp⟩
  · rw [heq]
    exact ⟨rfl, rfl, rfl, rfl, rfl, _, rfl, fun d hd => ⟨s.nextCheck, List.mem_singleton.1 hd⟩⟩

theorem step_moves {e : ReadBackEvent} (h : step options s e = some s') :
    Moves s.readBack s'.readBack := by
  cases step_cases h with
  | polled clock =>
    obtain ⟨hr, hg, -⟩ := poll_keeps options s.tick clock
    exact Or.inl ⟨hg, Or.inl hr⟩
  | called clock =>
    obtain ⟨hr, hg, -⟩ := poll_keeps options s.tick clock
    rw [isAuthorized_readBack]
    exact Or.inl ⟨hg, Or.inl hr⟩
  | answered call generation out => exact Or.inl ⟨rfl, Or.inl rfl⟩
  | failed call generation out => exact Or.inl ⟨rfl, Or.inl rfl⟩
  | readAnswered check answeredBefore answer logFails readBack pushes out reading read =>
    have hmoves := AgentReadBack.readAnswered_moves s.readBack answeredBefore answer logFails
    rw [show s.readBack.readAnswered answeredBefore answer logFails = _ from read] at hmoves
    rw [noteLift_readBack]
    exact hmoves
  | readRejected check answeredBefore out reading => exact AgentReadBack.readRejected_moves _
  | pushEnded check copy out pushing =>
    rw [noteLift_readBack]
    exact AgentReadBack.pushed_moves _ copy
  | settled check draw out returned => exact Or.inl ⟨rfl, Or.inl rfl⟩

theorem step_generation {e : ReadBackEvent} (h : step options s e = some s') :
    s.readBack.generation ≤ s'.readBack.generation := by
  rcases step_moves h with ⟨hg, -⟩ | hlt
  · exact hg.ge
  · exact hlt.le

/-- What a step sends and uses, by the event. -/
theorem step_deeds {e : ReadBackEvent} (h : step options s e = some s') : ∃ new,
    s'.deeds = s.deeds ++ new ∧ ∀ d ∈ new,
      (∃ check, d = .readSent check) ∨
      (∃ clock call, e = .call clock ∧ d = .sent call ∧ s.readBack.refusal = none ∧
        s'.readBack.refusal = none ∧ call = s.nextCall ∧ s'.calls call = some s'.readBack.generation ∧
        s'.nextCall = call + 1) ∨
      (∃ call why, d = .refused call why) ∨
      (∃ call generation, e = .answer call ∧ d = .used call ∧ s.calls call = some generation ∧
        s.readBack.refusedSince generation = none) ∨
      (∃ check answer logFails, e = .readAnswered check answer logFails ∧ d = .pushSent check ∧
        answer.showsEmpty s.readBack.baseline = true) := by
  cases step_cases h with
  | polled clock =>
    obtain ⟨-, -, -, -, -, new, hnew, hreads⟩ := poll_keeps options s.tick clock
    exact ⟨new, hnew, fun d hd => Or.inl (hreads d hd)⟩
  | called clock =>
    obtain ⟨hr, hg, -, -, hnext, new, hnew, hreads⟩ := poll_keeps options s.tick clock
    cases hrefusal : (s.tick.poll options clock).readBack.refusal with
    | some why =>
      refine ⟨new ++ [.refused (s.tick.poll options clock).nextCall why], ?_, fun d hd => ?_⟩
      · rw [isAuthorized, hrefusal, ← List.append_assoc]
        exact congrArg (· ++ _) hnew
      · rcases List.mem_append.1 hd with hd | hd
        · exact Or.inl (hreads d hd)
        · exact Or.inr (Or.inr (Or.inl ⟨_, why, List.mem_singleton.1 hd⟩))
    | none =>
      refine ⟨new ++ [.sent (s.tick.poll options clock).nextCall], ?_, fun d hd => ?_⟩
      · rw [isAuthorized, hrefusal, ← List.append_assoc]
        exact congrArg (· ++ _) hnew
      · rcases List.mem_append.1 hd with hd | hd
        · exact Or.inl (hreads d hd)
        · refine Or.inr (Or.inl ⟨clock, _, rfl, List.mem_singleton.1 hd, hr.symm.trans hrefusal, ?_,
            hnext, ?_, ?_⟩)
          · rw [isAuthorized_readBack]
            exact hrefusal
          · simp [isAuthorized, hrefusal]
          · simp [isAuthorized, hrefusal]
  | answered call generation out =>
    refine ⟨_, rfl, fun d hd => ?_⟩
    obtain rfl := List.mem_singleton.1 hd
    cases hlate : (s.tick.readBack.answered).refusedSince generation with
    | some why => exact Or.inr (Or.inr (Or.inl ⟨call, why, rfl⟩))
    | none => exact Or.inr (Or.inr (Or.inr (Or.inl ⟨call, generation, rfl, rfl, out, hlate⟩)))
  | failed call generation out => exact ⟨[], (List.append_nil _).symm, by simp⟩
  | readAnswered check answeredBefore answer logFails readBack pushes out reading read =>
    refine ⟨if pushes then [Deed.pushSent check.id] else [], by rw [noteLift_deeds]; rfl,
      fun d hd => ?_⟩
    cases pushes with
    | false => exact absurd hd (by simp)
    | true =>
      have hpushes := @readAnswered_pushes s.readBack answeredBefore answer logFails
      rw [show s.readBack.readAnswered answeredBefore answer logFails = _ from read] at hpushes
      exact Or.inr (Or.inr (Or.inr (Or.inr ⟨check.id, answer, logFails, rfl, List.mem_singleton.1 hd,
        (hpushes rfl).1⟩)))
  | readRejected check answeredBefore out reading => exact ⟨[], (List.append_nil _).symm, by simp⟩
  | pushEnded check copy out pushing =>
    exact ⟨[], by rw [noteLift_deeds, List.append_nil]; rfl, by simp⟩
  | settled check draw out returned => exact ⟨[], (List.append_nil _).symm, by simp⟩

/-! ## Calls -/

/-- A refusal was begun, whenever the generation has moved. -/
def BegunOk (r : AgentReadBack) : Prop := 0 < r.generation → r.begun.isSome = true

theorem refuse_begun {r : AgentReadBack} (h : BegunOk r) (why : ReadBackRefusal) :
    BegunOk (r.refuse why) := by
  unfold AgentReadBack.refuse
  split
  · exact h
  · exact fun _ => rfl

theorem readAnswered_begun {r : AgentReadBack} (h : BegunOk r) (answeredBefore : Nat)
    (answer : AgentSetRead) (logFails : Bool) :
    BegunOk (r.readAnswered answeredBefore answer logFails).1 := by
  unfold AgentReadBack.readAnswered
  dsimp only
  cases answer with
  | unverifiable reason =>
    exact refuse_begun (r := { r with countedCalls := answeredBefore, unreachableStreak := false }) h _
  | held set =>
    dsimp only
    split
    · split <;> exact h
    · exact refuse_begun
        (r := { r with countedCalls := answeredBefore, unreachableStreak := false }) h _

theorem readRejected_begun {r : AgentReadBack} (h : BegunOk r) : BegunOk r.readRejected := by
  unfold AgentReadBack.readRejected
  dsimp only
  split
  · exact h
  · split
    · exact refuse_begun (r := { r with countedCalls := r.answeredCalls }) h _
    · exact h

theorem step_begun {e : ReadBackEvent} (h : BegunOk s.readBack) (hs : step options s e = some s') :
    BegunOk s'.readBack := by
  have hpoll : ∀ clock, BegunOk (s.tick.poll options clock).readBack := by
    intro clock
    obtain ⟨-, hg, hb, -⟩ := poll_keeps options s.tick clock
    intro hpos
    rw [hb]
    exact h (hg ▸ hpos)
  cases step_cases hs with
  | polled clock => exact hpoll clock
  | called clock =>
    rw [isAuthorized_readBack]
    exact hpoll clock
  | answered call generation out => exact h
  | failed call generation out => exact h
  | readAnswered check answeredBefore answer logFails readBack pushes out reading read =>
    have hbegun := readAnswered_begun h answeredBefore answer logFails
    rw [show s.readBack.readAnswered answeredBefore answer logFails = _ from read] at hbegun
    rw [noteLift_readBack]
    exact hbegun
  | readRejected check answeredBefore out reading => exact readRejected_begun h
  | pushEnded check copy out pushing =>
    rw [noteLift_readBack]
    cases copy <;> exact h
  | settled check draw out returned => exact h

/-- A call that was sent at a generation is out at it, or has come to an end. -/
def SentAt (call generation : Nat) (s : ReadBackSystem) : Prop :=
  call < s.nextCall ∧ (s.calls call = some generation ∨ s.calls call = none)

theorem step_sentAt {call generation : Nat} {e : ReadBackEvent} (h : SentAt call generation s)
    (hs : step options s e = some s') : SentAt call generation s' := by
  obtain ⟨hlt, hout⟩ := h
  have ended : ∀ other, (Function.update s.calls other none call = some generation ∨
      Function.update s.calls other none call = none) := by
    intro other
    by_cases heq : call = other
    · subst heq
      exact Or.inr (Function.update_self ..)
    · rw [Function.update_of_ne heq]
      exact hout
  cases step_cases hs with
  | polled clock =>
    obtain ⟨-, -, -, hcalls, hnext, -⟩ := poll_keeps options s.tick clock
    exact ⟨hnext ▸ hlt, by rw [hcalls]; exact hout⟩
  | called clock =>
    obtain ⟨-, -, -, hcalls, hnext, -⟩ := poll_keeps options s.tick clock
    have hlt' : call < (s.tick.poll options clock).nextCall := hnext ▸ hlt
    unfold isAuthorized
    split
    · exact ⟨Nat.lt_succ_of_lt hlt', by rw [hcalls]; exact hout⟩
    · have hother : Function.update (s.tick.poll options clock).calls (s.tick.poll options clock).nextCall
          (some (s.tick.poll options clock).readBack.generation) call = s.calls call := by
        rw [Function.update_of_ne (Nat.ne_of_lt hlt'), hcalls]
        rfl
      exact ⟨Nat.lt_succ_of_lt hlt', hout.imp hother.trans hother.trans⟩
  | answered other g out => exact ⟨hlt, ended other⟩
  | failed other g out => exact ⟨hlt, ended other⟩
  | readAnswered check answeredBefore answer logFails readBack pushes out reading read =>
    rw [SentAt, (noteLift_calls _ _).1, (noteLift_calls _ _).2]
    exact ⟨hlt, hout⟩
  | readRejected check answeredBefore out reading => exact ⟨hlt, hout⟩
  | pushEnded check copy out pushing =>
    rw [SentAt, (noteLift_calls _ _).1, (noteLift_calls _ _).2]
    exact ⟨hlt, hout⟩
  | settled check draw out returned => exact ⟨hlt, hout⟩

/-- Since a generation was taken with nothing refused, nothing has been, or the generation moved. -/
def QuietSince (generation : Nat) (s : ReadBackSystem) : Prop :=
  (s.readBack.generation = generation ∧ s.readBack.refusal = none) ∨
    generation < s.readBack.generation

theorem step_quietSince {generation : Nat} {e : ReadBackEvent} (h : QuietSince generation s)
    (hs : step options s e = some s') : QuietSince generation s' := by
  rcases h with ⟨hg, hr⟩ | hlt
  · rcases step_moves hs with ⟨hg', hr'⟩ | hlt
    · refine Or.inl ⟨hg'.trans hg, ?_⟩
      rcases hr' with hr' | hr'
      · exact hr'.trans hr
      · exact hr'
    · exact Or.inr (hg ▸ hlt)
  · exact Or.inr (lt_of_lt_of_le hlt (step_generation hs))

theorem run_generation {es : List ReadBackEvent} (h : Machine.run (step options) s es = some s') :
    s.readBack.generation ≤ s'.readBack.generation := by
  refine Machine.run_invariant (I := fun t => s.readBack.generation ≤ t.readBack.generation)
    (fun t e t' ht hs => ?_) le_rfl h
  exact le_trans ht (step_generation hs)

/-- What the http engine's calls are promised over every run of it. -/
structure CallSafety (options : AgentReadBackOptions) (start : ReadBackSystem) : Prop where
  /-- An answer is used only when nothing was refused in any state from the call's taking its
  generation to its answer being read. -/
  used : ∀ es₁ e₁ a b call, Machine.run (step options) start es₁ = some a →
    step options a e₁ = some b → Did a b (.sent call) →
    ∀ es₂ c d e₂, Machine.run (step options) b es₂ = some c → step options c e₂ = some d →
    Did c d (.used call) →
    ∀ pre post m, es₂ = pre ++ post → Machine.run (step options) b pre = some m →
      m.readBack.refusal = none
  /-- Nothing is sent while answers are refused. -/
  sent : ∀ es a e b call, Machine.run (step options) start es = some a → step options a e = some b →
    Did a b (.sent call) → a.readBack.refusal = none ∧ b.readBack.refusal = none
  /-- At most one check is out, and no other read or push than its own. -/
  one_check : ∀ es a, Machine.run (step options) start es = some a → a.checks.length ≤ 1
  /-- The generation never decreases. -/
  generation : ∀ es a fs b, Machine.run (step options) start es = some a →
    Machine.run (step options) a fs = some b → a.readBack.generation ≤ b.readBack.generation

theorem start_inv (options : AgentReadBackOptions) (now : ℚ) (draw : Option ℚ) :
    Inv (createAgentReadBack options now draw) :=
  ⟨⟨rfl, by simp [createAgentReadBack], by simp [createAgentReadBack, Ledger.accounted], rfl⟩,
    Or.inl ⟨rfl, rfl⟩⟩

theorem run_inv {now : ℚ} {draw : Option ℚ} {es : List ReadBackEvent}
    (h : Machine.run (step options) (createAgentReadBack options now draw) es = some s) : Inv s :=
  Machine.run_invariant (fun _ _ _ => step_inv) (start_inv options now draw) h

theorem run_begun {now : ℚ} {draw : Option ℚ} {es : List ReadBackEvent}
    (h : Machine.run (step options) (createAgentReadBack options now draw) es = some s) :
    BegunOk s.readBack :=
  Machine.run_invariant (I := fun t => BegunOk t.readBack) (fun _ _ _ => step_begun)
    (fun hpos => absurd hpos (by simp [createAgentReadBack])) h

/-- For every interleaving of calls, polls, checks, reads and pushes, an answer is used only when
nothing was refused while its call was out. -/
theorem read_back_call_safety (options : AgentReadBackOptions) (now : ℚ) (draw : Option ℚ) :
    CallSafety options (createAgentReadBack options now draw) where
  used := by
    intro es₁ e₁ a b call ha hb hsent es₂ c d e₂ hc hd hused pre post m hes hm
    subst hes
    -- the call was sent at the generation there was, with nothing refused
    obtain ⟨new, hnew, hdeeds⟩ := step_deeds hb
    obtain ⟨hquiet, hsentAt⟩ : QuietSince b.readBack.generation b ∧
        SentAt call b.readBack.generation b := by
      rcases hdeeds _ ((did_append hnew).1 hsent) with
        ⟨_, h⟩ | ⟨_, _, -, hcall, -, hrefusal, -, hcalls, hnext⟩ | ⟨_, _, h⟩ | ⟨_, _, -, h, -⟩ |
          ⟨_, _, _, -, h, -⟩
      · exact absurd h (by simp)
      · obtain rfl := Deed.sent.inj hcall
        exact ⟨Or.inl ⟨rfl, hrefusal⟩, by omega, Or.inl hcalls⟩
      · exact absurd h (by simp)
      · exact absurd h (by simp)
      · exact absurd h (by simp)
    have hquiet_m := Machine.run_invariant (fun _ _ _ => step_quietSince) hquiet hm
    have hsent_c := Machine.run_invariant (fun _ _ _ => step_sentAt) hsentAt hc
    have hbegun : BegunOk c.readBack := by
      refine Machine.run_invariant (I := fun t => BegunOk t.readBack) (fun _ _ _ => step_begun) ?_ hc
      exact step_begun (run_begun ha) hb
    have hmc : m.readBack.generation ≤ c.readBack.generation := by
      rw [Machine.run_append, hm] at hc
      exact run_generation hc
    -- its answer was used at the same generation
    obtain ⟨new', hnew', hdeeds'⟩ := step_deeds hd
    have hsame : c.readBack.generation = b.readBack.generation := by
      rcases hdeeds' _ ((did_append hnew').1 hused) with
        ⟨_, h⟩ | ⟨_, _, -, h, -⟩ | ⟨_, _, h⟩ | ⟨other, g, -, hcall, hout, hlate⟩ | ⟨_, _, _, -, h, -⟩
      · exact absurd h (by simp)
      · exact absurd h (by simp)
      · exact absurd h (by simp)
      · obtain rfl := Deed.used.inj hcall
        have hg : g = b.readBack.generation := by
          rcases hsent_c.2 with h | h
          · exact Option.some.inj (hout.symm.trans h)
          · exact absurd (hout.symm.trans h) (by simp)
        by_contra hne
        have hpos : 0 < c.readBack.generation := by
          have := run_generation hc
          omega
        have hsome := hbegun hpos
        rw [AgentReadBack.refusedSince, if_pos (by rw [hg]; exact hne), Option.or_eq_none_iff] at hlate
        rw [hlate.2] at hsome
        exact absurd hsome (by simp)
      · exact absurd h (by simp)
    rcases hquiet_m with ⟨-, hr⟩ | hlt
    · exact hr
    · omega
  sent := by
    intro es a e b call _ hb hsent
    obtain ⟨new, hnew, hdeeds⟩ := step_deeds hb
    rcases hdeeds _ ((did_append hnew).1 hsent) with
      ⟨_, h⟩ | ⟨_, _, -, -, hbefore, hafter, -⟩ | ⟨_, _, h⟩ | ⟨_, _, -, h, -⟩ | ⟨_, _, _, -, h, -⟩
    · exact absurd h (by simp)
    · exact ⟨hbefore, hafter⟩
    · exact absurd h (by simp)
    · exact absurd h (by simp)
    · exact absurd h (by simp)
  one_check := by
    intro es a ha
    rcases (run_inv ha).checks with ⟨hnil, -⟩ | ⟨c, hone, -⟩
    · simp [hnil]
    · simp [hone]
  generation := fun _ _ _ _ _ h => run_generation h

/-! ## What a read decides -/

/-- The read showed something other than this load's set. -/
def Differs (baseline : AgentPolicySet) : AgentSetRead → Prop
  | .unverifiable _ => True
  | .held set => sameAgentSet set baseline = false

/-- The step is a read that equals the baseline, or a push that succeeded. -/
def Lifts (s : ReadBackSystem) : ReadBackEvent → Prop
  | .readAnswered _ (.held set) _ => sameAgentSet set s.readBack.baseline = true
  | .pushEnded _ (some _) => True
  | _ => False

/-- A read that shows something else leaves answers refused. -/
theorem readAnswered_differs {r : AgentReadBack} {answer : AgentSetRead}
    (h : Differs r.baseline answer) (answeredBefore : Nat) (logFails : Bool) :
    (r.readAnswered answeredBefore answer logFails).1.refusal.isSome = true := by
  unfold AgentReadBack.readAnswered
  dsimp only
  cases answer with
  | unverifiable reason =>
    show (AgentReadBack.refuse _ _).refusal.isSome = true
    rw [AgentReadBack.refuse_refusal]
    rfl
  | held set =>
    have hdiffers : ¬ sameAgentSet set r.baseline = true := by
      rw [show sameAgentSet set r.baseline = false from h]
      simp
    dsimp only
    rw [if_neg hdiffers]
    show (AgentReadBack.refuse _ _).refusal.isSome = true
    rw [AgentReadBack.refuse_refusal]
    rfl

theorem readRejected_refused {r : AgentReadBack} (h : r.refusal.isSome = true) :
    r.readRejected.refusal = r.refusal ∧ r.readRejected.generation = r.generation := by
  unfold AgentReadBack.readRejected
  dsimp only
  rw [if_pos h]
  exact ⟨rfl, rfl⟩

theorem readRejected_begins {r : AgentReadBack} (h : r.refusal = none) :
    r.readRejected.refusal.isSome = true ↔ r.countedCalls < r.answeredCalls := by
  unfold AgentReadBack.readRejected
  dsimp only
  rw [h]
  by_cases hlt : r.countedCalls < r.answeredCalls
  · simp [hlt, AgentReadBack.refuse_refusal]
  · simp [hlt]

/-- Only the two steps that may lift a refusal do. -/
theorem step_keeps_refusal {e : ReadBackEvent} (hr : s.readBack.refusal.isSome = true)
    (hno : ¬ Lifts s e) (hs : step options s e = some s') : s'.readBack.refusal.isSome = true := by
  have hpoll : ∀ clock, (s.tick.poll options clock).readBack.refusal.isSome = true := by
    intro clock
    rw [(poll_keeps options s.tick clock).1]
    exact hr
  cases step_cases hs with
  | polled clock => exact hpoll clock
  | called clock =>
    rw [isAuthorized_readBack]
    exact hpoll clock
  | answered call generation out => exact hr
  | failed call generation out => exact hr
  | readAnswered check answeredBefore answer logFails readBack pushes out reading read =>
    have hdiffers : Differs s.readBack.baseline answer := by
      cases answer with
      | unverifiable reason => trivial
      | held set => exact Bool.eq_false_iff.2 hno
    have hsome := readAnswered_differs hdiffers answeredBefore logFails
    rw [show s.readBack.readAnswered answeredBefore answer logFails = _ from read] at hsome
    rw [noteLift_readBack]
    exact hsome
  | readRejected check answeredBefore out reading =>
    show s.readBack.readRejected.refusal.isSome = true
    rw [(readRejected_refused hr).1]
    exact hr
  | pushEnded check copy out pushing =>
    rw [noteLift_readBack]
    cases copy with
    | none => exact hr
    | some set => exact absurd trivial hno
  | settled check draw out returned => exact hr

/-- While answers are refused nothing is sent and no answer is used. -/
theorem refused_did {e : ReadBackEvent} (hr : s.readBack.refusal.isSome = true)
    (hs : step options s e = some s') (call : Nat) : ¬ Did s s' (.sent call) ∧ ¬ Did s s' (.used call) := by
  obtain ⟨new, hnew, hdeeds⟩ := step_deeds hs
  constructor
  · intro h
    rcases hdeeds _ ((did_append hnew).1 h) with
      ⟨_, h⟩ | ⟨_, _, -, -, hnone, -⟩ | ⟨_, _, h⟩ | ⟨_, _, -, h, -⟩ | ⟨_, _, _, -, h, -⟩
    · exact absurd h (by simp)
    · rw [hnone] at hr
      exact absurd hr (by simp)
    · exact absurd h (by simp)
    · exact absurd h (by simp)
    · exact absurd h (by simp)
  · intro h
    rcases hdeeds _ ((did_append hnew).1 h) with
      ⟨_, h⟩ | ⟨_, _, -, h, -⟩ | ⟨_, _, h⟩ | ⟨_, g, -, -, -, hlate⟩ | ⟨_, _, _, -, h, -⟩
    · exact absurd h (by simp)
    · exact absurd h (by simp)
    · exact absurd h (by simp)
    · rw [AgentReadBack.refusedSince, Option.or_eq_none_iff] at hlate
      rw [hlate.1] at hr
      exact absurd hr (by simp)
    · exact absurd h (by simp)

/-- What the read-back does over every run of it. -/
structure ReadBackLaw (options : AgentReadBackOptions) (start : ReadBackSystem) : Prop where
  /-- A push is made by a check whose own read showed an empty set that differs from the baseline. -/
  pushes : ∀ es a e b check, Machine.run (step options) start es = some a →
    step options a e = some b → Did a b (.pushSent check) →
    ∃ set logFails, e = .readAnswered check (.held set) logFails ∧ set.entries = [] ∧
      sameAgentSet set a.readBack.baseline = false
  /-- A push that ends is one that was made. -/
  push_made : ∀ es a check copy b, Machine.run (step options) start es = some a →
    step options a (.pushEnded check copy) = some b → .pushSent check ∈ a.deeds
  /-- Once a read shows a differing or unverifiable set, nothing is sent and no answer is used until
  a later read equals the baseline or a push succeeds. -/
  refuses : ∀ es a check answer logFails b, Machine.run (step options) start es = some a →
    step options a (.readAnswered check answer logFails) = some b →
    Differs a.readBack.baseline answer →
    ∀ fs c, Machine.run (step options) b fs = some c →
    (∀ x e y, Machine.Occurs (step options) b fs x e y → ¬ Lifts x e) →
    c.readBack.refusal.isSome = true ∧ ∀ e d, step options c e = some d →
      ∀ call, ¬ Did c d (.sent call) ∧ ¬ Did c d (.used call)
  /-- A rejected read neither begins a refusal while one is in effect nor lifts one. -/
  rejected_keeps : ∀ es a check b, Machine.run (step options) start es = some a →
    step options a (.readRejected check) = some b → a.readBack.refusal.isSome = true →
    b.readBack.refusal = a.readBack.refusal ∧ b.readBack.generation = a.readBack.generation
  /-- With nothing refused it begins one exactly when a call was answered after the latest point
  already accounted for. -/
  rejected_begins : ∀ es a check b, Machine.run (step options) start es = some a →
    step options a (.readRejected check) = some b → a.readBack.refusal = none →
    (b.readBack.refusal.isSome = true ↔ ∃ t ∈ a.ledger.answers, a.ledger.accounted < t)

/-- A check whose push is out has sent it. -/
def PushSent (s : ReadBackSystem) : Prop :=
  ∀ c ∈ s.checks, c.phase = .pushing → Deed.pushSent c.id ∈ s.deeds

theorem PushSent.grows (h : PushSent s) {new : List Deed} (hdeeds : s'.deeds = s.deeds ++ new)
    (hchecks : ∀ c ∈ s'.checks, c.phase = .pushing → c ∈ s.checks ∨ Deed.pushSent c.id ∈ new) :
    PushSent s' := by
  intro c hc hpushing
  rw [hdeeds, List.mem_append]
  exact (hchecks c hc hpushing).imp (fun hold => h c hold hpushing) id

theorem advance_mem {check : Check} {c : Check} (h : c ∈ (s.advance check).checks) :
    c ∈ s.checks ∨ c = check := by
  obtain ⟨old, hold, rfl⟩ := List.mem_map.1 h
  split
  · exact Or.inr rfl
  · exact Or.inl hold

theorem noteLift_checks (s : ReadBackSystem) (before : AgentReadBack) :
    (s.noteLift before).checks = s.checks := by
  unfold noteLift
  split <;> rfl

theorem step_pushSent {e : ReadBackEvent} (h : PushSent s) (hs : step options s e = some s') :
    PushSent s' := by
  have hpoll : ∀ clock, PushSent (s.tick.poll options clock) := by
    intro clock
    rcases poll_cases options s.tick clock with heq | ⟨-, heq⟩
    · rw [heq]
      exact h
    · rw [heq]
      refine h.grows rfl fun c hc hpushing => ?_
      rcases List.mem_append.1 hc with hold | hnew
      · exact Or.inl hold
      · rw [List.mem_singleton.1 hnew] at hpushing
        exact absurd hpushing (by simp)
  cases step_cases hs with
  | polled clock => exact hpoll clock
  | called clock =>
    unfold isAuthorized
    split
    · exact (hpoll clock).grows rfl fun c hc _ => Or.inl hc
    · exact (hpoll clock).grows rfl fun c hc _ => Or.inl hc
  | answered call generation out => exact h.grows rfl fun c hc _ => Or.inl hc
  | failed call generation out => exact h
  | readAnswered check answeredBefore answer logFails readBack pushes out reading read =>
    refine h.grows (by rw [noteLift_deeds]; rfl) fun c hc hpushing => ?_
    rw [noteLift_checks] at hc
    rcases advance_mem hc with hold | rfl
    · exact Or.inl hold
    · cases pushes with
      | false => exact absurd hpushing (by simp)
      | true => exact Or.inr (by simp)
  | readRejected check answeredBefore out reading =>
    refine h.grows (List.append_nil _).symm fun c hc hpushing => ?_
    rcases advance_mem hc with hold | rfl
    · exact Or.inl hold
    · exact absurd hpushing (by simp)
  | pushEnded check copy out pushing =>
    refine h.grows (by rw [noteLift_deeds]; exact (List.append_nil _).symm) fun c hc hpushing => ?_
    rw [noteLift_checks] at hc
    rcases advance_mem hc with hold | rfl
    · exact Or.inl hold
    · exact absurd hpushing (by simp)
  | settled check draw out returned =>
    exact h.grows (List.append_nil _).symm fun c hc _ => Or.inl (List.mem_of_mem_filter hc)

/-- A call was answered after a point in time exactly when fewer were up to it than were at all. -/
theorem answered_after {l : Ledger} {t : Nat} :
    l.answeredBy t < l.answers.length ↔ ∃ u ∈ l.answers, t < u := by
  rw [Ledger.answeredBy, List.length_filter_lt_length_iff_exists]
  simp

/-- For every sequence of reads, pushes and calls answered between them, what a read shows decides
what is pushed, what is refused and what is accounted for. -/
theorem read_back_law (options : AgentReadBackOptions) (now : ℚ) (draw : Option ℚ) :
    ReadBackLaw options (createAgentReadBack options now draw) where
  pushes := by
    intro es a e b check _ hb hpush
    obtain ⟨new, hnew, hdeeds⟩ := step_deeds hb
    rcases hdeeds _ ((did_append hnew).1 hpush) with
      ⟨_, h⟩ | ⟨_, _, -, h, -⟩ | ⟨_, _, h⟩ | ⟨_, _, -, h, -⟩ | ⟨_, answer, logFails, he, hid, hempty⟩
    · exact absurd h (by simp)
    · exact absurd h (by simp)
    · exact absurd h (by simp)
    · exact absurd h (by simp)
    · obtain rfl := Deed.pushSent.inj hid
      cases answer with
      | unverifiable reason => exact absurd hempty (by simp [AgentSetRead.showsEmpty])
      | held set =>
        obtain ⟨hnil, hdiffers⟩ : set.entries = [] ∧ sameAgentSet set a.readBack.baseline = false := by
          simpa [AgentSetRead.showsEmpty] using hempty
        exact ⟨set, logFails, he, hnil, hdiffers⟩
  push_made := by
    intro es a id copy b ha hb
    have hmade : PushSent a :=
      Machine.run_invariant (fun _ _ _ => step_pushSent) (fun c hc => absurd hc (by
        simp [createAgentReadBack])) ha
    cases step_cases hb with
    | pushEnded check copy out pushing => exact hmade check (List.mem_of_find?_eq_some out) pushing
  refuses := by
    intro es a id answer logFails b _ hb hdiffers fs c hc hno
    have hbegins : b.readBack.refusal.isSome = true := by
      cases step_cases hb with
      | readAnswered check answeredBefore answer logFails readBack pushes out reading read =>
        have hsome := readAnswered_differs hdiffers answeredBefore logFails
        rw [show a.readBack.readAnswered answeredBefore answer logFails = _ from read] at hsome
        rw [noteLift_readBack]
        exact hsome
    have hrefused : c.readBack.refusal.isSome = true := by
      refine Machine.run_invariant_of_guard
        (I := fun t : ReadBackSystem => t.readBack.refusal.isSome = true)
        (G := fun x e => ¬ Lifts x e) (fun x e y hx hguard hs => ?_) hbegins hno hc
      exact step_keeps_refusal hx hguard hs
    exact ⟨hrefused, fun e d hd call => refused_did hrefused hd call⟩
  rejected_keeps := by
    intro es a id b _ hb hrefused
    cases step_cases hb with
    | readRejected check answeredBefore out reading => exact readRejected_refused hrefused
  rejected_begins := by
    intro es a id b ha hb hnone
    have hcounted := (run_inv ha).counted
    cases step_cases hb with
    | readRejected check answeredBefore out reading =>
      show a.readBack.readRejected.refusal.isSome = true ↔ _
      rw [readRejected_begins hnone, hcounted.answered, hcounted.counted, answered_after]

end

end PolicyVerifier.Cedar
