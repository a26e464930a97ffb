import PolicyVerifier.Core.Proofs.FanOutProofs

/-!
# `runCollectors` over whole runs

Two more invariants, of the collectors that overran their timeout and of the runs in which nothing
fails, and from them what a caller of the fan-out may rely on.
-/

namespace PolicyVerifier.Core

open Js

variable {α : Type}

namespace FanOut

variable {cfg : FanOutConfig α} {s : FanOut α}

/-! ## Overrun collectors -/

/-- The first result that reaches the race of collector `i` is an error. -/
def ErrorFirst (i : Nat) (jobs : List (Job α)) : Prop :=
  ∃ pre e post, jobs = pre ++ .raced i (.error e) :: post ∧ ∀ v, .raced i (.ok v) ∉ pre

/-- A value of collector `i` is on its way from the race to the lane. -/
def Job.delivers (i : Nat) : Job α → Prop
  | .ran _ k (.ok _) => k = i
  | .resume _ k (.ok _) => k = i
  | _ => False

/-- A collector that overran its timeout delivers nothing, whatever its promise does later. -/
def Overrun (s : FanOut α) : Prop :=
  ∀ i c, s.call i = some c → c.overran = true → c.own.isSome = true ∧ s.results i = none ∧
    (∀ j ∈ s.jobs, ¬ Job.delivers i j) ∧ (c.raced = false → ErrorFirst i s.jobs)

theorem ErrorFirst.push {i : Nat} {jobs : List (Job α)} (h : ErrorFirst i jobs)
    (new : List (Job α)) : ErrorFirst i (jobs ++ new) := by
  obtain ⟨pre, e, post, rfl, hpre⟩ := h
  exact ⟨pre, e, post ++ new, by simp, hpre⟩

theorem ErrorFirst.pop {i : Nat} {j : Job α} {js : List (Job α)} (h : ErrorFirst i (j :: js))
    (hj : ∀ e, j ≠ .raced i (.error e)) : ErrorFirst i js := by
  obtain ⟨pre, e, post, heq, hpre⟩ := h
  cases pre with
  | nil => exact absurd (List.cons.inj heq).1 (hj e)
  | cons k pre =>
    obtain ⟨_, rfl⟩ := List.cons.inj heq
    exact ⟨pre, e, post, rfl, fun v hv => hpre v (List.mem_cons_of_mem _ hv)⟩

/-- The race of another collector leaves the queue. -/
theorem ErrorFirst.pop_other {i k : Nat} {o : Except Thrown α} {jobs js : List (Job α)}
    (h : ErrorFirst k jobs) (hk : k ≠ i) (hj : jobs = .raced i o :: js) : ErrorFirst k js := by
  rw [hj] at h
  refine h.pop fun e heq => hk ?_
  exact (Job.raced.inj heq).1.symm

/-- The overrun collectors are untouched, and no job that joins the queue delivers a value. -/
theorem Overrun.frame {s' : FanOut α} (h : Overrun s)
    (hcall : ∀ i c', s'.call i = some c' → c'.overran = true →
      ∃ c, s.call i = some c ∧ c.overran = true ∧ (c'.raced = false → c.raced = false) ∧
        (c.own.isSome = true → c'.own.isSome = true))
    (hres : ∀ i c, s.call i = some c → c.overran = true → s'.results i = s.results i)
    (hjobs : ∀ i c, s.call i = some c → c.overran = true → (∀ j ∈ s.jobs, ¬ Job.delivers i j) →
      ∀ j ∈ s'.jobs, ¬ Job.delivers i j)
    (hfirst : ∀ i c', s'.call i = some c' → c'.raced = false → ErrorFirst i s.jobs →
      ErrorFirst i s'.jobs) : Overrun s' := by
  intro i c' hc' ho'
  obtain ⟨c, hc, ho, hr, hown⟩ := hcall i c' hc' ho'
  obtain ⟨h0, h1, h2, h3⟩ := h i c hc ho
  exact ⟨hown h0, (hres i c hc ho).trans h1, hjobs i c hc ho h2, fun hraced =>
    hfirst i c' hc' hraced (h3 (hr hraced))⟩

/-- A collector whose signal the queue's jobs have not reached yet has not raced. -/
theorem idle_racing (h : Wired cfg s) (hjobs : s.jobs = []) {i : Nat} {c : Call α}
    (hc : s.call i = some c) (hf : c.finished = false) : c.raced = false ∧ s.results i = none := by
  have hres : s.results i = none := by
    by_contra hne
    obtain ⟨v, hv⟩ := Option.ne_none_iff_exists'.1 hne
    obtain ⟨d, hd, _, hdf⟩ := h.result i v hv
    rw [hc] at hd
    obtain rfl := Option.some.inj hd
    rw [hf] at hdf
    exact absurd hdf (by simp)
  refine ⟨?_, hres⟩
  have hempty : s.laneJobs c.lane = [] := by simp [laneJobs, hjobs]
  have hok := h.laneOk c.lane
  rcases h.call_at i c hc hres with hl | hl
  · rw [LaneOk, hl, hempty] at hok
    cases hok.2.2 with
    | racing d hd hst =>
      rw [hc] at hd
      obtain rfl := Option.some.inj hd
      exact congrArg (fun t => t.2.1) hst
  · rw [LaneOk, hl] at hok
    have : c.finished = true := congrArg (fun t => t.2.2) (hok.2.2.1 c hc)
    rw [hf] at this
    exact absurd this (by simp)

/-- A lane's turn delivers nothing and overruns nothing. -/
theorem pull_overrun (l : Nat) (h : Overrun s) : Overrun (pull cfg s l) := by
  by_cases hlt : s.next < cfg.count
  · cases ha : s.aborted with
    | some reason =>
      rw [pull_refused hlt ha]
      refine h.frame (fun i c hc ho => ⟨c, hc, ho, id, id⟩) (fun _ _ _ _ => rfl)
        (fun i c _ _ hd j hj => ?_) (fun _ _ _ _ he => he.push _)
      rcases List.mem_append.1 hj with hj | hj
      · exact hd j hj
      · obtain rfl := List.mem_singleton.1 hj
        exact id
    | none =>
      rw [pull_invoked hlt ha]
      refine h.frame (fun i c hc ho => ?_) (fun _ _ _ _ => rfl) (fun i c _ _ hd j hj => ?_)
        (fun _ _ _ _ he => he.push _)
      · by_cases hi : i = s.next
        · subst hi
          simp only [Function.update_self, Option.some.injEq] at hc
          subst hc
          exact absurd ho (by simp)
        · exact ⟨c, by simpa [Function.update_of_ne hi] using hc, ho, id, id⟩
      · rcases List.mem_append.1 hj with hj | hj
        · exact hd j hj
        · cases hao : cfg.atOnce s.next with
          | none =>
            simp only [hao, invokedJobs, List.mem_singleton] at hj
            subst hj
            exact id
          | some o =>
            simp only [hao, invokedJobs, List.mem_singleton] at hj
            subst hj
            exact id
  · rw [pull_returned hlt]
    refine h.frame (fun i c hc ho => ⟨c, hc, ho, id, id⟩) (fun _ _ _ _ => rfl)
      (fun i c _ _ hd j hj => ?_) (fun _ _ _ _ he => he.push _)
    rcases List.mem_append.1 hj with hj | hj
    · exact hd j hj
    · obtain rfl := List.mem_singleton.1 hj
      exact id

theorem abort_overrun (e : Thrown) (h : Overrun s) : Overrun (s.abort e) := by
  by_cases ha : s.aborted.isSome = true
  · rw [abort_aborted s e ha]
    exact h
  · rw [abort, if_neg ha]
    refine h.frame (fun i c' hc' ho' => ?_) (fun _ _ _ _ => rfl) (fun i c _ _ hd j hj => ?_)
      (fun _ _ _ _ he => he.push _)
    · by_cases hl : s.listens i = true
      · simp only [hl, if_true, Option.map_eq_some_iff] at hc'
        obtain ⟨c, hc, rfl⟩ := hc'
        exact ⟨c, hc, ho', id, fun _ => rfl⟩
      · exact ⟨c', by simpa [hl] using hc', ho', id, id⟩
    · rcases List.mem_append.1 hj with hj | hj
      · exact hd j hj
      · obtain ⟨k, _, rfl⟩ := List.mem_map.1 hj
        exact id

/-- A queue whose head is not about a race, and whose successors deliver nothing. -/
theorem Overrun.replace {j : Job α} {js n : List (Job α)} (h : Overrun s) (hj : s.jobs = j :: js)
    (hhead : ∀ i o, j ≠ .raced i o) (hnew : ∀ k ∈ n, ∀ i, ¬ Job.delivers i j → ¬ Job.delivers i k) :
    Overrun { s with jobs := js ++ n } := by
  refine h.frame (fun i c hc ho => ⟨c, hc, ho, id, id⟩) (fun _ _ _ _ => rfl)
    (fun i c _ _ hd k hk => ?_) (fun i _ _ _ he => ?_)
  · rcases List.mem_append.1 hk with hk | hk
    · exact hd k (by rw [hj]; exact List.mem_cons_of_mem _ hk)
    · exact hnew k hk i (hd j (by simp [hj]))
  · rw [hj] at he
    exact (he.pop fun e => hhead i _).push n

theorem Overrun.replace_nil {j : Job α} {js : List (Job α)} (h : Overrun s) (hj : s.jobs = j :: js)
    (hhead : ∀ i o, j ≠ .raced i o) : Overrun { s with jobs := js } := by
  simpa using h.replace (n := []) hj hhead (by simp)

/-- A call's own fields change, but not whether it overran or raced. -/
theorem Overrun.setCall {i : Nat} {c : Call α} (c' : Call α) (h : Overrun s) (hc : s.call i = some c)
    (ho : c'.overran = c.overran) (hown : c'.own = c.own)
    (hr : c'.raced = false → c.raced = false) :
    Overrun { s with call := Function.update s.call i (some c') } := by
  refine h.frame (fun k d hd hod => ?_) (fun _ _ _ _ => rfl) (fun _ _ _ _ hd => hd)
    (fun _ _ _ _ he => he)
  by_cases hk : k = i
  · subst hk
    simp only [Function.update_self, Option.some.injEq] at hd
    subst hd
    exact ⟨c, hc, by rw [← ho]; exact hod, hr, fun h => by rw [hown]; exact h⟩
  · exact ⟨d, by simpa [Function.update_of_ne hk] using hd, hod, id, id⟩

theorem Overrun.results {i : Nat} {v : α} (h : Overrun s)
    (hi : ∀ c, s.call i = some c → c.overran = false) :
    Overrun { s with results := Function.update s.results i (some v) } := by
  refine h.frame (fun k c hc ho => ⟨c, hc, ho, id, id⟩) (fun k c hc ho => ?_) (fun _ _ _ _ hd => hd)
    (fun _ _ _ _ he => he)
  have hk : k ≠ i := by
    rintro rfl
    rw [hi c hc] at ho
    exact absurd ho (by simp)
  simp [Function.update_of_ne hk]

/-- The race of a collector that overran is over with an error. -/
theorem Overrun.raced {i : Nat} {o : Except Thrown α} {js : List (Job α)} {c : Call α} (h : Overrun s)
    (hj : s.jobs = .raced i o :: js) (hc : s.call i = some c) (hr : c.raced = false) :
    Overrun { s with
      call := Function.update s.call i (some { c with raced := true })
      jobs := js ++ [.ran c.lane i o] } := by
  refine h.frame (fun k d hd ho => ?_) (fun _ _ _ _ => rfl) (fun k d hd ho hdel m hm => ?_)
    (fun k d hd hdr he => ?_)
  · by_cases hk : k = i
    · subst hk
      simp only [Function.update_self, Option.some.injEq] at hd
      subst hd
      exact ⟨c, hc, ho, fun _ => hr, id⟩
    · exact ⟨d, by simpa [Function.update_of_ne hk] using hd, ho, id, id⟩
  · rcases List.mem_append.1 hm with hm | hm
    · exact hdel m (hj ▸ List.mem_cons_of_mem _ hm)
    · obtain rfl := List.mem_singleton.1 hm
      cases o with
      | error e => exact id
      | ok v =>
        rintro rfl
        rw [hc] at hd
        obtain rfl := Option.some.inj hd
        obtain ⟨pre, e, post, heq, hpre⟩ := (h i c hc ho).2.2.2 hr
        rw [hj] at heq
        cases pre with
        | nil => exact absurd (List.cons.inj heq).1 (by simp)
        | cons p pre =>
          obtain ⟨rfl, _⟩ := List.cons.inj heq
          exact hpre v List.mem_cons_self
  · by_cases hk : k = i
    · subst hk
      simp only [Function.update_self, Option.some.injEq] at hd
      subst hd
      exact absurd hdr (by simp)
    · exact (he.pop_other hk hj).push _

/-- A race nobody waits for any more leaves the queue. -/
theorem Overrun.unraced {i : Nat} {o : Except Thrown α} {js : List (Job α)} (h : Overrun s)
    (hj : s.jobs = .raced i o :: js) (hr : ∀ c, s.call i = some c → c.raced = true) :
    Overrun { s with jobs := js } := by
  refine h.frame (fun k d hd ho => ⟨d, hd, ho, id, id⟩) (fun _ _ _ _ => rfl)
    (fun k d _ _ hd m hm => hd m (hj ▸ List.mem_cons_of_mem _ hm))
    (fun k d hd hdr he => he.pop_other ?_ hj)
  rintro rfl
  exact absurd (hr d hd) (by simp [hdr])

theorem job_overrun {s' : FanOut α} (h : Overrun s)
    (hs : step cfg s .job = some s') : Overrun s' := by
  simp only [step, Option.ite_none_right_eq_some] at hs
  cases hj : s.jobs with
  | nil => rw [hj] at hs; exact absurd hs.2 (by simp)
  | cons j js =>
    rw [hj] at hs
    rw [← Option.some.inj hs.2]
    have hdrop : (∀ i o, j ≠ .raced i o) → Overrun { s with jobs := js } := fun hne =>
      h.replace_nil hj hne
    have hrun := runJob_cases cfg { s with jobs := js } j
    generalize runJob cfg { s with jobs := js } j = after at hrun ⊢
    cases hrun with
    | watched i c hc =>
      have hset := h.setCall { c with subscribed := true } hc rfl rfl id
      refine hset.replace hj (by simp) fun k hk m hm => ?_
      cases hp : c.promise with
      | none => simp [hp, watchJobs] at hk
      | some o =>
        simp only [hp, watchJobs, List.mem_singleton] at hk
        rw [hk]
        exact hm
    | unraced i o gone => exact h.unraced hj fun c hc => absurd (gone.symm.trans hc) (by simp)
    | late i o c hc hr => exact h.unraced hj fun d hd => Option.some.inj (hc.symm.trans hd) ▸ hr
    | raced i o c hc hr => exact h.raced hj hc hr
    | ran l i o c hc =>
      have hset := h.setCall { c with finished := true } hc rfl rfl id
      refine hset.replace hj (by simp) fun k hk m hm => ?_
      obtain rfl := List.mem_singleton.1 hk
      cases o <;> exact hm
    | resumed l i v =>
      have hnot : ∀ c, s.call i = some c → c.overran = false := by
        intro c hc
        by_contra ho
        exact (h i c hc (by simpa using ho)).2.2.1 (.resume l i (.ok v)) (by simp [hj]) rfl
      have hset := (hdrop (by simp)).results (i := i) (v := v) hnot
      exact pull_overrun l hset
    | countedLast l => exact h.replace (n := [.finish (.ok ())]) hj (by simp) (by simp [Job.delivers])
    | threw l e => exact h.replace (n := [.finish (.error e)]) hj (by simp) (by simp [Job.delivers])
    | adopted i o => exact h.replace hj (by simp) (by simp [Job.delivers])
    | caught i o => exact h.replace hj (by simp) (by simp [Job.delivers])
    | rejected l i e => exact h.replace (n := [.laneThrew l e]) hj (by simp) (by simp [Job.delivers])
    | failed e => exact abort_overrun e (hdrop (by simp))
    | _ => exact hdrop (by simp)

theorem step_overrun {e : FanOutEvent α} {s' : FanOut α} (hi : Inv cfg s) (h : Overrun s)
    (hs : step cfg s e = some s') : Overrun s' := by
  cases e with
  | startLane =>
    simp only [step, Option.ite_none_right_eq_some, Option.some.injEq] at hs
    exact hs.2 ▸ pull_overrun s.started h
  | job => exact job_overrun h hs
  | settle i o =>
    cases hc : s.call i with
    | none => simp [step, hc] at hs
    | some c =>
      cases hp : c.promise with
      | some p => simp [step, hc, hp] at hs
      | none =>
        simp only [step, hc, hp, Option.isSome_none, Bool.false_eq_true, if_false,
          Option.some.injEq] at hs
        subst hs
        have hset := h.setCall { c with promise := some o } hc rfl rfl id
        by_cases hsub : c.subscribed = true
        · rw [if_pos hsub]
          refine hset.frame (fun k d hd ho => ⟨d, hd, ho, id, id⟩) (fun _ _ _ _ => rfl)
            (fun k d _ _ hd m hm => ?_) (fun _ _ _ _ he => he.push _)
          rcases List.mem_append.1 hm with hm | hm
          · exact hd m hm
          · obtain rfl := List.mem_singleton.1 hm
            exact id
        · rw [if_neg hsub]
          exact hset
  | timeout i =>
    cases hc : s.call i with
    | none => simp [step, hc] at hs
    | some c =>
      simp only [step, hc, Option.ite_none_right_eq_some, Option.some.injEq] at hs
      obtain ⟨⟨_, hq, hf, _⟩, hs⟩ := hs
      have hjobs : s.jobs = [] := by simpa using hq
      obtain ⟨hr, hres⟩ := idle_racing hi.wired hjobs hc hf
      subst hs
      intro k d hd ho
      have hnew : (s.setCall i { c with own := some (cfg.expired i), overran := true }).push
          [.raced i (.error (cfg.expired i))] = { s with
            call := Function.update s.call i
              (some { c with own := some (cfg.expired i), overran := true })
            jobs := [.raced i (.error (cfg.expired i))] } := by
        simp [setCall, push, hjobs]
      rw [hnew] at hd ⊢
      by_cases hk : k = i
      · subst hk
        simp only [Function.update_self, Option.some.injEq] at hd
        subst hd
        exact ⟨rfl, hres, by simp [Job.delivers], fun _ => ⟨[], _, [], rfl, by simp⟩⟩
      · have hd : s.call k = some d := by simpa [Function.update_of_ne hk] using hd
        obtain ⟨h0, h1, _, h3⟩ := h k d hd ho
        refine ⟨h0, h1, by simp [Job.delivers], fun hdr => ?_⟩
        obtain ⟨pre, e, post, heq, _⟩ := h3 hdr
        rw [hjobs] at heq
        exact absurd heq (by simp)
  | deadline =>
    simp only [step, Option.ite_none_right_eq_some, Option.some.injEq] at hs
    exact hs.2 ▸ abort_overrun _ h
  | callerAbort reason =>
    simp only [step, Option.some.injEq] at hs
    subst hs
    by_cases ho : s.outcome.isNone = true
    · rw [if_pos ho]
      exact abort_overrun _ h
    · rw [if_neg ho]
      exact h

theorem start_overrun (cfg : FanOutConfig α) (caller : Option Thrown) :
    Overrun (start cfg caller) := by
  intro i c hc
  by_cases hn : cfg.count = 0 <;> simp [start, hn] at hc

theorem run_overrun {caller : Option Thrown} {es : List (FanOutEvent α)}
    (hpos : 0 < cfg.limits.concurrency)
    (h : Machine.run (step cfg) (start cfg caller) es = some s) : Overrun s :=
  (Machine.run_invariant (I := fun s => Inv cfg s ∧ Overrun s)
    (fun _ _ _ hi hs => ⟨step_inv hi.1 hs, step_overrun hi.1 hi.2 hs⟩)
    ⟨start_inv cfg caller hpos, start_overrun cfg caller⟩ h).2

/-! ## Runs in which nothing fails -/

/-- The job carries a failure. -/
def Job.fails : Job α → Bool
  | .adopt _ (.error _) => true
  | .caught _ (.error _) => true
  | .raced _ (.error _) => true
  | .ran _ _ (.error _) => true
  | .resume _ _ (.error _) => true
  | .laneThrew _ _ => true
  | .finish (.error _) => true
  | _ => false

/-- An event in which no collector fails, no bound trips and nobody aborts. -/
def benign : FanOutEvent α → Bool
  | .startLane => true
  | .job => true
  | .settle _ (.ok _) => true
  | _ => false

/-- A collector has rejected, or overrun its own timeout. -/
def Lost (s : FanOut α) : Prop :=
  ∃ i c, s.call i = some c ∧ (c.overran = true ∨ ∃ e, c.promise = some (.error e))

/-- Nothing has failed. -/
structure Smooth (cfg : FanOutConfig α) (s : FanOut α) : Prop where
  aborted : s.aborted = none
  jobs : ∀ j ∈ s.jobs, Job.fails j = false
  kept : ¬ s.Lost
  settled : s.allSettled = true → s.next = cfg.count

/-- The event makes no collector fail, trips no bound and aborts nothing. -/
def GoesWell (cfg : FanOutConfig α) (s : FanOut α) : FanOutEvent α → Prop
  | .startLane => ∀ e, cfg.atOnce s.next ≠ some (.error e)
  | .job => ∀ e, cfg.atOnce s.next = some (.error e) →
      ∀ l i v js, s.jobs ≠ .resume l i (.ok v) :: js
  | .settle _ o => ∃ v, o = .ok v
  | .callerAbort _ => s.outcome.isSome = true
  | _ => False

theorem Smooth.promise (h : Smooth cfg s) {i : Nat} {c : Call α} (hc : s.call i = some c)
    (e : Thrown) : c.promise ≠ some (.error e) :=
  fun hp => h.kept ⟨i, c, hc, Or.inr ⟨e, hp⟩⟩

theorem Smooth.overran (h : Smooth cfg s) {i : Nat} {c : Call α} (hc : s.call i = some c) :
    c.overran = false := by
  by_contra ho
  exact h.kept ⟨i, c, hc, Or.inl (by simpa using ho)⟩

theorem Smooth.push {n : List (Job α)} (h : Smooth cfg s) (hnew : ∀ j ∈ n, Job.fails j = false) :
    Smooth cfg (s.push n) := by
  refine ⟨h.aborted, fun j hj => ?_, h.kept, h.settled⟩
  rcases List.mem_append.1 hj with hj | hj
  · exact h.jobs j hj
  · exact hnew j hj

theorem Smooth.setCall {i : Nat} {c : Call α} (h : Smooth cfg s) (ho : c.overran = false)
    (hp : ∀ e, c.promise ≠ some (.error e)) : Smooth cfg (s.setCall i c) := by
  refine ⟨h.aborted, h.jobs, ?_, h.settled⟩
  rintro ⟨k, d, hd, hfail⟩
  rw [setCall_call] at hd
  by_cases hk : k = i
  · rw [if_pos hk] at hd
    obtain rfl := Option.some.inj hd
    rcases hfail with hov | ⟨e, he⟩
    · rw [ho] at hov
      exact absurd hov (by simp)
    · exact hp e he
  · rw [if_neg hk] at hd
    exact h.kept ⟨k, d, hd, hfail⟩

theorem pull_smooth (hao : ∀ e, cfg.atOnce s.next ≠ some (.error e)) (l : Nat)
    (h : Smooth cfg s) : Smooth cfg (pull cfg s l) := by
  by_cases hlt : s.next < cfg.count
  · have hset : s.allSettled = true → s.next + 1 = cfg.count := fun ha => by
      have := h.settled ha
      omega
    set s₁ : FanOut α := { s with
      next := s.next + 1
      lane := Function.update s.lane l (.waiting s.next)
      calls := s.calls ++ [s.next] }
    have h₁ : Smooth cfg s₁ := ⟨h.aborted, h.jobs, h.kept, hset⟩
    have h₂ : Smooth cfg (s₁.setCall s.next { lane := l, promise := cfg.atOnce s.next }) :=
      h₁.setCall rfl hao
    rw [pull_invoked hlt h.aborted]
    refine h₂.push fun j hj => ?_
    cases ha : cfg.atOnce s.next with
    | none =>
      rw [ha] at hj
      obtain rfl := List.mem_singleton.1 hj
      rfl
    | some o =>
      rw [ha] at hj
      obtain rfl := List.mem_singleton.1 hj
      cases o with
      | ok v => rfl
      | error e => exact absurd ha (hao e)
  · have h₁ : Smooth cfg (s.setLane l .returned) := ⟨h.aborted, h.jobs, h.kept, h.settled⟩
    rw [pull_returned hlt]
    exact h₁.push (by simp [Job.fails])

/-- A job hands its result on to the next one. -/
theorem Smooth.hand {j k : Job α} (h : Smooth cfg s) (hj : Job.fails j = false)
    (hk : Job.fails k = Job.fails j) : Smooth cfg (s.push [k]) := by
  refine h.push fun m hm => ?_
  obtain rfl := List.mem_singleton.1 hm
  exact hk.trans hj

theorem job_smooth {j : Job α} {js : List (Job α)} (hi : Inv cfg s) (h : Smooth cfg s)
    (hj : s.jobs = j :: js) (hg : GoesWell cfg s .job) :
    Smooth cfg (runJob cfg { s with jobs := js } j) := by
  have hhead : Job.fails j = false := h.jobs j (by simp [hj])
  have hpop : Smooth cfg { s with jobs := js } :=
    ⟨h.aborted, fun k hk => h.jobs k (by rw [hj]; exact List.mem_cons_of_mem _ hk), h.kept, h.settled⟩
  have hset : ∀ {i c} (c' : Call α), s.call i = some c → c'.overran = c.overran → c'.promise = c.promise →
      Smooth cfg ({ s with jobs := js }.setCall i c') := fun c' hc ho hp =>
    hpop.setCall (ho.trans (h.overran hc)) fun e => hp ▸ h.promise hc e
  have hrun := runJob_cases cfg { s with jobs := js } j
  generalize runJob cfg { s with jobs := js } j = s' at hrun ⊢
  cases hrun with
  | watched i c hc =>
    refine (hset { c with subscribed := true } hc rfl rfl).push fun k hk => ?_
    cases hp : c.promise with
    | none => simp [hp, watchJobs] at hk
    | some o =>
      simp only [hp, watchJobs, List.mem_singleton] at hk
      subst hk
      cases o with
      | ok v => rfl
      | error e => exact absurd hp (h.promise hc e)
  | adopted i o => exact hpop.hand hhead (by cases o <;> rfl)
  | caught i o => exact hpop.hand hhead (by cases o <;> rfl)
  | raced i o c hc => exact (hset { c with raced := true } hc rfl rfl).hand hhead (by cases o <;> rfl)
  | ran l i o c hc => exact (hset { c with finished := true } hc rfl rfl).hand hhead (by cases o <;> rfl)
  | resumed l i v =>
    have h₁ : Smooth cfg { s with jobs := js, results := Function.update s.results i (some v) } :=
      ⟨hpop.aborted, hpop.jobs, hpop.kept, hpop.settled⟩
    exact pull_smooth (s := { s with jobs := js, results := Function.update s.results i (some v) })
      (fun e he => hg e he l i v js hj) l h₁
  | countedLast l =>
    have h₁ : Smooth cfg { s with
        jobs := js, lane := Function.update s.lane l .counted, allSettled := true } :=
      ⟨hpop.aborted, hpop.jobs, hpop.kept, fun _ => (hi.wired.returning hj).2.1⟩
    exact h₁.push (n := [.finish (.ok ())]) (by simp [Job.fails])
  | rejected l i e => exact absurd hhead (by simp [Job.fails])
  | threw l e => exact absurd hhead (by simp [Job.fails])
  | threwLate l e => exact absurd hhead (by simp [Job.fails])
  | failed e => exact absurd hhead (by simp [Job.fails])
  | _ => exact ⟨hpop.aborted, hpop.jobs, hpop.kept, hpop.settled⟩

theorem step_smooth {e : FanOutEvent α} {s' : FanOut α} (hi : Inv cfg s) (h : Smooth cfg s)
    (hg : GoesWell cfg s e) (hs : step cfg s e = some s') : Smooth cfg s' := by
  cases e with
  | startLane =>
    simp only [step, Option.ite_none_right_eq_some, Option.some.injEq] at hs
    have h₁ : Smooth cfg { s with started := s.started + 1 } :=
      ⟨h.aborted, h.jobs, h.kept, h.settled⟩
    exact hs.2 ▸ pull_smooth (s := { s with started := s.started + 1 }) hg s.started h₁
  | job =>
    simp only [step, Option.ite_none_right_eq_some] at hs
    cases hj : s.jobs with
    | nil => rw [hj] at hs; exact absurd hs.2 (by simp)
    | cons j js =>
      rw [hj] at hs
      exact Option.some.inj hs.2 ▸ job_smooth hi h hj hg
  | settle i o =>
    obtain ⟨v, rfl⟩ := hg
    cases hc : s.call i with
    | none => simp [step, hc] at hs
    | some c =>
      cases hp : c.promise with
      | some p => simp [step, hc, hp] at hs
      | none =>
        simp only [step, hc, hp, Option.isSome_none, Bool.false_eq_true, if_false,
          Option.some.injEq] at hs
        subst hs
        have hov := h.overran hc
        have hset := h.setCall (i := i) (c := { c with promise := some (.ok v) }) hov
          fun e => by simp
        by_cases hsub : c.subscribed = true
        · rw [if_pos hsub]
          exact hset.push (by simp [Job.fails])
        · rw [if_neg hsub]
          exact hset
  | timeout i => exact absurd hg id
  | deadline => exact absurd hg id
  | callerAbort r =>
    simp only [step, Option.some.injEq] at hs
    have hout : s.outcome.isSome = true := hg
    rw [← hs, if_neg (by simp [Option.isSome_iff_ne_none.1 hout])]
    exact h

theorem start_smooth (cfg : FanOutConfig α) : Smooth cfg (start cfg none) := by
  by_cases hn : cfg.count = 0
  · exact ⟨by simp [start, hn], by simp [start, hn], by simp [start, hn, Lost], by simp [start, hn]⟩
  · exact ⟨by simp [start, hn], by simp [start, hn], by simp [start, hn, Lost], by simp [start, hn]⟩

theorem run_smooth {es : List (FanOutEvent α)} (hpos : 0 < cfg.limits.concurrency)
    (hao : ∀ i e, cfg.atOnce i ≠ some (.error e)) (hben : ∀ e ∈ es, benign e = true)
    (h : Machine.run (step cfg) (start cfg none) es = some s) : Smooth cfg s := by
  refine (Machine.run_invariant_of_guard (I := fun s => Inv cfg s ∧ Smooth cfg s)
    (G := fun _ e => benign e = true) ?_ ⟨start_inv cfg none hpos, start_smooth cfg⟩ ?_ h).2
  · rintro a e b ⟨hi, hsm⟩ hg hs
    refine ⟨step_inv hi hs, step_smooth hi hsm ?_ hs⟩
    cases e with
    | startLane => exact hao _
    | job => exact fun e he => absurd he (hao _ e)
    | settle i o =>
      cases o with
      | ok v => exact ⟨v, rfl⟩
      | error e => exact absurd hg (by simp [benign])
    | timeout i => exact absurd hg (by simp [benign])
    | deadline => exact absurd hg (by simp [benign])
    | callerAbort r => exact absurd hg (by simp [benign])
  · rintro a e b ⟨pre, post, rfl, _, _⟩
    exact hben e (by simp)

/-! ## A whole list -/

/-- Every collector of the fan-out was invoked and resolved inside its budget, with these values. -/
def AllResolved (cfg : FanOutConfig α) (s : FanOut α) (values : List α) : Prop :=
  values.length = cfg.count ∧ ∀ i < cfg.count, ∃ c v, s.call i = some c ∧
    c.promise = some (.ok v) ∧ c.overran = false ∧ values[i]? = some v

/-- A fan-out resolves with the values of all its collectors. -/
theorem resolved_all (hpos : 0 < cfg.limits.concurrency) (hinv : Inv cfg s) (hover : Overrun s)
    {rs : List (Option α)} (hrs : s.outcome = some (.ok rs)) :
    ∃ values, rs = values.map some ∧ AllResolved cfg s values := by
  obtain ⟨hlen, hall⟩ := resolved_whole hpos hinv hrs
  have hget : ∀ i < cfg.count, ∃ c v, s.call i = some c ∧ c.promise = some (.ok v) ∧
      c.overran = false ∧ rs[i]? = some (some v) := by
    intro i hi
    obtain ⟨c, v, hc, hp, hv⟩ := hall i hi
    refine ⟨c, v, hc, hp, ?_, hv⟩
    by_contra ho
    have hres := (hover i c hc (by simpa using ho)).2.1
    rw [(hinv.settling.whole rs hrs).2] at hv
    simp [hi, hres] at hv
  have hsome : rs = (rs.filterMap id).map some := by
    rw [List.map_filterMap_some_eq_filter_map_isSome]
    symm
    rw [List.map_id, List.filter_eq_self]
    intro o ho
    obtain ⟨i, hi, rfl⟩ := List.mem_iff_getElem.1 ho
    obtain ⟨c, v, _, _, _, hv⟩ := hget i (hlen ▸ hi)
    rw [List.getElem?_eq_getElem hi] at hv
    simp [Option.some.inj hv]
  refine ⟨rs.filterMap id, hsome, ?_, fun i hi => ?_⟩
  · rw [← hlen, hsome]
    simp
  · obtain ⟨c, v, hc, hp, ho, hv⟩ := hget i hi
    refine ⟨c, v, hc, hp, ho, ?_⟩
    rw [hsome, List.getElem?_map] at hv
    simpa using hv

/-! ## The fan-out -/

/-- What a caller of `runCollectors` may rely on in every state of every run: the bound on the
collectors in flight; one invocation each; a whole list or none; a settlement that stands; nothing
invoked once aborted; and at rest, a settlement unless a collector is still out. -/
theorem runCollectors_runs (cfg : FanOutConfig α) (hpos : 0 < cfg.limits.concurrency)
    (caller : Option Thrown) (es : List (FanOutEvent α)) (s : FanOut α)
    (h : Machine.run (step cfg) (start cfg caller) es = some s) :
    s.inFlight.length ≤ min cfg.limits.concurrency cfg.count ∧
    s.calls.Nodup ∧ (∀ i ∈ s.calls, i < cfg.count) ∧
    (∀ rs, s.outcome = some (.ok rs) → rs.length = cfg.count ∧
      ∀ i < cfg.count, ∃ c v, s.call i = some c ∧ c.promise = some (.ok v) ∧ c.overran = false ∧
        rs[i]? = some (some v)) ∧
    (∀ e s', step cfg s e = some s' →
      (s.outcome.isSome = true → s'.outcome = s.outcome) ∧
      (s.aborted.isSome = true → s'.calls = s.calls ∧ s'.aborted = s.aborted)) ∧
    (caller.isSome = true → s.calls = []) ∧
    (s.started = cfg.lanes → ∃ k s', Machine.run (step cfg) s (List.replicate k .job) = some s' ∧
      AtRest cfg s') ∧
    (AtRest cfg s → s.inFlight = [] ∨ s.aborted.isSome = true → s.outcome.isSome = true) ∧
    (AtRest cfg s → (∃ i c, s.call i = some c ∧
        (c.overran = true ∨ ∃ e, c.promise = some (.error e))) →
      ∃ e, s.outcome = some (.error e)) ∧
    (caller = none → (∀ i e, cfg.atOnce i ≠ some (.error e)) → (∀ e ∈ es, benign e = true) →
      AtRest cfg s → s.inFlight = [] →
      (∃ rs, s.outcome = some (.ok rs)) ∧ ∀ i < cfg.count, i ∈ s.calls) := by
  have hinv := run_inv hpos h
  have hover := run_overrun hpos h
  have hwhole : ∀ rs, s.outcome = some (.ok rs) → rs.length = cfg.count ∧
      ∀ i < cfg.count, ∃ c v, s.call i = some c ∧ c.promise = some (.ok v) ∧ c.overran = false ∧
        rs[i]? = some (some v) := by
    intro rs hrs
    obtain ⟨values, rfl, hlen, hall⟩ := resolved_all hpos hinv hover hrs
    refine ⟨by simpa using hlen, fun i hi => ?_⟩
    obtain ⟨c, v, hc, hp, ho, hv⟩ := hall i hi
    exact ⟨c, v, hc, hp, ho, by simp [hv]⟩
  have hsettled : AtRest cfg s → s.inFlight = [] ∨ s.aborted.isSome = true →
      s.outcome.isSome = true := by
    intro hrest hor
    by_contra hno
    obtain ⟨hfl, hab, _⟩ := rest_unsettled hinv hrest (by simpa using hno)
    rcases hor with hor | hor
    · exact hfl hor
    · rw [hab] at hor
      exact absurd hor (by simp)
  refine ⟨inFlight_le hinv.wired, hinv.wired.sorted.imp fun hlt => ne_of_lt hlt, ?_, hwhole, ?_, ?_,
    drains hinv, hsettled, ?_, ?_⟩
  · intro i hi
    obtain ⟨c, hc⟩ := Option.isSome_iff_exists.1 ((hinv.wired.mem_calls i).1 hi)
    exact lt_of_lt_of_le (hinv.wired.call_lt i c hc) hinv.wired.next_le
  · exact fun e s' hs => ⟨step_outcome hinv hs, fun ha => step_aborted ha hs⟩
  · intro hcaller
    have hnone : cfg.count = 0 ∧ s.calls = [] ∨ s.aborted.isSome = true ∧ s.calls = [] := by
      by_cases hn : cfg.count = 0
      · refine Or.inl ⟨hn, List.eq_nil_iff_forall_not_mem.2 fun i hi => ?_⟩
        obtain ⟨c, hc⟩ := Option.isSome_iff_exists.1 ((hinv.wired.mem_calls i).1 hi)
        have := hinv.wired.call_lt i c hc
        have := hinv.wired.next_le
        omega
      · refine Or.inr (Machine.run_invariant
          (I := fun s : FanOut α => s.aborted.isSome = true ∧ s.calls = [])
          (fun a e b hI hs => ?_) ?_ h)
        · obtain ⟨h1, h2⟩ := step_aborted hI.1 hs
          exact ⟨by rw [h2]; exact hI.1, h1.trans hI.2⟩
        · simp [start, hn, hcaller]
    rcases hnone with ⟨_, hc⟩ | ⟨_, hc⟩ <;> exact hc
  · rintro hrest ⟨i, c, hc, hfail⟩
    have hsome : s.outcome.isSome = true := by
      by_contra hno
      obtain ⟨_, _, hrej⟩ := rest_unsettled hinv hrest (by simpa using hno)
      rcases hfail with ho | ⟨e, he⟩
      · obtain ⟨hown, hres, _⟩ := hover i c hc ho
        rw [(rest_racing hinv hrest (by simpa using hno) hc hres).2.1] at hown
        exact absurd hown (by simp)
      · exact hrej i c e hc he
    obtain ⟨o, ho⟩ := Option.isSome_iff_exists.1 hsome
    cases o with
    | error e => exact ⟨e, ho⟩
    | ok rs =>
      exfalso
      have hi : i < cfg.count := lt_of_lt_of_le (hinv.wired.call_lt i c hc) hinv.wired.next_le
      obtain ⟨d, v, hd, hp, hov, _⟩ := (hwhole rs ho).2 i hi
      rw [hc] at hd
      obtain rfl := Option.some.inj hd
      rcases hfail with ho' | ⟨e, he⟩
      · rw [hov] at ho'
        exact absurd ho' (by simp)
      · rw [hp] at he
        exact absurd he (by simp)
  · rintro rfl hao hben hrest hfl
    have hsm := run_smooth hpos hao hben h
    obtain ⟨o, ho⟩ := Option.isSome_iff_exists.1 (hsettled hrest (Or.inl hfl))
    cases o with
    | error e =>
      have := hinv.settling.broken e ho
      rw [hsm.aborted] at this
      exact absurd this (by simp)
    | ok rs =>
      refine ⟨⟨rs, ho⟩, fun i hi => (hinv.wired.mem_calls i).2 ?_⟩
      obtain ⟨c, v, hc, _⟩ := (hwhole rs ho).2 i hi
      simp [hc]

/-- Three collectors of a pipeline under a concurrency of two. -/
def threeCollectors : FanOutConfig Nat where
  pipeline := .attributes
  count := 3
  className _ := .undefined
  atOnce _ := none
  limits := { collectorTimeoutMs := 2000, deadlineMs := 5000, concurrency := 2 }

/-- A run in which the three resolve, the second before the first. -/
def threeResolve : List (FanOutEvent Nat) :=
  [FanOutEvent.startLane, .startLane, .job, .job, .settle 1 (.ok 11), .settle 0 (.ok 10)] ++
    List.replicate 11 FanOutEvent.job ++ [FanOutEvent.settle 2 (.ok 12)] ++ List.replicate 8 FanOutEvent.job

theorem runCollectors_runs_three :
    ∃ s rs, Machine.run (step threeCollectors) (start threeCollectors none) threeResolve = some s ∧
      s.outcome = some (.ok rs) ∧ rs.length = 3 ∧ s.inFlight.length ≤ 2 := by
  obtain ⟨s, hs, rs, hrs⟩ : ∃ s, Machine.run (step threeCollectors) (start threeCollectors none)
      threeResolve = some s ∧ ∃ rs, s.outcome = some (.ok rs) := ⟨_, rfl, _, rfl⟩
  have h := runCollectors_runs threeCollectors (by decide) none threeResolve s hs
  exact ⟨s, rs, hs, hrs, (h.2.2.2.1 rs hrs).1, h.1⟩

end FanOut

end PolicyVerifier.Core
