import Mathlib.Algebra.GroupWithZero.Nat
import Mathlib.Data.List.Perm.Subperm
import PolicyVerifier.Core.Proofs.FanOutTurns

/-!
# What every run of the fan-out keeps to

The bound on the collectors in flight, the results a call resolves with, and that an aborted fan-out
invokes nothing: read off the invariant, for any order of settlements, timers and aborts.
-/

namespace PolicyVerifier.Core

open Js

variable {α : Type}

namespace FanOut

variable {cfg : FanOutConfig α} {s : FanOut α}

theorem run_inv {caller : Option Thrown} {es : List (FanOutEvent α)}
    (hpos : 0 < cfg.limits.concurrency)
    (h : Machine.run (step cfg) (start cfg caller) es = some s) : Inv cfg s :=
  Machine.run_invariant (fun _ _ _ => step_inv) (start_inv cfg caller hpos) h

/-! ## In flight -/

theorem mem_inFlight {i : Nat} (h : Wired cfg s) : i ∈ s.inFlight ↔
    ∃ c, s.call i = some c ∧ c.promise = none := by
  rw [inFlight, List.mem_filter, h.mem_calls]
  constructor
  · rintro ⟨hsome, hp⟩
    obtain ⟨c, hc⟩ := Option.isSome_iff_exists.1 hsome
    exact ⟨c, hc, by simpa [hc] using hp⟩
  · rintro ⟨c, hc, hp⟩
    exact ⟨by simp [hc], by simp [hc, hp]⟩

/-- A collector in flight has a lane to itself. -/
theorem inFlight_atLane {i : Nat} (h : Wired cfg s) (hi : i ∈ s.inFlight) :
    ∃ l < cfg.lanes, s.AtLane l i := by
  obtain ⟨c, hc, hp⟩ := (mem_inFlight h).1 hi
  have hres : s.results i = none := by
    by_contra hne
    obtain ⟨v, hv⟩ := Option.ne_none_iff_exists'.1 hne
    obtain ⟨d, hd, hdp, _⟩ := h.result i v hv
    rw [hc] at hd
    obtain rfl := Option.some.inj hd
    rw [hp] at hdp
    exact absurd hdp (by simp)
  have hat := h.call_at i c hc hres
  refine ⟨c.lane, (h.lane_lt ?_).2, hat⟩
  rcases hat with he | he <;> rw [he] <;> simp

theorem AtLane.inj {l i j : Nat} (hi : s.AtLane l i) (hj : s.AtLane l j) : i = j := by
  rcases hi with hi | hi <;> rcases hj with hj | hj <;> rw [hi] at hj <;> simp_all

/-- At most one collector per lane is in flight. -/
theorem inFlight_le (h : Wired cfg s) : s.inFlight.length ≤ cfg.lanes := by
  classical
  have hnodup : s.inFlight.Nodup :=
    (h.sorted.imp fun hlt => ne_of_lt hlt).filter _
  choose! lane hlane hat using fun i (hi : i ∈ s.inFlight) => inFlight_atLane h hi
  have hinj : (s.inFlight.map lane).Nodup := by
    refine List.Nodup.map_on (fun i hi j hj he => ?_) hnodup
    exact (hat i hi).inj (he ▸ hat j hj)
  have hsub : s.inFlight.map lane ⊆ List.range cfg.lanes := by
    intro l hl
    obtain ⟨i, hi, rfl⟩ := List.mem_map.1 hl
    exact List.mem_range.2 (hlane i hi)
  simpa using (List.subperm_of_subset hinj hsub).length_le

/-! ## What a call resolves with -/

/-- A call that resolved has every collector's own value, in order. -/
theorem resolved_whole (hpos : 0 < cfg.limits.concurrency) (h : Inv cfg s) {rs : List (Option α)}
    (hrs : s.outcome = some (.ok rs)) :
    rs.length = cfg.count ∧ ∀ i < cfg.count, ∃ c v, s.call i = some c ∧
      c.promise = some (.ok v) ∧ rs[i]? = some (some v) := by
  obtain ⟨hall, rfl⟩ := h.settling.whole rs hrs
  refine ⟨by simp, fun i hi => ?_⟩
  have hnext : s.next = cfg.count := by
    have hl : 0 < cfg.lanes := lt_min hpos (by omega)
    have hok := h.wired.laneOk 0
    rw [LaneOk, hall 0 hl] at hok
    exact hok.1
  obtain hr | ⟨l, hl⟩ := h.wired.pulled i (by omega)
  · obtain ⟨v, hv⟩ := Option.ne_none_iff_exists'.1 hr
    obtain ⟨c, hc, hp, _⟩ := h.wired.result i v hv
    exact ⟨c, v, hc, hp, by simp [hi, hv]⟩
  · have hidle : s.lane l ≠ .idle := by rcases hl with he | he <;> rw [he] <;> simp
    have := hall l (h.wired.lane_lt hidle).2
    rcases hl with he | he <;> rw [he] at this <;> exact absurd this (by simp)

/-! ## After an abort -/

theorem abort_aborted (s : FanOut α) (e : Thrown) (h : s.aborted.isSome = true) :
    (s.abort e) = s := by
  rw [abort, if_pos h]

/-- What a step can do to the reason and to the list of invoked collectors: the first reason stands,
and only a fan-out that has not aborted invokes a collector, the next one. -/
structure Turn (cfg : FanOutConfig α) (s s' : FanOut α) : Prop where
  aborted : s.aborted.isSome = true → s'.aborted = s.aborted
  invokes : s'.calls = s.calls ∧ s.next ≤ s'.next ∨
    s.aborted = none ∧ s.next < cfg.count ∧ s'.calls = s.calls ++ [s.next] ∧ s'.next = s.next + 1

theorem pull_turn (cfg : FanOutConfig α) (s : FanOut α) (l : Nat) : Turn cfg s (pull cfg s l) := by
  by_cases hlt : s.next < cfg.count
  · cases ha : s.aborted with
    | some reason =>
      rw [pull_refused hlt ha]
      exact ⟨fun _ => rfl, Or.inl ⟨rfl, Nat.le_succ _⟩⟩
    | none =>
      rw [pull_invoked hlt ha]
      exact ⟨fun h => absurd h (by simp [ha]), Or.inr ⟨ha, hlt, rfl, rfl⟩⟩
  · rw [pull_returned hlt]
    exact ⟨fun _ => rfl, Or.inl ⟨rfl, le_rfl⟩⟩

theorem abort_turn (cfg : FanOutConfig α) (s : FanOut α) (e : Thrown) : Turn cfg s (s.abort e) := by
  refine ⟨fun h => by rw [abort_aborted s e h], Or.inl ?_⟩
  rw [abort]
  split <;> exact ⟨rfl, le_rfl⟩

theorem runJob_turn (cfg : FanOutConfig α) (s : FanOut α) (j : Job α) :
    Turn cfg s (runJob cfg s j) := by
  have same : ∀ s' : FanOut α, s'.aborted = s.aborted → s'.calls = s.calls → s'.next = s.next →
      Turn cfg s s' := fun s' ha hc hn => ⟨fun _ => ha, Or.inl ⟨hc, hn.ge⟩⟩
  have h := runJob_cases cfg s j
  generalize runJob cfg s j = s' at h ⊢
  cases h with
  | resumed l i v =>
    have hturn := pull_turn cfg { s with results := Function.update s.results i (some v) } l
    exact ⟨hturn.aborted, hturn.invokes⟩
  | failed e =>
    have hturn := abort_turn cfg s e
    exact ⟨hturn.aborted, hturn.invokes⟩
  | _ => exact same _ rfl rfl rfl

theorem step_turn {e : FanOutEvent α} {s' : FanOut α} (hs : step cfg s e = some s') :
    Turn cfg s s' := by
  have same : ∀ s' : FanOut α, s'.aborted = s.aborted → s'.calls = s.calls → s'.next = s.next →
      Turn cfg s s' := fun s' ha hc hn => ⟨fun _ => ha, Or.inl ⟨hc, hn.ge⟩⟩
  cases e with
  | startLane =>
    simp only [step, Option.ite_none_right_eq_some, Option.some.injEq] at hs
    have := pull_turn cfg { s with started := s.started + 1 } s.started
    exact hs.2 ▸ ⟨this.aborted, this.invokes⟩
  | job =>
    simp only [step, Option.ite_none_right_eq_some] at hs
    cases hj : s.jobs with
    | nil => rw [hj] at hs; exact absurd hs.2 (by simp)
    | cons j js =>
      rw [hj] at hs
      have := runJob_turn cfg { s with jobs := js } j
      exact Option.some.inj hs.2 ▸ ⟨this.aborted, this.invokes⟩
  | settle i o =>
    cases hc : s.call i with
    | none => simp [step, hc] at hs
    | some c =>
      cases hp : c.promise with
      | some p => simp [step, hc, hp] at hs
      | none =>
        simp only [step, hc, hp, Option.isSome_none, Bool.false_eq_true, if_false,
          Option.some.injEq] at hs
        subst hs
        by_cases hsub : c.subscribed = true <;> apply same <;> simp [hsub, setCall, push]
  | timeout i =>
    cases hc : s.call i with
    | none => simp [step, hc] at hs
    | some c =>
      simp only [step, hc, Option.ite_none_right_eq_some, Option.some.injEq] at hs
      exact hs.2 ▸ same _ rfl rfl rfl
  | deadline =>
    simp only [step, Option.ite_none_right_eq_some, Option.some.injEq] at hs
    exact hs.2 ▸ abort_turn cfg s _
  | callerAbort reason =>
    simp only [step, Option.some.injEq] at hs
    rw [← hs]
    split
    · exact abort_turn cfg s _
    · exact same _ rfl rfl rfl

/-- Once the fan-out has aborted it stays so, and no collector is invoked. -/
theorem step_aborted {e : FanOutEvent α} {s' : FanOut α} (h : s.aborted.isSome = true)
    (hs : step cfg s e = some s') : s'.calls = s.calls ∧ s'.aborted = s.aborted := by
  have hturn := step_turn hs
  refine ⟨?_, hturn.aborted h⟩
  rcases hturn.invokes with ⟨hc, _⟩ | ⟨ha, _⟩
  · exact hc
  · rw [ha] at h
    exact absurd h (by simp)

/-! ## The outcome stands -/

theorem pull_outcome (cfg : FanOutConfig α) (s : FanOut α) (l : Nat) :
    (pull cfg s l).outcome = s.outcome := by
  by_cases hlt : s.next < cfg.count
  · cases ha : s.aborted with
    | some reason => rw [pull_refused hlt ha]
    | none => rw [pull_invoked hlt ha]
  · rw [pull_returned hlt]

/-- A job that is not the call's own end leaves the outcome. -/
theorem runJob_outcome (cfg : FanOutConfig α) (s : FanOut α) {j : Job α} (hj : j.isFinish = false) :
    (runJob cfg s j).outcome = s.outcome := by
  have h := runJob_cases cfg s j
  generalize runJob cfg s j = s' at h ⊢
  cases h with
  | resumed l i v => exact pull_outcome cfg { s with results := _ } l
  | resolved => exact absurd hj (by simp [Job.isFinish])
  | failed e => exact absurd hj (by simp [Job.isFinish])
  | _ => rfl

/-- The call's own end is queued only while it has not settled. -/
theorem Inv.outcome_none (h : Inv cfg s) {j : Job α} (hmem : j ∈ s.jobs) (hj : j.isFinish = true) :
    s.outcome = none := by
  have hfinish : j ∈ s.jobs.filter Job.isFinish := List.mem_filter.2 ⟨hmem, hj⟩
  cases hset : s.allSettled with
  | true =>
    rcases h.settling.settled hset with ⟨p, _, hn⟩ | ⟨hp, _⟩
    · exact hn
    · rw [hp] at hfinish
      exact absurd hfinish (by simp)
  | false => exact (h.settling.unsettled hset).2

/-- A call settles once. -/
theorem step_outcome {e : FanOutEvent α} {s' : FanOut α} (h : Inv cfg s)
    (hs : step cfg s e = some s') (ho : s.outcome.isSome = true) : s'.outcome = s.outcome := by
  cases e with
  | startLane =>
    simp only [step, Option.ite_none_right_eq_some, Option.some.injEq] at hs
    rw [← hs.2, pull_outcome]
  | job =>
    simp only [step, Option.ite_none_right_eq_some] at hs
    cases hj : s.jobs with
    | nil => rw [hj] at hs; exact absurd hs.2 (by simp)
    | cons j js =>
      rw [hj] at hs
      rw [← Option.some.inj hs.2]
      cases hfinish : j.isFinish with
      | false => exact runJob_outcome cfg { s with jobs := js } hfinish
      | true =>
        have hmem : j ∈ s.jobs := by
          rw [hj]
          exact List.mem_cons_self
        rw [h.outcome_none hmem hfinish] at ho
        exact absurd ho (by simp)
  | settle i o =>
    cases hc : s.call i with
    | none => simp [step, hc] at hs
    | some c =>
      cases hp : c.promise with
      | some p => simp [step, hc, hp] at hs
      | none =>
        simp only [step, hc, hp, Option.isSome_none, Bool.false_eq_true, if_false,
          Option.some.injEq] at hs
        subst hs
        by_cases hsub : c.subscribed = true <;> simp [hsub, setCall, push]
  | timeout i =>
    cases hc : s.call i with
    | none => simp [step, hc] at hs
    | some c =>
      simp only [step, hc, Option.ite_none_right_eq_some, Option.some.injEq] at hs
      exact hs.2 ▸ rfl
  | deadline =>
    simp only [step, Option.ite_none_right_eq_some, Option.some.injEq] at hs
    rw [← hs.2]
    exact (abort_sameLanes s _).outcome
  | callerAbort reason =>
    have hn : s.outcome.isNone = false := Option.isNone_eq_false_iff.2 ho
    simp only [step, hn, Bool.false_eq_true, if_false, Option.some.injEq] at hs
    rw [← hs]

/-! ## At rest -/

/-- With no job queued, a collector without a result is still in flight, its lane waits for it, and
its signal has not aborted; else the call would have settled. -/
theorem rest_racing (h : Inv cfg s) (hrest : AtRest cfg s) (hout : s.outcome = none) {i : Nat}
    {c : Call α} (hc : s.call i = some c) (hr : s.results i = none) :
    c.promise = none ∧ c.own = none ∧ c.finished = false := by
  have hset : s.allSettled = false := by
    by_contra hne
    rcases h.settling.settled (by simpa using hne) with ⟨o, ho, _⟩ | ⟨_, ho⟩
    · rw [hrest.2] at ho
      exact absurd ho (by simp)
    · rw [hout] at ho
      exact absurd ho (by simp)
  have hempty : ∀ l, s.laneJobs l = [] := fun l => by simp [laneJobs, hrest.2]
  have hok := h.wired.laneOk c.lane
  have hracing : c.raced = false ∧ c.finished = false := by
    rcases h.wired.call_at i c hc hr with hl | hl
    · rw [LaneOk, hl, hempty] at hok
      cases hok.2.2 with
      | racing d hd hst =>
        rw [hc] at hd
        obtain rfl := Option.some.inj hd
        exact ⟨congrArg (fun t => t.2.1) hst, congrArg (fun t => t.2.2) hst⟩
    · rw [LaneOk, hl, hempty] at hok
      rcases hok.2.2.2 with ⟨e, he⟩ | ⟨_, ha⟩
      · exact absurd he (by simp)
      · rw [hset] at ha
        exact absurd ha (by simp)
  refine ⟨?_, ?_, hracing.2⟩
  · by_contra hne
    obtain ⟨o, ho⟩ := Option.ne_none_iff_exists'.1 hne
    have := h.carrying.carried i c o hc hracing.1 ho
    simp [Carries, hrest.2] at this
  · by_contra hne
    obtain ⟨e, he⟩ := Option.ne_none_iff_exists'.1 hne
    have := h.carrying.cancelled i c e hc hracing.1 he
    simp [hrest.2] at this

/-- A call at rest that has not settled waits for a collector in flight, was not aborted, and no
collector it invoked has rejected. -/
theorem rest_unsettled (h : Inv cfg s) (hrest : AtRest cfg s)
    (hout : s.outcome = none) : s.inFlight ≠ [] ∧ s.aborted = none ∧
      ∀ i c e, s.call i = some c → c.promise ≠ some (.error e) := by
  have hset : s.allSettled = false := by
    by_contra hne
    rcases h.settling.settled (by simpa using hne) with ⟨o, ho, _⟩ | ⟨_, ho⟩
    · rw [hrest.2] at ho
      exact absurd ho (by simp)
    · rw [hout] at ho
      exact absurd ho (by simp)
  have hempty : ∀ l, s.laneJobs l = [] := fun l => by simp [laneJobs, hrest.2]
  obtain ⟨l, hl, hne⟩ : ∃ l < cfg.lanes, s.lane l ≠ .counted := by
    by_contra hall
    have := h.settling.counted fun l hl => not_not.1 fun hne => hall ⟨l, hl, hne⟩
    rw [hset] at this
    exact absurd this (by simp)
  have hok := h.wired.laneOk l
  rw [LaneOk, hempty] at hok
  obtain ⟨i, c, hc, hr⟩ : ∃ i c, s.call i = some c ∧ s.results i = none := by
    cases hst : s.lane l with
    | idle =>
      have := (h.wired.idle_iff l).1 hst
      rw [hrest.1] at this
      omega
    | waiting i =>
      rw [hst] at hok
      cases hok.2.2 with
      | racing c hc _ => exact ⟨i, c, hc, hok.2.1⟩
    | threw i =>
      rw [hst] at hok
      rcases hok.2.2.2 with ⟨e, he⟩ | ⟨_, ha⟩
      · exact absurd he (by simp)
      · rw [hset] at ha
        exact absurd ha (by simp)
    | returned => rw [hst] at hok; exact absurd hok.2 (by simp)
    | counted => exact absurd hst hne
  obtain ⟨hp, ho, hf⟩ := rest_racing h hrest hout hc hr
  refine ⟨List.ne_nil_of_mem ((mem_inFlight h.wired).2 ⟨c, hc, hp⟩), ?_, fun j d e hd hpe => ?_⟩
  · by_contra hne
    have := h.carrying.reached (by simpa [Option.isSome_iff_ne_none] using hne) i c hc hf
    rw [ho] at this
    exact absurd this (by simp)
  · cases hrj : s.results j with
    | none =>
      have := (rest_racing h hrest hout hd hrj).1
      rw [hpe] at this
      exact absurd this (by simp)
    | some v =>
      obtain ⟨d', hd', hp', _⟩ := h.wired.result j v hrj
      rw [hd] at hd'
      obtain rfl := Option.some.inj hd'
      rw [hpe] at hp'
      exact absurd hp' (by simp)

/-! ## The queue drains -/

/-- How many jobs a job can still lead to, itself included, until its lane takes another turn. -/
def Job.weight : Job α → Nat
  | .subscribe _ => 8
  | .adopt _ _ => 7
  | .caught _ _ => 6
  | .raced _ _ => 5
  | .ran _ _ _ => 4
  | .resume _ _ _ => 3
  | .laneReturned _ => 2
  | .laneThrew _ _ => 2
  | .finish _ => 1

/-- A bound on the jobs left to run: the queued ones, the collectors still to be pulled, and the
abort that may come. -/
def workLeft (cfg : FanOutConfig α) (s : FanOut α) : Nat :=
  (s.jobs.map Job.weight).sum + 9 * (cfg.count - s.next) +
    if s.aborted.isSome then 0 else 5 * cfg.count + 1

@[simp] theorem workLeft_push (cfg : FanOutConfig α) (s : FanOut α) (new : List (Job α)) :
    workLeft cfg (s.push new) = workLeft cfg s + (new.map Job.weight).sum := by
  cases ha : s.aborted <;> simp [workLeft, push, ha] <;> omega

@[simp] theorem workLeft_setCall (cfg : FanOutConfig α) (s : FanOut α) (i : Nat) (c : Call α) :
    workLeft cfg (s.setCall i c) = workLeft cfg s := rfl

@[simp] theorem workLeft_setLane (cfg : FanOutConfig α) (s : FanOut α) (l : Nat) (st : LaneState) :
    workLeft cfg (s.setLane l st) = workLeft cfg s := rfl

@[simp] theorem workLeft_allSettled (cfg : FanOutConfig α) (s : FanOut α) :
    workLeft cfg { s with allSettled := true } = workLeft cfg s := rfl

@[simp] theorem workLeft_outcome (cfg : FanOutConfig α) (s : FanOut α)
    (o : Option (Except Thrown (List (Option α)))) :
    workLeft cfg { s with outcome := o } = workLeft cfg s := rfl

theorem sum_weight_raced (α : Type) (is : List Nat) (e : Thrown) :
    ((is.map fun i => (Job.raced i (.error e) : Job α)).map Job.weight).sum = 5 * is.length := by
  induction is with
  | nil => rfl
  | cons i is ih =>
    simp only [List.map_cons, List.sum_cons, List.length_cons, ih, Job.weight]
    omega

theorem workLeft_abort {s : FanOut α} (hn : s.next ≤ cfg.count) (e : Thrown) :
    workLeft cfg (s.abort e) ≤ workLeft cfg s := by
  by_cases ha : s.aborted.isSome = true
  · rw [abort_aborted s e ha]
  · have hlen : ((List.range s.next).filter s.listens).length ≤ cfg.count :=
      (List.length_filter_le _ _).trans (by simpa using hn)
    have hsum := sum_weight_raced α ((List.range s.next).filter s.listens) e
    rw [abort, if_neg ha, workLeft, workLeft, List.map_append, List.sum_append, if_neg ha]
    simp only [Option.isSome_some, if_true]
    omega

theorem workLeft_pull (cfg : FanOutConfig α) (s : FanOut α) (l : Nat) :
    workLeft cfg (pull cfg s l) ≤ workLeft cfg s + 2 := by
  by_cases hlt : s.next < cfg.count
  · cases ha : s.aborted with
    | some reason =>
      simp [pull_refused hlt ha, workLeft, Job.weight]
      omega
    | none =>
      cases hao : cfg.atOnce s.next <;>
        simp [pull_invoked hlt ha, hao, invokedJobs, workLeft, Job.weight] <;> omega
  · simp [pull_returned hlt, workLeft, Job.weight]
    omega

theorem pull_started (cfg : FanOutConfig α) (s : FanOut α) (l : Nat) :
    (pull cfg s l).started = s.started := by
  by_cases hlt : s.next < cfg.count
  · cases ha : s.aborted with
    | some reason => rw [pull_refused hlt ha]
    | none => rw [pull_invoked hlt ha]
  · rw [pull_returned hlt]

/-- Jobs start no lane. -/
theorem runJob_started (cfg : FanOutConfig α) (s : FanOut α) (j : Job α) :
    (runJob cfg s j).started = s.started := by
  have h := runJob_cases cfg s j
  generalize runJob cfg s j = s' at h ⊢
  cases h with
  | resumed l i v => exact pull_started cfg { s with results := _ } l
  | failed e => exact (abort_sameLanes s e).started
  | _ => rfl

/-- Every job brings the queue closer to its end. -/
theorem workLeft_job {s' : FanOut α} (h : Inv cfg s) (hs : step cfg s .job = some s') :
    workLeft cfg s' < workLeft cfg s := by
  simp only [step, Option.ite_none_right_eq_some] at hs
  cases hj : s.jobs with
  | nil => rw [hj] at hs; exact absurd hs.2 (by simp)
  | cons j js =>
    rw [hj] at hs
    have hs' := Option.some.inj hs.2
    have hw : workLeft cfg s = Job.weight j + workLeft cfg { s with jobs := js } := by
      simp only [workLeft, hj, List.map_cons, List.sum_cons]
      omega
    rw [← hs', hw]
    clear hw hs hs'
    generalize hrest : ({ s with jobs := js } : FanOut α) = r
    have hnext : r.next ≤ cfg.count := hrest ▸ h.wired.next_le
    have h := runJob_cases cfg r j
    generalize runJob cfg r j = after at h ⊢
    cases h with
    | watched i c hc =>
      cases c.promise with
      | none => simp [watchJobs, workLeft, Job.weight]
      | some o =>
        simp only [watchJobs, workLeft, Job.weight, List.map_append, List.map_cons, List.map_nil,
          List.sum_append, List.sum_cons, List.sum_nil]
        omega
    | resumed l i v =>
      have hpull := workLeft_pull cfg { r with results := Function.update r.results i (some v) } l
      have heq : workLeft cfg { r with results := Function.update r.results i (some v) } =
          workLeft cfg r := rfl
      simp only [Job.weight]
      omega
    | failed e =>
      have habort := workLeft_abort hnext e
      simp only [workLeft_outcome, Job.weight]
      omega
    | _ => simp [workLeft, Job.weight] <;> omega

/-- Once the wave is over, the queue drains: the call comes to rest. -/
theorem drains (h : Inv cfg s) (hwave : s.started = cfg.lanes) :
    ∃ k s', Machine.run (step cfg) s (List.replicate k .job) = some s' ∧ AtRest cfg s' := by
  generalize hw : workLeft cfg s = w
  induction w using Nat.strong_induction_on generalizing s with
  | _ w ih =>
    cases hj : s.jobs with
    | nil => exact ⟨0, s, rfl, hwave, hj⟩
    | cons j js =>
      obtain ⟨s₁, hs₁⟩ : ∃ s₁, step cfg s .job = some s₁ := by simp [step, hwave, hj]
      have hlt := workLeft_job h hs₁
      have hwave₁ : s₁.started = cfg.lanes := by
        simp only [step, hwave, if_true, hj, Option.some.injEq] at hs₁
        rw [← hs₁, runJob_started]
      obtain ⟨k, s', hrun, hrest⟩ := ih _ (hw ▸ hlt) (step_inv h hs₁) hwave₁ rfl
      refine ⟨k + 1, s', ?_, hrest⟩
      rw [List.replicate_succ, Machine.run_cons, hs₁]
      exact hrun

end FanOut

end PolicyVerifier.Core
