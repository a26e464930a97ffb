import PolicyVerifier.Core.CollectorLimits
import PolicyVerifier.Lib.Machine

/-!
# The invariant of the fan-out

Every lane is in one place, and the jobs that carry it on are exactly the ones its place calls for;
every result that is not at its race yet is carried by a job; and every job carries what its
collector really settled with.
-/

namespace PolicyVerifier.Core

open Js

variable {α : Type}

/-- The jobs that carry a lane's own progress. -/
def Job.ofLane (l : Nat) : Job α → Bool
  | .ran k _ _ => decide (k = l)
  | .resume k _ _ => decide (k = l)
  | .laneReturned k => decide (k = l)
  | .laneThrew k _ => decide (k = l)
  | _ => false

/-- The job that settles the call. -/
def Job.isFinish : Job α → Bool
  | .finish _ => true
  | _ => false

/-- What the lanes' bookkeeping depends on of an invoked collector. -/
def Call.stage (c : Call α) : Nat × Bool × Bool := (c.lane, c.raced, c.finished)

namespace FanOut

/-- The queued jobs of a lane. -/
def laneJobs (s : FanOut α) (l : Nat) : List (Job α) := s.jobs.filter (Job.ofLane l)

/-- The lane is waiting for the collector, or threw with it. -/
def AtLane (s : FanOut α) (l i : Nat) : Prop := s.lane l = .waiting i ∨ s.lane l = .threw i

/-- How far the collector a lane waits for has come, and the lane's jobs at that point. -/
inductive WaitsFor (s : FanOut α) (l i : Nat) : List (Job α) → Prop where
  | racing (c : Call α) (hc : s.call i = some c) (hl : c.stage = (l, false, false)) :
      WaitsFor s l i []
  | ran (c : Call α) (o : Except Thrown α) (hc : s.call i = some c)
      (hl : c.stage = (l, true, false)) : WaitsFor s l i [.ran l i o]
  | resumed (c : Call α) (o : Except Thrown α) (hc : s.call i = some c)
      (hl : c.stage = (l, true, true)) : WaitsFor s l i [.resume l i o]
  | refused (reason : Thrown) (hc : s.call i = none) (ha : s.aborted.isSome = true) :
      WaitsFor s l i [.resume l i (.error reason)]

/-- A lane's place, and the jobs that place calls for. -/
def LaneOk (cfg : FanOutConfig α) (s : FanOut α) (l : Nat) : Prop :=
  match s.lane l with
  | .idle => s.laneJobs l = []
  | .waiting i => i < s.next ∧ s.results i = none ∧ WaitsFor s l i (s.laneJobs l)
  | .threw i => i < s.next ∧ s.results i = none ∧
      (∀ c, s.call i = some c → c.stage = (l, true, true)) ∧
      ((∃ e, s.laneJobs l = [.laneThrew l e]) ∨ (s.laneJobs l = [] ∧ s.allSettled = true))
  | .returned => s.next = cfg.count ∧ s.laneJobs l = [.laneReturned l]
  | .counted => s.next = cfg.count ∧ s.laneJobs l = []

/-- The lanes and the collectors they pulled. -/
structure Wired (cfg : FanOutConfig α) (s : FanOut α) : Prop where
  next_le : s.next ≤ cfg.count
  started_le : s.started ≤ cfg.lanes
  idle_iff : ∀ l, s.lane l = .idle ↔ s.started ≤ l
  sorted : s.calls.Pairwise (· < ·)
  mem_calls : ∀ i, i ∈ s.calls ↔ (s.call i).isSome = true
  call_lt : ∀ i c, s.call i = some c → i < s.next
  call_at : ∀ i c, s.call i = some c → s.results i = none → s.AtLane c.lane i
  result : ∀ i v, s.results i = some v → ∃ c, s.call i = some c ∧ c.promise = some (.ok v) ∧
    c.finished = true
  raced_of : ∀ i c, s.call i = some c → c.finished = true → c.raced = true
  pulled : ∀ i < s.next, s.results i ≠ none ∨ ∃ l, s.AtLane l i
  laneOk : ∀ l, LaneOk cfg s l

/-- A job carries the result of the collector's promise towards its race. -/
def Carries (s : FanOut α) (i : Nat) (c : Call α) (o : Except Thrown α) : Prop :=
  (c.subscribed = false ∧ .subscribe i ∈ s.jobs) ∨ .adopt i o ∈ s.jobs ∨ .caught i o ∈ s.jobs ∨
    .raced i o ∈ s.jobs

/-- A job tells the truth about its collector. -/
def JobOk (cfg : FanOutConfig α) (s : FanOut α) : Job α → Prop
  | .subscribe _ => True
  | .adopt i o => ∃ c, s.call i = some c ∧ c.promise = some o
  | .caught i o => ∃ c, s.call i = some c ∧ c.promise = some o
  | .raced i o => ∃ c, s.call i = some c ∧ ∀ v, o = .ok v → c.promise = some o
  | .ran _ i o => ∃ c, s.call i = some c ∧ ∀ v, o = .ok v → c.promise = some o
  | .resume _ i o => ∀ v, o = .ok v → ∃ c, s.call i = some c ∧ c.promise = some o
  | .laneReturned _ => True
  | .laneThrew _ _ => True
  | .finish o => o = .ok () → ∀ l < cfg.lanes, s.lane l = .counted

/-- The results on their way, and the abort. -/
structure Carrying (cfg : FanOutConfig α) (s : FanOut α) : Prop where
  subscribes : ∀ i c, s.call i = some c → c.subscribed = false →
    c.promise.isSome = true ∧ cfg.atOnce i = c.promise ∨ .subscribe i ∈ s.jobs
  carried : ∀ i c o, s.call i = some c → c.raced = false → c.promise = some o → Carries s i c o
  cancelled : ∀ i c e, s.call i = some c → c.raced = false → c.own = some e →
    .raced i (.error e) ∈ s.jobs
  reached : s.aborted.isSome = true → ∀ i c, s.call i = some c → c.finished = false →
    c.own.isSome = true
  jobOk : ∀ j ∈ s.jobs, JobOk cfg s j

/-- The end of the call. -/
structure Settling (cfg : FanOutConfig α) (s : FanOut α) : Prop where
  counted : (∀ l < cfg.lanes, s.lane l = .counted) → s.allSettled = true
  unsettled : s.allSettled = false → s.jobs.filter Job.isFinish = [] ∧ s.outcome = none
  settled : s.allSettled = true →
    (∃ o, s.jobs.filter Job.isFinish = [.finish o] ∧ s.outcome = none) ∨
      (s.jobs.filter Job.isFinish = [] ∧ s.outcome.isSome = true)
  whole : ∀ rs, s.outcome = some (.ok rs) →
    (∀ l < cfg.lanes, s.lane l = .counted) ∧ rs = (List.range cfg.count).map s.results
  broken : ∀ e, s.outcome = some (.error e) → s.aborted.isSome = true

/-- The invariant of the fan-out. -/
structure Inv (cfg : FanOutConfig α) (s : FanOut α) : Prop where
  wired : Wired cfg s
  carrying : Carrying cfg s
  settling : Settling cfg s

/-! ## Frames -/

/-- A lane stays in its place when nothing it depends on changes. -/
theorem LaneOk.frame {cfg : FanOutConfig α} {s s' : FanOut α} {l : Nat} (h : LaneOk cfg s l)
    (hlane : s'.lane l = s.lane l) (hjobs : s'.laneJobs l = s.laneJobs l)
    (hnext : s.next ≤ s'.next) (hcount : s.next = cfg.count → s'.next = cfg.count)
    (hres : ∀ i, s.AtLane l i → s'.results i = s.results i)
    (hcall : ∀ i, s.AtLane l i → (s'.call i).map Call.stage = (s.call i).map Call.stage)
    (habort : s.aborted.isSome = true → s'.aborted.isSome = true)
    (hsettled : s.allSettled = true → s'.allSettled = true) : LaneOk cfg s' l := by
  unfold LaneOk at h ⊢
  rw [hlane]
  cases hl : s.lane l with
  | idle => rw [hl] at h; rw [hjobs]; exact h
  | waiting i =>
    rw [hl] at h
    obtain ⟨hi, hr, hw⟩ := h
    have hat : s.AtLane l i := Or.inl hl
    have hc := hcall i hat
    refine ⟨by omega, by rw [hres i hat]; exact hr, ?_⟩
    rw [hjobs]
    have stage_some : ∀ c, s.call i = some c → ∃ c', s'.call i = some c' ∧ c'.stage = c.stage := by
      intro c hcs
      rw [hcs] at hc
      cases hcs' : s'.call i with
      | none => rw [hcs'] at hc; simp at hc
      | some c' => rw [hcs'] at hc; exact ⟨c', rfl, by simpa using hc⟩
    generalize s.laneJobs l = queue at hw
    cases hw with
    | racing c hcs hst =>
      obtain ⟨c', hcs', hst'⟩ := stage_some c hcs
      exact .racing c' hcs' (hst'.trans hst)
    | ran c o hcs hst =>
      obtain ⟨c', hcs', hst'⟩ := stage_some c hcs
      exact .ran c' o hcs' (hst'.trans hst)
    | resumed c o hcs hst =>
      obtain ⟨c', hcs', hst'⟩ := stage_some c hcs
      exact .resumed c' o hcs' (hst'.trans hst)
    | refused reason hcs ha =>
      rw [hcs] at hc
      exact .refused reason (by simpa using hc) (habort ha)
  | threw i =>
    rw [hl] at h
    obtain ⟨hi, hr, hc0, hq⟩ := h
    have hat : s.AtLane l i := Or.inr hl
    have hc := hcall i hat
    refine ⟨by omega, by rw [hres i hat]; exact hr, ?_, ?_⟩
    · intro c' hcs'
      rw [hcs'] at hc
      cases hcs : s.call i with
      | none => rw [hcs] at hc; simp at hc
      | some c => rw [hcs] at hc; rw [← hc0 c hcs]; simpa using hc
    · rw [hjobs]
      rcases hq with hq | ⟨hq, ha⟩
      · exact Or.inl hq
      · exact Or.inr ⟨hq, hsettled ha⟩
  | returned => rw [hl] at h; rw [hjobs]; exact ⟨hcount h.1, h.2⟩
  | counted => rw [hl] at h; rw [hjobs]; exact ⟨hcount h.1, h.2⟩

/-- What the jobs before the race, the timers and the abort leave alone. -/
structure SameLanes (s s' : FanOut α) : Prop where
  next : s'.next = s.next
  started : s'.started = s.started
  lane : s'.lane = s.lane
  results : s'.results = s.results
  calls : s'.calls = s.calls
  allSettled : s'.allSettled = s.allSettled
  outcome : s'.outcome = s.outcome
  laneJobs : ∀ l, s'.laneJobs l = s.laneJobs l
  finish : s'.jobs.filter Job.isFinish = s.jobs.filter Job.isFinish
  aborted : s.aborted.isSome = true → s'.aborted.isSome = true
  none : ∀ i, s'.call i = none ↔ s.call i = none
  call : ∀ i c, s.call i = some c → ∃ c', s'.call i = some c' ∧ c'.stage = c.stage ∧
    ∀ o, c.promise = some o → c'.promise = some o

namespace SameLanes

variable {cfg : FanOutConfig α} {s s' : FanOut α}

theorem stage (h : SameLanes s s') (i : Nat) :
    (s'.call i).map Call.stage = (s.call i).map Call.stage := by
  cases hc : s.call i with
  | none => rw [(h.none i).2 hc]
  | some c =>
    obtain ⟨c', hc', hst, _⟩ := h.call i c hc
    rw [hc', Option.map_some, Option.map_some, hst]

/-- An invoked collector after the change was one before it, at the same stage. -/
theorem back (h : SameLanes s s') {i : Nat} {c' : Call α} (hc' : s'.call i = some c') :
    ∃ c, s.call i = some c ∧ c'.stage = c.stage ∧ ∀ o, c.promise = some o → c'.promise = some o := by
  cases hc : s.call i with
  | none => rw [(h.none i).2 hc] at hc'; exact absurd hc' (by simp)
  | some c =>
    obtain ⟨d, hd, hst, hp⟩ := h.call i c hc
    rw [hc'] at hd
    obtain rfl := Option.some.inj hd
    exact ⟨c, rfl, hst, hp⟩

theorem atLane (h : SameLanes s s') (l i : Nat) : s'.AtLane l i ↔ s.AtLane l i := by
  rw [AtLane, AtLane, h.lane]

theorem wired (h : SameLanes s s') (hw : Wired cfg s) : Wired cfg s' where
  next_le := h.next ▸ hw.next_le
  started_le := h.started ▸ hw.started_le
  idle_iff l := by rw [h.lane, h.started]; exact hw.idle_iff l
  sorted := h.calls ▸ hw.sorted
  mem_calls i := by
    rw [h.calls, hw.mem_calls i, Option.isSome_iff_ne_none, Option.isSome_iff_ne_none, ne_eq, ne_eq,
      h.none i]
  call_lt i c' hc' := by
    obtain ⟨c, hc, _⟩ := h.back hc'
    rw [h.next]
    exact hw.call_lt i c hc
  call_at i c' hc' hr := by
    obtain ⟨c, hc, hst, _⟩ := h.back hc'
    have hlane : c'.lane = c.lane := congrArg Prod.fst hst
    rw [h.atLane, hlane]
    exact hw.call_at i c hc (h.results ▸ hr)
  result i v hv := by
    obtain ⟨c, hc, hp, hf⟩ := hw.result i v (h.results ▸ hv)
    obtain ⟨c', hc', hst, hp'⟩ := h.call i c hc
    have hfin : c'.finished = c.finished := congrArg (fun t => t.2.2) hst
    exact ⟨c', hc', hp' _ hp, hfin.trans hf⟩
  raced_of i c' hc' hf := by
    obtain ⟨c, hc, hst, _⟩ := h.back hc'
    have hfin : c'.finished = c.finished := congrArg (fun t => t.2.2) hst
    have hrac : c'.raced = c.raced := congrArg (fun t => t.2.1) hst
    rw [hrac]
    exact hw.raced_of i c hc (hfin ▸ hf)
  pulled i hi := by
    rw [h.results]
    rcases hw.pulled i (h.next ▸ hi) with hr | ⟨l, hl⟩
    · exact Or.inl hr
    · exact Or.inr ⟨l, (h.atLane l i).2 hl⟩
  laneOk l := (hw.laneOk l).frame (by rw [h.lane]) (h.laneJobs l) (by rw [h.next])
    (fun hn => by rw [h.next]; exact hn) (fun i _ => by rw [h.results]) (fun i _ => h.stage i)
    h.aborted (fun ha => by rw [h.allSettled]; exact ha)

theorem settling (h : SameLanes s s') (hs : Settling cfg s) : Settling cfg s' where
  counted hall := by rw [h.allSettled]; exact hs.counted (h.lane ▸ hall)
  unsettled ha := by
    rw [h.finish, h.outcome]
    exact hs.unsettled (h.allSettled ▸ ha)
  settled ha := by
    rw [h.finish, h.outcome]
    exact hs.settled (h.allSettled ▸ ha)
  whole rs hrs := by
    rw [h.lane, h.results]
    exact hs.whole rs (h.outcome ▸ hrs)
  broken e he := h.aborted (hs.broken e (h.outcome ▸ he))

end SameLanes

end FanOut

end PolicyVerifier.Core
