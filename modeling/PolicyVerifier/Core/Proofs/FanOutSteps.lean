import PolicyVerifier.Core.Proofs.FanOutInv

/-!
# Every step of the fan-out keeps the invariant

First the steps that leave every lane in its place (a settlement, a timer, an abort, and the jobs
before the race), then the race and the jobs that carry its result to the lane, and last the lane's
next turn.
-/

namespace PolicyVerifier.Core

open Js

variable {α : Type}

namespace FanOut

variable {cfg : FanOutConfig α} {s : FanOut α}

/-! ## Queues -/

theorem laneJobs_cons {j : Job α} {js : List (Job α)} (hj : s.jobs = j :: js) (l : Nat) :
    s.laneJobs l = if j.ofLane l then j :: js.filter (Job.ofLane l) else js.filter (Job.ofLane l) := by
  rw [laneJobs, hj, List.filter_cons]

@[simp] theorem setCall_call (s : FanOut α) (i j : Nat) (c : Call α) :
    (s.setCall i c).call j = if j = i then some c else s.call j := by
  simp [setCall, Function.update_apply]

/-! ## What a turn and a watch come to -/

/-- What a collector that was just invoked queues: the watch of its promise, or what it came to at once. -/
def invokedJobs (i : Nat) : Option (Except Thrown α) → List (Job α)
  | none => [.subscribe i]
  | some o => [.caught i o]

/-- What a watch queues for a promise that settled before it. -/
def watchJobs (i : Nat) : Option (Except Thrown α) → List (Job α)
  | none => []
  | some o => [.adopt i o]

theorem pull_refused {l : Nat} {reason : Thrown} (hlt : s.next < cfg.count) (ha : s.aborted = some reason) :
    pull cfg s l = { s with
      next := s.next + 1
      lane := Function.update s.lane l (.waiting s.next)
      jobs := s.jobs ++ [.resume l s.next (.error reason)] } := by
  simp only [pull, if_pos hlt, ha, setLane, push]

theorem pull_invoked {l : Nat} (hlt : s.next < cfg.count) (ha : s.aborted = none) :
    pull cfg s l = { s with
      next := s.next + 1
      lane := Function.update s.lane l (.waiting s.next)
      call := Function.update s.call s.next (some { lane := l, promise := cfg.atOnce s.next })
      calls := s.calls ++ [s.next]
      jobs := s.jobs ++ invokedJobs s.next (cfg.atOnce s.next) } := by
  cases hao : cfg.atOnce s.next <;>
    simp only [pull, if_pos hlt, ha, hao, setLane, setCall, push, invokedJobs]

theorem pull_returned {l : Nat} (hge : ¬ s.next < cfg.count) : pull cfg s l = { s with
    lane := Function.update s.lane l .returned
    jobs := s.jobs ++ [.laneReturned l] } := by
  simp only [pull, if_neg hge, setLane, push]

theorem runJob_subscribe {i : Nat} {c : Call α} (hc : s.call i = some c) :
    runJob cfg s (.subscribe i) = { s with
      call := Function.update s.call i (some { c with subscribed := true })
      jobs := s.jobs ++ watchJobs i c.promise } := by
  cases hp : c.promise <;> simp [runJob, hc, hp, setCall, push, watchJobs]

/-- What a job that runs leaves of the state without it. -/
inductive JobCase (cfg : FanOutConfig α) (s : FanOut α) : Job α → FanOut α → Prop where
  | unwatched (i : Nat) (gone : s.call i = none) : JobCase cfg s (.subscribe i) s
  | watched (i : Nat) (c : Call α) (call : s.call i = some c) : JobCase cfg s (.subscribe i) { s with
      call := Function.update s.call i (some { c with subscribed := true })
      jobs := s.jobs ++ watchJobs i c.promise }
  | adopted (i : Nat) (o : Except Thrown α) :
      JobCase cfg s (.adopt i o) { s with jobs := s.jobs ++ [.caught i o] }
  | caught (i : Nat) (o : Except Thrown α) :
      JobCase cfg s (.caught i o) { s with jobs := s.jobs ++ [.raced i o] }
  | unraced (i : Nat) (o : Except Thrown α) (gone : s.call i = none) : JobCase cfg s (.raced i o) s
  | late (i : Nat) (o : Except Thrown α) (c : Call α) (call : s.call i = some c) (closed : c.raced = true) :
      JobCase cfg s (.raced i o) s
  | raced (i : Nat) (o : Except Thrown α) (c : Call α) (call : s.call i = some c)
      (first : c.raced = false) : JobCase cfg s (.raced i o) { s with
        call := Function.update s.call i (some { c with raced := true })
        jobs := s.jobs ++ [.ran c.lane i o] }
  | unran (l i : Nat) (o : Except Thrown α) (gone : s.call i = none) : JobCase cfg s (.ran l i o) s
  | ran (l i : Nat) (o : Except Thrown α) (c : Call α) (call : s.call i = some c) :
      JobCase cfg s (.ran l i o) { s with
        call := Function.update s.call i (some { c with finished := true })
        jobs := s.jobs ++ [.resume l i o] }
  | resumed (l i : Nat) (v : α) : JobCase cfg s (.resume l i (.ok v))
      (pull cfg { s with results := Function.update s.results i (some v) } l)
  | rejected (l i : Nat) (e : Thrown) : JobCase cfg s (.resume l i (.error e)) { s with
      lane := Function.update s.lane l (.threw i)
      jobs := s.jobs ++ [.laneThrew l e] }
  | countedLast (l : Nat) (all : allCounted cfg (s.setLane l .counted) = true)
      (unsettled : s.allSettled = false) : JobCase cfg s (.laneReturned l) { s with
        lane := Function.update s.lane l .counted
        allSettled := true
        jobs := s.jobs ++ [.finish (.ok ())] }
  | counted (l : Nat) (more : ¬ (allCounted cfg (s.setLane l .counted) = true ∧ s.allSettled = false)) :
      JobCase cfg s (.laneReturned l) { s with lane := Function.update s.lane l .counted }
  | threw (l : Nat) (e : Thrown) (unsettled : s.allSettled = false) : JobCase cfg s (.laneThrew l e) { s with
      allSettled := true
      jobs := s.jobs ++ [.finish (.error e)] }
  | threwLate (l : Nat) (e : Thrown) (settled : s.allSettled = true) : JobCase cfg s (.laneThrew l e) s
  | resolved : JobCase cfg s (.finish (.ok ()))
      { s with outcome := some (.ok ((List.range cfg.count).map s.results)) }
  | failed (e : Thrown) : JobCase cfg s (.finish (.error e)) { s.abort e with outcome := some (.error e) }

theorem runJob_cases (cfg : FanOutConfig α) (s : FanOut α) (j : Job α) : JobCase cfg s j (runJob cfg s j) := by
  cases j with
  | subscribe i =>
    cases hc : s.call i with
    | none =>
      simp only [runJob, hc]
      exact .unwatched i hc
    | some c => exact runJob_subscribe hc ▸ .watched i c hc
  | adopt i o => exact .adopted i o
  | caught i o => exact .caught i o
  | raced i o =>
    cases hc : s.call i with
    | none =>
      simp only [runJob, hc]
      exact .unraced i o hc
    | some c =>
      simp only [runJob, hc]
      split
      · rename_i hr
        exact .late i o c hc hr
      · rename_i hr
        exact .raced i o c hc (by simpa using hr)
  | ran l i o =>
    cases hc : s.call i with
    | none =>
      simp only [runJob, hc]
      exact .unran l i o hc
    | some c =>
      simp only [runJob, hc]
      exact .ran l i o c hc
  | resume l i o =>
    cases o with
    | ok v => exact .resumed l i v
    | error e => exact .rejected l i e
  | laneReturned l =>
    simp only [runJob]
    split
    · rename_i h
      rw [Bool.and_eq_true, Bool.not_eq_true'] at h
      exact .countedLast l h.1 h.2
    · rename_i h
      rw [Bool.and_eq_true, Bool.not_eq_true'] at h
      exact .counted l h
  | laneThrew l e =>
    simp only [runJob]
    split
    · rename_i h
      exact .threwLate l e h
    · rename_i h
      exact .threw l e (by simpa using h)
  | finish o =>
    cases o with
    | ok u => exact .resolved
    | error e => exact .failed e

/-! ## Steps that leave the lanes alone -/

/-- A call replaced by one at the same stage, that keeps what its promise settled with. -/
theorem SameLanes.of_setCall (c' : Call α) {s' : FanOut α} {i : Nat} {c : Call α} (hc : s.call i = some c)
    (hstage : c'.stage = c.stage) (hpromise : ∀ o, c.promise = some o → c'.promise = some o)
    (hcall : s'.call = Function.update s.call i (some c'))
    (hsame : s'.next = s.next ∧ s'.started = s.started ∧ s'.lane = s.lane ∧
      s'.results = s.results ∧ s'.calls = s.calls ∧ s'.allSettled = s.allSettled ∧
      s'.outcome = s.outcome ∧ s'.aborted = s.aborted)
    (hjobs : ∀ l, s'.laneJobs l = s.laneJobs l)
    (hfinish : s'.jobs.filter Job.isFinish = s.jobs.filter Job.isFinish) : SameLanes s s' := by
  obtain ⟨h1, h2, h3, h4, h5, h6, h7, h8⟩ := hsame
  refine ⟨h1, h2, h3, h4, h5, h6, h7, hjobs, hfinish, fun h => h8 ▸ h, fun j => ?_, fun j d hd => ?_⟩
  · rw [hcall, Function.update_apply]
    by_cases hj : j = i
    · subst hj; simp [hc]
    · simp [hj]
  · rw [hcall, Function.update_apply]
    by_cases hj : j = i
    · subst hj
      rw [hc] at hd
      obtain rfl := Option.some.inj hd
      exact ⟨c', by simp, hstage, hpromise⟩
    · exact ⟨d, by simp [hj, hd], rfl, fun o h => h⟩

/-- Only the queue changes, and only by jobs that belong to no lane. -/
theorem SameLanes.of_jobs {s' : FanOut α} {jobs : List (Job α)} (hs : s' = { s with jobs := jobs })
    (hjobs : ∀ l, jobs.filter (Job.ofLane l) = s.laneJobs l)
    (hfinish : jobs.filter Job.isFinish = s.jobs.filter Job.isFinish) : SameLanes s s' := by
  subst hs
  exact ⟨rfl, rfl, rfl, rfl, rfl, rfl, rfl, hjobs, hfinish, id, fun _ => Iff.rfl,
    fun i c hc => ⟨c, hc, rfl, fun _ h => h⟩⟩

/-- A promise's result moves one job on: everything that was carried still is. -/
theorem Carrying.forward {i : Nat} {o : Except Thrown α} {j j' : Job α} {js : List (Job α)}
    (h : Carrying cfg s) (hj : s.jobs = j :: js)
    (hmove : (j = .adopt i o ∧ j' = .caught i o) ∨ (j = .caught i o ∧ j' = .raced i o)) :
    Carrying cfg { s with jobs := js ++ [j'] } := by
  have hmem : ∀ k, k ∈ s.jobs ↔ k = j ∨ k ∈ js := by simp [hj]
  obtain ⟨c, hci, hp⟩ : ∃ c, s.call i = some c ∧ c.promise = some o := by
    rcases hmove with ⟨rfl, _⟩ | ⟨rfl, _⟩
    · exact h.jobOk (.adopt i o) (by simp [hj])
    · exact h.jobOk (.caught i o) (by simp [hj])
  refine ⟨?_, ?_, ?_, h.reached, ?_⟩
  · intro k d hd hsub
    rcases h.subscribes k d hd hsub with hp | hm
    · exact Or.inl hp
    · right
      rcases hmove with ⟨rfl, rfl⟩ | ⟨rfl, rfl⟩ <;> simpa [hmem] using hm
  · intro k d p hd hr hp
    have hcar := h.carried k d p hd hr hp
    simp only [Carries, hmem] at hcar
    simp only [Carries, List.mem_append, List.mem_singleton]
    rcases hmove with ⟨rfl, rfl⟩ | ⟨rfl, rfl⟩ <;> grind
  · intro k d e hd hr he
    have hm := (hmem _).1 (h.cancelled k d e hd hr he)
    rcases hmove with ⟨rfl, rfl⟩ | ⟨rfl, rfl⟩ <;> simp_all
  · intro k hk
    rcases List.mem_append.1 hk with hk | hk
    · have := h.jobOk k (by simp [hj, hk])
      cases k <;> exact this
    · rcases hmove with ⟨rfl, rfl⟩ | ⟨rfl, rfl⟩ <;> obtain rfl := List.mem_singleton.1 hk
      · exact ⟨c, hci, hp⟩
      · exact ⟨c, hci, fun _ _ => hp⟩

theorem adopt_inv {i : Nat} {o : Except Thrown α} {js : List (Job α)} (h : Inv cfg s)
    (hj : s.jobs = .adopt i o :: js) : Inv cfg (runJob cfg { s with jobs := js } (.adopt i o)) := by
  have hsame : SameLanes s { s with jobs := js ++ [.caught i o] } :=
    .of_jobs rfl (fun l => by simp [laneJobs_cons hj, Job.ofLane]) (by simp [hj, Job.isFinish])
  exact ⟨hsame.wired h.wired, h.carrying.forward hj (Or.inl ⟨rfl, rfl⟩),
    hsame.settling h.settling⟩

theorem caught_inv {i : Nat} {o : Except Thrown α} {js : List (Job α)} (h : Inv cfg s)
    (hj : s.jobs = .caught i o :: js) :
    Inv cfg (runJob cfg { s with jobs := js } (.caught i o)) := by
  have hsame : SameLanes s { s with jobs := js ++ [.raced i o] } :=
    .of_jobs rfl (fun l => by simp [laneJobs_cons hj, Job.ofLane]) (by simp [hj, Job.isFinish])
  exact ⟨hsame.wired h.wired, h.carrying.forward hj (Or.inr ⟨rfl, rfl⟩),
    hsame.settling h.settling⟩

theorem JobOk.of_sameLanes {s' : FanOut α} {j : Job α} (h : SameLanes s s') (hj : JobOk cfg s j) :
    JobOk cfg s' j := by
  have keep : ∀ i (P : Option (Except Thrown α) → Prop), (∃ c, s.call i = some c ∧ P c.promise) →
      (∀ c c' : Call α, (∀ o, c.promise = some o → c'.promise = some o) → P c.promise →
        P c'.promise) → ∃ c, s'.call i = some c ∧ P c.promise := by
    rintro i P ⟨c, hc, hp⟩ hP
    obtain ⟨c', hc', _, hpp⟩ := h.call i c hc
    exact ⟨c', hc', hP c c' hpp hp⟩
  cases j with
  | subscribe i => trivial
  | adopt i o => exact keep i (· = some o) hj fun c c' hpp hp => hpp o hp
  | caught i o => exact keep i (· = some o) hj fun c c' hpp hp => hpp o hp
  | raced i o =>
    exact keep i (fun p => ∀ v, o = .ok v → p = some o) hj fun c c' hpp hp v hv => hpp o (hp v hv)
  | ran l i o =>
    exact keep i (fun p => ∀ v, o = .ok v → p = some o) hj fun c c' hpp hp v hv => hpp o (hp v hv)
  | resume l i o =>
    intro v hv
    exact keep i (· = some o) (hj v hv) fun c c' hpp hp => hpp o hp
  | laneReturned l => trivial
  | laneThrew l e => trivial
  | finish o => intro ho; rw [h.lane]; exact hj ho

/-- The collector whose result a job carries towards its race. -/
def Job.carries : Job α → Option Nat
  | .subscribe i => some i
  | .adopt i _ => some i
  | .caught i _ => some i
  | .raced i _ => some i
  | _ => none

/-- One collector's call changes. The other collectors' results are carried as before; what is left
to check is the changed call and the jobs. -/
theorem Carrying.of_setCall (c' : Call α) {s' : FanOut α} {i : Nat} (h : Carrying cfg s)
    (hcall : s'.call = Function.update s.call i (some c')) (habort : s'.aborted = s.aborted)
    (hkeep : ∀ j ∈ s.jobs, ∀ k, Job.carries j = some k → k ≠ i → j ∈ s'.jobs)
    (hsub : c'.subscribed = false →
      c'.promise.isSome = true ∧ cfg.atOnce i = c'.promise ∨ .subscribe i ∈ s'.jobs)
    (hcar : c'.raced = false → ∀ o, c'.promise = some o → Carries s' i c' o)
    (hcan : c'.raced = false → ∀ e, c'.own = some e → .raced i (.error e) ∈ s'.jobs)
    (hreach : s.aborted.isSome = true → c'.finished = false → c'.own.isSome = true)
    (hjobs : ∀ j ∈ s'.jobs, JobOk cfg s' j) : Carrying cfg s' := by
  have hother : ∀ k d, s'.call k = some d → k ≠ i → s.call k = some d := by
    intro k d hd hk
    rwa [hcall, Function.update_of_ne hk] at hd
  have hself : ∀ d, s'.call i = some d → d = c' := by
    intro d hd
    rw [hcall, Function.update_self] at hd
    exact (Option.some.inj hd).symm
  refine ⟨?_, ?_, ?_, ?_, hjobs⟩
  · intro k d hd hs
    by_cases hk : k = i
    · subst hk
      rw [hself d hd] at hs ⊢
      exact hsub hs
    · rcases h.subscribes k d (hother k d hd hk) hs with hp | hm
      · exact Or.inl hp
      · exact Or.inr (hkeep _ hm k rfl hk)
  · intro k d o hd hr hp
    by_cases hk : k = i
    · subst hk
      rw [hself d hd] at hr hp ⊢
      exact hcar hr o hp
    · rcases h.carried k d o (hother k d hd hk) hr hp with ⟨hs, hm⟩ | hm | hm | hm
      · exact Or.inl ⟨hs, hkeep _ hm k rfl hk⟩
      · exact Or.inr (Or.inl (hkeep _ hm k rfl hk))
      · exact Or.inr (Or.inr (Or.inl (hkeep _ hm k rfl hk)))
      · exact Or.inr (Or.inr (Or.inr (hkeep _ hm k rfl hk)))
  · intro k d e hd hr he
    by_cases hk : k = i
    · subst hk
      rw [hself d hd] at hr he
      exact hcan hr e he
    · exact hkeep _ (h.cancelled k d e (hother k d hd hk) hr he) k rfl hk
  · intro ha k d hd hf
    rw [habort] at ha
    by_cases hk : k = i
    · subst hk
      rw [hself d hd] at hf ⊢
      exact hreach ha hf
    · exact h.reached ha k d (hother k d hd hk) hf

/-- A job of no collector that is known does nothing to the lanes, and nothing was carried by it. -/
theorem Carrying.of_drop {i : Nat} {j : Job α} {js : List (Job α)} (h : Carrying cfg s)
    (hj : s.jobs = j :: js) (hci : s.call i = none) (hc : Job.carries j = some i)
    (hsame : SameLanes s { s with jobs := js }) : Carrying cfg { s with jobs := js } := by
  have hrest : ∀ k ∈ s.jobs, ∀ m d, Job.carries k = some m → s.call m = some d → k ∈ js := by
    intro k hk m d hkm hd
    rw [hj] at hk
    rcases List.mem_cons.1 hk with rfl | hk
    · rw [hc] at hkm
      obtain rfl := Option.some.inj hkm
      rw [hci] at hd
      exact absurd hd (by simp)
    · exact hk
  refine ⟨?_, ?_, ?_, h.reached, ?_⟩
  · intro k d hd hs
    rcases h.subscribes k d hd hs with hp | hm
    · exact Or.inl hp
    · exact Or.inr (hrest _ hm k d rfl hd)
  · intro k d o hd hr hp
    rcases h.carried k d o hd hr hp with ⟨hs, hm⟩ | hm | hm | hm
    · exact Or.inl ⟨hs, hrest _ hm k d rfl hd⟩
    · exact Or.inr (Or.inl (hrest _ hm k d rfl hd))
    · exact Or.inr (Or.inr (Or.inl (hrest _ hm k d rfl hd)))
    · exact Or.inr (Or.inr (Or.inr (hrest _ hm k d rfl hd)))
  · intro k d e hd hr he
    exact hrest _ (h.cancelled k d e hd hr he) k d rfl hd
  · intro k hk
    exact (h.jobOk k (by simp [hj, hk])).of_sameLanes hsame

theorem subscribe_inv {i : Nat} {js : List (Job α)} (h : Inv cfg s)
    (hj : s.jobs = .subscribe i :: js) :
    Inv cfg (runJob cfg { s with jobs := js } (.subscribe i)) := by
  have hc := h.carrying
  cases hci : s.call i with
  | none =>
    have hs' : runJob cfg { s with jobs := js } (.subscribe i) = { s with jobs := js } := by
      simp [runJob, hci]
    have hsame : SameLanes s { s with jobs := js } :=
      .of_jobs rfl (fun l => by simp [laneJobs_cons hj, Job.ofLane]) (by simp [hj, Job.isFinish])
    rw [hs']
    exact ⟨hsame.wired h.wired, hc.of_drop hj hci rfl hsame, hsame.settling h.settling⟩
  | some c =>
    set new : List (Job α) := watchJobs i c.promise with hnew
    set s' : FanOut α := { s with
      call := Function.update s.call i (some { c with subscribed := true })
      jobs := js ++ new } with hs'
    have hrun : runJob cfg { s with jobs := js } (.subscribe i) = s' :=
      runJob_subscribe (s := { s with jobs := js }) hci
    have hlanes : ∀ l, new.filter (Job.ofLane l) = [] := by
      intro l
      cases hp : c.promise <;> simp [hnew, hp, watchJobs, Job.ofLane]
    have hfin : new.filter Job.isFinish = [] := by
      cases hp : c.promise <;> simp [hnew, hp, watchJobs, Job.isFinish]
    have hsame : SameLanes s s' :=
      .of_setCall { c with subscribed := true } hci rfl (fun _ ho => ho) rfl
        ⟨rfl, rfl, rfl, rfl, rfl, rfl, rfl, rfl⟩
        (fun l => by simp [laneJobs, hs', hj, Job.ofLane, List.filter_append, hlanes])
        (by simp [hs', hj, Job.isFinish, List.filter_append, hfin])
    rw [hrun]
    refine ⟨hsame.wired h.wired, ?_, hsame.settling h.settling⟩
    refine hc.of_setCall { c with subscribed := true } rfl rfl ?_ (by simp) ?_ ?_
      (fun ha hf => hc.reached ha i c hci hf) ?_
    · intro k hk m hm hne
      rw [hj] at hk
      rcases List.mem_cons.1 hk with rfl | hk
      · exact absurd (Option.some.inj hm).symm hne
      · exact List.mem_append_left _ hk
    · intro hr o hp
      have hp : c.promise = some o := hp
      exact Or.inr (Or.inl (List.mem_append_right _ (by simp [hnew, hp, watchJobs])))
    · intro hr e he
      have := hc.cancelled i c e hci hr he
      rw [hj] at this
      exact List.mem_append_left _ (by simpa using this)
    · intro k hk
      rcases List.mem_append.1 hk with hk | hk
      · exact (hc.jobOk k (by simp [hj, hk])).of_sameLanes hsame
      · cases hp : c.promise with
        | none => simp [hnew, hp, watchJobs] at hk
        | some o =>
          simp only [hnew, hp, watchJobs, List.mem_singleton] at hk
          subst hk
          exact ⟨{ c with subscribed := true }, by simp [hs'], hp⟩

/-- A collector settles: its result is carried from here on. -/
theorem settle_inv {i : Nat} {o : Except Thrown α} {s' : FanOut α} (h : Inv cfg s)
    (hs : step cfg s (.settle i o) = some s') : Inv cfg s' := by
  have hc := h.carrying
  cases hci : s.call i with
  | none => simp [step, hci] at hs
  | some c =>
    cases hp : c.promise with
    | some p => simp [step, hci, hp] at hs
    | none =>
      set new : List (Job α) := if c.subscribed then [.adopt i o] else [] with hnew
      have hs' : s' = { s with
          call := Function.update s.call i (some { c with promise := some o })
          jobs := s.jobs ++ new } := by
        by_cases hsub : c.subscribed = true
        · simpa [step, hci, hp, hnew, setCall, push, hsub, eq_comm] using hs
        · simpa [step, hci, hp, hnew, setCall, push, hsub, eq_comm] using hs
      have hlanes : ∀ l, new.filter (Job.ofLane l) = [] := by
        intro l
        by_cases hsub : c.subscribed = true <;> simp [hnew, hsub, Job.ofLane]
      have hfin : new.filter Job.isFinish = [] := by
        by_cases hsub : c.subscribed = true <;> simp [hnew, hsub, Job.isFinish]
      have hsame : SameLanes s s' := by
        refine .of_setCall { c with promise := some o } hci rfl ?_ (by rw [hs'])
          (by rw [hs']; exact ⟨rfl, rfl, rfl, rfl, rfl, rfl, rfl, rfl⟩) ?_ ?_
        · intro q hq
          rw [hp] at hq
          exact absurd hq (by simp)
        · intro l
          simp [laneJobs, hs', List.filter_append, hlanes]
        · simp [hs', List.filter_append, hfin]
      have hjobs : s'.jobs = s.jobs ++ new := by rw [hs']
      refine ⟨hsame.wired h.wired, ?_, hsame.settling h.settling⟩
      refine hc.of_setCall { c with promise := some o } (by rw [hs']) (by rw [hs']) ?_ ?_ ?_
        ?_ (fun ha hf => hc.reached ha i c hci hf) ?_
      · intro k hk m _ _
        rw [hjobs]
        exact List.mem_append_left _ hk
      · intro hsub
        right
        rcases hc.subscribes i c hci hsub with ⟨hsome, _⟩ | hm
        · rw [hp] at hsome
          exact absurd hsome (by simp)
        · rw [hjobs]
          exact List.mem_append_left _ hm
      · intro hr q hq
        obtain rfl : o = q := Option.some.inj hq
        by_cases hsub : c.subscribed = true
        · refine Or.inr (Or.inl ?_)
          rw [hjobs]
          exact List.mem_append_right _ (by simp [hnew, hsub])
        · refine Or.inl ⟨by simpa using hsub, ?_⟩
          rcases hc.subscribes i c hci (by simpa using hsub) with ⟨hsome, _⟩ | hm
          · rw [hp] at hsome
            exact absurd hsome (by simp)
          · rw [hjobs]
            exact List.mem_append_left _ hm
      · intro hr e he
        rw [hjobs]
        exact List.mem_append_left _ (hc.cancelled i c e hci hr he)
      · intro k hk
        rw [hjobs] at hk
        rcases List.mem_append.1 hk with hk | hk
        · exact (hc.jobOk k hk).of_sameLanes hsame
        · by_cases hsub : c.subscribed = true
          · simp only [hnew, hsub, if_true, List.mem_singleton] at hk
            subst hk
            exact ⟨{ c with promise := some o }, by rw [hs']; simp, rfl⟩
          · simp [hnew, hsub] at hk

/-- A collector's own timer fires: its signal aborts, and the race will hear of it. -/
theorem timeout_inv {i : Nat} {s' : FanOut α} (h : Inv cfg s)
    (hs : step cfg s (.timeout i) = some s') : Inv cfg s' := by
  have hc := h.carrying
  cases hci : s.call i with
  | none => simp [step, hci] at hs
  | some c =>
    set c' : Call α := { c with own := some (cfg.expired i), overran := true } with hc'
    set new : List (Job α) := [.raced i (.error (cfg.expired i))] with hnew
    have hs' : s' = { s with
        call := Function.update s.call i (some c')
        jobs := s.jobs ++ new } := by
      simp only [step, hci, Option.ite_none_right_eq_some, Option.some.injEq] at hs
      exact hs.2.symm
    have hjobs : s'.jobs = s.jobs ++ new := by rw [hs']
    have hsame : SameLanes s s' := by
      refine .of_setCall c' hci rfl (fun _ ho => ho) (by rw [hs'])
        (by rw [hs']; exact ⟨rfl, rfl, rfl, rfl, rfl, rfl, rfl, rfl⟩) ?_ ?_
      · intro l
        simp [laneJobs, hjobs, List.filter_append, hnew, Job.ofLane]
      · simp [hjobs, List.filter_append, hnew, Job.isFinish]
    have hcall : s'.call i = some c' := by rw [hs']; simp
    refine ⟨hsame.wired h.wired, ?_, hsame.settling h.settling⟩
    refine hc.of_setCall c' (by rw [hs']) (by rw [hs']) ?_ ?_ ?_ ?_ (fun _ _ => rfl) ?_
    · intro k hk m _ _
      rw [hjobs]
      exact List.mem_append_left _ hk
    · intro hsub
      rcases hc.subscribes i c hci hsub with hp | hm
      · exact Or.inl hp
      · rw [hjobs]
        exact Or.inr (List.mem_append_left _ hm)
    · intro hr o ho
      have := hc.carried i c o hci hr ho
      simp only [Carries, hjobs, List.mem_append] at this ⊢
      tauto
    · intro hr e he
      obtain rfl : cfg.expired i = e := Option.some.inj he
      rw [hjobs]
      exact List.mem_append_right _ (by simp [hnew])
    · intro k hk
      rw [hjobs] at hk
      rcases List.mem_append.1 hk with hk | hk
      · exact (hc.jobOk k hk).of_sameLanes hsame
      · obtain rfl := List.mem_singleton.1 hk
        exact ⟨c', hcall, fun v hv => by simp at hv⟩

theorem listens_iff (i : Nat) :
    s.listens i = true ↔ ∃ c, s.call i = some c ∧ c.finished = false ∧ c.own = none := by
  cases hc : s.call i with
  | none => simp [listens, hc]
  | some c => simp [listens, hc]

/-- An abort reaches every collector that runs, and leaves the lanes alone. -/
theorem abort_sameLanes (s : FanOut α) (e : Thrown) : SameLanes s (s.abort e) := by
  by_cases ha : s.aborted.isSome = true
  · rw [abort, if_pos ha]
    exact .of_jobs rfl (fun _ => rfl) rfl
  · have hnew : ∀ P : Job α → Bool, (∀ i, P (.raced i (.error e)) = false) →
        (((List.range s.next).filter s.listens).map fun i => Job.raced i (.error e)).filter P = [] := by
      intro P hP
      rw [List.filter_eq_nil_iff]
      intro j hj
      obtain ⟨i, _, rfl⟩ := List.mem_map.1 hj
      simp [hP i]
    rw [abort, if_neg ha]
    refine ⟨rfl, rfl, rfl, rfl, rfl, rfl, rfl, fun l => ?_, ?_, fun _ => rfl, fun i => ?_,
      fun i c hc => ?_⟩
    · rw [laneJobs, List.filter_append, hnew _ (fun i => rfl), List.append_nil]
      rfl
    · rw [List.filter_append, hnew _ (fun i => rfl), List.append_nil]
    · by_cases hl : s.listens i = true <;> simp [hl]
    · by_cases hl : s.listens i = true
      · exact ⟨{ c with own := some e }, by simp [hl, hc], rfl, fun _ ho => ho⟩
      · exact ⟨c, by simp [hl, hc], rfl, fun _ ho => ho⟩

theorem abort_carrying {e : Thrown} (hw : Wired cfg s) (hc : Carrying cfg s) :
    Carrying cfg (s.abort e) := by
  have hsame := abort_sameLanes s e
  by_cases ha : s.aborted.isSome = true
  · rw [abort, if_pos ha]
    exact hc
  · have hold : ∀ j ∈ s.jobs, j ∈ (s.abort e).jobs := by
      intro j hj
      rw [abort, if_neg ha]
      exact List.mem_append_left _ hj
    have hback : ∀ i c', (s.abort e).call i = some c' → ∃ c, s.call i = some c ∧
        c' = { c with own := c'.own } ∧
        (c'.own = c.own ∧ (c.finished = true ∨ c.own.isSome = true) ∨
          s.listens i = true ∧ c'.own = some e) := by
      intro i c' hci
      rw [abort, if_neg ha] at hci
      simp only at hci
      by_cases hl : s.listens i = true
      · rw [if_pos hl, Option.map_eq_some_iff] at hci
        obtain ⟨c, hc, rfl⟩ := hci
        exact ⟨c, hc, rfl, Or.inr ⟨hl, rfl⟩⟩
      · rw [if_neg hl] at hci
        refine ⟨c', hci, rfl, Or.inl ⟨rfl, ?_⟩⟩
        by_contra hno
        rw [not_or] at hno
        exact hl ((listens_iff i).2 ⟨c', hci, by simpa using hno.1, by simpa using hno.2⟩)
    refine ⟨?_, ?_, ?_, ?_, ?_⟩
    · intro i c' hci hsub
      obtain ⟨c, hc0, he, _⟩ := hback i c' hci
      rw [he] at hsub ⊢
      rcases hc.subscribes i c hc0 hsub with hp | hm
      · exact Or.inl hp
      · exact Or.inr (hold _ hm)
    · intro i c' o hci hr hp
      obtain ⟨c, hc0, he, _⟩ := hback i c' hci
      rw [he] at hr hp
      have hcar := hc.carried i c o hc0 hr hp
      have hsub : c'.subscribed = c.subscribed := by rw [he]
      rcases hcar with ⟨hs, hm⟩ | hm | hm | hm
      · exact Or.inl ⟨hsub.trans hs, hold _ hm⟩
      · exact Or.inr (Or.inl (hold _ hm))
      · exact Or.inr (Or.inr (Or.inl (hold _ hm)))
      · exact Or.inr (Or.inr (Or.inr (hold _ hm)))
    · intro i c' e' hci hr he'
      obtain ⟨c, hc0, he, hown⟩ := hback i c' hci
      rcases hown with ⟨hown, _⟩ | ⟨hl, hown⟩
      · rw [he] at hr
        exact hold _ (hc.cancelled i c e' hc0 hr (hown ▸ he'))
      · rw [hown] at he'
        obtain rfl := Option.some.inj he'
        rw [abort, if_neg ha]
        refine List.mem_append_right _ (List.mem_map.2 ⟨i, ?_, rfl⟩)
        exact List.mem_filter.2 ⟨List.mem_range.2 (hw.call_lt i c hc0), hl⟩
    · intro _ i c' hci hf
      obtain ⟨c, hc0, he, hown⟩ := hback i c' hci
      have hfin : c'.finished = c.finished := by rw [he]
      rcases hown with ⟨hown, hf' | ho⟩ | ⟨_, hown⟩
      · rw [hfin, hf'] at hf
        exact absurd hf (by simp)
      · rw [hown]; exact ho
      · rw [hown]; rfl
    · intro j hj
      rw [abort, if_neg ha] at hj
      rcases List.mem_append.1 hj with hj | hj
      · exact (hc.jobOk j hj).of_sameLanes hsame
      · obtain ⟨i, hi, rfl⟩ := List.mem_map.1 hj
        obtain ⟨c, hc0, _⟩ := (listens_iff i).1 (List.mem_filter.1 hi).2
        obtain ⟨c', hc', _⟩ := hsame.call i c hc0
        exact ⟨c', hc', fun v hv => by simp at hv⟩

theorem abort_inv {e : Thrown} (h : Inv cfg s) : Inv cfg (s.abort e) :=
  ⟨(abort_sameLanes s e).wired h.wired, abort_carrying h.wired h.carrying,
    (abort_sameLanes s e).settling h.settling⟩

/-! ## The race and the way back to the lane -/

/-- The lane a collector is at is the one that invoked it. -/
theorem Wired.lane_of_at {l i : Nat} {c : Call α} (h : Wired cfg s) (hat : s.AtLane l i)
    (hc : s.call i = some c) : c.lane = l := by
  have hok := h.laneOk l
  rcases hat with hl | hl
  · rw [LaneOk, hl] at hok
    obtain ⟨_, _, hw⟩ := hok
    generalize s.laneJobs l = queue at hw
    cases hw with
    | racing d hd hst => rw [hc] at hd; obtain rfl := Option.some.inj hd; exact congrArg Prod.fst hst
    | ran d o hd hst => rw [hc] at hd; obtain rfl := Option.some.inj hd; exact congrArg Prod.fst hst
    | resumed d o hd hst =>
      rw [hc] at hd; obtain rfl := Option.some.inj hd; exact congrArg Prod.fst hst
    | refused r hd _ => rw [hc] at hd; exact absurd hd (by simp)
  · rw [LaneOk, hl] at hok
    exact congrArg Prod.fst (hok.2.2.1 c hc)

/-- While a collector's race is on, its lane waits for it and has nothing queued. -/
theorem Wired.racing {i : Nat} {c : Call α} (h : Wired cfg s) (hci : s.call i = some c)
    (hr : c.raced = false) : s.results i = none ∧
      s.lane c.lane = .waiting i ∧ s.laneJobs c.lane = [] ∧ c.finished = false := by
  have hres : s.results i = none := by
    by_contra hne
    obtain ⟨v, hv⟩ := Option.ne_none_iff_exists'.1 hne
    obtain ⟨d, hd, _, hf⟩ := h.result i v hv
    have hrac := h.raced_of i d hd hf
    rw [hci] at hd
    obtain rfl := Option.some.inj hd
    rw [hr] at hrac
    exact absurd hrac (by simp)
  have late : ∀ l b, c.stage ≠ (l, true, b) := fun l b hst => by
    have hrac : c.raced = true := congrArg (fun t => t.2.1) hst
    rw [hr] at hrac
    exact absurd hrac (by simp)
  refine ⟨hres, ?_⟩
  have hok := h.laneOk c.lane
  rcases h.call_at i c hci hres with hl | hl
  · rw [LaneOk, hl] at hok
    obtain ⟨_, _, hw⟩ := hok
    generalize hq : s.laneJobs c.lane = queue at hw
    cases hw with
    | racing d hd hst =>
      rw [hci] at hd
      obtain rfl := Option.some.inj hd
      exact ⟨hl, rfl, congrArg (fun t => t.2.2) hst⟩
    | ran d p hd hst =>
      rw [hci] at hd
      obtain rfl := Option.some.inj hd
      exact absurd hst (late _ _)
    | resumed d p hd hst =>
      rw [hci] at hd
      obtain rfl := Option.some.inj hd
      exact absurd hst (late _ _)
    | refused r hd _ => rw [hci] at hd; exact absurd hd (by simp)
  · rw [LaneOk, hl] at hok
    exact absurd (hok.2.2.1 c hci) (late _ _)

/-- One collector moves on along its lane. -/
theorem Wired.of_setCall (c' : Call α) {s' : FanOut α} {i : Nat} {c : Call α} (h : Wired cfg s)
    (hci : s.call i = some c) (hlane : c'.lane = c.lane) (hpromise : c'.promise = c.promise)
    (hfin : c.finished = true → c'.finished = true) (hrac : c'.finished = true → c'.raced = true)
    (hcall : s'.call = Function.update s.call i (some c'))
    (hsame : s'.next = s.next ∧ s'.started = s.started ∧ s'.lane = s.lane ∧
      s'.results = s.results ∧ s'.calls = s.calls ∧ s'.allSettled = s.allSettled ∧
      s'.aborted = s.aborted)
    (hjobs : ∀ l, l ≠ c.lane → s'.laneJobs l = s.laneJobs l)
    (hok : LaneOk cfg s' c.lane) : Wired cfg s' := by
  obtain ⟨h1, h2, h3, h4, h5, h6, h7⟩ := hsame
  have hat : ∀ l k, s'.AtLane l k ↔ s.AtLane l k := fun l k => by rw [AtLane, AtLane, h3]
  have hother : ∀ k, k ≠ i → s'.call k = s.call k := fun k hk => by
    rw [hcall, Function.update_of_ne hk]
  have hself : s'.call i = some c' := by rw [hcall, Function.update_self]
  refine ⟨h1 ▸ h.next_le, h2 ▸ h.started_le, fun l => by rw [h3, h2]; exact h.idle_iff l,
    h5 ▸ h.sorted, fun k => ?_, fun k d hd => ?_, fun k d hd hr => ?_, fun k v hv => ?_,
    fun k d hd hf => ?_, fun k hk => ?_, fun l => ?_⟩
  · rw [h5, h.mem_calls k]
    by_cases hk : k = i
    · subst hk; rw [hself, hci]; simp
    · rw [hother k hk]
  · rw [h1]
    by_cases hk : k = i
    · subst hk; exact h.call_lt k c hci
    · exact h.call_lt k d (hother k hk ▸ hd)
  · rw [hat]
    rw [h4] at hr
    by_cases hk : k = i
    · subst hk
      rw [hself] at hd
      obtain rfl := Option.some.inj hd
      rw [hlane]
      exact h.call_at k c hci hr
    · exact h.call_at k d (hother k hk ▸ hd) hr
  · rw [h4] at hv
    obtain ⟨d, hd, hp, hf⟩ := h.result k v hv
    by_cases hk : k = i
    · subst hk
      rw [hci] at hd
      obtain rfl := Option.some.inj hd
      exact ⟨c', hself, hpromise.trans hp, hfin hf⟩
    · exact ⟨d, by rw [hother k hk]; exact hd, hp, hf⟩
  · by_cases hk : k = i
    · subst hk
      rw [hself] at hd
      obtain rfl := Option.some.inj hd
      exact hrac hf
    · exact h.raced_of k d (hother k hk ▸ hd) hf
  · rw [h4]
    rcases h.pulled k (h1 ▸ hk) with hr | ⟨l, hl⟩
    · exact Or.inl hr
    · exact Or.inr ⟨l, (hat l k).2 hl⟩
  · by_cases hl : l = c.lane
    · subst hl; exact hok
    · refine (h.laneOk l).frame (by rw [h3]) (hjobs l hl) (by rw [h1]) (fun hn => by rw [h1]; exact hn)
        (fun k _ => by rw [h4]) (fun k hk => ?_) (fun ha => by rw [h7]; exact ha)
        (fun ha => by rw [h6]; exact ha)
      by_cases hki : k = i
      · subst hki
        exact absurd (h.lane_of_at hk hci).symm hl
      · rw [hother k hki]

theorem JobOk.of_setCall (c' : Call α) {s' : FanOut α} {i : Nat} {c : Call α} {j : Job α}
    (hci : s.call i = some c) (hpromise : c'.promise = c.promise)
    (hcall : s'.call = Function.update s.call i (some c')) (hlane : s'.lane = s.lane)
    (hj : JobOk cfg s j) : JobOk cfg s' j := by
  have keep : ∀ k (P : Option (Except Thrown α) → Prop), (∃ d, s.call k = some d ∧ P d.promise) →
      ∃ d, s'.call k = some d ∧ P d.promise := by
    rintro k P ⟨d, hd, hp⟩
    by_cases hk : k = i
    · subst hk
      rw [hci] at hd
      obtain rfl := Option.some.inj hd
      exact ⟨c', by rw [hcall, Function.update_self], by rw [hpromise]; exact hp⟩
    · exact ⟨d, by rw [hcall, Function.update_of_ne hk, hd], hp⟩
  cases j with
  | subscribe k => trivial
  | adopt k o => exact keep k (· = some o) hj
  | caught k o => exact keep k (· = some o) hj
  | raced k o => exact keep k (fun p => ∀ v, o = .ok v → p = some o) hj
  | ran l k o => exact keep k (fun p => ∀ v, o = .ok v → p = some o) hj
  | resume l k o => exact fun v hv => keep k (· = some o) (hj v hv)
  | laneReturned l => trivial
  | laneThrew l e => trivial
  | finish o => intro ho; rw [hlane]; exact hj ho

/-- Nothing that the end of the call depends on changes. -/
theorem Settling.frame {s' : FanOut α} (h : Settling cfg s) (hlane : s'.lane = s.lane)
    (hresults : s'.results = s.results) (hset : s'.allSettled = s.allSettled)
    (hout : s'.outcome = s.outcome) (habort : s.aborted.isSome = true → s'.aborted.isSome = true)
    (hfin : s'.jobs.filter Job.isFinish = s.jobs.filter Job.isFinish) : Settling cfg s' where
  counted hall := by rw [hset]; exact h.counted (hlane ▸ hall)
  unsettled ha := by
    rw [hfin, hout]
    exact h.unsettled (hset ▸ ha)
  settled ha := by
    rw [hfin, hout]
    exact h.settled (hset ▸ ha)
  whole rs hrs := by
    rw [hlane, hresults]
    exact h.whole rs (hout ▸ hrs)
  broken e he := habort (h.broken e (hout ▸ he))

/-- The race's first result goes on to the lane, any other is dropped. -/
theorem raced_inv {i : Nat} {o : Except Thrown α} {js : List (Job α)} (h : Inv cfg s)
    (hj : s.jobs = .raced i o :: js) :
    Inv cfg (runJob cfg { s with jobs := js } (.raced i o)) := by
  have hc := h.carrying
  obtain ⟨c, hci, hp⟩ := hc.jobOk (.raced i o) (by simp [hj])
  have hkeep : ∀ k ∈ s.jobs, ∀ m, Job.carries k = some m → m ≠ i → k ∈ js := by
    intro k hk m hm hne
    rw [hj] at hk
    rcases List.mem_cons.1 hk with rfl | hk
    · exact absurd (Option.some.inj hm).symm hne
    · exact hk
  have hsubs : c.subscribed = false →
      c.promise.isSome = true ∧ cfg.atOnce i = c.promise ∨ .subscribe i ∈ js := by
    intro hsub
    rcases hc.subscribes i c hci hsub with hp | hm
    · exact Or.inl hp
    · rw [hj] at hm
      exact Or.inr (by simpa using hm)
  by_cases hr : c.raced = true
  · have hs' : runJob cfg { s with jobs := js } (.raced i o) = { s with jobs := js } := by
      simp [runJob, hci, hr]
    have hsame : SameLanes s { s with jobs := js } :=
      .of_jobs rfl (fun l => by simp [laneJobs_cons hj, Job.ofLane]) (by simp [hj, Job.isFinish])
    rw [hs']
    refine ⟨hsame.wired h.wired, ?_, hsame.settling h.settling⟩
    refine hc.of_setCall c (by rw [← hci, Function.update_eq_self]) rfl hkeep hsubs
      (fun hr' => absurd hr' (by simp [hr])) (fun hr' => absurd hr' (by simp [hr]))
      (fun ha hf => hc.reached ha i c hci hf) ?_
    intro k hk
    exact (hc.jobOk k (by simp [hj, hk])).of_sameLanes hsame
  · have hr : c.raced = false := by simpa using hr
    set c' : Call α := { c with raced := true } with hc'
    set s' : FanOut α := { s with
      call := Function.update s.call i (some c')
      jobs := js ++ [.ran c.lane i o] } with hs'
    have hrun : runJob cfg { s with jobs := js } (.raced i o) = s' := by
      simp [runJob, hci, hr, hs', hc', setCall, push]
    obtain ⟨hres, hlane⟩ := h.wired.racing hci hr
    have hjs : ∀ l, js.filter (Job.ofLane l) = s.laneJobs l := fun l => by
      simp [laneJobs_cons hj, Job.ofLane]
    rw [hrun]
    refine ⟨?_, ?_, ?_⟩
    · refine h.wired.of_setCall c' hci rfl rfl id (fun hf => rfl) rfl
        ⟨rfl, rfl, rfl, rfl, rfl, rfl, rfl⟩ ?_ ?_
      · intro l hl
        simp [laneJobs, hs', List.filter_append, hjs, Job.ofLane, Ne.symm hl]
      · have hq : s'.laneJobs c.lane = [.ran c.lane i o] := by
          show (js ++ [Job.ran c.lane i o]).filter _ = _
          rw [List.filter_append, hjs, hlane.2.1]
          simp [Job.ofLane]
        have hl' : s'.lane c.lane = .waiting i := hlane.1
        rw [LaneOk, hl', hq]
        refine ⟨h.wired.call_lt i c hci, hres, .ran c' o (by simp [hs']) ?_⟩
        rw [Call.stage, hlane.2.2]
    · refine hc.of_setCall c' rfl rfl
        (fun k hk m hm hne => List.mem_append_left _ (hkeep k hk m hm hne)) ?_
        (fun hr' => absurd hr' (by simp [hc'])) (fun hr' => absurd hr' (by simp [hc']))
        (fun ha hf => hc.reached ha i c hci hf) ?_
      · intro hsub
        rcases hsubs hsub with hp | hm
        · exact Or.inl hp
        · exact Or.inr (List.mem_append_left _ hm)
      · intro k hk
        rcases List.mem_append.1 hk with hk | hk
        · exact (hc.jobOk k (by simp [hj, hk])).of_setCall c' hci rfl rfl rfl
        · obtain rfl := List.mem_singleton.1 hk
          exact ⟨c', by simp [hs'], hp⟩
    · exact h.settling.frame rfl rfl rfl rfl id
        (by simp [hs', hj, List.filter_append, Job.isFinish])

end FanOut

end PolicyVerifier.Core
