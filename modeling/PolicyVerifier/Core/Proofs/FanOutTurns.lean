import PolicyVerifier.Core.Proofs.FanOutSteps

/-!
# The turns of a lane

A lane that is between two turns pulls the next collector or returns; the jobs that bring it there,
and the jobs that end the call, keep the invariant too. With them every step does.
-/

namespace PolicyVerifier.Core

open Js

variable {α : Type}

namespace FanOut

variable {cfg : FanOutConfig α} {s : FanOut α}

/-- The wiring while lane `l` is between two turns: every other lane is in its place. -/
structure LaneFree (cfg : FanOutConfig α) (l : Nat) (s : FanOut α) : Prop where
  next_le : s.next ≤ cfg.count
  started_le : s.started ≤ cfg.lanes
  idle_iff : ∀ k, k ≠ l → (s.lane k = .idle ↔ s.started ≤ k)
  lt : l < s.started
  uncounted : s.lane l ≠ .counted
  sorted : s.calls.Pairwise (· < ·)
  mem_calls : ∀ i, i ∈ s.calls ↔ (s.call i).isSome = true
  call_lt : ∀ i c, s.call i = some c → i < s.next
  call_at : ∀ i c, s.call i = some c → s.results i = none → c.lane ≠ l ∧ s.AtLane c.lane i
  result : ∀ i v, s.results i = some v → ∃ c, s.call i = some c ∧ c.promise = some (.ok v) ∧
    c.finished = true
  raced_of : ∀ i c, s.call i = some c → c.finished = true → c.raced = true
  pulled : ∀ i < s.next, s.results i ≠ none ∨ ∃ k, k ≠ l ∧ s.AtLane k i
  laneOk : ∀ k, k ≠ l → LaneOk cfg s k
  free : s.laneJobs l = []

theorem LaneOk.lt_of_at {k i : Nat} (h : LaneOk cfg s k) (hat : s.AtLane k i) : i < s.next := by
  rcases hat with hl | hl
  · rw [LaneOk, hl] at h; exact h.1
  · rw [LaneOk, hl] at h; exact h.1

/-- The end of the call is out of reach while a lane takes another turn. -/
theorem Settling.turn {l : Nat} {s' : FanOut α} (h : Settling cfg s) (hl : l < cfg.lanes)
    (hbefore : s.lane l ≠ .counted) (hafter : s'.lane l ≠ .counted)
    (hset : s'.allSettled = s.allSettled) (hout : s'.outcome = s.outcome)
    (habort : s'.aborted = s.aborted)
    (hfin : s'.jobs.filter Job.isFinish = s.jobs.filter Job.isFinish) : Settling cfg s' where
  counted hall := absurd (hall l hl) hafter
  unsettled ha := by
    rw [hfin, hout]
    exact h.unsettled (hset ▸ ha)
  settled ha := by
    rw [hfin, hout]
    exact h.settled (hset ▸ ha)
  whole rs hrs := absurd ((h.whole rs (hout ▸ hrs)).1 l hl) hbefore
  broken e he := by rw [habort]; exact h.broken e (hout ▸ he)

/-- A job of the old queue is as true as before when no lane that was counted moves. -/
theorem JobOk.turn {l : Nat} {s' : FanOut α} {j : Job α} (hl : l < cfg.lanes)
    (hbefore : s.lane l ≠ .counted) (hcall : ∀ i c, s.call i = some c → s'.call i = some c)
    (hj : JobOk cfg s j) : JobOk cfg s' j := by
  have keep : ∀ i (P : Call α → Prop), (∃ c, s.call i = some c ∧ P c) →
      ∃ c, s'.call i = some c ∧ P c := by
    rintro i P ⟨c, hc, hp⟩
    exact ⟨c, hcall i c hc, hp⟩
  cases j with
  | subscribe i => trivial
  | adopt i o => exact keep i _ hj
  | caught i o => exact keep i _ hj
  | raced i o => exact keep i _ hj
  | ran l i o => exact keep i _ hj
  | resume l i o => exact fun v hv => keep i _ (hj v hv)
  | laneReturned l => trivial
  | laneThrew l e => trivial
  | finish o => intro ho; exact absurd (hj ho l hl) hbefore

/-- The queue changes, but not by a job that carries a result to its race. -/
theorem Carrying.of_jobs {s' : FanOut α} (h : Carrying cfg s) (hcall : s'.call = s.call)
    (habort : s'.aborted = s.aborted)
    (hkeep : ∀ j ∈ s.jobs, (Job.carries j).isSome = true → j ∈ s'.jobs)
    (hjobs : ∀ j ∈ s'.jobs, JobOk cfg s' j) : Carrying cfg s' := by
  refine ⟨?_, ?_, ?_, ?_, hjobs⟩
  · intro i c hci hsub
    rcases h.subscribes i c (hcall ▸ hci) hsub with hp | hm
    · exact Or.inl hp
    · exact Or.inr (hkeep _ hm rfl)
  · intro i c o hci hr hp
    rcases h.carried i c o (hcall ▸ hci) hr hp with ⟨hs, hm⟩ | hm | hm | hm
    · exact Or.inl ⟨hs, hkeep _ hm rfl⟩
    · exact Or.inr (Or.inl (hkeep _ hm rfl))
    · exact Or.inr (Or.inr (Or.inl (hkeep _ hm rfl)))
    · exact Or.inr (Or.inr (Or.inr (hkeep _ hm rfl)))
  · intro i c e hci hr he
    exact hkeep _ (h.cancelled i c e (hcall ▸ hci) hr he) rfl
  · intro ha i c hci hf
    exact h.reached (habort ▸ ha) i c (hcall ▸ hci) hf

/-- The next collector is pulled by the lane: the parts of the wiring that do not depend on whether
it is invoked. -/
theorem LaneFree.pulled_next {l : Nat} {s' : FanOut α} (h : LaneFree cfg l s)
    (hnext : s'.next = s.next + 1) (hlane : s'.lane = Function.update s.lane l (.waiting s.next))
    (hres : s'.results = s.results) (i : Nat) (hi : i < s'.next) :
    s'.results i ≠ none ∨ ∃ k, s'.AtLane k i := by
  rw [hres]
  rw [hnext] at hi
  by_cases hin : i = s.next
  · subst hin
    exact Or.inr ⟨l, Or.inl (by rw [hlane, Function.update_self])⟩
  · rcases h.pulled i (by omega) with hr | ⟨k, hk, hat⟩
    · exact Or.inl hr
    · refine Or.inr ⟨k, ?_⟩
      rw [AtLane, hlane, Function.update_of_ne hk]
      exact hat

theorem LaneFree.result_next (h : LaneFree cfg l s) : s.results s.next = none := by
  by_contra hne
  obtain ⟨v, hv⟩ := Option.ne_none_iff_exists'.1 hne
  obtain ⟨c, hc, _⟩ := h.result _ v hv
  exact absurd (h.call_lt _ c hc) (by omega)

theorem LaneFree.call_next (h : LaneFree cfg l s) : s.call s.next = none := by
  by_contra hne
  obtain ⟨c, hc⟩ := Option.ne_none_iff_exists'.1 hne
  exact absurd (h.call_lt _ c hc) (by omega)

/-- A fan-out that has aborted refuses the collector. -/
theorem pull_refused_inv {l : Nat} {reason : Thrown} (h : LaneFree cfg l s) (hc : Carrying cfg s)
    (hs : Settling cfg s) (hlt : s.next < cfg.count) (ha : s.aborted = some reason) :
    Inv cfg (pull cfg s l) := by
  set s' : FanOut α := { s with
    next := s.next + 1
    lane := Function.update s.lane l (.waiting s.next)
    jobs := s.jobs ++ [.resume l s.next (.error reason)] } with hs'
  have hpull : pull cfg s l = s' := pull_refused hlt ha
  have hq : ∀ k, s'.laneJobs k = s.laneJobs k ++ if l = k then [.resume l s.next (.error reason)]
      else [] := by
    intro k
    by_cases hk : l = k <;> simp [laneJobs, hs', List.filter_append, Job.ofLane, hk]
  have hat : ∀ k i, k ≠ l → (s'.AtLane k i ↔ s.AtLane k i) := fun k i hk => by
    simp [AtLane, hs', Function.update_of_ne hk]
  have hl : l < cfg.lanes := lt_of_lt_of_le h.lt h.started_le
  have hlane : s'.lane l = .waiting s.next := by simp [hs']
  rw [hpull]
  refine ⟨⟨hlt, h.started_le, ?_, h.sorted, h.mem_calls, ?_, ?_, h.result, h.raced_of, ?_, ?_⟩,
    ?_, ?_⟩
  · intro k
    by_cases hk : k = l
    · subst hk
      rw [hlane]
      simpa [hs'] using h.lt
    · simpa [hs', Function.update_of_ne hk] using h.idle_iff k hk
  · intro i c hci
    have := h.call_lt i c hci
    show i < s.next + 1
    omega
  · intro i c hci hr
    obtain ⟨hne, hati⟩ := h.call_at i c hci hr
    exact (hat _ _ hne).2 hati
  · exact h.pulled_next rfl rfl rfl
  · intro k
    by_cases hk : k = l
    · subst hk
      rw [LaneOk, hlane, hq, h.free]
      refine ⟨by simp [hs'], h.result_next, ?_⟩
      simp only [if_true, List.nil_append]
      exact .refused reason h.call_next (by simp [hs', ha])
    · refine (h.laneOk k hk).frame ?_ ?_ (by simp [hs']) (fun hn => absurd hn (by omega))
        (fun _ _ => rfl) (fun _ _ => rfl) id id
      · simp [hs', Function.update_of_ne hk]
      · simp [hq, Ne.symm hk]
  · refine hc.of_jobs rfl rfl (fun j hj _ => List.mem_append_left _ hj) fun j hj => ?_
    rcases List.mem_append.1 hj with hj | hj
    · exact (hc.jobOk j hj).turn hl h.uncounted fun _ _ hci => hci
    · obtain rfl := List.mem_singleton.1 hj
      intro v hv
      exact absurd hv (by simp)
  · exact hs.turn hl h.uncounted (by rw [hlane]; simp) rfl rfl rfl
      (by simp [hs', List.filter_append, Job.isFinish])

/-- The state once the lane has invoked the next collector. -/
def invoked (cfg : FanOutConfig α) (s : FanOut α) (l : Nat) : FanOut α := { s with
  next := s.next + 1
  lane := Function.update s.lane l (.waiting s.next)
  call := Function.update s.call s.next (some { lane := l, promise := cfg.atOnce s.next })
  calls := s.calls ++ [s.next]
  jobs := s.jobs ++ invokedJobs s.next (cfg.atOnce s.next) }

section Invoked

variable {l : Nat}

theorem call_invoked_self : (invoked cfg s l).call s.next = some { lane := l, promise := cfg.atOnce s.next } := by
  simp [invoked]

theorem call_invoked_of_ne {i : Nat} (hi : i ≠ s.next) : (invoked cfg s l).call i = s.call i := by
  simp [invoked, Function.update_of_ne hi]

theorem lane_invoked_self : (invoked cfg s l).lane l = .waiting s.next := by simp [invoked]

theorem atLane_invoked {k i : Nat} (hk : k ≠ l) : (invoked cfg s l).AtLane k i ↔ s.AtLane k i := by
  simp [AtLane, invoked, Function.update_of_ne hk]

/-- What is queued for the collector is no lane's job. -/
theorem laneJobs_invoked (k : Nat) : (invoked cfg s l).laneJobs k = s.laneJobs k := by
  have hnew : (invokedJobs s.next (cfg.atOnce s.next)).filter (Job.ofLane k) = [] := by
    cases hao : cfg.atOnce s.next <;> simp [invokedJobs, Job.ofLane]
  simp [laneJobs, invoked, List.filter_append, hnew]

theorem finish_invoked : (invoked cfg s l).jobs.filter Job.isFinish = s.jobs.filter Job.isFinish := by
  have hnew : (invokedJobs s.next (cfg.atOnce s.next)).filter Job.isFinish = [] := by
    cases hao : cfg.atOnce s.next <;> simp [invokedJobs, Job.isFinish]
  simp [invoked, List.filter_append, hnew]

/-- A call that is there before is another collector's, and stays. -/
theorem LaneFree.call_kept (h : LaneFree cfg l s) {i : Nat} {c : Call α} (hci : s.call i = some c) :
    (invoked cfg s l).call i = some c := by
  have hi : i ≠ s.next := by
    rintro rfl
    rw [h.call_next] at hci
    exact absurd hci (by simp)
  rw [call_invoked_of_ne hi]
  exact hci

/-- A call that is there after is the new one, or was there before. -/
theorem call_invoked {i : Nat} {c : Call α} (hci : (invoked cfg s l).call i = some c) :
    (i = s.next ∧ c = { lane := l, promise := cfg.atOnce s.next }) ∨ i ≠ s.next ∧ s.call i = some c := by
  by_cases hi : i = s.next
  · subst hi
    rw [call_invoked_self] at hci
    exact Or.inl ⟨rfl, (Option.some.inj hci).symm⟩
  · rw [call_invoked_of_ne hi] at hci
    exact Or.inr ⟨hi, hci⟩

theorem LaneFree.wired_invoked (h : LaneFree cfg l s) (hlt : s.next < cfg.count) :
    Wired cfg (invoked cfg s l) := by
  refine ⟨hlt, h.started_le, ?_, ?_, ?_, ?_, ?_, ?_, ?_, ?_, ?_⟩
  · intro k
    by_cases hk : k = l
    · subst hk
      rw [lane_invoked_self]
      simpa [invoked] using h.lt
    · simpa [invoked, Function.update_of_ne hk] using h.idle_iff k hk
  · show (s.calls ++ [s.next]).Pairwise (· < ·)
    refine List.pairwise_append.2 ⟨h.sorted, by simp, fun i hi j hj => ?_⟩
    obtain rfl := List.mem_singleton.1 hj
    obtain ⟨c, hci⟩ := Option.isSome_iff_exists.1 ((h.mem_calls i).1 hi)
    exact h.call_lt i c hci
  · intro i
    show i ∈ s.calls ++ [s.next] ↔ _
    by_cases hi : i = s.next
    · subst hi
      simp [call_invoked_self]
    · rw [call_invoked_of_ne hi, ← h.mem_calls i]
      simp [hi]
  · intro i c hci
    show i < s.next + 1
    rcases call_invoked hci with ⟨rfl, -⟩ | ⟨-, hci⟩
    · omega
    · have := h.call_lt i c hci
      omega
  · intro i c hci hr
    rcases call_invoked hci with ⟨rfl, rfl⟩ | ⟨-, hci⟩
    · exact Or.inl lane_invoked_self
    · obtain ⟨hne, hati⟩ := h.call_at i c hci hr
      exact (atLane_invoked hne).2 hati
  · intro i v hv
    obtain ⟨c, hci, hp⟩ := h.result i v hv
    exact ⟨c, h.call_kept hci, hp⟩
  · intro i c hci hf
    rcases call_invoked hci with ⟨rfl, rfl⟩ | ⟨-, hci⟩
    · exact absurd hf (by simp)
    · exact h.raced_of i c hci hf
  · exact h.pulled_next rfl rfl rfl
  · intro k
    by_cases hk : k = l
    · subst hk
      rw [LaneOk, lane_invoked_self, laneJobs_invoked, h.free]
      exact ⟨by simp [invoked], h.result_next, .racing _ call_invoked_self rfl⟩
    · refine (h.laneOk k hk).frame ?_ (laneJobs_invoked k) (by simp [invoked]) (fun hn => absurd hn (by omega))
        (fun _ _ => rfl) (fun i hi => ?_) id id
      · simp [invoked, Function.update_of_ne hk]
      · have hlt := (h.laneOk k hk).lt_of_at hi
        rw [call_invoked_of_ne (by omega)]

theorem LaneFree.carrying_invoked (h : LaneFree cfg l s) (hc : Carrying cfg s) (ha : s.aborted = none) :
    Carrying cfg (invoked cfg s l) := by
  refine ⟨?_, ?_, ?_, ?_, ?_⟩
  · intro i c hci hsub
    rcases call_invoked hci with ⟨rfl, rfl⟩ | ⟨-, hci⟩
    · cases hao : cfg.atOnce s.next with
      | none => exact Or.inr (List.mem_append_right _ (by simp [hao, invokedJobs]))
      | some o => exact Or.inl ⟨by simp, rfl⟩
    · rcases hc.subscribes i c hci hsub with hp | hm
      · exact Or.inl hp
      · exact Or.inr (List.mem_append_left _ hm)
  · intro i c o hci hr hp
    rcases call_invoked hci with ⟨rfl, rfl⟩ | ⟨-, hci⟩
    · have hp : cfg.atOnce s.next = some o := hp
      exact Or.inr (Or.inr (Or.inl (List.mem_append_right _ (by simp [hp, invokedJobs]))))
    · have := hc.carried i c o hci hr hp
      simp only [Carries, invoked, List.mem_append] at this ⊢
      tauto
  · intro i c e hci hr he
    rcases call_invoked hci with ⟨rfl, rfl⟩ | ⟨-, hci⟩
    · exact absurd he (by simp)
    · exact List.mem_append_left _ (hc.cancelled i c e hci hr he)
  · intro ha'
    exact absurd ha' (by simp [invoked, ha])
  · intro j hj
    rcases List.mem_append.1 hj with hj | hj
    · exact (hc.jobOk j hj).turn (lt_of_lt_of_le h.lt h.started_le) h.uncounted fun i c hci => h.call_kept hci
    · cases hao : cfg.atOnce s.next with
      | none =>
        simp only [hao, invokedJobs, List.mem_singleton] at hj
        subst hj
        trivial
      | some o =>
        simp only [hao, invokedJobs, List.mem_singleton] at hj
        subst hj
        exact ⟨_, call_invoked_self, hao⟩

end Invoked

/-- A collector is invoked. -/
theorem pull_invoked_inv {l : Nat} (h : LaneFree cfg l s) (hc : Carrying cfg s)
    (hs : Settling cfg s) (hlt : s.next < cfg.count) (ha : s.aborted = none) :
    Inv cfg (pull cfg s l) := by
  have hpull : pull cfg s l = invoked cfg s l := pull_invoked hlt ha
  rw [hpull]
  refine ⟨h.wired_invoked hlt, h.carrying_invoked hc ha, ?_⟩
  exact hs.turn (lt_of_lt_of_le h.lt h.started_le) h.uncounted (by rw [lane_invoked_self]; simp) rfl rfl rfl
    finish_invoked

/-- A lane that finds no collector left returns. -/
theorem pull_returned_inv {l : Nat} (h : LaneFree cfg l s) (hc : Carrying cfg s)
    (hs : Settling cfg s) (hge : ¬ s.next < cfg.count) : Inv cfg (pull cfg s l) := by
  set s' : FanOut α := { s with
    lane := Function.update s.lane l .returned
    jobs := s.jobs ++ [.laneReturned l] } with hs'
  have hpull : pull cfg s l = s' := pull_returned hge
  have hq : ∀ k, s'.laneJobs k = s.laneJobs k ++ if l = k then [.laneReturned l] else [] := by
    intro k
    by_cases hk : l = k <;> simp [laneJobs, hs', List.filter_append, Job.ofLane, hk]
  have hat : ∀ k i, k ≠ l → (s'.AtLane k i ↔ s.AtLane k i) := fun k i hk => by
    simp [AtLane, hs', Function.update_of_ne hk]
  have hl : l < cfg.lanes := lt_of_lt_of_le h.lt h.started_le
  have hlane : s'.lane l = .returned := by simp [hs']
  rw [hpull]
  refine ⟨⟨h.next_le, h.started_le, ?_, h.sorted, h.mem_calls, h.call_lt, ?_, h.result, h.raced_of,
    ?_, ?_⟩, ?_, ?_⟩
  · intro k
    by_cases hk : k = l
    · subst hk
      rw [hlane]
      simpa [hs'] using h.lt
    · simpa [hs', Function.update_of_ne hk] using h.idle_iff k hk
  · intro i c hci hr
    obtain ⟨hne, hati⟩ := h.call_at i c hci hr
    exact (hat _ _ hne).2 hati
  · intro i hi
    rcases h.pulled i hi with hr | ⟨k, hk, hati⟩
    · exact Or.inl hr
    · exact Or.inr ⟨k, (hat k i hk).2 hati⟩
  · intro k
    by_cases hk : k = l
    · subst hk
      rw [LaneOk, hlane, hq, h.free]
      exact ⟨le_antisymm h.next_le (not_lt.1 hge), by simp⟩
    · refine (h.laneOk k hk).frame ?_ ?_ le_rfl id (fun _ _ => rfl) (fun _ _ => rfl) id id
      · simp [hs', Function.update_of_ne hk]
      · simp [hq, Ne.symm hk]
  · refine hc.of_jobs rfl rfl (fun j hj _ => List.mem_append_left _ hj) fun j hj => ?_
    rcases List.mem_append.1 hj with hj | hj
    · exact (hc.jobOk j hj).turn hl h.uncounted fun _ _ hci => hci
    · obtain rfl := List.mem_singleton.1 hj
      trivial
  · exact hs.turn hl h.uncounted (by rw [hlane]; simp) rfl rfl rfl
      (by simp [hs', List.filter_append, Job.isFinish])

/-- A lane's next turn, whatever it comes to, puts the lane back in a place. -/
theorem pull_inv {l : Nat} (h : LaneFree cfg l s) (hc : Carrying cfg s) (hs : Settling cfg s) :
    Inv cfg (pull cfg s l) := by
  by_cases hlt : s.next < cfg.count
  · cases ha : s.aborted with
    | none => exact pull_invoked_inv h hc hs hlt ha
    | some reason => exact pull_refused_inv h hc hs hlt ha
  · exact pull_returned_inv h hc hs hlt

/-! ## The jobs of a lane -/

/-- `runOne` cleans up after its race and hands the result to its lane. -/
theorem ran_inv {l i : Nat} {o : Except Thrown α} {js : List (Job α)} (h : Inv cfg s)
    (hj : s.jobs = .ran l i o :: js) :
    Inv cfg (runJob cfg { s with jobs := js } (.ran l i o)) := by
  have hc := h.carrying
  obtain ⟨c, hci, hp⟩ := hc.jobOk (.ran l i o) (by simp [hj])
  have hhead : s.laneJobs l = .ran l i o :: js.filter (Job.ofLane l) := by
    rw [laneJobs_cons hj]
    simp [Job.ofLane]
  obtain ⟨hlane, hstage, hres, hrest⟩ : s.lane l = .waiting i ∧ c.stage = (l, true, false) ∧
      s.results i = none ∧ js.filter (Job.ofLane l) = [] := by
    have hok := h.wired.laneOk l
    rw [LaneOk] at hok
    cases hl : s.lane l with
    | idle => rw [hl, hhead] at hok; exact absurd hok (by simp)
    | waiting k =>
      rw [hl, hhead] at hok
      obtain ⟨_, hr, hw⟩ := hok
      generalize hq : js.filter (Job.ofLane l) = rest at hw
      cases hw with
      | ran d p hd hst =>
        rw [hci] at hd
        obtain rfl := Option.some.inj hd
        exact ⟨rfl, hst, hr, rfl⟩
    | threw k =>
      rw [hl, hhead] at hok
      rcases hok.2.2.2 with ⟨e, he⟩ | ⟨he, _⟩ <;> exact absurd he (by simp)
    | returned => rw [hl, hhead] at hok; exact absurd hok.2 (by simp)
    | counted => rw [hl, hhead] at hok; exact absurd hok.2 (by simp)
  have hcl : c.lane = l := congrArg Prod.fst hstage
  have hcr : c.raced = true := congrArg (fun t => t.2.1) hstage
  set c' : Call α := { c with finished := true } with hc'
  set s' : FanOut α := { s with
    call := Function.update s.call i (some c')
    jobs := js ++ [.resume l i o] } with hs'
  have hrun : runJob cfg { s with jobs := js } (.ran l i o) = s' := by
    simp [runJob, hci, hs', hc', setCall, push]
  have hself : s'.call i = some c' := by simp [hs']
  rw [hrun]
  refine ⟨?_, ?_, ?_⟩
  · refine h.wired.of_setCall c' hci rfl rfl (fun _ => rfl) (fun _ => hcr) rfl
      ⟨rfl, rfl, rfl, rfl, rfl, rfl, rfl⟩ ?_ ?_
    · intro k hk
      have hne : l ≠ k := fun he => hk (by rw [hcl, he])
      simp [laneJobs, hs', hj, List.filter_append, Job.ofLane, hne]
    · have hq : s'.laneJobs l = [.resume l i o] := by
        show (js ++ [Job.resume l i o]).filter _ = _
        rw [List.filter_append, hrest]
        simp [Job.ofLane]
      have hl' : s'.lane l = .waiting i := hlane
      rw [hcl, LaneOk, hl', hq]
      exact ⟨h.wired.call_lt i c hci, hres, .resumed c' o hself (by rw [Call.stage, hc', hcl, hcr])⟩
  · refine hc.of_setCall c' rfl rfl ?_ ?_ (fun hr => absurd hr (by simp [hc', hcr]))
      (fun hr => absurd hr (by simp [hc', hcr])) (fun _ hf => absurd hf (by simp [hc'])) ?_
    · intro k hk m hm _
      rw [hj] at hk
      rcases List.mem_cons.1 hk with rfl | hk
      · exact absurd hm (by simp [Job.carries])
      · exact List.mem_append_left _ hk
    · intro hsub
      rcases hc.subscribes i c hci hsub with hp | hm
      · exact Or.inl hp
      · rw [hj] at hm
        exact Or.inr (List.mem_append_left _ (by simpa using hm))
    · intro k hk
      rcases List.mem_append.1 hk with hk | hk
      · exact (hc.jobOk k (by simp [hj, hk])).of_setCall c' hci rfl rfl rfl
      · obtain rfl := List.mem_singleton.1 hk
        exact fun v hv => ⟨c', hself, hp v hv⟩
  · exact h.settling.frame rfl rfl rfl rfl id
      (by simp [hs', hj, List.filter_append, Job.isFinish])

/-- What a lane's resumption finds: the lane waits for this collector and has no other job. -/
theorem Wired.resuming {l i : Nat} {o : Except Thrown α} {js : List (Job α)} (h : Wired cfg s)
    (hj : s.jobs = .resume l i o :: js) : s.lane l = .waiting i ∧ i < s.next ∧
      s.results i = none ∧ js.filter (Job.ofLane l) = [] ∧
      (∀ c, s.call i = some c → c.stage = (l, true, true)) ∧
      (s.call i = none → ∃ e, o = .error e) := by
  have hhead : s.laneJobs l = .resume l i o :: js.filter (Job.ofLane l) := by
    rw [laneJobs_cons hj]
    simp [Job.ofLane]
  have hok := h.laneOk l
  rw [LaneOk] at hok
  cases hl : s.lane l with
  | idle => rw [hl, hhead] at hok; exact absurd hok (by simp)
  | waiting k =>
    rw [hl, hhead] at hok
    obtain ⟨hk, hr, hw⟩ := hok
    generalize hq : js.filter (Job.ofLane l) = rest at hw
    cases hw with
    | resumed d p hd hst =>
      refine ⟨rfl, hk, hr, rfl, fun c hc => ?_, fun hn => ?_⟩
      · rw [hd] at hc
        obtain rfl := Option.some.inj hc
        exact hst
      · rw [hd] at hn
        exact absurd hn (by simp)
    | refused reason hd ha =>
      refine ⟨rfl, hk, hr, rfl, fun c hc => ?_, fun _ => ⟨reason, rfl⟩⟩
      rw [hd] at hc
      exact absurd hc (by simp)
  | threw k =>
    rw [hl, hhead] at hok
    rcases hok.2.2.2 with ⟨e, he⟩ | ⟨he, _⟩ <;> exact absurd he (by simp)
  | returned => rw [hl, hhead] at hok; exact absurd hok.2 (by simp)
  | counted => rw [hl, hhead] at hok; exact absurd hok.2 (by simp)

/-- A lane that started is one of the lanes. -/
theorem Wired.lane_lt {l : Nat} (h : Wired cfg s) (hl : s.lane l ≠ .idle) :
    l < s.started ∧ l < cfg.lanes := by
  have : l < s.started := by
    by_contra hge
    exact hl ((h.idle_iff l).2 (not_lt.1 hge))
  exact ⟨this, lt_of_lt_of_le this h.started_le⟩

/-- A collector's value reaches its lane, which stores it and takes its next turn. -/
theorem resume_ok_inv {l i : Nat} {v : α} {js : List (Job α)} (h : Inv cfg s)
    (hj : s.jobs = .resume l i (.ok v) :: js) :
    Inv cfg (runJob cfg { s with jobs := js } (.resume l i (.ok v))) := by
  have hc := h.carrying
  obtain ⟨hlane, hi, hres, hrest, hstage, hrefused⟩ := h.wired.resuming hj
  obtain ⟨c, hci, hp⟩ := hc.jobOk (.resume l i (.ok v)) (by simp [hj]) v rfl
  have hst := hstage c hci
  have hcl : c.lane = l := congrArg Prod.fst hst
  have hcf : c.finished = true := congrArg (fun t => t.2.2) hst
  obtain ⟨hls, hll⟩ := h.wired.lane_lt (l := l) (by rw [hlane]; simp)
  set s₁ : FanOut α := { s with jobs := js, results := Function.update s.results i (some v) } with hs₁
  have hq : ∀ k, s₁.laneJobs k = if k = l then [] else s.laneJobs k := by
    intro k
    by_cases hk : k = l
    · subst hk
      rw [if_pos rfl]
      exact hrest
    · rw [if_neg hk, laneJobs_cons hj]
      simp [Job.ofLane, Ne.symm hk, laneJobs, hs₁]
  have hat : ∀ k j, s.AtLane k j → j = i → k = l := by
    rintro k j hkj rfl
    rw [← h.wired.lane_of_at hkj hci, hcl]
  have hfree : LaneFree cfg l s₁ := by
    refine ⟨h.wired.next_le, h.wired.started_le, fun k _ => h.wired.idle_iff k, hls, ?_,
      h.wired.sorted, h.wired.mem_calls, h.wired.call_lt, ?_, ?_, h.wired.raced_of, ?_, ?_, ?_⟩
    · show s.lane l ≠ _
      rw [hlane]
      simp
    · intro k d hd hr
      have hki : k ≠ i := by
        rintro rfl
        simp [hs₁] at hr
      have hr' : s.results k = none := by simpa [hs₁, Function.update_of_ne hki] using hr
      have hkat := h.wired.call_at k d hd hr'
      refine ⟨fun hdl => ?_, hkat⟩
      rw [hdl, AtLane, hlane] at hkat
      rcases hkat with he | he
      · exact hki (LaneState.waiting.inj he).symm
      · exact absurd he (by simp)
    · intro k w hw
      by_cases hki : k = i
      · subst hki
        have : v = w := by simpa [hs₁] using hw
        subst this
        exact ⟨c, hci, hp, hcf⟩
      · exact h.wired.result k w (by simpa [hs₁, Function.update_of_ne hki] using hw)
    · intro k hk
      by_cases hki : k = i
      · subst hki
        exact Or.inl (by simp [hs₁])
      · rcases h.wired.pulled k hk with hr | ⟨m, hm⟩
        · exact Or.inl (by simpa [hs₁, Function.update_of_ne hki] using hr)
        · refine Or.inr ⟨m, fun hml => ?_, hm⟩
          rw [hml, AtLane, hlane] at hm
          rcases hm with he | he
          · exact hki (LaneState.waiting.inj he).symm
          · exact absurd he (by simp)
    · intro k hk
      refine (h.wired.laneOk k).frame rfl (by rw [hq, if_neg hk]) le_rfl id (fun j hkj => ?_)
        (fun _ _ => rfl) id id
      have hji : j ≠ i := fun he => hk (hat k j hkj he)
      simp [hs₁, Function.update_of_ne hji]
    · rw [hq, if_pos rfl]
  refine pull_inv hfree (hc.of_jobs rfl rfl ?_ ?_) ?_
  · intro j hjm hcar
    rw [hj] at hjm
    rcases List.mem_cons.1 hjm with rfl | hjm
    · exact absurd hcar (by simp [Job.carries])
    · exact hjm
  · intro j hjm
    exact (hc.jobOk j (by rw [hj]; exact List.mem_cons_of_mem _ hjm)).turn hll
      (by rw [hlane]; simp) fun _ _ hd => hd
  · exact h.settling.turn hll (by rw [hlane]; simp) (by show s.lane l ≠ _; rw [hlane]; simp)
      rfl rfl rfl (by simp [hj, Job.isFinish])

/-- A lane moves on without leaving its collector. -/
theorem Wired.of_setLane {s' : FanOut α} {l : Nat} {st : LaneState} (h : Wired cfg s)
    (hlane : s'.lane = Function.update s.lane l st) (hat : ∀ i, s'.AtLane l i ↔ s.AtLane l i)
    (hidle : s.lane l ≠ .idle) (hidle' : st ≠ .idle)
    (hsame : s'.next = s.next ∧ s'.started = s.started ∧ s'.call = s.call ∧
      s'.results = s.results ∧ s'.calls = s.calls ∧ s'.aborted = s.aborted)
    (hset : s.allSettled = true → s'.allSettled = true)
    (hjobs : ∀ k, k ≠ l → s'.laneJobs k = s.laneJobs k) (hok : LaneOk cfg s' l) :
    Wired cfg s' := by
  obtain ⟨h1, h2, h3, h4, h5, h6⟩ := hsame
  have hat' : ∀ k i, s'.AtLane k i ↔ s.AtLane k i := by
    intro k i
    by_cases hk : k = l
    · subst hk; exact hat i
    · rw [AtLane, AtLane, hlane, Function.update_of_ne hk]
  refine ⟨h1 ▸ h.next_le, h2 ▸ h.started_le, fun k => ?_, h5 ▸ h.sorted,
    fun i => by rw [h5, h3]; exact h.mem_calls i, fun i c hc => by rw [h1]; exact h.call_lt i c (h3 ▸ hc),
    fun i c hc hr => (hat' _ _).2 (h.call_at i c (h3 ▸ hc) (h4 ▸ hr)),
    fun i v hv => by rw [h3]; exact h.result i v (h4 ▸ hv),
    fun i c hc hf => h.raced_of i c (h3 ▸ hc) hf, fun i hi => ?_, fun k => ?_⟩
  · rw [h2, hlane]
    by_cases hk : k = l
    · subst hk
      rw [Function.update_self]
      exact ⟨fun he => absurd he hidle', fun he => absurd ((h.idle_iff k).2 he) hidle⟩
    · rw [Function.update_of_ne hk]
      exact h.idle_iff k
  · rw [h4]
    rcases h.pulled i (h1 ▸ hi) with hr | ⟨k, hk⟩
    · exact Or.inl hr
    · exact Or.inr ⟨k, (hat' k i).2 hk⟩
  · by_cases hk : k = l
    · subst hk; exact hok
    · exact (h.laneOk k).frame (by rw [hlane, Function.update_of_ne hk]) (hjobs k hk) (by rw [h1])
        (fun hn => by rw [h1]; exact hn) (fun _ _ => by rw [h4]) (fun _ _ => by rw [h3])
        (fun ha => by rw [h6]; exact ha) hset

/-- A job that is not about a collector's race leaves the queue, and others like it join. -/
theorem Carrying.replace {s' : FanOut α} {j : Job α} {js new : List (Job α)} (h : Carrying cfg s)
    (hj : s.jobs = j :: js) (hcar : Job.carries j = none) (hcall : s'.call = s.call)
    (habort : s'.aborted = s.aborted) (hjobs : s'.jobs = js ++ new)
    (hold : ∀ k ∈ js, JobOk cfg s k → JobOk cfg s' k) (hnew : ∀ k ∈ new, JobOk cfg s' k) :
    Carrying cfg s' := by
  refine h.of_jobs hcall habort ?_ ?_
  · intro k hk hc
    rw [hj] at hk
    rw [hjobs]
    rcases List.mem_cons.1 hk with rfl | hk
    · rw [hcar] at hc
      exact absurd hc (by simp)
    · exact List.mem_append_left _ hk
  · intro k hk
    rw [hjobs] at hk
    rcases List.mem_append.1 hk with hk | hk
    · exact hold k hk (h.jobOk k (by rw [hj]; exact List.mem_cons_of_mem _ hk))
    · exact hnew k hk

/-- A failure reaches its lane, which throws. -/
theorem resume_error_inv {l i : Nat} {e : Thrown} {js : List (Job α)} (h : Inv cfg s)
    (hj : s.jobs = .resume l i (.error e) :: js) :
    Inv cfg (runJob cfg { s with jobs := js } (.resume l i (.error e))) := by
  obtain ⟨hlane, hi, hres, hrest, hstage, _⟩ := h.wired.resuming hj
  obtain ⟨_, hll⟩ := h.wired.lane_lt (l := l) (by rw [hlane]; simp)
  set s' : FanOut α := { s with
    lane := Function.update s.lane l (.threw i)
    jobs := js ++ [.laneThrew l e] } with hs'
  have hrun : runJob cfg { s with jobs := js } (.resume l i (.error e)) = s' := by
    simp [runJob, setLane, push, hs']
  have hlane' : s'.lane l = .threw i := by simp [hs']
  have hq : s'.laneJobs l = [.laneThrew l e] := by
    show (js ++ [Job.laneThrew l e]).filter _ = _
    rw [List.filter_append, hrest]
    simp [Job.ofLane]
  rw [hrun]
  refine ⟨?_, ?_, ?_⟩
  · refine h.wired.of_setLane rfl (fun k => ?_) (by rw [hlane]; simp) (by simp)
      ⟨rfl, rfl, rfl, rfl, rfl, rfl⟩ id (fun k hk => ?_) ?_
    · rw [AtLane, AtLane, hlane, hlane']
      simp
    · simp [laneJobs, hs', hj, List.filter_append, Job.ofLane, Ne.symm hk]
    · rw [LaneOk, hlane', hq]
      exact ⟨hi, hres, hstage, Or.inl ⟨e, rfl⟩⟩
  · refine h.carrying.replace hj rfl rfl rfl rfl (fun k _ hk => ?_) (fun k hk => ?_)
    · exact JobOk.turn (s := s) hll (by rw [hlane]; simp) (fun _ _ hc => hc) hk
    · obtain rfl := List.mem_singleton.1 hk
      trivial
  · exact h.settling.turn hll (by rw [hlane]; simp) (by rw [hlane']; simp) rfl rfl rfl
      (by simp [hs', hj, List.filter_append, Job.isFinish])

/-- A lane whose return is queued has returned. -/
theorem Wired.returning {l : Nat} {js : List (Job α)} (h : Wired cfg s)
    (hj : s.jobs = .laneReturned l :: js) :
    s.lane l = .returned ∧ s.next = cfg.count ∧ js.filter (Job.ofLane l) = [] := by
  have hhead : s.laneJobs l = .laneReturned l :: js.filter (Job.ofLane l) := by
    rw [laneJobs_cons hj]
    simp [Job.ofLane]
  have hok := h.laneOk l
  rw [LaneOk] at hok
  cases hl : s.lane l with
  | idle => rw [hl, hhead] at hok; exact absurd hok (by simp)
  | waiting k =>
    rw [hl, hhead] at hok
    obtain ⟨_, _, hw⟩ := hok
    generalize hq : js.filter (Job.ofLane l) = rest at hw
    cases hw
  | threw k =>
    rw [hl, hhead] at hok
    rcases hok.2.2.2 with ⟨e, he⟩ | ⟨he, _⟩ <;> exact absurd he (by simp)
  | returned =>
    rw [hl, hhead] at hok
    exact ⟨rfl, hok.1, (List.cons.inj hok.2).2⟩
  | counted => rw [hl, hhead] at hok; exact absurd hok.2 (by simp)

/-- A lane whose throw is queued threw. -/
theorem Wired.throwing {l : Nat} {e : Thrown} {js : List (Job α)} (h : Wired cfg s)
    (hj : s.jobs = .laneThrew l e :: js) : ∃ i, s.lane l = .threw i ∧ i < s.next ∧
      s.results i = none ∧ (∀ c, s.call i = some c → c.stage = (l, true, true)) ∧
      js.filter (Job.ofLane l) = [] := by
  have hhead : s.laneJobs l = .laneThrew l e :: js.filter (Job.ofLane l) := by
    rw [laneJobs_cons hj]
    simp [Job.ofLane]
  have hok := h.laneOk l
  rw [LaneOk] at hok
  cases hl : s.lane l with
  | idle => rw [hl, hhead] at hok; exact absurd hok (by simp)
  | waiting k =>
    rw [hl, hhead] at hok
    obtain ⟨_, _, hw⟩ := hok
    generalize hq : js.filter (Job.ofLane l) = rest at hw
    cases hw
  | threw k =>
    rw [hl, hhead] at hok
    obtain ⟨hk, hr, hst, hjobs⟩ := hok
    refine ⟨k, rfl, hk, hr, hst, ?_⟩
    rcases hjobs with ⟨e', he⟩ | ⟨he, _⟩
    · exact (List.cons.inj he).2
    · exact absurd he (by simp)
  | returned => rw [hl, hhead] at hok; exact absurd hok.2 (by simp)
  | counted => rw [hl, hhead] at hok; exact absurd hok.2 (by simp)

theorem allCounted_iff : allCounted cfg s = true ↔ ∀ l < cfg.lanes, s.lane l = .counted := by
  simp [allCounted]

/-- `Promise.all` sees a lane return; the last one settles it. -/
theorem laneReturned_inv {l : Nat} {js : List (Job α)} (h : Inv cfg s)
    (hj : s.jobs = .laneReturned l :: js) :
    Inv cfg (runJob cfg { s with jobs := js } (.laneReturned l)) := by
  obtain ⟨hlane, hnext, hrest⟩ := h.wired.returning hj
  obtain ⟨_, hll⟩ := h.wired.lane_lt (l := l) (by rw [hlane]; simp)
  set s₁ : FanOut α := { s with lane := Function.update s.lane l .counted, jobs := js } with hs₁
  set last : Bool := allCounted cfg s₁ && !s.allSettled with hlast
  set new : List (Job α) := if last then [.finish (.ok ())] else [] with hnew
  set s' : FanOut α := { s₁ with allSettled := s.allSettled || last, jobs := js ++ new } with hs'
  have hrun : runJob cfg { s with jobs := js } (.laneReturned l) = s' := by
    have hstep : runJob cfg { s with jobs := js } (.laneReturned l) =
        if last then { s₁ with allSettled := true }.push [.finish (.ok ())] else s₁ := rfl
    rw [hstep]
    by_cases hl : last = true
    · simp [hl, hs', hnew, hs₁, push]
    · simp [hl, hs', hnew, hs₁]
  have hlane' : s'.lane l = .counted := by simp [hs', hs₁]
  have hfin : new.filter Job.isFinish = new := by
    by_cases hl : last = true <;> simp [hnew, hl, Job.isFinish]
  have hnl : ∀ k, new.filter (Job.ofLane k) = [] := by
    intro k
    by_cases hl : last = true <;> simp [hnew, hl, Job.ofLane]
  have hjs : js.filter Job.isFinish = s.jobs.filter Job.isFinish := by simp [hj, Job.isFinish]
  have hcount : (∀ k < cfg.lanes, s'.lane k = .counted) ↔ allCounted cfg s₁ = true :=
    allCounted_iff.symm
  have hbefore : ¬ ∀ k < cfg.lanes, s.lane k = .counted := fun hall => by
    have := hall l hll
    rw [hlane] at this
    exact absurd this (by simp)
  rw [hrun]
  refine ⟨?_, ?_, ?_⟩
  · refine h.wired.of_setLane rfl (fun k => ?_) (by rw [hlane]; simp) (by simp)
      ⟨rfl, rfl, rfl, rfl, rfl, rfl⟩ (fun ha => by simp [hs', ha]) (fun k hk => ?_) ?_
    · rw [AtLane, AtLane, hlane, hlane']
      simp
    · show (js ++ new).filter _ = _
      rw [List.filter_append, hnl, laneJobs_cons hj]
      simp [Job.ofLane, Ne.symm hk]
    · rw [LaneOk, hlane']
      refine ⟨hnext, ?_⟩
      show (js ++ new).filter _ = _
      rw [List.filter_append, hnl, hrest]
      rfl
  · refine h.carrying.replace hj rfl rfl rfl rfl (fun k _ hk => ?_) (fun k hk => ?_)
    · exact JobOk.turn (s := s) hll (by rw [hlane]; simp) (fun _ _ hc => hc) hk
    · by_cases hl : last = true
      · simp only [hnew, hl, if_true, List.mem_singleton] at hk
        subst hk
        intro _
        exact hcount.2 (by simp only [hlast, Bool.and_eq_true] at hl; exact hl.1)
      · simp [hnew, hl] at hk
  · have hfilter : (js ++ new).filter Job.isFinish = s.jobs.filter Job.isFinish ++ new := by
      rw [List.filter_append, hfin, hjs]
    refine ⟨fun hall => ?_, fun ha => ?_, fun ha => ?_, fun rs hrs => ?_, h.settling.broken⟩
    · have := hcount.1 hall
      by_cases hset : s.allSettled = true <;> simp [hs', hlast, this, hset]
    · have hset : s.allSettled = false ∧ last = false := by simpa [hs'] using ha
      obtain ⟨hf, ho⟩ := h.settling.unsettled hset.1
      refine ⟨?_, ho⟩
      show (js ++ new).filter _ = _
      rw [hfilter, hf, hnew, hset.2]
      rfl
    · show (∃ o, (js ++ new).filter _ = _ ∧ s.outcome = none) ∨
        ((js ++ new).filter _ = [] ∧ s.outcome.isSome = true)
      rw [hfilter]
      by_cases hset : s.allSettled = true
      · have hl : last = false := by simp [hlast, hset]
        rw [hnew, hl]
        simpa using h.settling.settled hset
      · have hset : s.allSettled = false := by simpa using hset
        have hl : last = true := by simpa [hs', hset] using ha
        obtain ⟨hf, ho⟩ := h.settling.unsettled hset
        exact Or.inl ⟨.ok (), by rw [hf, hnew, hl]; rfl, ho⟩
    · exact absurd (h.settling.whole rs hrs).1 hbefore

/-- `Promise.all` sees a lane throw; the first one settles it. -/
theorem laneThrew_inv {l : Nat} {e : Thrown} {js : List (Job α)} (h : Inv cfg s)
    (hj : s.jobs = .laneThrew l e :: js) :
    Inv cfg (runJob cfg { s with jobs := js } (.laneThrew l e)) := by
  obtain ⟨i, hlane, hi, hres, hstage, hrest⟩ := h.wired.throwing hj
  set new : List (Job α) := if s.allSettled then [] else [.finish (.error e)] with hnew
  set s' : FanOut α := { s with allSettled := true, jobs := js ++ new } with hs'
  have hrun : runJob cfg { s with jobs := js } (.laneThrew l e) = s' := by
    by_cases hset : s.allSettled = true <;> simp [runJob, hs', hnew, hset, push]
  have hfin : new.filter Job.isFinish = new := by
    by_cases hset : s.allSettled = true <;> simp [hnew, hset, Job.isFinish]
  have hnl : ∀ k, new.filter (Job.ofLane k) = [] := by
    intro k
    by_cases hset : s.allSettled = true <;> simp [hnew, hset, Job.ofLane]
  have hjs : js.filter Job.isFinish = s.jobs.filter Job.isFinish := by simp [hj, Job.isFinish]
  rw [hrun]
  refine ⟨?_, ?_, ?_⟩
  · have hsame : s'.lane = Function.update s.lane l (s.lane l) := by simp [hs']
    refine h.wired.of_setLane hsame (fun k => Iff.rfl) (by rw [hlane]; simp)
      (by rw [hlane]; simp) ⟨rfl, rfl, rfl, rfl, rfl, rfl⟩ (fun _ => rfl) (fun k hk => ?_) ?_
    · show (js ++ new).filter _ = _
      rw [List.filter_append, hnl, laneJobs_cons hj]
      simp [Job.ofLane, Ne.symm hk]
    · have hl' : s'.lane l = .threw i := hlane
      rw [LaneOk, hl']
      refine ⟨hi, hres, hstage, Or.inr ⟨?_, rfl⟩⟩
      show (js ++ new).filter _ = _
      rw [List.filter_append, hnl, hrest]
      rfl
  · refine h.carrying.replace hj rfl rfl rfl rfl (fun k _ hk => ?_) (fun k hk => ?_)
    · cases k <;> exact hk
    · by_cases hset : s.allSettled = true
      · simp [hnew, hset] at hk
      · simp only [hnew, hset, Bool.false_eq_true, if_false, List.mem_singleton] at hk
        subst hk
        intro he
        exact absurd he (by simp)
  · have hfilter : (js ++ new).filter Job.isFinish = s.jobs.filter Job.isFinish ++ new := by
      rw [List.filter_append, hfin, hjs]
    refine ⟨fun _ => rfl, fun ha => absurd ha (by simp [hs']), fun _ => ?_, h.settling.whole,
      h.settling.broken⟩
    show (∃ o, (js ++ new).filter _ = _ ∧ s.outcome = none) ∨
      ((js ++ new).filter _ = [] ∧ s.outcome.isSome = true)
    rw [hfilter]
    by_cases hset : s.allSettled = true
    · have : new = [] := by simp [hnew, hset]
      rw [this]
      simpa using h.settling.settled hset
    · obtain ⟨hf, ho⟩ := h.settling.unsettled (by simpa using hset)
      exact Or.inl ⟨.error e, by simp [hf, hnew, hset], ho⟩

/-- The wiring does not see the jobs that belong to no lane, nor the outcome. -/
theorem Wired.of_jobs (h : Wired cfg s) (jobs : List (Job α))
    (outcome : Option (Except Thrown (List (Option α))))
    (hjobs : ∀ l, jobs.filter (Job.ofLane l) = s.laneJobs l) :
    Wired cfg { s with jobs := jobs, outcome := outcome } :=
  ⟨h.next_le, h.started_le, h.idle_iff, h.sorted, h.mem_calls, h.call_lt, h.call_at, h.result,
    h.raced_of, h.pulled, fun l => (h.laneOk l).frame rfl (hjobs l) le_rfl id (fun _ _ => rfl)
      (fun _ _ => rfl) id id⟩

/-- The call settles. -/
theorem finish_inv {o : Except Thrown Unit} {js : List (Job α)} (h : Inv cfg s)
    (hj : s.jobs = .finish o :: js) :
    Inv cfg (runJob cfg { s with jobs := js } (.finish o)) := by
  have hlanes : ∀ l, js.filter (Job.ofLane l) = s.laneJobs l := fun l => by
    simp [laneJobs_cons hj, Job.ofLane]
  have hcarrying : Carrying cfg { s with jobs := js } :=
    h.carrying.replace hj rfl rfl rfl (List.append_nil js).symm
      (fun k _ hk => by cases k <;> exact hk) (by simp)
  have hfinish : s.jobs.filter Job.isFinish = .finish o :: js.filter Job.isFinish := by
    rw [hj]
    rfl
  have hset : s.allSettled = true := by
    by_contra hne
    have := (h.settling.unsettled (by simpa using hne)).1
    rw [hfinish] at this
    exact absurd this (by simp)
  have hrest : js.filter Job.isFinish = [] := by
    rcases h.settling.settled hset with ⟨p, hp, _⟩ | ⟨hp, _⟩
    · rw [hfinish] at hp
      exact (List.cons.inj hp).2
    · rw [hfinish] at hp
      exact absurd hp (by simp)
  cases o with
  | ok u =>
    have hall := h.carrying.jobOk (.finish (.ok u)) (by simp [hj]) rfl
    refine ⟨h.wired.of_jobs js _ hlanes, ?_, ?_⟩
    · exact hcarrying.of_jobs rfl rfl (fun _ hk _ => hk) fun k hk => by
        have := hcarrying.jobOk k hk
        cases k <;> exact this
    · refine ⟨fun _ => hset, fun ha => ?_, fun _ => Or.inr ⟨hrest, rfl⟩, fun rs hrs => ?_,
        fun e he => absurd he (by simp [runJob])⟩
      · have ha : s.allSettled = false := ha
        rw [hset] at ha
        exact absurd ha (by simp)
      · have : (List.range cfg.count).map s.results = rs := by simpa [runJob] using hrs
        exact ⟨hall, this.symm⟩
  | error e =>
    have hsame := abort_sameLanes { s with jobs := js } e
    have hwired := hsame.wired (h.wired.of_jobs js s.outcome hlanes)
    have haborted : (FanOut.abort { s with jobs := js } e).aborted.isSome = true := by
      by_cases ha : s.aborted.isSome = true
      · simp [abort, ha]
      · simp [abort, ha]
    have hset' : (FanOut.abort { s with jobs := js } e).allSettled = true := by
      rw [hsame.allSettled]
      exact hset
    have hfin := hsame.finish
    have hc := abort_carrying (e := e) (h.wired.of_jobs js s.outcome hlanes) hcarrying
    refine ⟨hwired.of_jobs _ _ fun _ => rfl, ?_, ?_⟩
    · exact hc.of_jobs rfl rfl (fun _ hk _ => hk) fun k hk => by
        have := hc.jobOk k hk
        cases k <;> exact this
    · refine ⟨fun _ => hset', fun ha => ?_, fun _ => Or.inr ⟨hfin.trans hrest, rfl⟩,
        fun rs hrs => absurd hrs (by simp [runJob]), fun _ _ => haborted⟩
      have ha : (FanOut.abort { s with jobs := js } e).allSettled = false := ha
      rw [hset'] at ha
      exact absurd ha (by simp)

/-! ## Every step -/

theorem job_inv {s' : FanOut α} (h : Inv cfg s) (hs : step cfg s .job = some s') :
    Inv cfg s' := by
  rw [step] at hs
  by_cases hwave : s.started = cfg.lanes
  · rw [if_pos hwave] at hs
    cases hj : s.jobs with
    | nil => rw [hj] at hs; exact absurd hs (by simp)
    | cons j js =>
      rw [hj] at hs
      obtain rfl := Option.some.inj hs
      cases j with
      | subscribe i => exact subscribe_inv h hj
      | adopt i o => exact adopt_inv h hj
      | caught i o => exact caught_inv h hj
      | raced i o => exact raced_inv h hj
      | ran l i o => exact ran_inv h hj
      | resume l i o =>
        cases o with
        | ok v => exact resume_ok_inv h hj
        | error e => exact resume_error_inv h hj
      | laneReturned l => exact laneReturned_inv h hj
      | laneThrew l e => exact laneThrew_inv h hj
      | finish o => exact finish_inv h hj
  · rw [if_neg hwave] at hs
    exact absurd hs (by simp)

/-- A lane of the wave starts with its first turn. -/
theorem startLane_inv {s' : FanOut α} (h : Inv cfg s) (hs : step cfg s .startLane = some s') :
    Inv cfg s' := by
  rw [step] at hs
  by_cases hlt : s.started < cfg.lanes
  · rw [if_pos hlt] at hs
    obtain rfl := Option.some.inj hs
    have hidle : s.lane s.started = .idle := (h.wired.idle_iff _).2 le_rfl
    have hempty : s.laneJobs s.started = [] := by
      have hok := h.wired.laneOk s.started
      rw [LaneOk, hidle] at hok
      exact hok
    have hat : ∀ k i, s.AtLane k i → k ≠ s.started := by
      rintro k i hk rfl
      rw [AtLane, hidle] at hk
      rcases hk with he | he <;> exact absurd he (by simp)
    have hfree : LaneFree cfg s.started { s with started := s.started + 1 } := by
      refine ⟨h.wired.next_le, hlt, fun k hk => ?_, Nat.lt_succ_self _, ?_, h.wired.sorted,
        h.wired.mem_calls, h.wired.call_lt, fun i c hc hr => ?_, h.wired.result, h.wired.raced_of,
        fun i hi => ?_, fun k hk => ?_, hempty⟩
      · show s.lane k = .idle ↔ s.started + 1 ≤ k
        rw [h.wired.idle_iff k]
        omega
      · show s.lane s.started ≠ _
        rw [hidle]
        simp
      · have := h.wired.call_at i c hc hr
        exact ⟨hat _ _ this, this⟩
      · rcases h.wired.pulled i hi with hr | ⟨k, hk⟩
        · exact Or.inl hr
        · exact Or.inr ⟨k, hat _ _ hk, hk⟩
      · exact (h.wired.laneOk k).frame rfl rfl le_rfl id (fun _ _ => rfl) (fun _ _ => rfl) id id
    refine pull_inv hfree (h.carrying.of_jobs rfl rfl (fun _ hk _ => hk) fun k hk => ?_)
      (h.settling.frame rfl rfl rfl rfl id rfl)
    have := h.carrying.jobOk k hk
    cases k <;> exact this
  · rw [if_neg hlt] at hs
    exact absurd hs (by simp)

/-- Every step keeps the invariant. -/
theorem step_inv {e : FanOutEvent α} {s' : FanOut α} (h : Inv cfg s)
    (hs : step cfg s e = some s') : Inv cfg s' := by
  cases e with
  | startLane => exact startLane_inv h hs
  | job => exact job_inv h hs
  | settle i o => exact settle_inv h hs
  | timeout i => exact timeout_inv h hs
  | deadline =>
    simp only [step, Option.ite_none_right_eq_some, Option.some.injEq] at hs
    exact hs.2 ▸ abort_inv h
  | callerAbort reason =>
    simp only [step, Option.some.injEq] at hs
    subst hs
    by_cases ho : s.outcome.isNone = true
    · rw [if_pos ho]
      exact abort_inv h
    · rw [if_neg ho]
      exact h

/-- The call starts in the invariant. -/
theorem start_inv (cfg : FanOutConfig α) (caller : Option Thrown)
    (hpos : 0 < cfg.limits.concurrency) : Inv cfg (start cfg caller) := by
  by_cases hn : cfg.count = 0
  · have hl : cfg.lanes = 0 := by simp [FanOutConfig.lanes, hn]
    rw [start, if_pos hn]
    refine ⟨⟨by simp, by simp, by simp, by simp, by simp, by simp, by simp, by simp, by simp,
      by simp, fun l => ?_⟩, ⟨by simp, by simp, by simp, by simp, by simp⟩, ⟨by simp, by simp, by simp,
      fun rs hrs => ⟨by simp [hl], ?_⟩, by simp⟩⟩
    · simp [LaneOk, laneJobs]
    · simpa [hn, eq_comm] using hrs
  · rw [start, if_neg hn]
    refine ⟨⟨by simp, by simp, by simp, by simp, by simp, by simp, by simp, by simp, by simp,
      by simp, fun l => ?_⟩, ⟨by simp, by simp, by simp, by simp, by simp⟩, ⟨fun hall => ?_, by simp,
      by simp, by simp, by simp⟩⟩
    · simp [LaneOk, laneJobs]
    · have hl : 0 < cfg.lanes := lt_min hpos (Nat.pos_of_ne_zero hn)
      exact absurd (hall 0 hl) (by simp)

end FanOut

end PolicyVerifier.Core
