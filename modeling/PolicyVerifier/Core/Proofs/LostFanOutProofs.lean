import PolicyVerifier.Core.Proofs.RunCollectorsProofs

/-!
# A lost fan-out

Once a collector has rejected or overrun its timeout the fan-out is lost, but it aborts only when the
failure has gone through every promise between the collector and the call. A value that reaches its
lane before that makes the lane invoke another collector. Which of the two comes first can be read
off the queue: every job leads to the next in turn, so the one with fewer jobs to go is first, and
between equals the one queued first.
-/

namespace PolicyVerifier.Core

open Js

variable {α : Type}

namespace FanOut

variable {cfg : FanOutConfig α} {s : FanOut α}

/-- The race of collector `i` is still open. -/
def open? (s : FanOut α) (i : Nat) : Bool := (s.call i).any fun c => !c.raced

/-- What the promise of collector `i` settled with. -/
def promiseOf (s : FanOut α) (i : Nat) : Option (Except Thrown α) := (s.call i).bind Call.promise

/-- How many jobs from this one the fan-out aborts, when the job carries a failure that is not
overtaken. -/
def abortHops (s : FanOut α) : Job α → Option Nat
  | .subscribe i =>
    match s.promiseOf i with
    | some (.error _) => if s.open? i && !s.allSettled then some 8 else none
    | _ => none
  | .adopt i (.error _) => if s.open? i && !s.allSettled then some 7 else none
  | .caught i (.error _) => if s.open? i && !s.allSettled then some 6 else none
  | .raced i (.error _) => if s.open? i && !s.allSettled then some 5 else none
  | .ran _ _ (.error _) => if !s.allSettled then some 4 else none
  | .resume _ _ (.error _) => if !s.allSettled then some 3 else none
  | .laneThrew _ _ => if !s.allSettled then some 2 else none
  | .finish (.error _) => some 1
  | _ => none

/-- How many jobs from this one a lane takes its next turn, when the job carries a value. -/
def pullHops (s : FanOut α) : Job α → Option Nat
  | .subscribe i =>
    match s.promiseOf i with
    | some (.ok _) => if s.open? i then some 6 else none
    | _ => none
  | .adopt i (.ok _) => if s.open? i then some 5 else none
  | .caught i (.ok _) => if s.open? i then some 4 else none
  | .raced i (.ok _) => if s.open? i then some 3 else none
  | .ran _ _ (.ok _) => some 2
  | .resume _ _ (.ok _) => some 1
  | _ => none

/-- Every value in the queue is more than `a` jobs from its lane. -/
def Behind (s : FanOut α) (a : Nat) (jobs : List (Job α)) : Prop :=
  ∀ j ∈ jobs, ∀ p, pullHops s j = some p → a < p

/-- A failure in the queue reaches the call before any value reaches its lane. -/
def AbortLeads (s : FanOut α) (jobs : List (Job α)) : Prop :=
  ∃ pre f post a, jobs = pre ++ f :: post ∧ abortHops s f = some a ∧ Behind s a pre ∧
    ∀ j ∈ post, ∀ p, pullHops s j = some p → a ≤ p

/-- The step does not let a value overtake a failure. A collector that throws at once is invoked only
when no value is on its way and the wave is over; a collector settles, when that is a failure or one
is on its way, only while the earliest failure leads every value. Neither matters once the fan-out
has aborted or when no collector is left. -/
def KeepsOrder (cfg : FanOutConfig α) (s : FanOut α) : FanOutEvent α → Prop
  | .startLane => ∀ e, cfg.atOnce s.next = some (.error e) → s.aborted.isSome = true ∨
      cfg.count ≤ s.next + 1 ∨ s.started + 1 = cfg.lanes ∧ ∀ j ∈ s.jobs, pullHops s j = none
  | .job => ∀ e, cfg.atOnce s.next = some (.error e) → s.aborted.isSome = true ∨
      cfg.count ≤ s.next + 1 ∨
      ∀ l i v js, s.jobs = .resume l i (.ok v) :: js → ∀ j ∈ js, pullHops s j = none
  | .settle i o => s.aborted.isSome = true ∨ s.next = cfg.count ∨
      ((∀ j ∈ s.jobs, abortHops s j = none) ∧ ∃ v, o = .ok v) ∨
      s.started = cfg.lanes ∧ ∀ c, s.call i = some c →
        AbortLeads (s.setCall i { c with promise := some o })
          (s.jobs ++ if c.subscribed then [.adopt i o] else [])
  | _ => True

/-! ## Hops under a change of state -/

/-- A job is as far from the lane as before, or its value was dropped. -/
theorem pullHops_mono {s' : FanOut α} {j : Job α} {p : Nat}
    (hopen : ∀ i, s'.open? i = true → s.open? i = true)
    (hpromise : ∀ i, s'.promiseOf i = s.promiseOf i) (h : pullHops s' j = some p) :
    pullHops s j = some p := by
  have keep : ∀ i n, (if s'.open? i = true then some n else none) = some p →
      (if s.open? i = true then some n else none) = some p := by
    intro i n hn
    by_cases ho : s'.open? i = true
    · rw [if_pos ho] at hn
      rw [if_pos (hopen i ho), hn]
    · rw [if_neg ho] at hn
      exact absurd hn (by simp)
  cases j with
  | subscribe i =>
    simp only [pullHops, hpromise] at h ⊢
    cases hp : s.promiseOf i with
    | none => rw [hp] at h; exact absurd h (by simp)
    | some o =>
      rw [hp] at h
      cases o with
      | ok v => exact keep i 6 h
      | error e => exact absurd h (by simp)
  | adopt i o => cases o with
    | ok v => exact keep i 5 h
    | error e => exact absurd h (by simp [pullHops])
  | caught i o => cases o with
    | ok v => exact keep i 4 h
    | error e => exact absurd h (by simp [pullHops])
  | raced i o => cases o with
    | ok v => exact keep i 3 h
    | error e => exact absurd h (by simp [pullHops])
  | ran l i o => cases o <;> exact h
  | resume l i o => cases o <;> exact h
  | laneReturned l => exact h
  | laneThrew l e => exact h
  | finish o => exact h

/-- A failure is as far from the call as before, unless its race was decided or the call settled
first: then it had at least `n` jobs to go. -/
theorem abortHops_keep (s' : FanOut α) {f : Job α} {a : Nat} (n : Nat) (h : abortHops s f = some a)
    (hpromise : ∀ i, s'.promiseOf i = s.promiseOf i)
    (hopen : ∀ i, s.open? i = true → s'.open? i = true ∨ n ≤ 5)
    (hset : s.allSettled = false → s'.allSettled = false ∨ n ≤ 2) :
    abortHops s' f = some a ∨ n ≤ a := by
  have race : ∀ i m, 5 ≤ m → (if (s.open? i && !s.allSettled) = true then some m else none) = some a →
      (if (s'.open? i && !s'.allSettled) = true then some m else none) = some a ∨ n ≤ a := by
    intro i m hm hn
    by_cases ho : (s.open? i && !s.allSettled) = true
    · rw [if_pos ho] at hn
      obtain rfl := Option.some.inj hn
      simp only [Bool.and_eq_true, Bool.not_eq_true'] at ho
      rcases hopen i ho.1 with h1 | h1
      · rcases hset ho.2 with h2 | h2
        · left
          rw [if_pos (by simp [h1, h2])]
        · right; omega
      · right; omega
    · rw [if_neg ho] at hn
      exact absurd hn (by simp)
  have late : ∀ m, 2 ≤ m → (if (!s.allSettled) = true then some m else none) = some a →
      (if (!s'.allSettled) = true then some m else none) = some a ∨ n ≤ a := by
    intro m hm hn
    by_cases ho : (!s.allSettled) = true
    · rw [if_pos ho] at hn
      obtain rfl := Option.some.inj hn
      rcases hset (by simpa using ho) with h2 | h2
      · left
        rw [if_pos (by simp [h2])]
      · right; omega
    · rw [if_neg ho] at hn
      exact absurd hn (by simp)
  cases f with
  | subscribe i =>
    simp only [abortHops, hpromise] at h ⊢
    cases hp : s.promiseOf i with
    | none => rw [hp] at h; exact absurd h (by simp)
    | some o =>
      rw [hp] at h
      cases o with
      | ok v => exact absurd h (by simp)
      | error e => exact race i 8 (by omega) h
  | adopt i o => cases o with
    | ok v => exact absurd h (by simp [abortHops])
    | error e => exact race i 7 (by omega) h
  | caught i o => cases o with
    | ok v => exact absurd h (by simp [abortHops])
    | error e => exact race i 6 (by omega) h
  | raced i o => cases o with
    | ok v => exact absurd h (by simp [abortHops])
    | error e => exact race i 5 (by omega) h
  | ran l i o => cases o with
    | ok v => exact absurd h (by simp [abortHops])
    | error e => exact late 4 (by omega) h
  | resume l i o => cases o with
    | ok v => exact absurd h (by simp [abortHops])
    | error e => exact late 3 (by omega) h
  | laneReturned l => exact absurd h (by simp [abortHops])
  | laneThrew l e => exact late 2 (by omega) h
  | finish o => cases o with
    | ok v => exact absurd h (by simp [abortHops])
    | error e => exact Or.inl h

theorem hops_down {b : Bool} {n a : Nat} (h : (if b then some (n + 1) else none) = some (a + 1)) :
    (if b then some n else none) = some a := by
  cases b with
  | false => exact absurd h (by simp)
  | true => simpa using h

theorem hops_up {b : Bool} {n p : Nat} (h : (if b then some n else none) = some p) :
    (if b then some (n + 1) else none) = some (p + 1) := by
  cases b with
  | false => exact absurd h (by simp)
  | true => simpa using h

theorem abortHops_pos {f : Job α} {a : Nat} (h : abortHops s f = some a) : 0 < a := by
  by_contra hz
  obtain rfl : a = 0 := by omega
  cases f with
  | subscribe i =>
    simp only [abortHops] at h
    split at h <;> simp at h
  | adopt i o => cases o <;> simp [abortHops] at h
  | caught i o => cases o <;> simp [abortHops] at h
  | raced i o => cases o <;> simp [abortHops] at h
  | ran l i o => cases o <;> simp [abortHops] at h
  | resume l i o => cases o <;> simp [abortHops] at h
  | laneReturned l => simp [abortHops] at h
  | laneThrew l e => simp [abortHops] at h
  | finish o => cases o <;> simp [abortHops] at h

/-- Once the call has settled only its last job can still abort the fan-out. -/
theorem abortHops_settled {f : Job α} {a : Nat} (hs : s.allSettled = true)
    (h : abortHops s f = some a) : a = 1 := by
  cases f with
  | subscribe i =>
    simp only [abortHops, hs] at h
    split at h <;> simp at h
  | adopt i o => cases o <;> simp [abortHops, hs] at h
  | caught i o => cases o <;> simp [abortHops, hs] at h
  | raced i o => cases o <;> simp [abortHops, hs] at h
  | ran l i o => cases o <;> simp [abortHops, hs] at h
  | resume l i o => cases o <;> simp [abortHops, hs] at h
  | laneReturned l => simp [abortHops] at h
  | laneThrew l e => simp [abortHops, hs] at h
  | finish o => cases o with
    | ok v => simp [abortHops] at h
    | error e => simpa [abortHops] using h.symm

/-! ## The lead is kept -/

/-- The failure at the head moves on, and still leads. -/
theorem AbortLeads.head {s' : FanOut α} {f' : Job α} {js : List (Job α)} {a : Nat}
    (hpost : ∀ j ∈ js, ∀ p, pullHops s j = some p → a + 1 ≤ p)
    (hmono : ∀ j p, pullHops s' j = some p → pullHops s j = some p)
    (hf' : abortHops s' f' = some a) : AbortLeads s' (js ++ [f']) := by
  refine ⟨js, f', [], a, rfl, hf', fun j hj p hp => ?_, by simp⟩
  have := hpost j hj p (hmono j p hp)
  omega

/-- A job before the leading failure runs: the failure still leads, if the job's successors carry
their values no faster. -/
theorem AbortLeads.tail {s' : FanOut α} {f : Job α} {pre post new : List (Job α)} {a : Nat}
    (hpre : Behind s a pre) (hpost : ∀ j ∈ post, ∀ p, pullHops s j = some p → a ≤ p)
    (hmono : ∀ j p, pullHops s' j = some p → pullHops s j = some p)
    (hf : abortHops s' f = some a) (hnew : ∀ j ∈ new, ∀ p, pullHops s' j = some p → a ≤ p) :
    AbortLeads s' (pre ++ f :: post ++ new) := by
  refine ⟨pre, f, post ++ new, a, by simp, hf, fun j hj p hp => hpre j hj p (hmono j p hp), ?_⟩
  intro j hj p hp
  rcases List.mem_append.1 hj with hj | hj
  · exact hpost j hj p (hmono j p hp)
  · exact hnew j hj p hp

/-- A new failure closer to the call takes the lead over. -/
theorem AbortLeads.switch {s' : FanOut α} {f f' : Job α} {pre post : List (Job α)} {a b : Nat}
    (hpre : Behind s a pre) (hpost : ∀ j ∈ post, ∀ p, pullHops s j = some p → a ≤ p)
    (hmono : ∀ j p, pullHops s' j = some p → pullHops s j = some p)
    (hf : pullHops s f = none) (hlt : b < a) (hf' : abortHops s' f' = some b) :
    AbortLeads s' (pre ++ f :: post ++ [f']) := by
  refine ⟨pre ++ f :: post, f', [], b, rfl, hf', fun j hj p hp => ?_, by simp⟩
  rcases List.mem_append.1 hj with hj | hj
  · have := hpre j hj p (hmono j p hp)
    omega
  · rcases List.mem_cons.1 hj with rfl | hj
    · have := hmono j p hp
      rw [hf] at this
      exact absurd this (by simp)
    · have := hpost j hj p (hmono j p hp)
      omega

/-- A failure carries no value. -/
theorem pullHops_of_abortHops {f : Job α} {a : Nat} (h : abortHops s f = some a) :
    pullHops s f = none := by
  cases f with
  | subscribe i =>
    simp only [abortHops] at h
    simp only [pullHops]
    cases hp : s.promiseOf i with
    | none => rfl
    | some o => cases o with
      | ok v => rw [hp] at h; exact absurd h (by simp)
      | error e => rfl
  | adopt i o => cases o <;> simp [abortHops, pullHops] at h ⊢
  | caught i o => cases o <;> simp [abortHops, pullHops] at h ⊢
  | raced i o => cases o <;> simp [abortHops, pullHops] at h ⊢
  | ran l i o => cases o <;> simp [abortHops, pullHops] at h ⊢
  | resume l i o => cases o <;> simp [abortHops, pullHops] at h ⊢
  | laneReturned l => rfl
  | laneThrew l e => rfl
  | finish o => rfl

/-- One job runs: `j` leaves the head of the queue and `new` joins its end. -/
theorem AbortLeads.run {s' : FanOut α} {j : Job α} {js new : List (Job α)}
    (h : AbortLeads s (j :: js))
    (hmono : ∀ k p, pullHops s' k = some p → pullHops s k = some p)
    (hhead : ∀ a, abortHops s j = some (a + 1) → ∃ f', new = [f'] ∧ abortHops s' f' = some a)
    (htail : ∀ f a, abortHops s f = some a → (∀ p, pullHops s j = some p → a < p) →
      (abortHops s' f = some a ∧ ∀ k ∈ new, ∀ p, pullHops s' k = some p → a ≤ p) ∨
        ∃ f' b, new = [f'] ∧ b < a ∧ abortHops s' f' = some b) :
    AbortLeads s' (js ++ new) := by
  obtain ⟨pre, f, post, a, heq, hf, hpre, hpost⟩ := h
  cases pre with
  | nil =>
    obtain ⟨rfl, rfl⟩ := List.cons.inj heq
    obtain ⟨b, rfl⟩ : ∃ b, a = b + 1 := ⟨a - 1, by have := abortHops_pos hf; omega⟩
    obtain ⟨f', rfl, hf'⟩ := hhead b hf
    exact .head hpost hmono hf'
  | cons k pre =>
    obtain ⟨rfl, rfl⟩ := List.cons.inj heq
    have hpre' : Behind s a pre := fun k hk => hpre k (List.mem_cons_of_mem _ hk)
    rcases htail f a hf (hpre j List.mem_cons_self) with ⟨hkeep, hnew⟩ | ⟨f', b, rfl, hlt, hf'⟩
    · exact .tail hpre' hpost hmono hkeep hnew
    · exact .switch hpre' hpost hmono (pullHops_of_abortHops hf) hlt hf'

/-- Hops depend on the open races, the promises and whether the call is settled. -/
theorem hops_congr (s s' : FanOut α) (hopen : ∀ i, s'.open? i = s.open? i)
    (hpromise : ∀ i, s'.promiseOf i = s.promiseOf i) (hset : s'.allSettled = s.allSettled) :
    abortHops s' = abortHops s ∧ pullHops s' = pullHops s := by
  constructor
  · funext j
    cases j with
    | subscribe i => simp only [abortHops, hopen, hpromise, hset]
    | adopt i o => cases o <;> simp only [abortHops, hopen, hset]
    | caught i o => cases o <;> simp only [abortHops, hopen, hset]
    | raced i o => cases o <;> simp only [abortHops, hopen, hset]
    | ran l i o => cases o <;> simp only [abortHops, hset]
    | resume l i o => cases o <;> simp only [abortHops, hset]
    | laneReturned l => rfl
    | laneThrew l e => simp only [abortHops, hset]
    | finish o => cases o <;> rfl
  · funext j
    cases j with
    | subscribe i => simp only [pullHops, hopen, hpromise]
    | adopt i o => cases o <;> simp only [pullHops, hopen]
    | caught i o => cases o <;> simp only [pullHops, hopen]
    | raced i o => cases o <;> simp only [pullHops, hopen]
    | ran l i o => cases o <;> rfl
    | resume l i o => cases o <;> rfl
    | laneReturned l => rfl
    | laneThrew l e => rfl
    | finish o => rfl

theorem promiseOf_update {i : Nat} {c : Call α} (c' : Call α) (hc : s.call i = some c)
    (hp : c'.promise = c.promise) (k : Nat) :
    (Function.update s.call i (some c') k).bind Call.promise = s.promiseOf k := by
  by_cases hk : k = i
  · subst hk
    simp [promiseOf, hc, hp]
  · simp [promiseOf, Function.update_of_ne hk]

theorem open_update {i : Nat} {c : Call α} (c' : Call α) (hc : s.call i = some c)
    (hr : c'.raced = c.raced) (k : Nat) :
    ((Function.update s.call i (some c') k).any fun c => !c.raced) = s.open? k := by
  by_cases hk : k = i
  · subst hk
    simp [open?, hc, hr]
  · simp [open?, Function.update_of_ne hk]

/-- The failure leads as before, and no collector was pulled. -/
def KeepsLead (s s' : FanOut α) : Prop :=
  AbortLeads s' s'.jobs ∧ s'.calls = s.calls ∧ s'.next = s.next

/-- A job that changes no race, no promise and not the end of the call only hands on what it
carries. -/
theorem AbortLeads.quiet {j : Job α} {js : List (Job α)} (h : AbortLeads s (j :: js))
    (s' : FanOut α) (new : List (Job α)) (ha : abortHops s' = abortHops s) (hp : pullHops s' = pullHops s)
    (hhead : ∀ a, abortHops s j = some (a + 1) → ∃ f', new = [f'] ∧ abortHops s f' = some a)
    (hnew : ∀ k ∈ new, ∀ p, pullHops s k = some p → pullHops s j = some (p + 1)) :
    AbortLeads s' (js ++ new) := by
  refine h.run (fun k p hk => hp ▸ hk) (fun a hja => ?_) (fun f a hf hahead => Or.inl ⟨?_, ?_⟩)
  · rw [ha]
    exact hhead a hja
  · rw [ha]
    exact hf
  · intro k hk p hkp
    have := hahead (p + 1) (hnew k hk p (hp ▸ hkp))
    omega

/-- A job that is dropped was not the failure in the lead. -/
theorem AbortLeads.dropped {j : Job α} {js : List (Job α)} (h : AbortLeads s (j :: js))
    (hj : abortHops s j = none) : KeepsLead s { s with jobs := js } := by
  refine ⟨?_, rfl, rfl⟩
  have := h.quiet { s with jobs := js } [] rfl rfl
    (fun a hja => by rw [hj] at hja; exact absurd hja (by simp)) (by simp)
  simpa using this

theorem subscribe_leads {i : Nat} {js : List (Job α)} (h : AbortLeads s (.subscribe i :: js)) :
    KeepsLead s (runJob cfg { s with jobs := js } (.subscribe i)) := by
  cases hc : s.call i with
  | none =>
    have hrun : runJob cfg { s with jobs := js } (.subscribe i) = { s with jobs := js } := by
      simp [runJob, hc]
    rw [hrun]
    exact h.dropped (by simp [abortHops, promiseOf, hc])
  | some c =>
    have hprom : s.promiseOf i = c.promise := by simp [promiseOf, hc]
    set new : List (Job α) := watchJobs i c.promise with hnew
    rw [runJob_subscribe (s := { s with jobs := js }) hc, ← hnew]
    obtain ⟨ha, hp⟩ := hops_congr s ({ s with
        call := Function.update s.call i (some { c with subscribed := true })
        jobs := js ++ new } : FanOut α) (open_update _ hc rfl) (promiseOf_update _ hc rfl) rfl
    refine ⟨h.quiet _ _ ha hp (fun a hja => ?_) (fun k hk p hkp => ?_), rfl, rfl⟩
    · cases hcp : c.promise with
      | none => simp [abortHops, hprom, hcp] at hja
      | some o =>
        cases o with
        | ok v => simp [abortHops, hprom, hcp] at hja
        | error e =>
          refine ⟨.adopt i (.error e), by simp [hnew, hcp, watchJobs], ?_⟩
          simp only [abortHops, hprom, hcp] at hja
          exact hops_down hja
    · cases hcp : c.promise with
      | none => simp [hnew, hcp, watchJobs] at hk
      | some o =>
        simp only [hnew, hcp, watchJobs, List.mem_singleton] at hk
        subst hk
        cases o with
        | error e => exact absurd hkp (by simp [pullHops])
        | ok v =>
          simp only [pullHops, hprom, hcp]
          exact hops_up hkp

theorem adopt_leads {i : Nat} {o : Except Thrown α} {js : List (Job α)}
    (h : AbortLeads s (.adopt i o :: js)) :
    KeepsLead s (runJob cfg { s with jobs := js } (.adopt i o)) := by
  refine ⟨h.quiet _ [.caught i o] rfl rfl (fun a hja => ⟨_, rfl, ?_⟩) (fun k hk p hkp => ?_),
    rfl, rfl⟩
  · cases o with
    | ok v => exact absurd hja (by simp [abortHops])
    | error e => exact hops_down hja
  · obtain rfl := List.mem_singleton.1 hk
    cases o with
    | ok v => exact hops_up hkp
    | error e => exact absurd hkp (by simp [pullHops])

theorem caught_leads {i : Nat} {o : Except Thrown α} {js : List (Job α)}
    (h : AbortLeads s (.caught i o :: js)) :
    KeepsLead s (runJob cfg { s with jobs := js } (.caught i o)) := by
  refine ⟨h.quiet _ [.raced i o] rfl rfl (fun a hja => ⟨_, rfl, ?_⟩) (fun k hk p hkp => ?_),
    rfl, rfl⟩
  · cases o with
    | ok v => exact absurd hja (by simp [abortHops])
    | error e => exact hops_down hja
  · obtain rfl := List.mem_singleton.1 hk
    cases o with
    | ok v => exact hops_up hkp
    | error e => exact absurd hkp (by simp [pullHops])

/-- A race that closes drops what the collector's other jobs carry: a value closes it only ahead of
the failure, and a failure that closes it takes the lead over if it overtakes. -/
theorem raced_leads {i : Nat} {o : Except Thrown α} {js : List (Job α)}
    (h : AbortLeads s (.raced i o :: js)) :
    KeepsLead s (runJob cfg { s with jobs := js } (.raced i o)) := by
  by_cases ho : s.open? i = true
  · obtain ⟨c, hc, hr⟩ : ∃ c, s.call i = some c ∧ c.raced = false := by
      simpa [open?, Option.any_eq_true] using ho
    have hrun : runJob cfg { s with jobs := js } (.raced i o) = { s with
        call := Function.update s.call i (some { c with raced := true })
        jobs := js ++ [.ran c.lane i o] } := by
      simp [runJob, hc, hr, setCall, push]
    rw [hrun]
    refine ⟨?_, rfl, rfl⟩
    set s' : FanOut α := { s with
        call := Function.update s.call i (some { c with raced := true })
        jobs := js ++ [.ran c.lane i o] } with hs'
    have hprom : ∀ k, s'.promiseOf k = s.promiseOf k := promiseOf_update _ hc rfl
    have hopen : ∀ k, s'.open? k = true → s.open? k = true := by
      intro k hk
      by_cases hki : k = i
      · rw [hki]
        exact ho
      · simpa [hs', open?, Function.update_of_ne hki] using hk
    refine h.run (fun k p => pullHops_mono hopen hprom) (fun a hja => ?_) (fun f a hf hahead => ?_)
    · cases o with
      | ok v => exact absurd hja (by simp [abortHops])
      | error e =>
        refine ⟨_, rfl, hops_down (b := !s.allSettled) ?_⟩
        simpa [abortHops, ho] using hja
    · have hkeep : abortHops s' f = some a ∨ 5 ≤ a :=
        abortHops_keep s' 5 hf hprom (fun _ _ => Or.inr le_rfl) Or.inl
      cases o with
      | ok v =>
        have ha : a < 3 := hahead 3 (by simp [pullHops, ho])
        refine Or.inl ⟨hkeep.resolve_right (by omega), fun k hk p hp => ?_⟩
        obtain rfl := List.mem_singleton.1 hk
        obtain rfl : 2 = p := by simpa [pullHops] using hp
        omega
      | error e =>
        rcases hkeep with hkeep | hkeep
        · refine Or.inl ⟨hkeep, fun k hk p hp => ?_⟩
          obtain rfl := List.mem_singleton.1 hk
          exact absurd hp (by simp [pullHops])
        · have hset : s.allSettled = false := by
            by_contra hset
            have := abortHops_settled (by simpa using hset) hf
            omega
          exact Or.inr ⟨_, 4, rfl, by omega, by simp [abortHops, hs', hset]⟩
  · have hrun : runJob cfg { s with jobs := js } (.raced i o) = { s with jobs := js } := by
      cases hc : s.call i with
      | none => simp [runJob, hc]
      | some c =>
        have hr : c.raced = true := by simpa [open?, hc] using ho
        simp [runJob, hc, hr]
    rw [hrun]
    exact h.dropped (by cases o <;> simp [abortHops, ho])

theorem ran_leads {l i : Nat} {o : Except Thrown α} {js : List (Job α)} {c : Call α}
    (h : AbortLeads s (.ran l i o :: js)) (hc : s.call i = some c) :
    KeepsLead s (runJob cfg { s with jobs := js } (.ran l i o)) := by
  have hrun : runJob cfg { s with jobs := js } (.ran l i o) = { s with
      call := Function.update s.call i (some { c with finished := true })
      jobs := js ++ [.resume l i o] } := by
    simp [runJob, hc, setCall, push]
  rw [hrun]
  obtain ⟨ha, hp⟩ := hops_congr s ({ s with
      call := Function.update s.call i (some { c with finished := true })
      jobs := js ++ [.resume l i o] } : FanOut α) (open_update _ hc rfl) (promiseOf_update _ hc rfl) rfl
  refine ⟨h.quiet _ _ ha hp (fun a hja => ⟨_, rfl, ?_⟩) (fun k hk p hkp => ?_), rfl, rfl⟩
  · cases o with
    | ok v => exact absurd hja (by simp [abortHops])
    | error e => exact hops_down hja
  · obtain rfl := List.mem_singleton.1 hk
    cases o with
    | ok v =>
      obtain rfl : 1 = p := by simpa [pullHops] using hkp
      rfl
    | error e => exact absurd hkp (by simp [pullHops])

/-- A value at its lane would have overtaken the failure. -/
theorem AbortLeads.not_resume {l i : Nat} {v : α} {js : List (Job α)}
    (h : AbortLeads s (.resume l i (.ok v) :: js)) : False := by
  obtain ⟨pre, f, post, a, heq, hf, hpre, _⟩ := h
  cases pre with
  | nil =>
    obtain ⟨rfl, rfl⟩ := List.cons.inj heq
    exact absurd hf (by simp [abortHops])
  | cons k pre =>
    obtain ⟨rfl, rfl⟩ := List.cons.inj heq
    have := abortHops_pos hf
    have := hpre (.resume l i (.ok v)) List.mem_cons_self 1 rfl
    omega

theorem resume_error_leads {l i : Nat} {e : Thrown} {js : List (Job α)}
    (h : AbortLeads s (.resume l i (.error e) :: js)) :
    KeepsLead s (runJob cfg { s with jobs := js } (.resume l i (.error e))) := by
  refine ⟨h.quiet _ [.laneThrew l e] rfl rfl (fun a hja => ⟨_, rfl, hops_down hja⟩)
    (fun k hk p hkp => ?_), rfl, rfl⟩
  obtain rfl := List.mem_singleton.1 hk
  exact absurd hkp (by simp [pullHops])

theorem laneThrew_leads {l : Nat} {e : Thrown} {js : List (Job α)}
    (h : AbortLeads s (.laneThrew l e :: js)) :
    KeepsLead s (runJob cfg { s with jobs := js } (.laneThrew l e)) := by
  by_cases hset : s.allSettled = true
  · have hrun : runJob cfg { s with jobs := js } (.laneThrew l e) = { s with jobs := js } := by
      simp only [runJob, if_pos hset]
    rw [hrun]
    exact h.dropped (by simp [abortHops, hset])
  · have hrun : runJob cfg { s with jobs := js } (.laneThrew l e) = { s with
        allSettled := true, jobs := js ++ [.finish (.error e)] } := by
      simp only [runJob, if_neg hset, push]
    rw [hrun]
    refine ⟨h.run (fun k p => pullHops_mono (fun _ hk => hk) fun _ => rfl) (fun a hja => ?_)
      (fun f a hf _ => ?_), rfl, rfl⟩
    · obtain rfl : a = 1 := by simpa [abortHops, hset] using hja
      exact ⟨_, rfl, rfl⟩
    · rcases abortHops_keep { s with
          allSettled := true, jobs := js ++ [.finish (.error e)] } 2 hf (fun _ => rfl)
          (fun _ ho => Or.inl ho) (fun _ => Or.inr le_rfl) with hkeep | hkeep
      · refine Or.inl ⟨hkeep, fun k hk p hp => ?_⟩
        obtain rfl := List.mem_singleton.1 hk
        exact absurd hp (by simp [pullHops])
      · exact Or.inr ⟨_, 1, rfl, by omega, rfl⟩

/-! ## Runs -/

/-- Nothing more will be invoked: the fan-out has aborted, or no collector is left, or a failure
leads. -/
def Doomed (cfg : FanOutConfig α) (s : FanOut α) : Prop :=
  s.aborted.isSome = true ∨ s.next = cfg.count ∨ s.started = cfg.lanes ∧ AbortLeads s s.jobs

/-- While a failure leads and a collector is left, a job either aborts the fan-out or keeps the lead,
and pulls nothing. -/
theorem job_leads {j : Job α} {js : List (Job α)} (hpos : 0 < cfg.limits.concurrency)
    (h : Inv cfg s) (hj : s.jobs = j :: js) (hlt : s.next < cfg.count) (hlead : AbortLeads s s.jobs) :
    (runJob cfg { s with jobs := js } j).aborted.isSome = true ∧
        (runJob cfg { s with jobs := js } j).calls = s.calls ∨
      KeepsLead s (runJob cfg { s with jobs := js } j) := by
  rw [hj] at hlead
  cases j with
  | subscribe i => exact Or.inr (subscribe_leads hlead)
  | adopt i o => exact Or.inr (adopt_leads hlead)
  | caught i o => exact Or.inr (caught_leads hlead)
  | raced i o => exact Or.inr (raced_leads hlead)
  | ran l i o =>
    obtain ⟨c, hc, _⟩ := h.carrying.jobOk (.ran l i o) (by rw [hj]; exact List.mem_cons_self)
    exact Or.inr (ran_leads hlead hc)
  | resume l i o =>
    cases o with
    | ok v => exact hlead.not_resume.elim
    | error e => exact Or.inr (resume_error_leads hlead)
  | laneReturned l =>
    have := (h.wired.returning hj).2.1
    omega
  | laneThrew l e => exact Or.inr (laneThrew_leads hlead)
  | finish o =>
    cases o with
    | ok u =>
      have hall := h.carrying.jobOk (.finish (.ok u)) (by rw [hj]; exact List.mem_cons_self) rfl
      have hlanes : 0 < cfg.lanes := by
        simp only [FanOutConfig.lanes]
        omega
      have := h.wired.laneOk 0
      rw [LaneOk, hall 0 hlanes] at this
      omega
    | error e =>
      left
      simp only [runJob, abort]
      split <;> simp_all

/-- A collector that is invoked and fails at once brings no queued job closer to its lane. -/
theorem pullHops_pulled {s' : FanOut α} {n p : Nat} {j : Job α} (hcall : s.call n = none)
    (hother : ∀ i, i ≠ n → s'.call i = s.call i) (hn : ∀ v, s'.promiseOf n ≠ some (.ok v))
    (hok : JobOk cfg s j) (h : pullHops s' j = some p) : pullHops s j = some p := by
  have hopen : ∀ i, (∃ c, s.call i = some c) → s'.open? i = s.open? i := by
    rintro i ⟨c, hc⟩
    have hi : i ≠ n := by
      rintro rfl
      rw [hcall] at hc
      exact absurd hc (by simp)
    rw [open?, open?, hother i hi]
  cases j with
  | subscribe i =>
    by_cases hi : i = n
    · subst hi
      simp only [pullHops] at h
      cases hp : s'.promiseOf i with
      | none => simp at h
      | some o => cases o with
        | ok v => exact absurd hp (hn v)
        | error e => simp at h
    · simp only [pullHops, open?, promiseOf, hother i hi] at h
      exact h
  | adopt i o => cases o with
    | ok v =>
      obtain ⟨c, hc, _⟩ := hok
      simpa only [pullHops, hopen i ⟨c, hc⟩] using h
    | error e => exact absurd h (by simp [pullHops])
  | caught i o => cases o with
    | ok v =>
      obtain ⟨c, hc, _⟩ := hok
      simpa only [pullHops, hopen i ⟨c, hc⟩] using h
    | error e => exact absurd h (by simp [pullHops])
  | raced i o => cases o with
    | ok v =>
      obtain ⟨c, hc, _⟩ := hok
      simpa only [pullHops, hopen i ⟨c, hc⟩] using h
    | error e => exact absurd h (by simp [pullHops])
  | ran l i o => cases o <;> exact h
  | resume l i o => cases o <;> exact h
  | laneReturned l => exact h
  | laneThrew l e => exact h
  | finish o => exact h

/-- The lane invokes a collector that throws at once: its failure leads, if no value is on its way. -/
theorem pull_throws {l : Nat} {e : Thrown} (ha : s.aborted = none) (hset : s.allSettled = false)
    (hlt : s.next < cfg.count) (he : cfg.atOnce s.next = some (.error e))
    (hquiet : ∀ j ∈ s.jobs, pullHops s j = none) (hok : ∀ j ∈ s.jobs, JobOk cfg s j)
    (hcall : s.call s.next = none) : AbortLeads (pull cfg s l) (pull cfg s l).jobs := by
  rw [pull_invoked hlt ha, he]
  refine ⟨s.jobs, .caught s.next (.error e), [], 6, rfl, ?_, fun j hj p hp => ?_, by simp⟩
  · simp [abortHops, open?, hset]
  · have := pullHops_pulled hcall (fun i hi => Function.update_of_ne hi _ _)
      (fun v => by simp [promiseOf]) (hok j hj) hp
    rw [hquiet j hj] at this
    exact absurd this (by simp)

theorem abort_isSome (s : FanOut α) (e : Thrown) : (s.abort e).aborted.isSome = true := by
  rw [abort]
  split
  · assumption
  · rfl

theorem next_le_step {e : FanOutEvent α} {s' : FanOut α} (hs : step cfg s e = some s') :
    s.next ≤ s'.next := by
  rcases (step_turn hs).invokes with ⟨_, hn⟩ | ⟨_, _, _, hn⟩ <;> omega

theorem AbortLeads.exists_failure {jobs : List (Job α)} (h : AbortLeads s jobs) :
    ∃ f a, f ∈ jobs ∧ abortHops s f = some a := by
  obtain ⟨pre, f, post, a, rfl, hf, _, _⟩ := h
  exact ⟨f, a, by simp, hf⟩

/-- What a settled collector leaves: its promise, and the job that carries it if anyone listens. -/
theorem settle_eq {i : Nat} {o : Except Thrown α} {c : Call α} {s' : FanOut α}
    (hc : s.call i = some c) (hs : step cfg s (.settle i o) = some s') :
    s' = (s.setCall i { c with promise := some o }).push
      (if c.subscribed then [.adopt i o] else []) := by
  cases hp : c.promise with
  | some p => simp [step, hc, hp] at hs
  | none =>
    simp only [step, hc, hp, Option.isSome_none, Bool.false_eq_true, if_false,
      Option.some.injEq] at hs
    rw [← hs]
    by_cases hsub : c.subscribed = true <;> simp [hsub, push]

theorem settle_leads {i : Nat} {o : Except Thrown α} {c : Call α} {s' : FanOut α}
    (hc : s.call i = some c) (hs : step cfg s (.settle i o) = some s')
    (h : s.started = cfg.lanes ∧ ∀ c, s.call i = some c →
      AbortLeads (s.setCall i { c with promise := some o })
        (s.jobs ++ if c.subscribed then [.adopt i o] else [])) :
    s'.started = cfg.lanes ∧ AbortLeads s' s'.jobs := by
  obtain rfl := settle_eq hc hs
  exact ⟨h.1, h.2 c hc⟩

/-- A lane that invokes a collector which throws at once dooms the fan-out, if that was the last
collector or no value is on its way. -/
theorem pull_doomed {l : Nat} {e : Thrown} (ha : s.aborted = none)
    (hset : s.next < cfg.count → s.allSettled = false) (hlast : (pull cfg s l).next ≤ cfg.count)
    (he : cfg.atOnce s.next = some (.error e)) (hcall : s.call s.next = none)
    (hok : ∀ j ∈ s.jobs, JobOk cfg s j)
    (h : cfg.count ≤ s.next + 1 ∨ s.started = cfg.lanes ∧ ∀ j ∈ s.jobs, pullHops s j = none) :
    Doomed cfg (pull cfg s l) := by
  by_cases hlt : s.next < cfg.count
  · rcases h with hn | ⟨hst, hquiet⟩
    · have hnext : (pull cfg s l).next = s.next + 1 := by rw [pull_invoked hlt ha]
      exact Or.inr (Or.inl (by omega))
    · refine Or.inr (Or.inr ⟨?_, pull_throws ha (hset hlt) hlt he hquiet hok hcall⟩)
      rw [pull_started]
      exact hst
  · have hnext : (pull cfg s l).next = s.next := by rw [pull_returned hlt]
    exact Or.inr (Or.inl (by omega))

/-- A fan-out in which nothing has failed either stays so, or is doomed by the step that fails. -/
theorem smooth_step {e : FanOutEvent α} {s' : FanOut α} (hi : Inv cfg s) (h : Smooth cfg s)
    (hg : KeepsOrder cfg s e) (hs : step cfg s e = some s') : Smooth cfg s' ∨ Doomed cfg s' := by
  by_cases hwell : GoesWell cfg s e
  · exact Or.inl (step_smooth hi h hwell hs)
  right
  have hset : s.next < cfg.count → s.allSettled = false := fun hlt => by
    by_contra hset
    have := h.settled (by simpa using hset)
    omega
  have hcall : s.call s.next = none := by
    by_contra hne
    obtain ⟨c, hc⟩ := Option.ne_none_iff_exists'.1 hne
    exact absurd (hi.wired.call_lt _ c hc) (lt_irrefl _)
  have hlast := (step_inv hi hs).wired.next_le
  cases e with
  | startLane =>
    obtain ⟨e, he⟩ : ∃ e, cfg.atOnce s.next = some (.error e) := by simpa [GoesWell] using hwell
    simp only [step, Option.ite_none_right_eq_some, Option.some.injEq] at hs
    obtain ⟨hst, rfl⟩ := hs
    refine pull_doomed (s := { s with started := s.started + 1 }) h.aborted hset hlast he hcall
      hi.carrying.jobOk ?_
    rcases hg e he with ha | hn | ⟨hst', hquiet⟩
    · rw [h.aborted] at ha
      exact absurd ha (by simp)
    · exact Or.inl hn
    · exact Or.inr ⟨hst', hquiet⟩
  | job =>
    simp only [GoesWell, not_forall, Classical.not_not] at hwell
    obtain ⟨e, he, l, i, v, js, hj⟩ := hwell
    simp only [step, hj, Option.ite_none_right_eq_some, Option.some.injEq] at hs
    obtain ⟨hst, rfl⟩ := hs
    refine pull_doomed (s := { s with jobs := js, results := Function.update s.results i (some v) })
      h.aborted hset hlast he hcall
      (fun k hk => hi.carrying.jobOk k (by rw [hj]; exact List.mem_cons_of_mem _ hk)) ?_
    rcases hg e he with ha | hn | hquiet
    · rw [h.aborted] at ha
      exact absurd ha (by simp)
    · exact Or.inl hn
    · exact Or.inr ⟨hst, hquiet l i v js hj⟩
  | settle i o =>
    cases hc : s.call i with
    | none => simp [step, hc] at hs
    | some c =>
      rcases hg with ha | hn | ⟨_, hv⟩ | hlead
      · rw [h.aborted] at ha
        exact absurd ha (by simp)
      · exact Or.inr (Or.inl (le_antisymm hlast (hn ▸ next_le_step hs)))
      · exact absurd hv hwell
      · exact Or.inr (Or.inr (settle_leads hc hs hlead))
  | timeout i =>
    cases hc : s.call i with
    | none => simp [step, hc] at hs
    | some c =>
      simp only [step, hc, Option.ite_none_right_eq_some, Option.some.injEq] at hs
      obtain ⟨⟨hst, hjobs, hf, hown⟩, rfl⟩ := hs
      by_cases hlt : s.next < cfg.count
      · have hjobs : s.jobs = [] := by simpa using hjobs
        have hraced := (idle_racing hi.wired hjobs hc hf).1
        refine Or.inr (Or.inr ⟨hst, [], .raced i (.error (cfg.expired i)), [], 5, ?_, ?_, ?_, by simp⟩)
        · simp [push, setCall, hjobs]
        · simp [abortHops, open?, push, setCall, hraced, hset hlt]
        · intro j hj
          exact absurd hj (by simp)
      · exact Or.inr (Or.inl (le_antisymm hlast (not_lt.1 hlt)))
  | deadline =>
    simp only [step, Option.ite_none_right_eq_some, Option.some.injEq] at hs
    obtain ⟨_, rfl⟩ := hs
    exact Or.inl (abort_isSome _ _)
  | callerAbort r =>
    simp only [step, Option.some.injEq] at hs
    have hout : s.outcome.isNone = true := by simpa [GoesWell] using hwell
    rw [← hs, if_pos hout]
    exact Or.inl (abort_isSome _ _)

/-- A doomed fan-out stays doomed and invokes nothing more. -/
theorem doomed_step {e : FanOutEvent α} {s' : FanOut α} (hpos : 0 < cfg.limits.concurrency)
    (hi : Inv cfg s) (h : Doomed cfg s) (hg : KeepsOrder cfg s e) (hs : step cfg s e = some s') :
    Doomed cfg s' ∧ s'.calls = s.calls := by
  have hturn := step_turn hs
  have hlast := (step_inv hi hs).wired.next_le
  rcases h with ha | hn | ⟨hst, hlead⟩
  · obtain ⟨hc, ha'⟩ := step_aborted ha hs
    exact ⟨Or.inl (by rw [ha']; exact ha), hc⟩
  · refine ⟨Or.inr (Or.inl (le_antisymm hlast (hn ▸ next_le_step hs))), ?_⟩
    rcases hturn.invokes with ⟨hc, _⟩ | ⟨_, hlt, _⟩
    · exact hc
    · omega
  by_cases hlt : s.next < cfg.count
  · obtain ⟨f, a, hmem, hf⟩ := hlead.exists_failure
    cases e with
    | startLane =>
      simp only [step, Option.ite_none_right_eq_some] at hs
      omega
    | job =>
      cases hj : s.jobs with
      | nil => rw [hj] at hmem; exact absurd hmem (by simp)
      | cons j js =>
        simp only [step, hj, Option.ite_none_right_eq_some, Option.some.injEq] at hs
        obtain ⟨_, rfl⟩ := hs
        rcases job_leads hpos hi hj hlt hlead with ⟨ha, hc⟩ | ⟨hl, hc, _⟩
        · exact ⟨Or.inl ha, hc⟩
        · refine ⟨Or.inr (Or.inr ⟨?_, hl⟩), hc⟩
          rw [runJob_started]
          exact hst
    | settle i o =>
      cases hc : s.call i with
      | none => simp [step, hc] at hs
      | some c =>
        have hcalls : s'.calls = s.calls := by
          rcases hturn.invokes with ⟨hcs, _⟩ | ⟨_, _, _, hn⟩
          · exact hcs
          · obtain rfl := settle_eq hc hs
            exact absurd hn (by simp [setCall, push])
        refine ⟨?_, hcalls⟩
        rcases hg with ha | hn | ⟨hno, _⟩ | hlead'
        · exact Or.inl (by rw [hturn.aborted ha]; exact ha)
        · omega
        · rw [hno f hmem] at hf
          exact absurd hf (by simp)
        · exact Or.inr (Or.inr (settle_leads hc hs hlead'))
    | timeout i =>
      cases hc : s.call i with
      | none => simp [step, hc] at hs
      | some c =>
        simp only [step, hc, Option.ite_none_right_eq_some] at hs
        have hjobs : s.jobs = [] := by simpa using hs.1.2.1
        rw [hjobs] at hmem
        exact absurd hmem (by simp)
    | deadline =>
      simp only [step, Option.ite_none_right_eq_some] at hs
      have hjobs : s.jobs = [] := by simpa using hs.1.2.1
      rw [hjobs] at hmem
      exact absurd hmem (by simp)
    | callerAbort r =>
      simp only [step, Option.some.injEq] at hs
      rw [← hs]
      split
      · exact ⟨Or.inl (abort_isSome _ _), (abort_sameLanes s r).calls⟩
      · exact ⟨Or.inr (Or.inr ⟨hst, hlead⟩), rfl⟩
  · refine ⟨Or.inr (Or.inl (le_antisymm hlast (le_trans (not_lt.1 hlt) (next_le_step hs)))), ?_⟩
    rcases hturn.invokes with ⟨hc, _⟩ | ⟨_, hlt', _⟩
    · exact hc
    · exact absurd hlt' hlt

theorem run_smooth_or_doomed {caller : Option Thrown} {es : List (FanOutEvent α)}
    (hpos : 0 < cfg.limits.concurrency)
    (hg : ∀ a e b, Machine.Occurs (step cfg) (start cfg caller) es a e b → KeepsOrder cfg a e)
    (h : Machine.run (step cfg) (start cfg caller) es = some s) :
    Inv cfg s ∧ (Smooth cfg s ∨ Doomed cfg s) := by
  refine Machine.run_invariant_of_guard (I := fun s => Inv cfg s ∧ (Smooth cfg s ∨ Doomed cfg s))
    (G := KeepsOrder cfg) ?_ ⟨start_inv cfg caller hpos, ?_⟩ hg h
  · rintro a e b ⟨hi, hsm | hd⟩ hk hs
    · exact ⟨step_inv hi hs, smooth_step hi hsm hk hs⟩
    · exact ⟨step_inv hi hs, Or.inr (doomed_step hpos hi hd hk hs).1⟩
  · cases caller with
    | none => exact Or.inl (start_smooth cfg)
    | some r =>
      by_cases hn : cfg.count = 0
      · exact Or.inr (Or.inr (Or.inl (by simp [start, hn])))
      · exact Or.inr (Or.inl (by simp [start, hn]))

/-- In a run whose steps let no value overtake a failure, a lost fan-out invokes nothing more. -/
theorem lost_invokes_nothing (cfg : FanOutConfig α) (hpos : 0 < cfg.limits.concurrency)
    (caller : Option Thrown) (es fs : List (FanOutEvent α)) (s t : FanOut α)
    (hg : ∀ a e b, Machine.Occurs (step cfg) (start cfg caller) (es ++ fs) a e b → KeepsOrder cfg a e)
    (hs : Machine.run (step cfg) (start cfg caller) es = some s) (hlost : s.Lost)
    (ht : Machine.run (step cfg) s fs = some t) : t.calls = s.calls := by
  obtain ⟨hi, hsm | hd⟩ := run_smooth_or_doomed hpos (fun a e b h => hg a e b (h.append fs)) hs
  · exact absurd hlost hsm.kept
  · refine (Machine.run_invariant_of_guard
      (I := fun u => Inv cfg u ∧ Doomed cfg u ∧ u.calls = s.calls) (G := KeepsOrder cfg) ?_
      ⟨hi, hd, rfl⟩ (fun a e b h => hg a e b (h.after hs)) ht).2.2
    rintro a e b ⟨hia, hda, hca⟩ hk he
    obtain ⟨hdb, hcb⟩ := doomed_step hpos hia hda hk he
    exact ⟨step_inv hia he, hdb, hcb.trans hca⟩

/-- What a store throws. -/
def outage : Thrown := (.other (.str (js "ECONNRESET")))

/-- The event settles a collector. -/
def isSettle : FanOutEvent α → Bool
  | .settle _ _ => true
  | _ => false

/-- The first of three collectors rejects while the second is still out. -/
theorem lost_invokes_nothing_three : ∃ s t,
    Machine.run (step threeCollectors) (start threeCollectors none)
      [.startLane, .startLane, .job, .job, .settle 0 (.error outage)] = some s ∧
    Machine.run (step threeCollectors) s (List.replicate 7 .job) = some t ∧
    t.aborted.isSome = true ∧ t.calls = s.calls := by
  obtain ⟨s, t, hs, hlost, ht, ha⟩ : ∃ s t,
      Machine.run (step threeCollectors) (start threeCollectors none)
        [.startLane, .startLane, .job, .job, .settle 0 (.error outage)] = some s ∧
      (∃ c, s.call 0 = some c ∧ c.promise = some (.error outage)) ∧
      Machine.run (step threeCollectors) s (List.replicate 7 .job) = some t ∧
      t.aborted.isSome = true := ⟨_, _, rfl, ⟨_, rfl, rfl⟩, rfl, rfl⟩
  obtain ⟨c, hc, hp⟩ := hlost
  refine ⟨s, t, hs, ht, ha, lost_invokes_nothing threeCollectors (by decide) none _ _ s t ?_ hs
    ⟨0, c, hc, Or.inr ⟨_, hp⟩⟩ ht⟩
  intro a e b hstep
  cases e with
  | startLane => exact fun e he => absurd he (by simp [threeCollectors])
  | job => exact fun e he => absurd he (by simp [threeCollectors])
  | settle i o =>
    -- the run settles one collector, in a state whose queue is empty
    have hmem := (List.mem_filter (p := fun x => isSettle x.2)).2 ⟨hstep.mem_trace, rfl⟩
    obtain ⟨rfl, heq⟩ := Prod.mk.injEq .. ▸ List.mem_singleton.1 hmem
    obtain ⟨rfl, rfl⟩ := FanOutEvent.settle.injEq .. ▸ heq
    refine Or.inr (Or.inr (Or.inr ⟨rfl, fun c hc => ?_⟩))
    obtain rfl := Option.some.inj hc
    exact ⟨[], .adopt 0 (.error outage), [], 7, rfl, rfl, by simp [Behind], by simp⟩
  | timeout i => trivial
  | deadline => trivial
  | callerAbort r => trivial

/-- A collector rejects and another resolves in the same turn: the value reaches its lane two jobs
before the failure reaches the call, and the third collector is invoked. -/
theorem lost_fan_out_invokes : ∃ es fs s t,
    Machine.run (step threeCollectors) (start threeCollectors none) es = some s ∧ s.Lost ∧
    Machine.run (step threeCollectors) s fs = some t ∧ t.calls ≠ s.calls := by
  obtain ⟨s, t, hs, ⟨c, hc, hp⟩, ht, hne⟩ : ∃ s t,
      Machine.run (step threeCollectors) (start threeCollectors none)
        [.startLane, .startLane, .job, .job, .settle 0 (.error outage), .settle 1 (.ok 7)] = some s ∧
      (∃ c, s.call 0 = some c ∧ c.promise = some (.error outage)) ∧
      Machine.run (step threeCollectors) s (List.replicate 10 .job) = some t ∧
      s.calls = [0, 1] ∧ t.calls = [0, 1, 2] := ⟨_, _, rfl, ⟨_, rfl, rfl⟩, rfl, rfl, rfl⟩
  refine ⟨_, _, s, t, hs, ⟨0, c, hc, Or.inr ⟨_, hp⟩⟩, ht, ?_⟩
  rw [hne.1, hne.2]
  decide

end FanOut

end PolicyVerifier.Core
