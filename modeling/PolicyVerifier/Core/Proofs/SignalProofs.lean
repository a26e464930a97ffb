import PolicyVerifier.Core.Proofs.FanOutProofs

/-!
# The signals of a fan-out

A race is over only when its collector has answered or its signal has aborted. So once a fan-out has
aborted, the signal of every collector still in flight has aborted too.
-/

namespace PolicyVerifier.Core

variable {α : Type}

namespace FanOut

variable {cfg : FanOutConfig α} {s s' : FanOut α}

/-- The collector has answered, or its signal has aborted. -/
def Over (s : FanOut α) (i : Nat) : Prop :=
  ∃ c, s.call i = some c ∧ (c.promise.isSome = true ∨ c.own.isSome = true)

/-- No invoked collector loses its answer or its abort. -/
def Forth (s s' : FanOut α) : Prop :=
  ∀ i c, s.call i = some c → ∃ c', s'.call i = some c' ∧
    (c.promise.isSome = true → c'.promise.isSome = true) ∧
    (c.own.isSome = true → c'.own.isSome = true)

/-- What has raced, and what is about to, is over. -/
structure Signalled (s : FanOut α) : Prop where
  raced : ∀ i c, s.call i = some c → c.raced = true → s.Over i
  racing : ∀ i o, .raced i o ∈ s.jobs → s.Over i

theorem Forth.refl (s : FanOut α) : Forth s s := fun _ c hc => ⟨c, hc, id, id⟩

theorem Forth.of_call (h : s'.call = s.call) : Forth s s' :=
  fun _ c hc => ⟨c, by rw [h]; exact hc, id, id⟩

theorem Forth.over (h : Forth s s') {i : Nat} (ho : s.Over i) : s'.Over i := by
  obtain ⟨c, hc, hor⟩ := ho
  obtain ⟨c', hc', hp, hown⟩ := h i c hc
  exact ⟨c', hc', hor.imp hp hown⟩

/-- One call is replaced by one that keeps its answer and its abort. -/
theorem Forth.of_update {i : Nat} {c : Call α} (c' : Call α) (hc : s.call i = some c)
    (hp : c.promise.isSome = true → c'.promise.isSome = true)
    (ho : c.own.isSome = true → c'.own.isSome = true)
    (hcall : s'.call = Function.update s.call i (some c')) : Forth s s' := by
  intro k d hd
  rw [hcall, Function.update_apply]
  by_cases hk : k = i
  · subst hk
    obtain rfl := Option.some.inj (hc.symm.trans hd)
    exact ⟨c', by simp, hp, ho⟩
  · exact ⟨d, by rw [if_neg hk]; exact hd, id, id⟩

/-- A step keeps the signals, when what has newly raced and what newly races is over. -/
theorem Signalled.step (h : Signalled s) (hforth : Forth s s')
    (hraced : ∀ i c', s'.call i = some c' → c'.raced = true →
      (∃ c, s.call i = some c ∧ c.raced = true) ∨ s'.Over i)
    (hracing : ∀ i o, .raced i o ∈ s'.jobs → .raced i o ∈ s.jobs ∨ s'.Over i) : Signalled s' where
  raced i c' hc' hr := by
    rcases hraced i c' hc' hr with ⟨c, hc, hcr⟩ | ho
    · exact hforth.over (h.raced i c hc hcr)
    · exact ho
  racing i o hj := by
    rcases hracing i o hj with hj | ho
    · exact hforth.over (h.racing i o hj)
    · exact ho

/-- The calls stand, and no race joins the queue. -/
theorem Signalled.of_call (h : Signalled s) (hcall : s'.call = s.call)
    (hjobs : ∀ i o, .raced i o ∈ s'.jobs → .raced i o ∈ s.jobs) : Signalled s' :=
  h.step (.of_call hcall) (fun _ c' hc' hr => Or.inl ⟨c', hcall ▸ hc', hr⟩)
    fun i o hj => Or.inl (hjobs i o hj)

/-- One call is replaced by one that has raced no more than it. -/
theorem Signalled.of_update {i : Nat} {c : Call α} (c' : Call α) (h : Signalled s)
    (hc : s.call i = some c) (hp : c.promise.isSome = true → c'.promise.isSome = true)
    (ho : c.own.isSome = true → c'.own.isSome = true) (hr : c'.raced = true → c.raced = true)
    (hcall : s'.call = Function.update s.call i (some c'))
    (hjobs : ∀ k o, .raced k o ∈ s'.jobs → .raced k o ∈ s.jobs ∨ s'.Over k) : Signalled s' := by
  refine h.step (.of_update c' hc hp ho hcall) (fun k d hd hdr => Or.inl ?_) hjobs
  rw [hcall, Function.update_apply] at hd
  by_cases hk : k = i
  · subst hk
    rw [if_pos rfl] at hd
    obtain rfl := Option.some.inj hd
    exact ⟨c, hc, hr hdr⟩
  · exact ⟨d, by rwa [if_neg hk] at hd, hdr⟩

theorem mem_append_of_not_raced {js new : List (Job α)} {i : Nat} {o : Except Thrown α}
    (hnew : ∀ j ∈ new, ∀ i o, j ≠ .raced i o) (h : Job.raced i o ∈ js ++ new) :
    Job.raced i o ∈ js := by
  rcases List.mem_append.1 h with h | h
  · exact h
  · exact absurd rfl (hnew _ h i o)

theorem pull_signals (l : Nat) (hnext : s.call s.next = none) (h : Signalled s) :
    Signalled (pull cfg s l) ∧ Forth s (pull cfg s l) := by
  by_cases hlt : s.next < cfg.count
  · cases ha : s.aborted with
    | some reason =>
      rw [pull_refused hlt ha]
      exact ⟨h.of_call rfl fun i o hj => mem_append_of_not_raced (by simp) hj, .of_call rfl⟩
    | none =>
      set new : List (Job α) := invokedJobs s.next (cfg.atOnce s.next) with hnew
      rw [pull_invoked hlt ha, ← hnew]
      have hforth : Forth s { s with
          next := s.next + 1
          lane := Function.update s.lane l (.waiting s.next)
          call := Function.update s.call s.next (some { lane := l, promise := cfg.atOnce s.next })
          calls := s.calls ++ [s.next]
          jobs := s.jobs ++ new } := by
        intro i c hc
        have hi : i ≠ s.next := by
          rintro rfl
          rw [hnext] at hc
          exact absurd hc (by simp)
        exact ⟨c, by simp [Function.update_of_ne hi, hc], id, id⟩
      refine ⟨h.step hforth (fun i c' hc' hr => Or.inl ?_) fun i o hj => Or.inl ?_, hforth⟩
      · by_cases hi : i = s.next
        · subst hi
          simp only [Function.update_self, Option.some.injEq] at hc'
          subst hc'
          exact absurd hr (by simp)
        · exact ⟨c', by simpa [Function.update_of_ne hi] using hc', hr⟩
      · refine mem_append_of_not_raced (fun j hj => ?_) hj
        cases hao : cfg.atOnce s.next <;> simp only [hnew, hao, invokedJobs, List.mem_singleton] at hj <;>
          rw [hj] <;> simp
  · rw [pull_returned hlt]
    exact ⟨h.of_call rfl fun i o hj => mem_append_of_not_raced (by simp) hj, .of_call rfl⟩

theorem abort_signals (e : Thrown) (h : Signalled s) :
    Signalled (s.abort e) ∧ Forth s (s.abort e) := by
  by_cases ha : s.aborted.isSome = true
  · rw [abort_aborted s e ha]
    exact ⟨h, .refl s⟩
  · rw [abort, if_neg ha]
    have hforth : Forth s { s with
        aborted := some e
        call := fun i => if s.listens i then (s.call i).map ({ · with own := some e }) else s.call i
        jobs := s.jobs ++ ((List.range s.next).filter s.listens).map (.raced · (.error e)) } := by
      intro i c hc
      by_cases hl : s.listens i = true
      · exact ⟨{ c with own := some e }, by simp [hl, hc], id, fun _ => rfl⟩
      · exact ⟨c, by simp [hl, hc], id, id⟩
    refine ⟨h.step hforth (fun i c' hc' hr => Or.inl ?_) fun i o hj => ?_, hforth⟩
    · by_cases hl : s.listens i = true
      · simp only [hl, if_true] at hc'
        obtain ⟨c, hc, rfl⟩ := Option.map_eq_some_iff.1 hc'
        exact ⟨c, hc, hr⟩
      · exact ⟨c', by simpa [hl] using hc', hr⟩
    · rcases List.mem_append.1 hj with hj | hj
      · exact Or.inl hj
      · obtain ⟨k, hk, heq⟩ := List.mem_map.1 hj
        obtain ⟨rfl, -⟩ := Job.raced.injEq .. ▸ heq
        have hl : s.listens k = true := (List.mem_filter.1 hk).2
        obtain ⟨c, hc, _⟩ := (listens_iff k).1 hl
        exact Or.inr ⟨{ c with own := some e }, by simp [hl, hc], Or.inr rfl⟩

theorem job_signals {j : Job α} {js : List (Job α)} (hi : Inv cfg s) (h : Signalled s)
    (hj : s.jobs = j :: js) : Signalled (runJob cfg { s with jobs := js } j) ∧
      Forth s (runJob cfg { s with jobs := js } j) := by
  have hmem : ∀ {k}, k ∈ js → k ∈ s.jobs := fun hk => by rw [hj]; exact List.mem_cons_of_mem _ hk
  have hhead : j ∈ s.jobs := by rw [hj]; exact List.mem_cons_self
  have hok := hi.carrying.jobOk j hhead
  have keep : ∀ (s' : FanOut α) (new : List (Job α)), s'.call = s.call → s'.jobs = js ++ new →
      (∀ j ∈ new, ∀ i o, j ≠ .raced i o) → Signalled s' ∧ Forth s s' := by
    intro s' new hcall hjobs hnew
    refine ⟨h.of_call hcall fun i o hk => hmem ?_, .of_call hcall⟩
    rw [hjobs] at hk
    exact mem_append_of_not_raced hnew hk
  have hrun := runJob_cases cfg { s with jobs := js } j
  generalize runJob cfg { s with jobs := js } j = s' at hrun ⊢
  cases hrun with
  | watched i c hc =>
    refine ⟨h.of_update { c with subscribed := true } hc id id id rfl fun k o hk =>
      Or.inl (hmem ?_), .of_update { c with subscribed := true } hc id id rfl⟩
    refine mem_append_of_not_raced (fun j hj => ?_) hk
    cases hp : c.promise with
    | none => simp [hp, watchJobs] at hj
    | some o =>
      simp only [hp, watchJobs, List.mem_singleton] at hj
      rw [hj]
      simp
  | adopted i o => exact keep _ [.caught i o] rfl rfl (by simp)
  | caught i o =>
    obtain ⟨c, hc, hp⟩ := hok
    refine ⟨h.step (.of_call rfl) (fun i c' hc' hr => Or.inl ⟨c', hc', hr⟩) fun k q hk => ?_,
      .of_call rfl⟩
    rcases List.mem_append.1 hk with hk | hk
    · exact Or.inl (hmem hk)
    · obtain ⟨rfl, -⟩ := Job.raced.injEq .. ▸ List.mem_singleton.1 hk
      exact Or.inr ⟨c, hc, Or.inl (by simp [hp])⟩
  | raced i o c hc hr =>
    have hforth : Forth s { s with
        call := Function.update s.call i (some { c with raced := true })
        jobs := js ++ [.ran c.lane i o] } := .of_update { c with raced := true } hc id id rfl
    refine ⟨h.step hforth (fun k d hd hdr => ?_) fun k q hk => Or.inl (hmem ?_), hforth⟩
    · by_cases hk : k = i
      · subst hk
        exact Or.inr (hforth.over (h.racing k o hhead))
      · exact Or.inl ⟨d, by simpa [Function.update_of_ne hk] using hd, hdr⟩
    · exact mem_append_of_not_raced (by simp) hk
  | ran l i o c hc =>
    exact ⟨h.of_update { c with finished := true } hc id id id rfl fun k q hk => Or.inl (hmem
      (mem_append_of_not_raced (by simp) hk)), .of_update { c with finished := true } hc id id rfl⟩
  | resumed l i v =>
    have hpop : Signalled { s with jobs := js, results := Function.update s.results i (some v) } :=
      h.of_call rfl fun i o hk => hmem hk
    have hnext : s.call s.next = none := by
      by_contra hne
      obtain ⟨c, hc⟩ := Option.ne_none_iff_exists'.1 hne
      exact absurd (hi.wired.call_lt _ c hc) (lt_irrefl _)
    exact pull_signals (s := { s with jobs := js, results := Function.update s.results i (some v) })
      l hnext hpop
  | rejected l i e => exact keep _ [.laneThrew l e] rfl rfl (by simp)
  | countedLast l => exact keep _ [.finish (.ok ())] rfl rfl (by simp)
  | threw l e => exact keep _ [.finish (.error e)] rfl rfl (by simp)
  | failed e =>
    have hpop : Signalled { s with jobs := js } := h.of_call rfl fun i o hk => hmem hk
    obtain ⟨hsig, hforth⟩ := abort_signals e hpop
    exact ⟨⟨hsig.raced, hsig.racing⟩, hforth⟩
  | _ => exact keep _ [] rfl (by simp) (by simp)

/-- A step keeps the signals, and no invoked collector loses its answer or its abort. -/
theorem step_signals {e : FanOutEvent α} (hi : Inv cfg s) (h : Signalled s)
    (hs : step cfg s e = some s') : Signalled s' ∧ Forth s s' := by
  cases e with
  | startLane =>
    simp only [step, Option.ite_none_right_eq_some, Option.some.injEq] at hs
    have hnext : s.call s.next = none := by
      by_contra hne
      obtain ⟨c, hc⟩ := Option.ne_none_iff_exists'.1 hne
      exact absurd (hi.wired.call_lt _ c hc) (lt_irrefl _)
    exact hs.2 ▸ pull_signals (s := { s with started := s.started + 1 }) s.started hnext
      (h.of_call rfl fun i o hk => hk)
  | job =>
    simp only [step, Option.ite_none_right_eq_some] at hs
    cases hj : s.jobs with
    | nil => rw [hj] at hs; exact absurd hs.2 (by simp)
    | cons j js =>
      rw [hj] at hs
      exact Option.some.inj hs.2 ▸ job_signals hi h hj
  | settle i o =>
    cases hc : s.call i with
    | none => simp [step, hc] at hs
    | some c =>
      cases hp : c.promise with
      | some p => simp [step, hc, hp] at hs
      | none =>
        simp only [step, hc, hp, Option.isSome_none, Bool.false_eq_true, if_false,
          Option.some.injEq] at hs
        have hcall : s'.call = Function.update s.call i (some { c with promise := some o }) := by
          rw [← hs]
          by_cases hsub : c.subscribed = true <;> simp [hsub, setCall, push]
        refine ⟨h.of_update { c with promise := some o } hc (fun _ => rfl) id id hcall
          fun k q hk => Or.inl ?_, .of_update { c with promise := some o } hc (fun _ => rfl) id hcall⟩
        rw [← hs] at hk
        by_cases hsub : c.subscribed = true
        · rw [if_pos hsub] at hk
          exact mem_append_of_not_raced (by simp) hk
        · rw [if_neg hsub] at hk
          exact hk
  | timeout i =>
    cases hc : s.call i with
    | none => simp [step, hc] at hs
    | some c =>
      simp only [step, hc, Option.ite_none_right_eq_some, Option.some.injEq] at hs
      obtain ⟨_, rfl⟩ := hs
      refine ⟨h.of_update { c with own := some (cfg.expired i), overran := true } hc id (fun _ => rfl)
        id rfl fun k q hk => ?_,
        .of_update { c with own := some (cfg.expired i), overran := true } hc id (fun _ => rfl) rfl⟩
      rcases List.mem_append.1 hk with hk | hk
      · exact Or.inl hk
      · obtain ⟨rfl, -⟩ := Job.raced.injEq .. ▸ List.mem_singleton.1 hk
        exact Or.inr ⟨{ c with own := some (cfg.expired k), overran := true },
          by simp [push, setCall], Or.inr rfl⟩
  | deadline =>
    simp only [step, Option.ite_none_right_eq_some, Option.some.injEq] at hs
    exact hs.2 ▸ abort_signals _ h
  | callerAbort r =>
    simp only [step, Option.some.injEq] at hs
    rw [← hs]
    split
    · exact abort_signals r h
    · exact ⟨h, .refl s⟩

theorem start_signalled (cfg : FanOutConfig α) (caller : Option Thrown) :
    Signalled (start cfg caller) := by
  by_cases hn : cfg.count = 0 <;> exact ⟨by simp [start, hn], by simp [start, hn]⟩

/-- Nothing more is invoked, and the signals of the collectors in flight have aborted. -/
def Cancelled (cfg : FanOutConfig α) (s : FanOut α) : Prop :=
  s.aborted.isSome = true ∨
    s.next = cfg.count ∧ ∀ i ∈ s.inFlight, ∃ c, s.call i = some c ∧ c.own.isSome = true

/-- A cancelled fan-out has aborted the signal of every collector in flight. -/
theorem Cancelled.signals (h : Cancelled cfg s) (hi : Inv cfg s) (hsig : Signalled s) :
    ∀ i ∈ s.inFlight, ∃ c, s.call i = some c ∧ c.own.isSome = true := by
  rcases h with ha | ⟨_, hown⟩
  · intro i hflight
    obtain ⟨c, hc, hp⟩ := (mem_inFlight hi.wired).1 hflight
    refine ⟨c, hc, ?_⟩
    by_cases hf : c.finished = true
    · obtain ⟨d, hd, hor⟩ := hsig.raced i c hc (hi.wired.raced_of i c hc hf)
      obtain rfl := Option.some.inj (hc.symm.trans hd)
      rw [hp] at hor
      exact hor.resolve_left (by simp)
    · exact hi.carrying.reached ha i c hc (by simpa using hf)
  · exact hown

/-- A cancelled fan-out stays cancelled and invokes nothing. -/
theorem Cancelled.step {e : FanOutEvent α} (h : Cancelled cfg s) (hi : Inv cfg s)
    (hsig : Signalled s) (hs : FanOut.step cfg s e = some s') :
    Cancelled cfg s' ∧ s'.calls = s.calls := by
  have hturn := step_turn hs
  rcases h with ha | ⟨hn, hown⟩
  · obtain ⟨hc, ha'⟩ := step_aborted ha hs
    exact ⟨Or.inl (by rw [ha']; exact ha), hc⟩
  · have hi' := step_inv hi hs
    have hlast := hi'.wired.next_le
    rcases hturn.invokes with ⟨hc, hle⟩ | ⟨_, hlt, _⟩
    · refine ⟨Or.inr ⟨by omega, fun i hflight => ?_⟩, hc⟩
      have hforth := (step_signals hi hsig hs).2
      obtain ⟨c', hc', hp'⟩ := (mem_inFlight hi'.wired).1 hflight
      have hmem : i ∈ s.calls := by
        rw [← hc, hi'.wired.mem_calls]
        simp [hc']
      obtain ⟨c, hci⟩ := Option.isSome_iff_exists.1 ((hi.wired.mem_calls i).1 hmem)
      obtain ⟨d, hd, hp, ho⟩ := hforth i c hci
      obtain rfl := Option.some.inj (hc'.symm.trans hd)
      have hpn : c.promise = none := by
        by_contra hne
        have := hp (Option.isSome_iff_ne_none.2 hne)
        rw [hp'] at this
        exact absurd this (by simp)
      obtain ⟨d, hd, hdo⟩ := hown i ((mem_inFlight hi.wired).2 ⟨c, hci, hpn⟩)
      obtain rfl := Option.some.inj (hci.symm.trans hd)
      exact ⟨c', hc', ho hdo⟩
    · omega

end FanOut

end PolicyVerifier.Core
