import Mathlib.Data.List.Basic
import Mathlib.Data.List.Induction
import Mathlib.Logic.Function.Basic

/-!
# Machines fed by events

A machine is a partial step function on states: `step s e` is `none` when the event `e` cannot
happen in `s`. A run feeds it a list of events. The lemmas below turn a fact about one step into a
fact about every state of every run, with or without a condition on the steps taken.
-/

namespace Machine

variable {σ ε : Type*}

/-- The state after the events of a list, `none` when one of them could not happen. -/
def run (step : σ → ε → Option σ) : σ → List ε → Option σ
  | s, [] => some s
  | s, e :: es => (step s e).bind fun s' => run step s' es

@[simp] theorem run_nil (step : σ → ε → Option σ) (s : σ) : run step s [] = some s := rfl

theorem run_cons (step : σ → ε → Option σ) (s : σ) (e : ε) (es : List ε) :
    run step s (e :: es) = (step s e).bind fun s' => run step s' es := rfl

theorem run_cons_eq_some {step : σ → ε → Option σ} {s t : σ} {e : ε} {es : List ε} :
    run step s (e :: es) = some t ↔ ∃ s', step s e = some s' ∧ run step s' es = some t := by
  simp [run, Option.bind_eq_some_iff]

theorem run_append (step : σ → ε → Option σ) (s : σ) (es fs : List ε) :
    run step s (es ++ fs) = (run step s es).bind fun s' => run step s' fs := by
  induction es generalizing s with
  | nil => rfl
  | cons e es ih =>
    simp only [List.cons_append, run_cons]
    cases h : step s e with
    | none => rfl
    | some s' => simpa using ih s'

/-- A run goes on by one more event. -/
theorem run_concat {step : σ → ε → Option σ} {s t u : σ} {es : List ε} {e : ε} (h : run step s es = some t)
    (he : step t e = some u) : run step s (es ++ [e]) = some u := by
  rw [run_append, h, Option.bind_some, run_cons, he, Option.bind_some, run_nil]

/-- The step `a —e→ b` is one of the steps of the run from `s` over `es`. -/
def Occurs (step : σ → ε → Option σ) (s : σ) (es : List ε) (a : σ) (e : ε) (b : σ) : Prop :=
  ∃ pre post, es = pre ++ e :: post ∧ run step s pre = some a ∧ step a e = some b

/-- What every step preserves holds in every state of every run. -/
theorem run_invariant {step : σ → ε → Option σ} {I : σ → Prop}
    (hstep : ∀ s e s', I s → step s e = some s' → I s') {s t : σ} {es : List ε} (hs : I s)
    (h : run step s es = some t) : I t := by
  induction es generalizing s with
  | nil => cases h; exact hs
  | cons e es ih =>
    obtain ⟨s', he, h'⟩ := run_cons_eq_some.1 h
    exact ih (hstep s e s' hs he) h'

/-- What every step that meets the condition `G` preserves holds in every state of a run all of
whose steps meet `G`. -/
theorem run_invariant_of_guard {step : σ → ε → Option σ} {I : σ → Prop} {G : σ → ε → Prop}
    (hstep : ∀ s e s', I s → G s e → step s e = some s' → I s') {s t : σ} {es : List ε} (hs : I s)
    (hg : ∀ a e b, Occurs step s es a e b → G a e) (h : run step s es = some t) : I t := by
  induction es generalizing s with
  | nil => cases h; exact hs
  | cons e es ih =>
    obtain ⟨s', he, h'⟩ := run_cons_eq_some.1 h
    refine ih (hstep s e s' hs (hg s e s' ⟨[], es, rfl, rfl, he⟩) he) ?_ h'
    rintro a f b ⟨pre, post, rfl, hpre, hf⟩
    refine hg a f b ⟨e :: pre, post, rfl, ?_, hf⟩
    rw [run_cons, he]
    exact hpre

/-- What relates a state to the events that led to it holds in every state of every run, where it holds
at the start and each step extends it by its event. -/
theorem run_history {step : σ → ε → Option σ} {I : List ε → σ → Prop} {s t : σ} {es : List ε}
    (hstart : I [] s) (hstep : ∀ es a e b, I es a → step a e = some b → I (es ++ [e]) b)
    (h : run step s es = some t) : I es t := by
  induction es using List.reverseRecOn generalizing t with
  | nil => cases h; exact hstart
  | append_singleton es e ih =>
    rw [run_append, Option.bind_eq_some_iff] at h
    obtain ⟨a, ha, hlast⟩ := h
    obtain ⟨b, hb, hnil⟩ := run_cons_eq_some.1 hlast
    cases hnil
    exact hstep es a e _ (ih ha) hb

/-! ## The first event of a kind -/

section First

variable {p : ε → Bool} {es : List ε} {e : ε}

/-- The first event of a kind stays the first. -/
theorem first_concat {first : ε} (h : es.find? p = some first) (e : ε) : (es ++ [e]).find? p = some first := by
  rw [List.find?_append, h, Option.some_or]

theorem first_concat_of_not (h : p e = false) (es : List ε) : (es ++ [e]).find? p = es.find? p := by
  rw [List.find?_append, List.find?_singleton, h]
  simp

theorem first_concat_of_none (h : es.find? p = none) (hp : p e = true) : (es ++ [e]).find? p = some e := by
  rw [List.find?_append, h, Option.none_or, List.find?_singleton, hp]
  rfl

end First

/-- Before an event of a run there is a state it happens in. -/
theorem run_split {step : σ → ε → Option σ} {s t : σ} {pre post : List ε} {e : ε}
    (h : run step s (pre ++ e :: post) = some t) : ∃ a b, run step s pre = some a ∧ step a e = some b := by
  rw [run_append, Option.bind_eq_some_iff] at h
  obtain ⟨a, ha, hrest⟩ := h
  obtain ⟨b, hb, -⟩ := run_cons_eq_some.1 hrest
  exact ⟨a, b, ha, hb⟩

/-- A step of a run is a step of every longer run. -/
theorem Occurs.append {step : σ → ε → Option σ} {s a b : σ} {es : List ε} {e : ε}
    (h : Occurs step s es a e b) (fs : List ε) : Occurs step s (es ++ fs) a e b := by
  obtain ⟨pre, post, rfl, hpre, he⟩ := h
  exact ⟨pre, post ++ fs, by simp, hpre, he⟩

/-- A step of a run's second part is a step of the run. -/
theorem Occurs.after {step : σ → ε → Option σ} {s t a b : σ} {es fs : List ε} {e : ε}
    (hes : run step s es = some t) (h : Occurs step t fs a e b) : Occurs step s (es ++ fs) a e b := by
  obtain ⟨pre, post, rfl, hpre, he⟩ := h
  refine ⟨es ++ pre, post, by simp, ?_, he⟩
  rw [run_append, hes]
  exact hpre

/-- The steps a run takes: each state with the event it is fed. -/
def trace (step : σ → ε → Option σ) : σ → List ε → List (σ × ε)
  | _, [] => []
  | s, e :: es =>
    (s, e) :: match step s e with
      | some s' => trace step s' es
      | none => []

/-- The steps of a run are the ones its trace lists. -/
theorem Occurs.mem_trace {step : σ → ε → Option σ} {s a b : σ} {es : List ε} {e : ε}
    (h : Occurs step s es a e b) : (a, e) ∈ trace step s es := by
  obtain ⟨pre, post, rfl, hpre, he⟩ := h
  induction pre generalizing s with
  | nil =>
    obtain rfl := Option.some.inj hpre
    exact List.mem_cons_self
  | cons f pre ih =>
    obtain ⟨s', hf, hpre'⟩ := run_cons_eq_some.1 hpre
    rw [List.cons_append, trace, hf]
    exact List.mem_cons_of_mem _ (ih hpre')

/-- The steps of a run of one more event. -/
theorem occurs_concat {step : σ → ε → Option σ} {s a b : σ} {es : List ε} {e f : ε} :
    Occurs step s (es ++ [e]) a f b ↔
      Occurs step s es a f b ∨ (run step s es = some a ∧ f = e ∧ step a f = some b) := by
  constructor
  · rintro ⟨pre, post, hes, hpre, hf⟩
    rcases List.eq_nil_or_concat post with rfl | ⟨post', last, rfl⟩
    · obtain ⟨rfl, hlast⟩ := List.append_inj' hes rfl
      exact Or.inr ⟨hpre, (List.singleton_inj.1 hlast).symm, hf⟩
    · have hsplit : es ++ [e] = (pre ++ f :: post') ++ [last] := by simpa using hes
      obtain ⟨rfl, -⟩ := List.append_inj' hsplit rfl
      exact Or.inl ⟨pre, post', rfl, hpre, hf⟩
  · rintro (h | ⟨hes, rfl, hf⟩)
    · exact h.append [e]
    · exact ⟨es, [], rfl, hes, hf⟩

/-- The first step of a run that meets `Q` meets `P`. -/
def FirstOccurs (step : σ → ε → Option σ) (s : σ) (es : List ε) (P Q : σ → ε → Prop) : Prop :=
  ∃ pre e post a b, es = pre ++ e :: post ∧ run step s pre = some a ∧ step a e = some b ∧ P a e ∧
    ∀ c f d, Occurs step s pre c f d → ¬ Q c f

theorem firstOccurs_concat {step : σ → ε → Option σ} {s : σ} {es : List ε} {e : ε}
    {P Q : σ → ε → Prop} :
    FirstOccurs step s (es ++ [e]) P Q ↔ FirstOccurs step s es P Q ∨
      ((∃ a b, run step s es = some a ∧ step a e = some b ∧ P a e) ∧
        ∀ c f d, Occurs step s es c f d → ¬ Q c f) := by
  constructor
  · rintro ⟨pre, f, post, a, b, hes, hpre, hf, hP, hno⟩
    rcases List.eq_nil_or_concat post with rfl | ⟨post', last, rfl⟩
    · obtain ⟨rfl, hlast⟩ := List.append_inj' hes rfl
      obtain rfl := List.singleton_inj.1 hlast
      exact Or.inr ⟨⟨a, b, hpre, hf, hP⟩, hno⟩
    · have hsplit : es ++ [e] = (pre ++ f :: post') ++ [last] := by simpa using hes
      obtain ⟨rfl, -⟩ := List.append_inj' hsplit rfl
      exact Or.inl ⟨pre, f, post', a, b, rfl, hpre, hf, hP, hno⟩
  · rintro (⟨pre, f, post, a, b, rfl, hpre, hf, hP, hno⟩ | ⟨⟨a, b, hes, he, hP⟩, hno⟩)
    · exact ⟨pre, f, post ++ [e], a, b, by simp, hpre, hf, hP, hno⟩
    · exact ⟨es, e, [], a, b, rfl, hes, he, hP, hno⟩

/-- Where some step of a run meets `Q`, one does first. -/
theorem Occurs.exists_first {step : σ → ε → Option σ} {s a b : σ} {es : List ε} {e : ε}
    {Q : σ → ε → Prop} (h : Occurs step s es a e b) (hQ : Q a e) : FirstOccurs step s es Q Q := by
  induction es using List.reverseRecOn generalizing a e b with
  | nil =>
    obtain ⟨pre, post, hes, -, -⟩ := h
    exact absurd hes (by simp)
  | append_singleton es last ih =>
    rw [firstOccurs_concat]
    by_cases hbefore : ∃ c f d, Occurs step s es c f d ∧ Q c f
    · obtain ⟨c, f, d, hc, hcQ⟩ := hbefore
      exact Or.inl (ih hc hcQ)
    · rcases occurs_concat.1 h with hes | ⟨hes, rfl, he⟩
      · exact absurd ⟨a, e, b, hes, hQ⟩ hbefore
      · exact Or.inr ⟨⟨a, b, hes, he, hQ⟩, fun c f d hc hcQ => hbefore ⟨c, f, d, hc, hcQ⟩⟩

/-- The first step is one of the steps. -/
theorem FirstOccurs.occurs {step : σ → ε → Option σ} {s : σ} {es : List ε} {P Q : σ → ε → Prop}
    (h : FirstOccurs step s es P Q) : ∃ a e b, Occurs step s es a e b ∧ P a e := by
  obtain ⟨pre, e, post, a, b, rfl, hpre, he, hP, -⟩ := h
  exact ⟨a, e, b, ⟨pre, post, rfl, hpre, he⟩, hP⟩

/-! ## Reachability -/

/-- Some run leads from one state to another. -/
def Reaches (step : σ → ε → Option σ) (s t : σ) : Prop := ∃ es, run step s es = some t

theorem Reaches.refl (step : σ → ε → Option σ) (s : σ) : Reaches step s s := ⟨[], rfl⟩

theorem Reaches.step {step : σ → ε → Option σ} {s t u : σ} {e : ε} (h : Reaches step s t) (he : step t e = some u) :
    Reaches step s u := by
  obtain ⟨es, hes⟩ := h
  exact ⟨es ++ [e], run_concat hes he⟩

end Machine
