import PolicyVerifier.Cedar.EngineRegistry
import PolicyVerifier.Cedar.Proofs.HttpEngineProofs
import PolicyVerifier.Lib.ExceptFold
import PolicyVerifier.Lib.Machine

/-!
# Which engine decides

Over every run of package loads and registrations, a name is the first engine's that was registered under it, and a
config that names none gets the wasm engine wherever one was registered.
-/

namespace PolicyVerifier.Cedar

open Js Machine ExceptFold

/-! ## What was offered -/

section Offered

variable {E : Type} {name : E → Value} {loads : E → Bool}

/-- An engine the registry takes under a name. -/
def UsableAs (name : E → Value) (loads : E → Bool) (n : Str) (engine : E) : Bool :=
  decide (n ≠ [] ∧ name engine = .str n ∧ loads engine = true)

/-- The engines that were offered, in order. -/
def offered : List (EngineEvent E) → List E
  | [] => []
  | .loaded :: events => offered events
  | .register engine :: events => engine :: offered events

/-- The first engine a name was offered for. -/
def firstUsable (name : E → Value) (loads : E → Bool) (events : List (EngineEvent E)) (n : Str) : Option E :=
  (offered events).find? (UsableAs name loads n)

theorem offered_append (events later : List (EngineEvent E)) :
    offered (events ++ later) = offered events ++ offered later := by
  induction events with
  | nil => rfl
  | cons event events ih =>
    cases event with
    | loaded => exact ih
    | register engine => exact congrArg (engine :: ·) ih

theorem mem_offered {events : List (EngineEvent E)} {engine : E} :
    engine ∈ offered events ↔ .register engine ∈ events := by
  induction events with
  | nil => simp [offered]
  | cons event events ih =>
    cases event with
    | loaded => simp [offered, ih]
    | register other => simp [offered, ih]

theorem firstUsable_append (events later : List (EngineEvent E)) (n : Str) :
    firstUsable name loads (events ++ later) n =
      (firstUsable name loads events n).or (firstUsable name loads later n) := by
  unfold firstUsable
  rw [offered_append, List.find?_append]

theorem usable_unique {m n : Str} {engine : E} (hm : UsableAs name loads m engine = true)
    (hn : UsableAs name loads n engine = true) : m = n :=
  Value.str.inj ((of_decide_eq_true hm).2.1.symm.trans (of_decide_eq_true hn).2.1)

theorem firstUsable_mem {events : List (EngineEvent E)} {n : Str} {engine : E}
    (h : firstUsable name loads events n = some engine) :
    .register engine ∈ events ∧ UsableAs name loads n engine = true :=
  ⟨mem_offered.1 (List.mem_of_find?_eq_some h), List.find?_some h⟩

theorem firstUsable_one (engine : E) (n : Str) : firstUsable name loads [.register engine] n =
    if UsableAs name loads n engine = true then some engine else none := List.find?_singleton

theorem firstUsable_empty (events : List (EngineEvent E)) : firstUsable name loads events [] = none := by
  by_contra hne
  obtain ⟨engine, hfound⟩ := Option.ne_none_iff_exists'.1 hne
  exact (of_decide_eq_true (firstUsable_mem hfound).2).1 rfl

end Offered

/-! ## What the map holds -/

section Run

variable {E : Type} [DecidableEq E] {name : E → Value} {loads : E → Bool}

/-- What a registration does: it is refused, or the engine has its name from then on, which it had or which was
free. -/
theorem register_cases (engines : Engines E) (engine : E) :
    (∃ message, registerCedarEngine name loads engines engine = .error message ∧
        ∀ n, UsableAs name loads n engine = true → ∃ other, engines.get? n = some other ∧ other ≠ engine) ∨
      ∃ n, UsableAs name loads n engine = true ∧
        ((engines.get? n = some engine ∧ registerCedarEngine name loads engines engine = .ok engines) ∨
          (engines.get? n = none ∧ registerCedarEngine name loads engines engine = .ok (engines.set n engine))) := by
  unfold registerCedarEngine
  cases hname : name engine with
  | str n =>
    have hmine : ∀ m, UsableAs name loads m engine = true → m = n := by
      intro m hm
      obtain ⟨-, hm, -⟩ := of_decide_eq_true hm
      exact (Value.str.inj (hname.symm.trans hm)).symm
    by_cases hn : n = []
    · refine .inl ⟨_, if_pos hn, fun m hm => ?_⟩
      exact absurd ((hmine m hm).trans hn) (of_decide_eq_true hm).1
    by_cases hloads : loads engine = false
    · refine .inl ⟨_, (if_neg hn).trans (if_pos hloads), fun m hm => ?_⟩
      exact absurd ((of_decide_eq_true hm).2.2.symm.trans hloads) (by simp)
    have husable : UsableAs name loads n engine = true :=
      decide_eq_true ⟨hn, hname, by simpa using hloads⟩
    dsimp only
    rw [if_neg hn, if_neg hloads]
    cases hget : engines.get? n with
    | none => exact .inr ⟨n, husable, .inr ⟨hget, rfl⟩⟩
    | some existing =>
      by_cases hsame : existing = engine
      · subst hsame
        exact .inr ⟨n, husable, .inl ⟨hget, if_pos rfl⟩⟩
      · refine .inl ⟨_, if_neg hsame, fun m hm => ?_⟩
        rw [hmine m hm]
        exact ⟨existing, hget, hsame⟩
  | undefined | null | bool b | num x | arr r xs | obj r ps | other k r =>
    refine .inl ⟨_, rfl, fun m hm => ?_⟩
    exact absurd (hname.symm.trans (of_decide_eq_true hm).2.1) (by simp)

/-- Every engine of the map has its name, and is the first that was offered for it. -/
theorem get?_of_run {slot : Option (Engines E)} {events : List (EngineEvent E)}
    (h : run (engineStep name loads) none events = some slot) (n : Str) :
    (slot.getD ∅).get? n = firstUsable name loads events n := by
  refine run_history (I := fun events slot => (slot.getD ∅).get? n = firstUsable name loads events n) rfl ?_ h
  intro events slot event next ih hstep
  rw [firstUsable_append, ← ih]
  cases event with
  | loaded =>
    obtain rfl := Option.some.inj hstep
    exact Option.or_none.symm
  | register engine =>
    obtain ⟨engines, rfl, rfl⟩ := Option.map_eq_some_iff.1 hstep
    rw [firstUsable_one, Option.getD_some, Option.getD_some]
    rcases register_cases engines engine with ⟨message, herror, hheld⟩ | ⟨m, hm, ⟨hget, hok⟩ | ⟨hget, hok⟩⟩
    · rw [herror]
      by_cases hn : UsableAs name loads n engine = true
      · obtain ⟨other, hother, -⟩ := hheld n hn
        show engines.get? n = _
        rw [hother]
        rfl
      · rw [if_neg hn]
        exact Option.or_none.symm
    · rw [hok]
      show engines.get? n = _
      by_cases hn : UsableAs name loads n engine = true
      · obtain rfl := usable_unique hm hn
        rw [hget]
        rfl
      · rw [if_neg hn]
        exact Option.or_none.symm
    · rw [hok]
      show (engines.set m engine).get? n = _
      rw [OrderedMap.get?_set]
      by_cases hn : UsableAs name loads n engine = true
      · obtain rfl := usable_unique hm hn
        rw [if_pos rfl, hget, if_pos hn]
        rfl
      · rw [if_neg hn, if_neg (fun heq : m = n => hn (heq ▸ hm))]
        exact Option.or_none.symm

/-- No registration of the run is refused. -/
def Unrefused (name : E → Value) (loads : E → Bool) (events : List (EngineEvent E)) : Prop :=
  ∀ slot engine next, Occurs (engineStep name loads) none events slot (.register engine) next →
    ∃ engines, registerCedarEngine name loads (slot.getD ∅) engine = .ok engines

/-- Where none is refused, a name belongs to whatever engine was offered for it. -/
theorem firstUsable_iff {slot : Option (Engines E)} {events : List (EngineEvent E)}
    (h : run (engineStep name loads) none events = some slot) (hunrefused : Unrefused name loads events) (n : Str)
    (engine : E) : firstUsable name loads events n = some engine ↔
      .register engine ∈ events ∧ UsableAs name loads n engine = true := by
  refine ⟨firstUsable_mem, fun ⟨hmem, husable⟩ => ?_⟩
  obtain ⟨before, later, rfl⟩ := List.append_of_mem hmem
  obtain ⟨a, b, hbefore, hstep⟩ := run_split h
  obtain ⟨engines, hok⟩ := hunrefused a engine b ⟨before, later, rfl, hbefore, hstep⟩
  have hheld := get?_of_run hbefore n
  have htaken : firstUsable name loads (before ++ [.register engine]) n = some engine := by
    rw [firstUsable_append, ← hheld]
    rw [firstUsable_one, if_pos husable]
    rcases register_cases (a.getD ∅) engine with ⟨message, herror, -⟩ | ⟨m, hm, ⟨hget, -⟩ | ⟨hget, -⟩⟩
    · exact absurd (hok.symm.trans herror) (by simp)
    · obtain rfl := usable_unique hm husable
      rw [hget]
      rfl
    · obtain rfl := usable_unique hm husable
      rw [hget]
      rfl
  rw [List.append_cons, firstUsable_append, htaken]
  rfl

end Run

/-! ## What a config selects -/

section Selection

variable {E : Type}

/-- The engine a config names, or the one it gets for naming none. -/
def Selected (holder : Str → Option E) : Value → Option E
  | .undefined => (holder (js "wasm")).or (holder (js "http"))
  | .str n => holder n
  | _ => none

theorem selected_default (holder : Str → Option E) :
    Selected holder .undefined = (holder (js "wasm")).or (holder (js "http")) := rfl

theorem selectEngine_ok {numeral : ℚ → List Json.NumeralChar} {inherited : Str → Option Str} {engines : Engines E}
    {named : Value} {engine : E} : selectEngine numeral inherited engines named = .ok engine ↔
      resolveCedarEngine numeral inherited engines named = .ok engine := by
  unfold selectEngine
  cases resolveCedarEngine numeral inherited engines named with
  | error message => simp [Except.mapError]
  | ok found => simp [Except.mapError]

/-- The selection is over what the map holds; nobody has the empty name. -/
theorem selectEngine_iff {numeral : ℚ → List Json.NumeralChar} {inherited : Str → Option Str} {engines : Engines E}
    {holder : Str → Option E} (hholder : ∀ n, engines.get? n = holder n) (hempty : holder [] = none) (named : Value)
    (engine : E) : selectEngine numeral inherited engines named = .ok engine ↔
      Selected holder named = some engine := by
  rw [selectEngine_ok]
  cases named with
  | undefined =>
    have hdefault : preference.findSome? engines.get? = Selected holder .undefined := by
      unfold Selected preference
      rw [List.findSome?_cons, hholder]
      cases holder (js "wasm") with
      | some wasm => rfl
      | none =>
        rw [List.findSome?_cons, hholder]
        cases holder (js "http") with
        | some http => rfl
        | none => rfl
    rw [← hdefault]
    unfold resolveCedarEngine
    cases preference.findSome? engines.get? with
    | some found => simp
    | none =>
      dsimp only
      split <;> simp
  | str n =>
    unfold resolveCedarEngine Selected
    dsimp only
    by_cases hn : n = []
    · rw [if_pos hn, hn, hempty]
      simp
    · rw [if_neg hn, hholder]
      cases holder n with
      | some found => simp
      | none =>
        dsimp only
        split <;> simp
  | null | bool b | num x | arr r xs | obj r ps | other k r => simp [resolveCedarEngine, Selected]

end Selection

section Law

variable {E : Type} [DecidableEq E]

/-- Which engine decides, in a process that has come so far. -/
structure EngineLaw (numeral : ℚ → List Json.NumeralChar) (inherited : Str → Option Str) (name : E → Value)
    (loads : E → Bool) (events : List (EngineEvent E)) (engines : Engines E) : Prop where
  /-- A name selects the first engine that was registered under it, and no name selects wasm before http. -/
  selects : ∀ named engine, selectEngine numeral inherited engines named = .ok engine ↔
    Selected (firstUsable name loads events) named = some engine
  /-- A collector that is created decides over the engine its config selects. -/
  created : ∀ (sha256 : Str → Digest) (α : Type) (engineOf : E → CedarEngine sha256 α) named settings source rule set,
    createSelected numeral inherited engines engineOf named settings source = .ok (rule, set) →
      ∃ engine, Selected (firstUsable name loads events) named = some engine ∧
        MadeOver (engineOf engine) source rule set
  /-- What a name selects it selects ever after. -/
  kept : ∀ later engines', run (engineStep name loads) none (events ++ later) = some (some engines') →
    ∀ n engine, selectEngine numeral inherited engines (.str n) = .ok engine →
      selectEngine numeral inherited engines' (.str n) = .ok engine
  /-- The default changes once at most, from http to wasm, when the first wasm engine is registered. -/
  default : ∀ later engines', run (engineStep name loads) none (events ++ later) = some (some engines') →
    ∀ engine, selectEngine numeral inherited engines .undefined = .ok engine →
      selectEngine numeral inherited engines' .undefined = .ok engine ∨
        (name engine = .str (js "http") ∧ ∃ wasm, .register wasm ∈ later ∧ name wasm = .str (js "wasm") ∧
          selectEngine numeral inherited engines' .undefined = .ok wasm)
  /-- Where no registration is refused, their order does not matter. -/
  order : ∀ events' engines', events.Perm events' →
    run (engineStep name loads) none events' = some (some engines') →
      Unrefused name loads events → Unrefused name loads events' → ∀ named engine,
        selectEngine numeral inherited engines named = .ok engine ↔
          selectEngine numeral inherited engines' named = .ok engine

/-- However the copies of the packages of a process are loaded and register their engines. -/
theorem engine_selection (numeral : ℚ → List Json.NumeralChar) (inherited : Str → Option Str) (name : E → Value)
    (loads : E → Bool) (events : List (EngineEvent E)) (engines : Engines E)
    (h : run (engineStep name loads) none events = some (some engines)) :
    EngineLaw numeral inherited name loads events engines := by
  have hselects : ∀ (events : List (EngineEvent E)) (engines : Engines E),
      run (engineStep name loads) none events = some (some engines) → ∀ named engine,
        selectEngine numeral inherited engines named = .ok engine ↔
          Selected (firstUsable name loads events) named = some engine :=
    fun events engines hrun => selectEngine_iff (get?_of_run hrun) (firstUsable_empty events)
  refine ⟨hselects events engines h, ?_, ?_, ?_, ?_⟩
  · intro sha256 α engineOf named settings source rule set hcreated
    obtain ⟨engine, hselected, hcreate⟩ := bind_eq_ok hcreated
    exact ⟨engine, (hselects events engines h named engine).1 hselected, create_madeOver hcreate⟩
  · intro later engines' hlater n engine hengine
    have hheld : firstUsable name loads events n = some engine := (hselects events engines h (.str n) engine).1 hengine
    refine (hselects _ engines' hlater (.str n) engine).2 ?_
    show firstUsable name loads (events ++ later) n = some engine
    rw [firstUsable_append, hheld]
    rfl
  · intro later engines' hlater engine hengine
    have hchosen := (hselects events engines h .undefined engine).1 hengine
    have hthen := hselects _ engines' hlater .undefined
    rw [selected_default] at hchosen hthen
    rw [firstUsable_append, firstUsable_append] at hthen
    cases hwasm : firstUsable name loads events (js "wasm") with
    | some wasm =>
      rw [hwasm] at hchosen hthen
      exact .inl ((hthen engine).2 hchosen)
    | none =>
      rw [hwasm, Option.none_or] at hchosen hthen
      rw [hchosen] at hthen
      cases hlate : firstUsable name loads later (js "wasm") with
      | none =>
        rw [hlate] at hthen
        exact .inl ((hthen engine).2 rfl)
      | some wasm =>
        rw [hlate] at hthen
        obtain ⟨hmem, husable⟩ := firstUsable_mem hlate
        exact .inr ⟨(of_decide_eq_true (firstUsable_mem hchosen).2).2.1, wasm, hmem,
          (of_decide_eq_true husable).2.1, (hthen wasm).2 rfl⟩
  · intro events' engines' hperm hrun' hunrefused hunrefused' named engine
    have hsame : firstUsable name loads events = firstUsable name loads events' := by
      funext n
      refine Option.ext fun e => ?_
      rw [firstUsable_iff h hunrefused, firstUsable_iff hrun' hunrefused', hperm.mem_iff]
    rw [hselects events engines h, hselects events' engines' hrun', hsame]

end Law

/-- Two engines, by whether they are in process. -/
def engineName (inProcess : Bool) : Value := .str (if inProcess then js "wasm" else js "http")

/-- Two copies of the package are loaded, and http comes first. -/
def twoCopies : List (EngineEvent Bool) := [.loaded, .register false, .loaded, .register true, .register false]

theorem engine_selection_wasm : ∃ engines,
    run (engineStep engineName fun _ => true) none twoCopies = some (some engines) ∧
      selectEngine (fun _ => []) (fun _ => none) engines .undefined = .ok true := by
  obtain ⟨engines, hrun⟩ : ∃ engines,
      run (engineStep engineName fun _ => true) none twoCopies = some (some engines) := ⟨_, rfl⟩
  exact ⟨engines, hrun, ((engine_selection (fun _ => []) (fun _ => none) engineName (fun _ => true) twoCopies engines
    hrun).selects .undefined true).2 rfl⟩

end PolicyVerifier.Cedar
