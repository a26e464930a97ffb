import PolicyVerifier.Lib.ExceptFold
import PolicyVerifier.Server.Routes.VerifyBatch

/-!
# A batch is validated, decided once for each entry, and answered once

Where each call and each lane is, after any events: every `decide` that was called is at the lane that
waits for it, in the slot of its entry, or in the fault of the lane it ended. The answers follow from
where the lanes are when `Promise.all` settles.
-/

namespace PolicyVerifier.Server

open Js PolicyVerifier.Core

/-! ## Validation -/

/-- What a batch has to be for its entries to be decided. -/
structure ValidBatch (cfg : BatchConfig) (body : Value) (entries : List ValidatedDecisionRequest) :
    Prop where
  keys : ∃ ref props, body = .obj ref props ∧ ∀ prop ∈ props, prop.1 = js "decisions"
  items : ∃ ref items, body.field (js "decisions") = .arr ref items ∧ items ≠ [] ∧
    items.length ≤ cfg.maxBatchSize ∧ entries.length = items.length ∧
    ∀ i item entry, items[i]? = some item → entries[i]? = some entry →
      parseDecisionRequest cfg.resourceParser cfg.limits item (batchEntryLabel i) = .ok entry

/-- The resource parser faults on an entry of the body. -/
def ParserFaults (cfg : BatchConfig) (body : Value) (cause : Thrown) : Prop :=
  ∃ ref items item resource, body.field (js "decisions") = .arr ref items ∧ item ∈ items ∧
    item.field (js "resource") = .str resource ∧ cfg.resourceParser resource = .threw cause

theorem checkIdentifier_ok {value : Value} {field label s : Str} {maxLength : Nat}
    (h : checkIdentifier value field label maxLength = .ok s) : value = .str s := by
  unfold checkIdentifier at h
  split at h
  · split_ifs at h
    rw [Except.ok.inj h]
  · exact absurd h (by simp)

theorem checkFields_ok {limits : RequestLimits} {raw : Value} {label : Str} {request : DecisionRequest}
    {context : Option (List (Str × Value))} (h : checkFields limits raw label = .ok (request, context)) :
    raw.field (js "resource") = .str request.resource ∧ raw.field (js "action") = .str request.action := by
  obtain ⟨resource, hresource, h⟩ := ExceptFold.bind_eq_ok h
  obtain ⟨action, haction, h⟩ := ExceptFold.bind_eq_ok h
  obtain ⟨checked, -, h⟩ := ExceptFold.bind_eq_ok h
  obtain ⟨rfl, rfl⟩ := Prod.mk.inj (Except.ok.inj h)
  exact ⟨checkIdentifier_ok hresource, checkIdentifier_ok haction⟩

/-- An entry faults only where the resource parser does. -/
theorem parseDecisionRequest_threw {parser : Str → ParseOutcome} {limits : RequestLimits} {raw : Value}
    {label : Str} {cause : Thrown} (h : parseDecisionRequest parser limits raw label = .threw cause) :
    ∃ resource, raw.field (js "resource") = .str resource ∧ parser resource = .threw cause := by
  unfold parseDecisionRequest at h
  split at h
  · rename_i ref props
    dsimp only at h
    split at h
    · exact absurd h (by simp)
    cases hfields : checkFields limits (.obj ref props) label with
    | error error => rw [hfields] at h; exact absurd h (by simp)
    | ok fields =>
      obtain ⟨request, context⟩ := fields
      rw [hfields] at h
      dsimp only at h
      cases hparse : parser request.resource with
      | threw thrown =>
        rw [hparse] at h
        obtain rfl := Validated.threw.inj h
        exact ⟨request.resource, (checkFields_ok hfields).1, hparse⟩
      | refused raw detail => rw [hparse] at h; exact absurd h (by simp)
      | parsed resource => rw [hparse] at h; exact absurd h (by simp)
  · exact absurd h (by simp)

section Entries

variable {parser : Str → ParseOutcome} {limits : RequestLimits}

theorem parseEntries_threw {index : Nat} {items : List Value} {cause : Thrown}
    (h : parseEntries parser limits index items = .threw cause) :
    ∃ item ∈ items, ∃ resource, item.field (js "resource") = .str resource ∧
      parser resource = .threw cause := by
  induction items generalizing index with
  | nil => exact absurd h (by simp [parseEntries])
  | cons item items ih =>
    rw [parseEntries] at h
    cases hitem : parseDecisionRequest parser limits item (batchEntryLabel index) with
    | refused error => rw [hitem] at h; exact absurd h (by simp)
    | threw thrown =>
      rw [hitem] at h
      obtain rfl := Validated.threw.inj h
      exact ⟨item, List.mem_cons_self, parseDecisionRequest_threw hitem⟩
    | ok entry =>
      rw [hitem] at h
      dsimp only at h
      cases hrest : parseEntries parser limits (index + 1) items with
      | refused error => rw [hrest] at h; exact absurd h (by simp)
      | ok entries => rw [hrest] at h; exact absurd h (by simp)
      | threw thrown =>
        rw [hrest] at h
        obtain rfl := Validated.threw.inj h
        obtain ⟨faulty, hmem, hfaults⟩ := ih hrest
        exact ⟨faulty, List.mem_cons_of_mem _ hmem, hfaults⟩

/-- A list of entries is read exactly when each of its items is, under its own label. -/
theorem parseEntries_ok_iff {index : Nat} {items : List Value}
    {entries : List ValidatedDecisionRequest} :
    parseEntries parser limits index items = .ok entries ↔ entries.length = items.length ∧
      ∀ i item entry, items[i]? = some item → entries[i]? = some entry →
        parseDecisionRequest parser limits item (batchEntryLabel (index + i)) = .ok entry := by
  induction items generalizing index entries with
  | nil =>
    rw [parseEntries, List.length_nil, List.length_eq_zero_iff]
    constructor
    · intro h
      exact ⟨(Validated.ok.inj h).symm, fun i item entry hitem => absurd hitem (by simp)⟩
    · rintro ⟨rfl, -⟩
      rfl
  | cons item items ih =>
    rw [parseEntries]
    cases hitem : parseDecisionRequest parser limits item (batchEntryLabel index) with
    | refused error =>
      refine iff_of_false (by simp) ?_
      rintro ⟨hlength, hall⟩
      obtain ⟨entry, rest, rfl⟩ := List.exists_cons_of_length_eq_add_one hlength
      have h0 := hall 0 item entry rfl rfl
      rw [Nat.add_zero, hitem] at h0
      exact absurd h0 (by simp)
    | threw cause =>
      refine iff_of_false (by simp) ?_
      rintro ⟨hlength, hall⟩
      obtain ⟨entry, rest, rfl⟩ := List.exists_cons_of_length_eq_add_one hlength
      have h0 := hall 0 item entry rfl rfl
      rw [Nat.add_zero, hitem] at h0
      exact absurd h0 (by simp)
    | ok first =>
      dsimp only
      constructor
      · intro h
        cases hrest : parseEntries parser limits (index + 1) items with
        | refused error => rw [hrest] at h; exact absurd h (by simp)
        | threw cause => rw [hrest] at h; exact absurd h (by simp)
        | ok rest =>
          rw [hrest] at h
          obtain rfl := Validated.ok.inj h
          obtain ⟨hlength, hall⟩ := ih.1 hrest
          refine ⟨by simp [hlength], fun i item' entry hi he => ?_⟩
          cases i with
          | zero =>
            obtain rfl := Option.some.inj hi
            obtain rfl := Option.some.inj he
            exact hitem
          | succ i =>
            rw [show index + (i + 1) = index + 1 + i by omega]
            exact hall i item' entry (by simpa using hi) (by simpa using he)
      · rintro ⟨hlength, hall⟩
        obtain ⟨entry, rest, rfl⟩ := List.exists_cons_of_length_eq_add_one hlength
        have h0 := hall 0 item entry rfl rfl
        rw [Nat.add_zero, hitem] at h0
        obtain rfl := Validated.ok.inj h0
        have hrest : parseEntries parser limits (index + 1) items = .ok rest := by
          refine ih.2 ⟨by simpa using hlength, fun i item' entry' hi he => ?_⟩
          have := hall (i + 1) item' entry' (by simpa using hi) (by simpa using he)
          rwa [show index + (i + 1) = index + 1 + i by omega] at this
        rw [hrest]

end Entries

section Body

variable {cfg : BatchConfig} {body : Value}

theorem unknownKeys_nil {props : List (Str × Value)} :
    ¬ ((props.map Prod.fst).filter fun key => key ≠ js "decisions") ≠ [] ↔
      ∀ prop ∈ props, prop.1 = js "decisions" := by
  rw [not_not, List.filter_eq_nil_iff]
  simp

/-- A body is read exactly when the envelope and every entry are what they have to be. -/
theorem parseBatch_ok_iff {entries : List ValidatedDecisionRequest} :
    parseBatch cfg.resourceParser cfg.limits cfg.maxBatchSize body = .ok entries ↔
      ValidBatch cfg body entries := by
  unfold parseBatch
  split
  · rename_i ref props
    dsimp only
    split
    · rename_i hkeys
      refine iff_of_false (by simp) ?_
      rintro ⟨⟨ref', props', hbody, hall⟩, -⟩
      obtain ⟨rfl, rfl⟩ := Value.obj.inj hbody
      exact unknownKeys_nil.2 hall hkeys
    rename_i hkeys
    have hall := unknownKeys_nil.1 hkeys
    cases hraw : (Value.obj ref props).field (js "decisions") with
    | arr ref' raw =>
      dsimp only
      have hread : ∀ items ref'', (Value.obj ref props).field (js "decisions") = .arr ref'' items →
          items = raw := by
        intro items ref'' h
        rw [hraw] at h
        exact (Value.arr.inj h).2.symm
      split
      · rename_i hnil
        refine iff_of_false (by simp) ?_
        rintro ⟨-, ref'', items, hitems, hne, -⟩
        exact hne ((hread items ref'' hitems).trans hnil)
      split
      · rename_i hlong
        refine iff_of_false (by simp) ?_
        rintro ⟨-, ref'', items, hitems, -, hcap, -⟩
        rw [hread items ref'' hitems] at hcap
        omega
      rename_i hne hlong
      rw [parseEntries_ok_iff]
      simp only [Nat.zero_add]
      constructor
      · rintro ⟨hlength, hentries⟩
        exact ⟨⟨ref, props, rfl, hall⟩, ref', raw, hraw, hne, by omega, hlength, hentries⟩
      · rintro ⟨-, ref'', items, hitems, -, -, hlength, hentries⟩
        obtain rfl := hread items ref'' hitems
        exact ⟨hlength, hentries⟩
    | _ =>
      refine iff_of_false (by simp) ?_
      rintro ⟨-, ref'', items, hitems, -⟩
      rw [hraw] at hitems
      exact absurd hitems (by simp)
  · rename_i hbody
    refine iff_of_false (by simp) ?_
    rintro ⟨⟨ref, props, rfl, -⟩, -⟩
    exact hbody ref props rfl

theorem parseBatch_threw {cause : Thrown}
    (h : parseBatch cfg.resourceParser cfg.limits cfg.maxBatchSize body = .threw cause) :
    ParserFaults cfg body cause := by
  unfold parseBatch at h
  split at h
  · rename_i ref props
    dsimp only at h
    split at h
    · exact absurd h (by simp)
    cases hraw : (Value.obj ref props).field (js "decisions") with
    | arr ref' raw =>
      rw [hraw] at h
      dsimp only at h
      split_ifs at h
      obtain ⟨item, hitem, resource, hresource, hthrew⟩ := parseEntries_threw h
      exact ⟨ref', raw, item, resource, hraw, hitem, hresource, hthrew⟩
    | _ => rw [hraw] at h; exact absurd h (by simp)
  · exact absurd h (by simp)

end Body

/-! ## Where the lanes and the calls are -/

namespace Batch

/-- What a lane's place says of the entries. -/
def LaneOk (s : Batch) : BatchLane → Prop
  | .deciding i => i < s.calls.length ∧ s.decisions[i]? = some none
  | .returned => s.abandoned = true ∨ s.next = s.entries.length
  | .counted => s.abandoned = true ∨ s.next = s.entries.length
  | .threw _ => True
  | .failed _ => ∃ fault, s.all = some (.error fault)

/-- Where a call is: at the lane that waits for it, in its slot, or in the fault its lane ended with. -/
def CallOk (s : Batch) (lane : Nat → Option BatchLane) (i : Nat) (call : DecideCall) : Prop :=
  (∃ l, lane l = some (.deciding i)) ∨
  (∃ response, call.outcome = some (.ok response) ∧ s.decisions[i]? = some (some response)) ∨
  (∃ l fault, call.outcome = some (.error fault) ∧
    (lane l = some (.threw fault) ∨ lane l = some (.failed fault)))

/-- The lanes, found by `lane`, and the calls they made. -/
structure Wired (s : Batch) (lane : Nat → Option BatchLane) : Prop where
  next : s.next = s.calls.length
  next_le : s.calls.length ≤ s.entries.length
  slots : s.decisions.length = s.entries.length
  call_at : ∀ i (call : DecideCall), s.calls[i]? = some call → call.index = i ∧ s.entries[i]? = some call.entry
  unwritten : ∀ i, s.calls.length ≤ i → i < s.entries.length → s.decisions[i]? = some none
  lane_ok : ∀ l place, lane l = some place → s.LaneOk place
  alone : ∀ l m i, lane l = some (.deciding i) → lane m = some (.deciding i) → l = m
  call_ok : ∀ i (call : DecideCall), s.calls[i]? = some call → s.CallOk lane i call

/-- The lanes of the state. -/
def laneAt (s : Batch) (l : Nat) : Option BatchLane := s.lanes[l]?

theorem pull_eq (input : DecisionInput) (s : Batch) :
    (∃ entry, s.abandoned = false ∧ s.entries[s.next]? = some entry ∧
      s.pull input =
        ({ s with next := s.next + 1, calls := s.calls ++ [{ index := s.next, entry, input }] },
          .deciding s.next)) ∨
    ((s.abandoned = true ∨ s.entries[s.next]? = none) ∧ s.pull input = (s, .returned)) := by
  unfold pull
  cases ha : s.abandoned with
  | true => exact Or.inr ⟨Or.inl rfl, rfl⟩
  | false =>
    cases he : s.entries[s.next]? with
    | none => exact Or.inr ⟨Or.inr rfl, rfl⟩
    | some entry => exact Or.inl ⟨entry, rfl, rfl, rfl⟩

/-- Only the calls change, by one more at the end. -/
theorem CallOk.of_update {s s' : Batch} {lane lane' : Nat → Option BatchLane} {i l : Nat}
    {call : DecideCall} (h : s.CallOk lane i call) (hslots : s'.decisions = s.decisions)
    (hl : lane l = none) (hother : ∀ m, m ≠ l → lane' m = lane m) : s'.CallOk lane' i call := by
  have hne : ∀ m place, lane m = some place → m ≠ l := by
    rintro m place hm rfl
    rw [hl] at hm
    exact absurd hm (by simp)
  rcases h with ⟨m, hm⟩ | ⟨response, hresponse, hslot⟩ | ⟨m, fault, hfault, hm⟩
  · exact Or.inl ⟨m, by rw [hother m (hne m _ hm)]; exact hm⟩
  · exact Or.inr (Or.inl ⟨response, hresponse, by rw [hslots]; exact hslot⟩)
  · refine Or.inr (Or.inr ⟨m, fault, hfault, ?_⟩)
    have hml : m ≠ l := by
      rcases hm with hm | hm
      · exact hne m _ hm
      · exact hne m _ hm
    rw [hother m hml]
    exact hm

theorem getElem?_concat {α : Type} {xs : List α} {x y : α} {i : Nat} (h : (xs ++ [x])[i]? = some y) :
    xs[i]? = some y ∨ i = xs.length ∧ y = x := by
  rw [List.getElem?_append] at h
  split at h
  · exact Or.inl h
  · rename_i hi
    rw [List.getElem?_singleton] at h
    split at h
    · exact Or.inr ⟨by omega, (Option.some.inj h).symm⟩
    · exact absurd h (by simp)

section Pulled

variable {s : Batch} {lane : Nat → Option BatchLane} {l : Nat}

theorem lane_pulled {place place' : BatchLane} {m : Nat}
    (hm : Function.update lane l (some place) m = some place') :
    (m = l ∧ place' = place) ∨ m ≠ l ∧ lane m = some place' := by
  by_cases hml : m = l
  · subst hml
    rw [Function.update_self] at hm
    exact Or.inl ⟨rfl, (Option.some.inj hm).symm⟩
  · rw [Function.update_of_ne hml] at hm
    exact Or.inr ⟨hml, hm⟩

/-- A lane that was nowhere calls for the next entry. -/
theorem Wired.pulled_entry (h : Wired s lane) (hl : lane l = none) {entry : ValidatedDecisionRequest}
    (hentry : s.entries[s.next]? = some entry) (input : DecisionInput) :
    Wired { s with next := s.next + 1, calls := s.calls ++ [{ index := s.next, entry, input }] }
      (Function.update lane l (some (.deciding s.next))) := by
  have hlt : s.calls.length < s.entries.length := by
    rw [← h.next]
    exact (List.getElem?_eq_some_iff.1 hentry).1
  have hnew : ∀ m, lane m ≠ some (.deciding s.next) := by
    intro m hm
    have hdecided := (h.lane_ok m _ hm).1
    have hnext := h.next
    omega
  refine ⟨?_, ?_, h.slots, ?_, ?_, ?_, ?_, ?_⟩
  · simp [h.next]
  · rw [List.length_append, List.length_singleton]
    exact hlt
  · intro i call hcall
    rcases getElem?_concat hcall with hcall | ⟨rfl, rfl⟩
    · exact h.call_at i call hcall
    · exact ⟨h.next, by rw [← h.next]; exact hentry⟩
  · intro i hi
    rw [List.length_append, List.length_singleton] at hi
    exact h.unwritten i (by omega)
  · intro m place hm
    rcases lane_pulled hm with ⟨rfl, rfl⟩ | ⟨-, hm⟩
    · refine ⟨by simp [h.next], ?_⟩
      show s.decisions[s.next]? = some none
      rw [h.next]
      exact h.unwritten _ le_rfl hlt
    · have hok := h.lane_ok m place hm
      have hnext := h.next
      cases place with
      | deciding i =>
        refine ⟨?_, hok.2⟩
        rw [List.length_append]
        exact Nat.lt_add_right _ hok.1
      | returned =>
        rcases hok with ha | hn
        · exact Or.inl ha
        · omega
      | counted =>
        rcases hok with ha | hn
        · exact Or.inl ha
        · omega
      | threw fault => trivial
      | failed fault => exact hok
  · intro m k i hm hk
    rcases lane_pulled hm with ⟨rfl, hi⟩ | ⟨-, hold⟩
    · obtain rfl := BatchLane.deciding.inj hi
      rcases lane_pulled hk with ⟨rfl, -⟩ | ⟨-, hold⟩
      · rfl
      · exact absurd hold (hnew k)
    · rcases lane_pulled hk with ⟨rfl, hi⟩ | ⟨-, hold'⟩
      · obtain rfl := BatchLane.deciding.inj hi
        exact absurd hold (hnew m)
      · exact h.alone m k i hold hold'
  · intro i call hcall
    rcases getElem?_concat hcall with hcall | ⟨rfl, rfl⟩
    · exact (h.call_ok i call hcall).of_update rfl hl fun m hm => Function.update_of_ne hm _ _
    · exact Or.inl ⟨l, by rw [Function.update_self, h.next]⟩

/-- A lane that was nowhere finds no entry left. -/
theorem Wired.pulled_none (h : Wired s lane) (hl : lane l = none)
    (hnone : s.abandoned = true ∨ s.entries[s.next]? = none) :
    Wired s (Function.update lane l (some .returned)) := by
  have hend : s.abandoned = true ∨ s.next = s.entries.length := by
    rcases hnone with ha | hn
    · exact Or.inl ha
    · have hlen := List.getElem?_eq_none_iff.1 hn
      have hnext := h.next
      have hle := h.next_le
      exact Or.inr (by omega)
  have hdeciding : ∀ m i, Function.update lane l (some .returned) m = some (.deciding i) →
      lane m = some (.deciding i) := by
    intro m i hm
    rcases lane_pulled hm with ⟨-, hi⟩ | ⟨-, hm⟩
    · exact absurd hi (by simp)
    · exact hm
  refine ⟨h.next, h.next_le, h.slots, h.call_at, h.unwritten, ?_, ?_, ?_⟩
  · intro m place hm
    rcases lane_pulled hm with ⟨-, rfl⟩ | ⟨-, hm⟩
    · exact hend
    · exact h.lane_ok m place hm
  · intro m k i hm hk
    exact h.alone m k i (hdeciding m i hm) (hdeciding k i hk)
  · intro i call hcall
    exact (h.call_ok i call hcall).of_update rfl hl fun m hm => Function.update_of_ne hm _ _

/-- A lane that was nowhere takes its next turn. -/
theorem Wired.pulled (h : Wired s lane) (hl : lane l = none) (input : DecisionInput) :
    Wired (s.pull input).1 (Function.update lane l (some (s.pull input).2)) := by
  rcases pull_eq input s with ⟨entry, -, hentry, hpull⟩ | ⟨hnone, hpull⟩
  · rw [hpull]
    exact h.pulled_entry hl hentry input
  · rw [hpull]
    exact h.pulled_none hl hnone

end Pulled

/-- Nothing the lanes depend on changes, except that more may have been abandoned or settled. -/
theorem Wired.frame {s s' : Batch} {lane : Nat → Option BatchLane} (h : Wired s lane)
    (hnext : s'.next = s.next) (hcalls : s'.calls = s.calls) (hentries : s'.entries = s.entries)
    (hslots : s'.decisions = s.decisions) (habandoned : s.abandoned = true → s'.abandoned = true)
    (hall : ∀ fault, s.all = some (.error fault) → ∃ fault', s'.all = some (.error fault')) :
    Wired s' lane := by
  refine ⟨?_, ?_, ?_, ?_, ?_, ?_, h.alone, ?_⟩
  · rw [hnext, hcalls]
    exact h.next
  · rw [hcalls, hentries]
    exact h.next_le
  · rw [hslots, hentries]
    exact h.slots
  · rw [hcalls, hentries]
    exact h.call_at
  · rw [hcalls, hentries, hslots]
    exact h.unwritten
  · intro l place hl
    have hok := h.lane_ok l place hl
    cases place with
    | deciding i =>
      unfold LaneOk at hok ⊢
      rw [hcalls, hslots]
      exact hok
    | returned => exact hok.imp habandoned fun hn => by rw [hnext, hentries]; exact hn
    | counted => exact hok.imp habandoned fun hn => by rw [hnext, hentries]; exact hn
    | threw fault => trivial
    | failed fault =>
      obtain ⟨first, hfirst⟩ := hok
      exact hall first hfirst
  · rw [hcalls]
    intro i call hcall
    have hok := h.call_ok i call hcall
    unfold CallOk at hok ⊢
    rw [hslots]
    exact hok

/-- A lane that waits for no `decide` any more changes its place. -/
theorem Wired.moved {s : Batch} {lane : Nat → Option BatchLane} {l : Nat} {place place' : BatchLane}
    (h : Wired s lane) (hl : lane l = some place) (hok : s.LaneOk place')
    (hleft : ∀ i, place' ≠ .deciding i)
    (hcall : ∀ i (call : DecideCall), s.calls[i]? = some call → place = .deciding i →
      ∃ fault, call.outcome = some (.error fault) ∧ place' = .threw fault)
    (hfault : ∀ fault, place = .threw fault ∨ place = .failed fault → place' = .failed fault) :
    Wired s (Function.update lane l (some place')) := by
  have hback : ∀ m i, Function.update lane l (some place') m = some (.deciding i) →
      lane m = some (.deciding i) := by
    intro m i hm
    by_cases hml : m = l
    · subst hml
      rw [Function.update_self] at hm
      exact absurd (Option.some.inj hm) (hleft i)
    · rwa [Function.update_of_ne hml] at hm
  refine ⟨h.next, h.next_le, h.slots, h.call_at, h.unwritten, ?_, ?_, ?_⟩
  · intro m there hm
    by_cases hml : m = l
    · subst hml
      rw [Function.update_self] at hm
      obtain rfl := Option.some.inj hm
      exact hok
    · rw [Function.update_of_ne hml] at hm
      exact h.lane_ok m there hm
  · intro m k i hm hk
    exact h.alone m k i (hback m i hm) (hback k i hk)
  · intro i call hi
    rcases h.call_ok i call hi with ⟨m, hm⟩ | hdone | ⟨m, fault, hfaulted, hm⟩
    · by_cases hml : m = l
      · subst hml
        rw [hl] at hm
        obtain ⟨fault, hfaulted, rfl⟩ := hcall i call hi (Option.some.inj hm)
        exact Or.inr (Or.inr ⟨m, fault, hfaulted, Or.inl (Function.update_self ..)⟩)
      · exact Or.inl ⟨m, by rw [Function.update_of_ne hml]; exact hm⟩
    · exact Or.inr (Or.inl hdone)
    · refine Or.inr (Or.inr ⟨m, fault, hfaulted, ?_⟩)
      by_cases hml : m = l
      · subst hml
        rw [hl] at hm
        rw [hfault fault (hm.imp Option.some.inj Option.some.inj)]
        exact Or.inr (Function.update_self ..)
      · rw [Function.update_of_ne hml]
        exact hm

/-- A lane writes the slot of its entry, and is about to take its next turn. -/
theorem Wired.freed {s : Batch} {lane : Nat → Option BatchLane} {l i : Nat} {call : DecideCall}
    {response : DecisionResponse} (h : Wired s lane) (hl : lane l = some (.deciding i))
    (hi : s.calls[i]? = some call) (ho : call.outcome = some (.ok response)) :
    Wired { s with decisions := s.decisions.set i (some response) } (Function.update lane l none) := by
  have hback : ∀ m place, Function.update lane l none m = some place → m ≠ l ∧ lane m = some place := by
    intro m place hm
    by_cases hml : m = l
    · subst hml
      rw [Function.update_self] at hm
      exact absurd hm (by simp)
    · rw [Function.update_of_ne hml] at hm
      exact ⟨hml, hm⟩
  have hlt : i < s.calls.length := (h.lane_ok l _ hl).1
  have hother : ∀ j, j ≠ i → (s.decisions.set i (some response))[j]? = s.decisions[j]? :=
    fun j hj => List.getElem?_set_ne (Ne.symm hj)
  refine ⟨h.next, h.next_le, ?_, h.call_at, ?_, ?_, ?_, ?_⟩
  · rw [List.length_set]
    exact h.slots
  · intro j hj hjn
    have hji : j ≠ i := by
      rintro rfl
      have hj : s.calls.length ≤ j := hj
      omega
    show (s.decisions.set i (some response))[j]? = some none
    rw [hother j hji]
    exact h.unwritten j hj hjn
  · intro m place hm
    obtain ⟨hml, hm⟩ := hback m place hm
    have hok := h.lane_ok m place hm
    cases place with
    | deciding j =>
      have hji : j ≠ i := by
        rintro rfl
        exact hml (h.alone m l j hm hl)
      refine ⟨hok.1, ?_⟩
      show (s.decisions.set i (some response))[j]? = some none
      rw [hother j hji]
      exact hok.2
    | returned => exact hok
    | counted => exact hok
    | threw fault => trivial
    | failed fault => exact hok
  · intro m k j hm hk
    exact h.alone m k j (hback m _ hm).2 (hback k _ hk).2
  · intro j other hj
    by_cases hji : j = i
    · subst hji
      have hj : s.calls[j]? = some other := hj
      rw [hi] at hj
      obtain rfl := Option.some.inj hj
      have hwritten : j < s.decisions.length := by
        have hle := h.next_le
        have hslots := h.slots
        omega
      exact Or.inr (Or.inl ⟨response, ho, List.getElem?_set_self hwritten⟩)
    · rcases h.call_ok j other hj with ⟨m, hm⟩ | ⟨r, hr, hslot⟩ | ⟨m, fault, hfaulted, hm⟩
      · have hml : m ≠ l := by
          rintro rfl
          rw [hl] at hm
          exact hji (BatchLane.deciding.inj (Option.some.inj hm)).symm
        exact Or.inl ⟨m, by rw [Function.update_of_ne hml]; exact hm⟩
      · exact Or.inr (Or.inl ⟨r, hr, (hother j hji).trans hslot⟩)
      · have hml : m ≠ l := by
          rintro rfl
          rw [hl] at hm
          exact absurd hm (by simp)
        exact Or.inr (Or.inr ⟨m, fault, hfaulted, by rw [Function.update_of_ne hml]; exact hm⟩)

/-- A `decide` settles: its lane still waits for it. -/
theorem Wired.settled {s : Batch} {lane : Nat → Option BatchLane} {i : Nat} {call : DecideCall}
    (h : Wired s lane) (hi : s.calls[i]? = some call) (ho : call.outcome = none)
    (o : Except DecisionFault DecisionResponse) :
    Wired { s with calls := s.calls.set i { call with outcome := some o } } lane := by
  have hback : ∀ j other, (s.calls.set i { call with outcome := some o })[j]? = some other →
      ∃ before, s.calls[j]? = some before ∧ other.index = before.index ∧
        other.entry = before.entry ∧ (j ≠ i → other = before) := by
    intro j other hj
    by_cases hji : j = i
    · subst hji
      rw [List.getElem?_set_self (List.getElem?_eq_some_iff.1 hi).1] at hj
      obtain rfl := Option.some.inj hj
      exact ⟨call, hi, rfl, rfl, fun hne => absurd rfl hne⟩
    · rw [List.getElem?_set_ne (Ne.symm hji)] at hj
      exact ⟨other, hj, rfl, rfl, fun _ => rfl⟩
  have hlength : (s.calls.set i { call with outcome := some o }).length = s.calls.length :=
    List.length_set
  refine ⟨h.next.trans hlength.symm, hlength.le.trans h.next_le, h.slots, ?_, ?_, ?_, h.alone, ?_⟩
  · intro j other hj
    obtain ⟨before, hbefore, hindex, hentry, -⟩ := hback j other hj
    obtain ⟨hat, hread⟩ := h.call_at j before hbefore
    exact ⟨hindex.trans hat, by rw [hentry]; exact hread⟩
  · intro j hj
    exact h.unwritten j (hlength ▸ hj)
  · intro l place hl
    have hok := h.lane_ok l place hl
    cases place with
    | deciding j => exact ⟨hlength.symm ▸ hok.1, hok.2⟩
    | returned => exact hok
    | counted => exact hok
    | threw fault => trivial
    | failed fault => exact hok
  · intro j other hj
    obtain ⟨before, hbefore, -, -, hsame⟩ := hback j other hj
    by_cases hji : j = i
    · subst hji
      rw [hi] at hbefore
      obtain rfl := Option.some.inj hbefore
      rcases h.call_ok j call hi with hlane | ⟨r, hr, -⟩ | ⟨m, fault, hfaulted, -⟩
      · exact Or.inl hlane
      · rw [ho] at hr
        exact absurd hr (by simp)
      · rw [ho] at hfaulted
        exact absurd hfaulted (by simp)
    · rw [hsame hji]
      exact h.call_ok j before hbefore

/-! ## The invariant -/

/-- What the handler has answered. -/
def Answered (s : Batch) : Prop :=
  (s.phase = .deciding ∧ s.answers = []) ∨
  (s.phase = .returned ∧ s.all = some (.ok ()) ∧ s.answers = [.decided s.decisions]) ∨
  (s.phase = .returned ∧ ∃ fault, s.all = some (.error fault) ∧
    (s.answers = [.internalError] ∨ s.answers = [] ∧ s.aborted = some fault.original))

/-- The invariant of a batch that is being decided, or was. -/
structure Inv (cfg : BatchConfig) (s : Batch) : Prop where
  wired : Wired s s.laneAt
  width : s.lanes.length = min cfg.batchConcurrency s.entries.length
  all_ok : s.all = some (.ok ()) → ∀ l place, s.laneAt l = some place → place = .counted
  counted : s.lanes ≠ [] → (∀ l place, s.laneAt l = some place → place = .counted) →
    s.all = some (.ok ())
  all_error : ∀ fault, s.all = some (.error fault) → ∃ l, s.laneAt l = some (.failed fault)
  abandoned : s.abandoned = true → ∃ fault, s.all = some (.error fault)
  answered : s.Answered

/-- Nothing is decided yet, or nothing will be. -/
structure Undecided (s : Batch) : Prop where
  lanes : s.lanes = []
  calls : s.calls = []
  all : s.all = none
  next : s.next = 0
  abandoned : s.abandoned = false
  answers : (s.phase = .authenticating ∧ s.answers = []) ∨
    (s.phase = .returned ∧ (s.answers = [] ∨ ∃ a, s.answers = [a] ∧ a.status ≠ 200))

/-- What a lane's turn leaves alone. -/
structure SameHandler (s s' : Batch) : Prop where
  phase : s'.phase = s.phase
  entries : s'.entries = s.entries
  aborted : s'.aborted = s.aborted
  authentications : s'.authentications = s.authentications
  abandoned : s'.abandoned = s.abandoned
  lanes : s'.lanes = s.lanes
  decisions : s'.decisions = s.decisions
  all : s'.all = s.all
  answers : s'.answers = s.answers

theorem pull_same (input : DecisionInput) (s : Batch) : SameHandler s (s.pull input).1 := by
  rcases pull_eq input s with ⟨entry, -, -, hpull⟩ | ⟨-, hpull⟩
  · rw [hpull]
    exact ⟨rfl, rfl, rfl, rfl, rfl, rfl, rfl, rfl, rfl⟩
  · rw [hpull]
    exact ⟨rfl, rfl, rfl, rfl, rfl, rfl, rfl, rfl, rfl⟩

/-- A lane that took a turn is not one that `Promise.all` has seen. -/
theorem pull_lane (input : DecisionInput) (s : Batch) :
    (s.pull input).2 ≠ .counted ∧ ∀ fault, (s.pull input).2 ≠ .failed fault := by
  rcases pull_eq input s with ⟨entry, -, -, hpull⟩ | ⟨-, hpull⟩
  · rw [hpull]
    exact ⟨by simp, fun fault => by simp⟩
  · rw [hpull]
    exact ⟨by simp, fun fault => by simp⟩

theorem laneAt_set {s s' : Batch} {l : Nat} {place place' : BatchLane} (hl : s.laneAt l = some place)
    (hlanes : s'.lanes = s.lanes.set l place') :
    s'.laneAt = Function.update s.laneAt l (some place') := by
  funext m
  unfold laneAt at hl ⊢
  rw [hlanes]
  by_cases hml : m = l
  · subst hml
    rw [Function.update_self, List.getElem?_set_self (List.getElem?_eq_some_iff.1 hl).1]
  · rw [Function.update_of_ne hml, List.getElem?_set_ne (Ne.symm hml)]

theorem laneAt_concat {s s' : Batch} {place : BatchLane} (hlanes : s'.lanes = s.lanes ++ [place]) :
    s'.laneAt = Function.update s.laneAt s.lanes.length (some place) := by
  funext m
  unfold laneAt
  rw [hlanes]
  by_cases hml : m = s.lanes.length
  · subst hml
    rw [Function.update_self, List.getElem?_concat_length]
  · rw [Function.update_of_ne hml, List.getElem?_append]
    split
    · rfl
    · rename_i hlt
      rw [List.getElem?_eq_none_iff.2 (by simp; omega), List.getElem?_eq_none_iff.2 (by omega)]

theorem laneAt_ne_nil {s : Batch} {l : Nat} {place : BatchLane} (h : s.laneAt l = some place) :
    s.lanes ≠ [] := by
  intro hnil
  unfold laneAt at h
  rw [hnil] at h
  exact absurd h (by simp)

/-- A lane that waits keeps `Promise.all` from having counted every lane. -/
theorem Inv.not_all_ok {cfg : BatchConfig} {s : Batch} (h : Inv cfg s) {l : Nat} {place : BatchLane}
    (hl : s.laneAt l = some place) (hne : place ≠ .counted) : s.all ≠ some (.ok ()) := by
  intro hall
  exact hne (h.all_ok hall l place hl)

/-- A lane changes its place, to one that `Promise.all` has not seen. -/
theorem Inv.of_lane {cfg : BatchConfig} {s s' : Batch} {l : Nat} {place place' : BatchLane}
    (h : Inv cfg s) (hl : s.laneAt l = some place) (hold : place ≠ .counted)
    (hnofail : ∀ fault, place ≠ .failed fault)
    (hlanes : s'.lanes = s.lanes.set l place') (hnew : place' ≠ .counted)
    (hwired : Wired s' s'.laneAt) (hphase : s'.phase = s.phase) (hentries : s'.entries = s.entries)
    (hall : s'.all = s.all) (habandoned : s'.abandoned = s.abandoned)
    (hanswers : s'.answers = s.answers) (haborted : s'.aborted = s.aborted) : Inv cfg s' := by
  have hat := laneAt_set hl hlanes
  have hself : s'.laneAt l = some place' := by
    rw [hat]
    exact Function.update_self ..
  refine ⟨hwired, ?_, ?_, ?_, ?_, ?_, ?_⟩
  · rw [hlanes, List.length_set, hentries]
    exact h.width
  · intro hok
    rw [hall] at hok
    exact absurd hok (h.not_all_ok hl hold)
  · intro _ hcounted
    exact absurd (hcounted l place' hself) hnew
  · intro fault hfault
    obtain ⟨m, hm⟩ := h.all_error fault (hall ▸ hfault)
    have hml : m ≠ l := by
      rintro rfl
      rw [hl] at hm
      exact hnofail fault (Option.some.inj hm)
    exact ⟨m, by rw [hat, Function.update_of_ne hml]; exact hm⟩
  · intro ha
    rw [habandoned] at ha
    rw [hall]
    exact h.abandoned ha
  · rcases h.answered with ⟨hp, ha⟩ | ⟨-, hok, -⟩ | ⟨hp, fault, herr, ha⟩
    · exact Or.inl ⟨hphase.trans hp, hanswers.trans ha⟩
    · exact absurd hok (h.not_all_ok hl hold)
    · refine Or.inr (Or.inr ⟨hphase.trans hp, fault, hall.trans herr, ?_⟩)
      rw [hanswers, haborted]
      exact ha

theorem resume_inv {cfg : BatchConfig} {s : Batch} {l i : Nat} {call : DecideCall}
    {o : Except DecisionFault DecisionResponse} (h : Inv cfg s) (hl : s.laneAt l = some (.deciding i))
    (hi : s.calls[i]? = some call) (ho : call.outcome = some o) :
    Inv cfg (s.resume l i call.input o) := by
  cases o with
  | ok response =>
    set freed : Batch := { s with decisions := s.decisions.set i (some response) } with hfreed
    have hwired := (h.wired.freed hl hi ho).pulled (Function.update_self ..) call.input
    have hsame := pull_same call.input freed
    have hlane := pull_lane call.input freed
    have hs' : s.resume l i call.input (.ok response) =
        { (freed.pull call.input).1 with
          lanes := (freed.pull call.input).1.lanes.set l (freed.pull call.input).2 } := rfl
    have hlanes : (s.resume l i call.input (.ok response)).lanes =
        s.lanes.set l (freed.pull call.input).2 := by
      rw [hs']
      show List.set _ _ _ = _
      rw [hsame.lanes]
    rw [Function.update_idem, ← laneAt_set hl hlanes] at hwired
    refine h.of_lane hl (by simp) (by simp) hlanes hlane.1 ?_ hsame.phase hsame.entries hsame.all
      hsame.abandoned hsame.answers hsame.aborted
    exact hwired.frame rfl rfl rfl rfl id fun fault hfault => ⟨fault, hfault⟩
  | error fault =>
    have hlanes : (s.resume l i call.input (.error fault)).lanes = s.lanes.set l (.threw fault) := rfl
    have hwired : Wired s (Function.update s.laneAt l (some (.threw fault))) := by
      refine h.wired.moved hl trivial (by simp) ?_ (by simp)
      intro j other hj hplace
      obtain rfl := BatchLane.deciding.inj hplace
      rw [hi] at hj
      obtain rfl := Option.some.inj hj
      exact ⟨fault, ho, rfl⟩
    rw [← laneAt_set hl hlanes] at hwired
    refine h.of_lane hl (by simp) (by simp) hlanes (by simp) ?_ rfl rfl rfl rfl rfl rfl
    exact hwired.frame rfl rfl rfl rfl id fun first hfirst => ⟨first, hfirst⟩

theorem allCounted_iff {s : Batch} :
    s.allCounted = true ↔ ∀ l place, s.laneAt l = some place → place = .counted := by
  unfold allCounted laneAt
  rw [List.all_eq_true]
  constructor
  · intro h l place hl
    have hplace := h place (List.mem_of_getElem? hl)
    cases place <;> simp_all
  · intro h place hmem
    obtain ⟨l, hl⟩ := List.mem_iff_getElem?.1 hmem
    rw [h l place hl]

/-- The state once `Promise.all` has counted a lane. -/
def seen (s : Batch) (l : Nat) : Batch := { s with lanes := s.lanes.set l .counted }

section Seen

variable {cfg : BatchConfig} {s : Batch} {l : Nat}

theorem laneAt_seen (hl : s.laneAt l = some .returned) :
    (s.seen l).laneAt = Function.update s.laneAt l (some .counted) := laneAt_set hl rfl

theorem Inv.wired_seen (h : Inv cfg s) (hl : s.laneAt l = some .returned) :
    Wired (s.seen l) (s.seen l).laneAt := by
  have hend := h.wired.lane_ok l _ hl
  have hcounted : Wired s (Function.update s.laneAt l (some .counted)) :=
    h.wired.moved hl hend (by simp) (by simp) (by simp)
  rw [laneAt_seen hl]
  exact hcounted.frame rfl rfl rfl rfl id fun fault hfault => ⟨fault, hfault⟩

/-- No other place is left or taken. -/
theorem laneAt_seen_iff (hl : s.laneAt l = some .returned) {m : Nat} {place : BatchLane}
    (hreturned : place ≠ .returned) (hcounted : place ≠ .counted) :
    s.laneAt m = some place ↔ (s.seen l).laneAt m = some place := by
  rw [laneAt_seen hl]
  by_cases hml : m = l
  · subst hml
    rw [Function.update_self, hl]
    simp [hreturned.symm, hcounted.symm]
  · rw [Function.update_of_ne hml]

/-- Where every lane is counted, nothing was thrown. -/
theorem Inv.all_none (h : Inv cfg s) (hl : s.laneAt l = some .returned)
    (hcounted : (s.seen l).allCounted = true) : s.all = none := by
  cases hset : s.all with
  | none => rfl
  | some o =>
    cases o with
    | ok u => exact absurd hset (h.not_all_ok hl (by simp))
    | error fault =>
      obtain ⟨m, hm⟩ := h.all_error fault hset
      have hfailed := (laneAt_seen_iff hl (by simp) (by simp)).1 hm
      exact absurd (allCounted_iff.1 hcounted m _ hfailed) (by simp)

/-- The last lane: `Promise.all` resolves. -/
theorem Inv.seen_last (h : Inv cfg s) (hl : s.laneAt l = some .returned)
    (hcounted : (s.seen l).allCounted = true) : Inv cfg ((s.seen l).settleAll (.ok ())) := by
  have hnone := h.all_none hl hcounted
  have hsettled : ((s.seen l).settleAll (.ok ())).all = some (.ok ()) := by
    show s.all.or _ = _
    rw [hnone]
    rfl
  have hphase : s.phase = .deciding ∧ s.answers = [] := by
    rcases h.answered with hp | ⟨-, hp, -⟩ | ⟨-, fault, hp, -⟩
    · exact hp
    · rw [hnone] at hp
      exact absurd hp (by simp)
    · rw [hnone] at hp
      exact absurd hp (by simp)
  have hat : ((s.seen l).settleAll (.ok ())).laneAt = (s.seen l).laneAt := rfl
  refine ⟨?_, ?_, ?_, fun _ _ => hsettled, ?_, ?_, Or.inl hphase⟩
  · rw [hat]
    refine (h.wired_seen hl).frame rfl rfl rfl rfl id ?_
    intro fault hfault
    have hfault : s.all = some (.error fault) := hfault
    rw [hnone] at hfault
    exact absurd hfault (by simp)
  · show (s.lanes.set l .counted).length = _
    rw [List.length_set]
    exact h.width
  · intro _ m place hm
    rw [hat] at hm
    exact allCounted_iff.1 hcounted m place hm
  · intro fault hfault
    rw [hsettled] at hfault
    exact absurd hfault (by simp)
  · intro ha
    obtain ⟨fault, hfault⟩ := h.abandoned ha
    rw [hnone] at hfault
    exact absurd hfault (by simp)

/-- A lane before the last. -/
theorem Inv.seen_earlier (h : Inv cfg s) (hl : s.laneAt l = some .returned)
    (hcounted : ¬ (s.seen l).allCounted = true) : Inv cfg (s.seen l) := by
  have hunsettled := h.not_all_ok hl (by simp)
  refine ⟨h.wired_seen hl, ?_, ?_, ?_, ?_, h.abandoned, ?_⟩
  · rw [seen, List.length_set]
    exact h.width
  · intro hset
    exact absurd hset hunsettled
  · intro _ hplaces
    exact absurd (allCounted_iff.2 hplaces) hcounted
  · intro fault hfault
    obtain ⟨m, hm⟩ := h.all_error fault hfault
    exact ⟨m, (laneAt_seen_iff hl (by simp) (by simp)).1 hm⟩
  · rcases h.answered with hp | ⟨-, hset, -⟩ | hp
    · exact Or.inl hp
    · exact absurd hset hunsettled
    · exact Or.inr (Or.inr hp)

end Seen

/-- `Promise.all` sees a lane return. -/
theorem laneReturned_inv {cfg : BatchConfig} {s s' : Batch} {l : Nat} (h : Inv cfg s)
    (hl : s.laneAt l = some .returned) (hs : s.step cfg (.laneEnded l) = some s') : Inv cfg s' := by
  have hs' : s' = if (s.seen l).allCounted then (s.seen l).settleAll (.ok ()) else s.seen l := by
    unfold laneAt at hl
    simp only [step, hl] at hs
    exact (Option.some.inj hs).symm
  by_cases hcounted : (s.seen l).allCounted = true
  · rw [hs', if_pos hcounted]
    exact h.seen_last hl hcounted
  · rw [hs', if_neg hcounted]
    exact h.seen_earlier hl hcounted

/-- `Promise.all` sees a lane throw: the first fault it sees is the one it settles with. -/
theorem laneThrew_inv {cfg : BatchConfig} {s s' : Batch} {l : Nat} {fault : DecisionFault}
    (h : Inv cfg s) (hl : s.laneAt l = some (.threw fault))
    (hs : s.step cfg (.laneEnded l) = some s') : Inv cfg s' := by
  have hs' : s' = { s with
      lanes := s.lanes.set l (.failed fault), all := s.all.or (some (.error fault)) } := by
    unfold laneAt at hl
    simp only [step, hl] at hs
    exact (Option.some.inj hs).symm
  have hlanes : s'.lanes = s.lanes.set l (.failed fault) := by rw [hs']
  have hat := laneAt_set hl hlanes
  have hself : s'.laneAt l = some (.failed fault) := by
    rw [hat]
    exact Function.update_self ..
  have hunsettled := h.not_all_ok hl (by simp)
  have hall : s'.all = some (.error fault) ∧ s.all = none ∨
      ∃ first, s.all = some (.error first) ∧ s'.all = some (.error first) := by
    rw [hs']
    cases hset : s.all with
    | none => exact Or.inl ⟨rfl, rfl⟩
    | some o =>
      cases o with
      | ok u => exact absurd hset hunsettled
      | error first => exact Or.inr ⟨first, rfl, rfl⟩
  obtain ⟨first, hfirst⟩ : ∃ first, s'.all = some (.error first) := by
    rcases hall with ⟨hset, -⟩ | ⟨first, -, hset⟩
    · exact ⟨fault, hset⟩
    · exact ⟨first, hset⟩
  refine ⟨?_, ?_, ?_, ?_, ?_, fun _ => ⟨first, hfirst⟩, ?_⟩
  · have hframed : Wired s' s.laneAt := h.wired.frame (by rw [hs']) (by rw [hs']) (by rw [hs'])
      (by rw [hs']) (fun ha => by rw [hs']; exact ha) fun _ _ => ⟨first, hfirst⟩
    rw [hat]
    refine hframed.moved hl ⟨first, hfirst⟩ (by simp) (by simp) ?_
    intro other hother
    rcases hother with hother | hother
    · rw [BatchLane.threw.inj hother]
    · exact absurd hother (by simp)
  · rw [hlanes, List.length_set, hs']
    exact h.width
  · intro hok
    rw [hfirst] at hok
    exact absurd hok (by simp)
  · intro _ hcounted
    exact absurd (hcounted l _ hself) (by simp)
  · intro seen hseen
    rcases hall with ⟨hset, -⟩ | ⟨before, hset, hset'⟩
    · rw [hset] at hseen
      obtain rfl := Except.error.inj (Option.some.inj hseen)
      exact ⟨l, hself⟩
    · rw [hset'] at hseen
      obtain rfl := Except.error.inj (Option.some.inj hseen)
      obtain ⟨m, hm⟩ := h.all_error before hset
      have hml : m ≠ l := by
        rintro rfl
        rw [hl] at hm
        exact absurd hm (by simp)
      exact ⟨m, by rw [hat, Function.update_of_ne hml]; exact hm⟩
  · rcases h.answered with ⟨hp, ha⟩ | ⟨-, hset, -⟩ | ⟨hp, before, hset, ha⟩
    · rw [hs']
      exact Or.inl ⟨hp, ha⟩
    · exact absurd hset hunsettled
    · refine Or.inr (Or.inr ⟨by rw [hs']; exact hp, before, ?_, by rw [hs']; exact ha⟩)
      rw [hs']
      show s.all.or _ = _
      rw [hset]
      rfl

/-- The handler answers or returns: the lanes are where they were. -/
theorem Inv.of_handler {cfg : BatchConfig} {s s' : Batch} (h : Inv cfg s)
    (hsame : s'.lanes = s.lanes ∧ s'.next = s.next ∧ s'.calls = s.calls ∧ s'.entries = s.entries ∧
      s'.decisions = s.decisions ∧ s'.all = s.all)
    (habandoned : s.abandoned = true → s'.abandoned = true)
    (hall : s'.abandoned = true → ∃ fault, s.all = some (.error fault)) (hanswered : s'.Answered) :
    Inv cfg s' := by
  obtain ⟨hlanes, hnext, hcalls, hentries, hslots, hset⟩ := hsame
  have hat : s'.laneAt = s.laneAt := by
    unfold laneAt
    rw [hlanes]
  refine ⟨?_, ?_, ?_, ?_, ?_, ?_, hanswered⟩
  · rw [hat]
    exact h.wired.frame hnext hcalls hentries hslots habandoned fun fault hfault =>
      ⟨fault, hset.trans hfault⟩
  · rw [hlanes, hentries]
    exact h.width
  · rw [hset, hat]
    exact h.all_ok
  · rw [hset, hat, hlanes]
    exact h.counted
  · rw [hset, hat]
    exact h.all_error
  · rw [hset]
    exact hall

/-- The handler goes on from `Promise.all`: it answers, or the caller has left. -/
theorem proceed_inv {cfg : BatchConfig} {s s' : Batch} (h : Inv cfg s)
    (hs : s.step cfg .proceed = some s') : Inv cfg s' := by
  have hnone : s.phase = .deciding → s.answers = [] := by
    intro hphase
    rcases h.answered with ⟨-, ha⟩ | ⟨hp, -⟩ | ⟨hp, -⟩
    · exact ha
    · rw [hphase] at hp
      exact absurd hp (by simp)
    · rw [hphase] at hp
      exact absurd hp (by simp)
  unfold step at hs
  dsimp only at hs
  split at hs
  · rename_i hphase hall
    obtain rfl := Option.some.inj hs
    refine h.of_handler ⟨rfl, rfl, rfl, rfl, rfl, rfl⟩ id h.abandoned (Or.inr (Or.inl ⟨rfl, hall, ?_⟩))
    show s.answers ++ _ = _
    rw [hnone hphase]
    rfl
  · rename_i fault hphase hall
    obtain rfl := Option.some.inj hs
    unfold caught
    split
    · rename_i hgone
      exact h.of_handler ⟨rfl, rfl, rfl, rfl, rfl, rfl⟩ (fun _ => rfl) (fun _ => ⟨fault, hall⟩)
        (Or.inr (Or.inr ⟨rfl, fault, hall, Or.inr ⟨hnone hphase, hgone⟩⟩))
    · refine h.of_handler ⟨rfl, rfl, rfl, rfl, rfl, rfl⟩ (fun _ => rfl) (fun _ => ⟨fault, hall⟩)
        (Or.inr (Or.inr ⟨rfl, fault, hall, Or.inl ?_⟩))
      show s.answers ++ _ = _
      rw [hnone hphase]
      rfl
  · exact absurd hs (by simp)

theorem close_inv {cfg : BatchConfig} {s : Batch} {reason : Thrown} (h : Inv cfg s) :
    Inv cfg { s with aborted := s.aborted.or (some reason) } := by
  refine h.of_handler ⟨rfl, rfl, rfl, rfl, rfl, rfl⟩ id h.abandoned ?_
  rcases h.answered with hp | hp | ⟨hp, fault, hall, ha⟩
  · exact Or.inl hp
  · exact Or.inr (Or.inl hp)
  · refine Or.inr (Or.inr ⟨hp, fault, hall, ha.imp_right fun hgone => ⟨hgone.1, ?_⟩⟩)
    show s.aborted.or _ = _
    rw [hgone.2]
    rfl

theorem settle_inv {cfg : BatchConfig} {s : Batch} {i : Nat} {call : DecideCall} (h : Inv cfg s)
    (hi : s.calls[i]? = some call) (ho : call.outcome = none)
    (o : Except DecisionFault DecisionResponse) :
    Inv cfg { s with calls := s.calls.set i { call with outcome := some o } } :=
  ⟨h.wired.settled hi ho o, h.width, h.all_ok, h.counted, h.all_error, h.abandoned, h.answered⟩

theorem Inv.not_authenticating {cfg : BatchConfig} {s : Batch} (h : Inv cfg s) :
    s.phase ≠ .authenticating := by
  rcases h.answered with ⟨hp, -⟩ | ⟨hp, -⟩ | ⟨hp, -⟩
  · rw [hp]; simp
  · rw [hp]; simp
  · rw [hp]; simp

/-- Every event but the authenticator's answer keeps the invariant; that one is awaited no more. -/
theorem step_inv {cfg : BatchConfig} {s s' : Batch} {e : BatchEvent} (h : Inv cfg s)
    (hs : s.step cfg e = some s') : Inv cfg s' := by
  cases e with
  | authenticated o =>
    simp only [step] at hs
    rw [if_neg h.not_authenticating] at hs
    exact absurd hs (by simp)
  | settle i o =>
    unfold step at hs
    dsimp only at hs
    cases hi : s.calls[i]? with
    | none => rw [hi] at hs; exact absurd hs (by simp)
    | some call =>
      rw [hi] at hs
      dsimp only at hs
      split at hs
      · exact absurd hs (by simp)
      · rename_i ho
        obtain rfl := Option.some.inj hs
        exact settle_inv h hi (Option.not_isSome_iff_eq_none.1 ho) o
  | resume l =>
    unfold step at hs
    dsimp only at hs
    split at hs
    · rename_i i hl
      cases hi : s.calls[i]? with
      | none => rw [hi] at hs; exact absurd hs (by simp)
      | some call =>
        rw [hi] at hs
        obtain ⟨o, ho, rfl⟩ := Option.map_eq_some_iff.1 hs
        exact resume_inv h hl hi ho
    · exact absurd hs (by simp)
  | laneEnded l =>
    have hplace : s.laneAt l = some .returned ∨ ∃ fault, s.laneAt l = some (.threw fault) := by
      unfold step at hs
      dsimp only at hs
      split at hs
      · exact Or.inl ‹_›
      · exact Or.inr ⟨_, ‹_›⟩
      · exact absurd hs (by simp)
    rcases hplace with hl | ⟨fault, hl⟩
    · exact laneReturned_inv h hl hs
    · exact laneThrew_inv h hl hs
  | proceed => exact proceed_inv h hs
  | close reason =>
    obtain rfl := Option.some.inj hs
    exact close_inv h

/-! ## The start of the lanes -/

/-- Some lanes have been started, and none has ended. -/
structure Started (s t : Batch) : Prop where
  wired : Wired t t.laneAt
  uncounted : ∀ l place, t.laneAt l = some place → place ≠ .counted
  phase : t.phase = s.phase
  entries : t.entries = s.entries
  authentications : t.authentications = s.authentications
  abandoned : t.abandoned = s.abandoned
  all : t.all = s.all
  answers : t.answers = s.answers

theorem Started.startLane {s t : Batch} (h : Started s t) (input : DecisionInput) :
    Started s (t.startLane input) ∧ (t.startLane input).lanes.length = t.lanes.length + 1 := by
  have hsame := pull_same input t
  have hlanes : (t.startLane input).lanes = t.lanes ++ [(t.pull input).2] := by
    show (t.pull input).1.lanes ++ [(t.pull input).2] = _
    rw [hsame.lanes]
  have hat := laneAt_concat hlanes
  have hfresh : t.laneAt t.lanes.length = none := List.getElem?_eq_none_iff.2 le_rfl
  refine ⟨⟨?_, ?_, hsame.phase.trans h.phase, hsame.entries.trans h.entries,
    hsame.authentications.trans h.authentications, hsame.abandoned.trans h.abandoned,
    hsame.all.trans h.all, hsame.answers.trans h.answers⟩, ?_⟩
  · rw [hat]
    exact (h.wired.pulled hfresh input).frame rfl rfl rfl rfl id fun fault hfault => ⟨fault, hfault⟩
  · intro l place hl
    rw [hat] at hl
    by_cases hlast : l = t.lanes.length
    · subst hlast
      rw [Function.update_self] at hl
      obtain rfl := Option.some.inj hl
      exact (pull_lane input t).1
    · rw [Function.update_of_ne hlast] at hl
      exact h.uncounted l place hl
  · rw [hlanes, List.length_append, List.length_singleton]

theorem started_iterate {s t : Batch} (h : Started s t) (hlanes : t.lanes = []) (input : DecisionInput)
    (n : Nat) :
    Started s ((Batch.startLane input)^[n] t) ∧ ((Batch.startLane input)^[n] t).lanes.length = n := by
  induction n with
  | zero => exact ⟨h, by rw [Function.iterate_zero, id, hlanes]; rfl⟩
  | succ n ih =>
    rw [Function.iterate_succ_apply']
    obtain ⟨hstarted, hlength⟩ := ih
    obtain ⟨hnext, hone⟩ := hstarted.startLane input
    exact ⟨hnext, by rw [hone, hlength]⟩

/-- An authenticated request starts its lanes. -/
theorem decideAll_inv {cfg : BatchConfig} {s : Batch} (h : Undecided s) (hanswers : s.answers = [])
    (hwidth : min cfg.batchConcurrency s.entries.length ≠ 0) (input : DecisionInput) :
    Inv cfg (s.decideAll cfg input) ∧ (s.decideAll cfg input).entries = s.entries ∧
      (s.decideAll cfg input).authentications = s.authentications := by
  set ready : Batch := { s with
    phase := .deciding
    decisions := List.replicate s.entries.length none
    all := if min cfg.batchConcurrency s.entries.length = 0 then some (.ok ()) else none } with hready
  have hall : ready.all = none := if_neg hwidth
  have hlanes : ready.lanes = [] := h.lanes
  have hcalls : ready.calls = [] := h.calls
  have hat : ∀ l place, ready.laneAt l ≠ some place := by
    intro l place hl
    exact laneAt_ne_nil hl hlanes
  have hwired : Wired ready ready.laneAt := by
    refine ⟨?_, ?_, ?_, ?_, ?_, ?_, ?_, ?_⟩
    · rw [hcalls]
      exact h.next
    · rw [hcalls]
      exact Nat.zero_le _
    · exact List.length_replicate
    · intro i call hi
      rw [hcalls] at hi
      exact absurd hi (by simp)
    · intro i _ hi
      exact List.getElem?_replicate_of_lt hi
    · intro l place hl
      exact absurd hl (hat l place)
    · intro l m i hl
      exact absurd hl (hat l _)
    · intro i call hi
      rw [hcalls] at hi
      exact absurd hi (by simp)
  have hstart : Started ready ready :=
    ⟨hwired, fun l place hl => absurd hl (hat l place), rfl, rfl, rfl, rfl, rfl, rfl⟩
  obtain ⟨hstarted, hlength⟩ := started_iterate hstart hlanes input
    (min cfg.batchConcurrency s.entries.length)
  have hs' : s.decideAll cfg input =
      (Batch.startLane input)^[min cfg.batchConcurrency s.entries.length] ready := rfl
  rw [hs']
  have hnone := hstarted.all.trans hall
  refine ⟨⟨hstarted.wired, ?_, ?_, ?_, ?_, ?_, ?_⟩, hstarted.entries, hstarted.authentications⟩
  · rw [hlength, hstarted.entries]
  · intro hok
    rw [hnone] at hok
    exact absurd hok (by simp)
  · intro hne hcounted
    obtain ⟨place, hmem⟩ := List.exists_mem_of_ne_nil _ hne
    obtain ⟨l, hl⟩ := List.mem_iff_getElem?.1 hmem
    exact absurd (hcounted l place hl) (hstarted.uncounted l place hl)
  · intro fault hfault
    rw [hnone] at hfault
    exact absurd hfault (by simp)
  · intro ha
    rw [hstarted.abandoned] at ha
    exact absurd (ha.symm.trans h.abandoned) (by simp)
  · exact Or.inl ⟨hstarted.phase, hstarted.answers.trans hanswers⟩

/-! ## Every state of a request -/

/-- The state of a request whose body was read. -/
def Running (cfg : BatchConfig) (entries : List ValidatedDecisionRequest) (s : Batch) : Prop :=
  s.entries = entries ∧ s.authentications = 1 ∧ (Undecided s ∨ Inv cfg s)

/-- An undecided request changes only by the authenticator's answer and by the caller leaving. -/
theorem Undecided.step {cfg : BatchConfig} {s s' : Batch} {e : BatchEvent} (h : Undecided s)
    (hs : s.step cfg e = some s') :
    (∃ o, e = .authenticated o ∧ s.phase = .authenticating ∧ s' = s.authenticated cfg o) ∨
    ∃ reason, e = .close reason ∧ s' = { s with aborted := s.aborted.or (some reason) } := by
  cases e with
  | authenticated o =>
    simp only [Batch.step] at hs
    split at hs
    · rename_i hphase
      exact Or.inl ⟨o, rfl, hphase, (Option.some.inj hs).symm⟩
    · exact absurd hs (by simp)
  | close reason => exact Or.inr ⟨reason, rfl, (Option.some.inj hs).symm⟩
  | settle i o => simp [Batch.step, h.calls] at hs
  | resume l => simp [Batch.step, h.lanes] at hs
  | laneEnded l => simp [Batch.step, h.lanes] at hs
  | proceed => simp [Batch.step, h.all] at hs

theorem authFailureStatus_ne_ok (code : AuthenticationCode) : authFailureStatus code ≠ 200 := by
  unfold authFailureStatus
  split
  · simp
  · simp

/-- A fault before any decision is answered with a 500, or to nobody. -/
theorem Undecided.caught {s : Batch} (h : Undecided s) (hanswers : s.answers = [])
    (cfg : BatchConfig) (cause : Thrown) (failure : ClassifiedFailure) :
    Undecided (s.caught cfg cause failure) := by
  unfold Batch.caught
  split
  · exact ⟨h.lanes, h.calls, h.all, h.next, h.abandoned, Or.inr ⟨rfl, Or.inl hanswers⟩⟩
  · refine ⟨h.lanes, h.calls, h.all, h.next, h.abandoned, Or.inr ⟨rfl, Or.inr ⟨.internalError, ?_, ?_⟩⟩⟩
    · show s.answers ++ _ = _
      rw [hanswers]
      rfl
    · decide

theorem caught_same (cfg : BatchConfig) (s : Batch) (cause : Thrown) (failure : ClassifiedFailure) :
    (s.caught cfg cause failure).entries = s.entries ∧
      (s.caught cfg cause failure).authentications = s.authentications := by
  unfold caught
  split
  · exact ⟨rfl, rfl⟩
  · exact ⟨rfl, rfl⟩

/-- Once the lanes run, the entries stay what they are, and nobody is authenticated again. -/
theorem Inv.step_same {cfg : BatchConfig} {s s' : Batch} {e : BatchEvent} (h : Inv cfg s)
    (hs : s.step cfg e = some s') : s'.entries = s.entries ∧ s'.authentications = s.authentications := by
  cases e with
  | authenticated o =>
    simp only [Batch.step] at hs
    rw [if_neg h.not_authenticating] at hs
    exact absurd hs (by simp)
  | settle i o =>
    simp only [Batch.step] at hs
    split at hs
    · exact absurd hs (by simp)
    split at hs
    · exact absurd hs (by simp)
    · obtain rfl := Option.some.inj hs
      exact ⟨rfl, rfl⟩
  | resume l =>
    simp only [Batch.step] at hs
    split at hs
    · split at hs
      · exact absurd hs (by simp)
      · obtain ⟨o, -, rfl⟩ := Option.map_eq_some_iff.1 hs
        cases o with
        | ok response => exact ⟨(pull_same _ _).entries, (pull_same _ _).authentications⟩
        | error fault => exact ⟨rfl, rfl⟩
    · exact absurd hs (by simp)
  | laneEnded l =>
    simp only [Batch.step] at hs
    split at hs
    · obtain rfl := Option.some.inj hs
      split
      · exact ⟨rfl, rfl⟩
      · exact ⟨rfl, rfl⟩
    · obtain rfl := Option.some.inj hs
      exact ⟨rfl, rfl⟩
    · exact absurd hs (by simp)
  | proceed =>
    simp only [Batch.step] at hs
    split at hs
    · obtain rfl := Option.some.inj hs
      exact ⟨rfl, rfl⟩
    · obtain rfl := Option.some.inj hs
      exact caught_same cfg _ _ _
    · exact absurd hs (by simp)
  | close reason =>
    obtain rfl := Option.some.inj hs
    exact ⟨rfl, rfl⟩

theorem Running.step {cfg : BatchConfig} {entries : List ValidatedDecisionRequest} {s s' : Batch}
    {e : BatchEvent} (hwidth : min cfg.batchConcurrency entries.length ≠ 0)
    (h : Running cfg entries s) (hs : s.step cfg e = some s') : Running cfg entries s' := by
  obtain ⟨hentries, hauth, hundecided | hinv⟩ := h
  · rcases hundecided.step hs with ⟨o, rfl, hphase, rfl⟩ | ⟨reason, rfl, rfl⟩
    · have hanswers : s.answers = [] := by
        rcases hundecided.answers with ⟨-, ha⟩ | ⟨hp, -⟩
        · exact ha
        · rw [hphase] at hp
          exact absurd hp (by simp)
      cases o with
      | error cause =>
        have hcaught := hundecided.caught hanswers cfg cause .internal
        obtain ⟨hsame, hcount⟩ := caught_same cfg s cause .internal
        exact ⟨hsame.trans hentries, hcount.trans hauth, Or.inl hcaught⟩
      | ok result =>
        cases result with
        | refused code message =>
          refine ⟨hentries, hauth, Or.inl ⟨hundecided.lanes, hundecided.calls, hundecided.all,
            hundecided.next, hundecided.abandoned, Or.inr ⟨rfl, Or.inr
              ⟨.unauthenticated code message, ?_, authFailureStatus_ne_ok code⟩⟩⟩⟩
          show s.answers ++ _ = _
          rw [hanswers]
          rfl
        | accepted subject =>
          rw [← hentries] at hwidth
          obtain ⟨hinv, hsame, hcount⟩ :=
            decideAll_inv hundecided hanswers hwidth (decisionInput cfg subject)
          exact ⟨hsame.trans hentries, hcount.trans hauth, Or.inr hinv⟩
    · exact ⟨hentries, hauth, Or.inl ⟨hundecided.lanes, hundecided.calls, hundecided.all,
        hundecided.next, hundecided.abandoned, hundecided.answers⟩⟩
  · obtain ⟨hsame, hcount⟩ := hinv.step_same hs
    exact ⟨hsame.trans hentries, hcount.trans hauth, Or.inr (step_inv hinv hs)⟩

/-! ## What the invariant says -/

/-- The calls are one for each index, in order. -/
theorem Wired.indices {s : Batch} {lane : Nat → Option BatchLane} (h : Wired s lane) :
    s.calls.map DecideCall.index = List.range s.calls.length := by
  refine List.ext_getElem? fun i => ?_
  rw [List.getElem?_map]
  cases hi : s.calls[i]? with
  | none =>
    have hlen := List.getElem?_eq_none_iff.1 hi
    rw [List.getElem?_eq_none_iff.2 (by rw [List.length_range]; exact hlen)]
    rfl
  | some call =>
    have hlt := (List.getElem?_eq_some_iff.1 hi).1
    rw [List.getElem?_range hlt, Option.map_some, (h.call_at i call hi).1]

/-- The index a lane waits for. -/
def BatchLane.index? : BatchLane → Option Nat
  | .deciding i => some i
  | _ => none

/-- There are at most as many decisions in flight as there are lanes. -/
theorem Inv.inFlight_le {cfg : BatchConfig} {s : Batch} (h : Inv cfg s) :
    s.inFlight.length ≤ cfg.batchConcurrency := by
  have hnodup : (s.inFlight.map DecideCall.index).Nodup := by
    refine List.Sublist.nodup (List.Sublist.map DecideCall.index List.filter_sublist) ?_
    rw [h.wired.indices]
    exact List.nodup_range
  have hsub : s.inFlight.map DecideCall.index ⊆ s.lanes.filterMap BatchLane.index? := by
    intro i hi
    obtain ⟨call, hcall, rfl⟩ := List.mem_map.1 hi
    obtain ⟨hmem, hout⟩ := List.mem_filter.1 hcall
    obtain ⟨k, hk⟩ := List.mem_iff_getElem?.1 hmem
    have hnone : call.outcome = none := Option.isNone_iff_eq_none.1 hout
    rcases h.wired.call_ok k call hk with ⟨l, hl⟩ | ⟨r, hr, -⟩ | ⟨l, fault, hf, -⟩
    · rw [(h.wired.call_at k call hk).1]
      exact List.mem_filterMap.2 ⟨.deciding k, List.mem_of_getElem? hl, rfl⟩
    · rw [hnone] at hr
      exact absurd hr (by simp)
    · rw [hnone] at hf
      exact absurd hf (by simp)
  calc s.inFlight.length = (s.inFlight.map DecideCall.index).length := List.length_map _ |>.symm
    _ ≤ (s.lanes.filterMap BatchLane.index?).length := (List.subperm_of_subset hnodup hsub).length_le
    _ ≤ s.lanes.length := List.length_filterMap_le _ _
    _ ≤ cfg.batchConcurrency := by
      rw [h.width]
      exact Nat.min_le_left _ _

/-- Once `Promise.all` has every lane's return, every entry was decided, into its own slot. -/
theorem Inv.whole {cfg : BatchConfig} {s : Batch} (h : Inv cfg s)
    (hwidth : min cfg.batchConcurrency s.entries.length ≠ 0) (hall : s.all = some (.ok ())) :
    s.calls.length = s.entries.length ∧ ∀ (i : Nat) (call : DecideCall), s.calls[i]? = some call →
      ∃ response, call.outcome = some (.ok response) ∧ s.decisions[i]? = some (some response) := by
  have hcounted := h.all_ok hall
  have hne : s.lanes ≠ [] := by
    intro hnil
    have hlen := h.width
    rw [hnil] at hlen
    exact hwidth hlen.symm
  obtain ⟨place, hmem⟩ := List.exists_mem_of_ne_nil _ hne
  obtain ⟨l, hl⟩ := List.mem_iff_getElem?.1 hmem
  have hplace := hcounted l place hl
  subst hplace
  refine ⟨?_, ?_⟩
  · rcases h.wired.lane_ok l _ hl with ha | hend
    · obtain ⟨fault, hfault⟩ := h.abandoned ha
      rw [hall] at hfault
      exact absurd hfault (by simp)
    · rw [← h.wired.next]
      exact hend
  · intro i call hi
    rcases h.wired.call_ok i call hi with ⟨m, hm⟩ | hdone | ⟨m, fault, -, hm | hm⟩
    · exact absurd (hcounted m _ hm) (by simp)
    · exact hdone
    · exact absurd (hcounted m _ hm) (by simp)
    · exact absurd (hcounted m _ hm) (by simp)

/-- No lane can go on: each was seen to end, or waits for a `decide` that is out. -/
theorem AtRest.lane {cfg : BatchConfig} {s : Batch} (hrest : s.AtRest cfg) {l : Nat} {place : BatchLane}
    (hl : s.laneAt l = some place) :
    place = .counted ∨ (∃ fault, place = .failed fault) ∨
      ∃ i, place = .deciding i ∧ ∀ call : DecideCall, s.calls[i]? = some call → call.outcome = none := by
  obtain ⟨hresume, hended, -⟩ := hrest
  unfold laneAt at hl
  cases place with
  | counted => exact Or.inl rfl
  | failed fault => exact Or.inr (Or.inl ⟨fault, rfl⟩)
  | deciding i =>
    refine Or.inr (Or.inr ⟨i, rfl, fun call hi => ?_⟩)
    have hstuck := hresume l
    simp only [step, hl, hi] at hstuck
    exact Option.map_eq_none_iff.1 hstuck
  | returned =>
    have hstuck := hended l
    simp only [step, hl] at hstuck
    exact absurd hstuck (by simp)
  | threw fault =>
    have hstuck := hended l
    simp only [step, hl] at hstuck
    exact absurd hstuck (by simp)

/-- Once `Promise.all` has settled, the handler does not stop before it has returned. -/
theorem Inv.at_rest {cfg : BatchConfig} {s : Batch} (h : Inv cfg s) (hrest : s.AtRest cfg)
    (hall : s.all ≠ none) : s.phase = .returned := by
  obtain ⟨-, -, hproceed⟩ := hrest
  rcases h.answered with ⟨hphase, -⟩ | ⟨hphase, -⟩ | ⟨hphase, -⟩
  · cases hset : s.all with
    | none => exact absurd hset hall
    | some o =>
      cases o with
      | ok u =>
        simp only [step, hphase, hset] at hproceed
        exact absurd hproceed (by simp)
      | error fault =>
        simp only [step, hphase, hset] at hproceed
        exact absurd hproceed (by simp)
  · exact hphase
  · exact hphase

/-- A call that threw ends the batch: never a 200, and at rest one 500, unless the caller has left. -/
theorem Inv.faulted {cfg : BatchConfig} {s : Batch} (h : Inv cfg s)
    (hwidth : min cfg.batchConcurrency s.entries.length ≠ 0) {call : DecideCall} {fault : DecisionFault}
    (hmem : call ∈ s.calls) (hfault : call.outcome = some (.error fault)) :
    s.all ≠ some (.ok ()) ∧ (s.AtRest cfg → ∃ first, s.all = some (.error first) ∧
      (s.answers = [.internalError] ∨ s.answers = [] ∧ s.aborted = some first.original)) := by
  obtain ⟨i, hi⟩ := List.mem_iff_getElem?.1 hmem
  have hnot : s.all ≠ some (.ok ()) := by
    intro hall
    obtain ⟨response, hresponse, -⟩ := (h.whole hwidth hall).2 i call hi
    rw [hfault] at hresponse
    exact absurd hresponse (by simp)
  refine ⟨hnot, fun hrest => ?_⟩
  obtain ⟨l, hl⟩ : ∃ l, s.laneAt l = some (.failed fault) := by
    rcases h.wired.call_ok i call hi with ⟨l, hl⟩ | ⟨r, hr, -⟩ | ⟨l, other, hother, hl⟩
    · rcases hrest.lane hl with hplace | ⟨first, hplace⟩ | ⟨j, hplace, hout⟩
      · exact absurd hplace (by simp)
      · exact absurd hplace (by simp)
      · obtain rfl := BatchLane.deciding.inj hplace
        have hnone := hout call hi
        rw [hfault] at hnone
        exact absurd hnone (by simp)
    · rw [hfault] at hr
      exact absurd hr (by simp)
    · rw [hfault] at hother
      obtain rfl := Except.error.inj (Option.some.inj hother)
      rcases hl with hl | hl
      · rcases hrest.lane hl with hplace | ⟨first, hplace⟩ | ⟨j, hplace, -⟩
        · exact absurd hplace (by simp)
        · exact absurd hplace (by simp)
        · exact absurd hplace (by simp)
      · exact ⟨l, hl⟩
  obtain ⟨first, hfirst⟩ := h.wired.lane_ok l _ hl
  have hreturned := h.at_rest hrest (by rw [hfirst]; simp)
  rcases h.answered with ⟨hphase, -⟩ | ⟨-, hok, -⟩ | ⟨-, seen, hseen, hanswer⟩
  · rw [hreturned] at hphase
    exact absurd hphase (by simp)
  · exact absurd hok hnot
  · exact ⟨seen, hseen, hanswer⟩

theorem exists_map_some {α : Type} {slots : List (Option α)} (h : ∀ slot ∈ slots, slot ≠ none) :
    ∃ values : List α, slots = values.map some := by
  induction slots with
  | nil => exact ⟨[], rfl⟩
  | cons slot slots ih =>
    obtain ⟨values, hvalues⟩ := ih fun other hother => h other (List.mem_cons_of_mem _ hother)
    obtain ⟨value, hvalue⟩ := Option.ne_none_iff_exists'.1 (h slot List.mem_cons_self)
    exact ⟨value :: values, by rw [hvalue, hvalues, List.map_cons]⟩

/-- A 200 carries what `decide` returned for each entry, in the entries' order. -/
theorem Inv.ok_answer {cfg : BatchConfig} {s : Batch} (h : Inv cfg s)
    (hwidth : min cfg.batchConcurrency s.entries.length ≠ 0) {a : Answer} (ha : a ∈ s.answers)
    (hok : a.status = 200) :
    s.all = some (.ok ()) ∧ ∃ responses : List DecisionResponse, a = .decided (responses.map some) ∧
      responses.length = s.entries.length ∧
      s.calls.map DecideCall.index = List.range s.entries.length ∧
      ∀ (i : Nat) (call : DecideCall), s.calls[i]? = some call → s.entries[i]? = some call.entry ∧
        ∃ response, responses[i]? = some response ∧ call.outcome = some (.ok response) := by
  rcases h.answered with ⟨-, hnil⟩ | ⟨-, hall, hone⟩ | ⟨-, fault, -, hone | ⟨hnil, -⟩⟩
  · rw [hnil] at ha
    exact absurd ha (by simp)
  · rw [hone] at ha
    obtain ⟨hcalls, hslots⟩ := h.whole hwidth hall
    have hwritten : ∀ slot ∈ s.decisions, slot ≠ none := by
      intro slot hslot
      obtain ⟨i, hi⟩ := List.mem_iff_getElem?.1 hslot
      have hlt : i < s.calls.length := by
        rw [hcalls, ← h.wired.slots]
        exact (List.getElem?_eq_some_iff.1 hi).1
      obtain ⟨response, -, hread⟩ := hslots i _ (List.getElem?_eq_getElem hlt)
      rw [hi] at hread
      rw [Option.some.inj hread]
      simp
    obtain ⟨responses, hresponses⟩ := exists_map_some hwritten
    refine ⟨hall, responses, ?_, ?_, ?_, ?_⟩
    · rw [List.mem_singleton.1 ha, hresponses]
    · rw [← h.wired.slots, hresponses, List.length_map]
    · rw [h.wired.indices, hcalls]
    · intro i call hi
      obtain ⟨response, houtcome, hslot⟩ := hslots i call hi
      refine ⟨(h.wired.call_at i call hi).2, response, ?_, houtcome⟩
      rw [hresponses, List.getElem?_map] at hslot
      obtain ⟨found, hfound, hsome⟩ := Option.map_eq_some_iff.1 hslot
      rw [hfound, Option.some.inj hsome]
  · rw [hone] at ha
    rw [List.mem_singleton.1 ha] at hok
    exact absurd hok (by decide)
  · rw [hnil] at ha
    exact absurd ha (by simp)

theorem Inv.answers_le {cfg : BatchConfig} {s : Batch} (h : Inv cfg s) : s.answers.length ≤ 1 := by
  rcases h.answered with ⟨-, hnil⟩ | ⟨-, -, hone⟩ | ⟨-, fault, -, hone | ⟨hnil, -⟩⟩
  · rw [hnil]; simp
  · rw [hone]; simp
  · rw [hone]; simp
  · rw [hnil]; simp

theorem Undecided.answers_ne_ok {s : Batch} (h : Undecided s) :
    (∀ a ∈ s.answers, a.status ≠ 200) ∧ s.answers.length ≤ 1 := by
  have hanswers : s.answers = [] ∨ ∃ a, s.answers = [a] ∧ a.status ≠ 200 := by
    rcases h.answers with ⟨-, hnil⟩ | ⟨-, hone⟩
    · exact Or.inl hnil
    · exact hone
  rcases hanswers with hnil | ⟨b, hone, hstatus⟩
  · rw [hnil]
    exact ⟨by simp, by simp⟩
  · rw [hone]
    refine ⟨fun a ha => ?_, by simp⟩
    rw [List.mem_singleton.1 ha]
    exact hstatus

/-! ## The law of a batch -/

/-- A body that is not a valid batch is answered at once, and nothing else ever happens. -/
theorem invalid_run {cfg : BatchConfig} {body : Value} {events : List BatchEvent} {s : Batch}
    (hinvalid : ¬ ∃ entries, ValidBatch cfg body entries)
    (h : Machine.run (Batch.step cfg) (Batch.start cfg body) events = some s) :
    Undecided s ∧ s.authentications = 0 ∧ ((∃ message, s.answers = [.invalidRequest message]) ∨
      s.answers = [.internalError] ∧ ∃ cause, ParserFaults cfg body cause) := by
  have hstart : Undecided (Batch.start cfg body) ∧ (Batch.start cfg body).phase = .returned ∧
      (Batch.start cfg body).authentications = 0 ∧
      ((∃ message, (Batch.start cfg body).answers = [.invalidRequest message]) ∨
        (Batch.start cfg body).answers = [.internalError] ∧ ∃ cause, ParserFaults cfg body cause) := by
    unfold Batch.start
    split
    · rename_i error hparse
      exact ⟨⟨rfl, rfl, rfl, rfl, rfl, Or.inr ⟨rfl, Or.inr ⟨_, rfl, by simp [Answer.invalidRequest]⟩⟩⟩,
        rfl, rfl, Or.inl ⟨error, rfl⟩⟩
    · rename_i cause hparse
      exact ⟨⟨rfl, rfl, rfl, rfl, rfl, Or.inr ⟨rfl, Or.inr ⟨_, rfl, by decide⟩⟩⟩, rfl, rfl,
        Or.inr ⟨rfl, cause, parseBatch_threw hparse⟩⟩
    · rename_i entries hparse
      exact absurd ⟨entries, parseBatch_ok_iff.1 hparse⟩ hinvalid
  have hstep : ∀ (a : Batch) (e : BatchEvent) (b : Batch),
      (Undecided a ∧ a.phase = .returned ∧ a.authentications = 0 ∧
        ((∃ message, a.answers = [.invalidRequest message]) ∨
          a.answers = [.internalError] ∧ ∃ cause, ParserFaults cfg body cause)) →
      a.step cfg e = some b →
      (Undecided b ∧ b.phase = .returned ∧ b.authentications = 0 ∧
        ((∃ message, b.answers = [.invalidRequest message]) ∨
          b.answers = [.internalError] ∧ ∃ cause, ParserFaults cfg body cause)) := by
    rintro a e b ⟨hundecided, hphase, hcount, hanswer⟩ hab
    rcases hundecided.step hab with ⟨o, -, hauth, -⟩ | ⟨reason, -, rfl⟩
    · rw [hphase] at hauth
      exact absurd hauth (by simp)
    · exact ⟨⟨hundecided.lanes, hundecided.calls, hundecided.all, hundecided.next,
        hundecided.abandoned, hundecided.answers⟩, hphase, hcount, hanswer⟩
  obtain ⟨hundecided, -, hcount, hanswer⟩ := Machine.run_invariant hstep hstart h
  exact ⟨hundecided, hcount, hanswer⟩

/-- A body that is a valid batch runs on its entries. -/
theorem valid_run {cfg : BatchConfig} (hconcurrency : 0 < cfg.batchConcurrency) {body : Value}
    {entries : List ValidatedDecisionRequest} (hvalid : ValidBatch cfg body entries)
    {events : List BatchEvent} {s : Batch}
    (h : Machine.run (Batch.step cfg) (Batch.start cfg body) events = some s) :
    Running cfg entries s ∧ min cfg.batchConcurrency entries.length ≠ 0 := by
  have hwidth : min cfg.batchConcurrency entries.length ≠ 0 := by
    obtain ⟨-, ref, items, -, hne, -, hlength, -⟩ := hvalid
    have hpos := List.length_pos_iff.2 hne
    omega
  have hstart : Running cfg entries (Batch.start cfg body) := by
    unfold Batch.start
    rw [parseBatch_ok_iff.2 hvalid]
    exact ⟨rfl, rfl, Or.inl ⟨rfl, rfl, rfl, rfl, rfl, Or.inl ⟨rfl, rfl⟩⟩⟩
  exact ⟨Machine.run_invariant (fun _ _ _ ha hab => ha.step hwidth hab) hstart h, hwidth⟩

end Batch

open Batch in
/-- For every body and every order of events: unless the envelope and every entry validated, nobody is
authenticated and nothing is decided, and the answer is one 400, or one 500 where the resource parser
faults. A 200 carries what `decide` returned for each entry, in the entries' order, and each entry was
decided once. At most `batchConcurrency` decisions are in flight. There is at most one answer; once a
`decide` has thrown it is never a 200, and when no job is left it is the 500, unless what ended the
batch is the reason the caller left with. -/
theorem verify_batch_law (cfg : BatchConfig) (hconcurrency : 0 < cfg.batchConcurrency) (body : Value)
    (events : List BatchEvent) (s : Batch)
    (h : Machine.run (Batch.step cfg) (Batch.start cfg body) events = some s) :
    ((¬ ∃ entries, ValidBatch cfg body entries) → s.authentications = 0 ∧ s.calls = [] ∧
      ((∃ message, s.answers = [.invalidRequest message]) ∨
        s.answers = [.internalError] ∧ ∃ cause, ParserFaults cfg body cause)) ∧
    (∀ a ∈ s.answers, a.status = 200 → ∃ (entries : List ValidatedDecisionRequest)
      (responses : List DecisionResponse), ValidBatch cfg body entries ∧
      a = .decided (responses.map some) ∧ responses.length = entries.length ∧
      s.calls.map DecideCall.index = List.range entries.length ∧
      ∀ (i : Nat) (call : DecideCall), s.calls[i]? = some call → entries[i]? = some call.entry ∧
        ∃ response, responses[i]? = some response ∧ call.outcome = some (.ok response)) ∧
    s.inFlight.length ≤ cfg.batchConcurrency ∧
    s.answers.length ≤ 1 ∧
    ((∃ call ∈ s.calls, ∃ fault, call.outcome = some (.error fault)) →
      (∀ a ∈ s.answers, a.status ≠ 200) ∧
      (s.AtRest cfg → s.answers = [.internalError] ∨
        s.answers = [] ∧ ∃ fault, s.all = some (.error fault) ∧ s.aborted = some fault.original)) := by
  have hundecided : Undecided s → s.inFlight.length ≤ cfg.batchConcurrency ∧
      ¬ ∃ call ∈ s.calls, ∃ fault, call.outcome = some (.error fault) := by
    intro hstate
    refine ⟨?_, ?_⟩
    · rw [inFlight, hstate.calls]
      exact Nat.zero_le _
    · rintro ⟨call, hcall, -⟩
      rw [hstate.calls] at hcall
      exact absurd hcall (by simp)
  by_cases hvalid : ∃ entries, ValidBatch cfg body entries
  · obtain ⟨entries, hentries⟩ := hvalid
    obtain ⟨⟨rfl, -, hstate⟩, hwidth⟩ := valid_run hconcurrency hentries h
    refine ⟨fun hinvalid => absurd ⟨s.entries, hentries⟩ hinvalid, ?_⟩
    rcases hstate with hstate | hinv
    · obtain ⟨hstatus, hanswers⟩ := hstate.answers_ne_ok
      obtain ⟨hflight, hcalls⟩ := hundecided hstate
      exact ⟨fun a ha hok => absurd hok (hstatus a ha), hflight, hanswers,
        fun hfault => absurd hfault hcalls⟩
    · refine ⟨?_, hinv.inFlight_le, hinv.answers_le, ?_⟩
      · intro a ha hok
        obtain ⟨-, responses, hanswer⟩ := hinv.ok_answer hwidth ha hok
        exact ⟨s.entries, responses, hentries, hanswer⟩
      · rintro ⟨call, hcall, fault, hfault⟩
        obtain ⟨hnot, hrest⟩ := hinv.faulted hwidth hcall hfault
        refine ⟨fun a ha hok => hnot (hinv.ok_answer hwidth ha hok).1, fun hr => ?_⟩
        obtain ⟨first, hfirst, hanswer⟩ := hrest hr
        exact hanswer.imp_right fun hgone => ⟨hgone.1, first, hfirst, hgone.2⟩
  · obtain ⟨hstate, hcount, hanswer⟩ := invalid_run hvalid h
    obtain ⟨hstatus, hanswers⟩ := hstate.answers_ne_ok
    obtain ⟨hflight, hcalls⟩ := hundecided hstate
    exact ⟨fun _ => ⟨hcount, hstate.calls, hanswer⟩, fun a ha hok => absurd hok (hstatus a ha), hflight,
      hanswers, fun hfault => absurd hfault hcalls⟩

/-! ## A batch of two entries, decided out of order -/

/-- A parser that takes any string as a type, and room for two decisions at once. -/
def twoLanes : BatchConfig :=
  { resourceParser := fun raw => .parsed { raw, resourceType := raw, resourceId := none }
    limits :=
      { maxResourceLength := 512, maxActionLength := 64, maxContextEntries := 64
        maxContextValueLength := 1024 }
    maxBatchSize := 50
    batchConcurrency := 2 }

/-- One entry, as it is sent. -/
def sentEntry (resource : Str) : Value :=
  .obj 0 [(js "resource", .str resource), (js "action", .str (js "read"))]

/-- Two entries, as they are sent. -/
def twoEntries : Value := .obj 0 [(js "decisions", .list [sentEntry (js "a"), sentEntry (js "b")])]

/-- What an entry is answered with. -/
def allowed (resource : Str) : DecisionResponse :=
  { subject := none, resource, action := js "read", decision := .allow { groups := [] } }

/-- The second entry is decided first. -/
def outOfOrder : List BatchEvent :=
  [.authenticated (.ok (.accepted fun _ => .undefined)), .settle 1 (.ok (allowed (js "b"))), .resume 1,
    .settle 0 (.ok (allowed (js "a"))), .laneEnded 1, .resume 0, .laneEnded 0, .proceed]

theorem verify_batch_law_outOfOrder : ∃ s,
    Machine.run (Batch.step twoLanes) (Batch.start twoLanes twoEntries) outOfOrder = some s ∧
    s.answers = [.decided [some (allowed (js "a")), some (allowed (js "b"))]] ∧ s.answers.length ≤ 1 := by
  obtain ⟨s, hs, hanswers⟩ : ∃ s,
      Machine.run (Batch.step twoLanes) (Batch.start twoLanes twoEntries) outOfOrder = some s ∧
      s.answers = [.decided [some (allowed (js "a")), some (allowed (js "b"))]] := ⟨_, rfl, rfl⟩
  exact ⟨s, hs, hanswers,
    (verify_batch_law twoLanes (by decide) twoEntries outOfOrder s hs).2.2.2.1⟩

end PolicyVerifier.Server
