import PolicyVerifier.Core.KeyReservation

/-!
# What a sequence of reservations leaves

A call refuses the first key it cannot reserve before it writes anything, so a call that throws leaves no trace.
The map and the set are written together, a key that is held is never written again, and a call that went
through has its keys held from then on: making it again changes nothing.
-/

namespace PolicyVerifier.Core

open Js

namespace RegistryState

/-! ## One pass over the keys -/

/-- Why a key is refused, where it is. -/
def refuse (state : RegistryState) (owner : Str) : Value → Option ReservationError
  | .str key =>
    if key = [] then some (.key owner (.str key))
    else
      match state.reservations.get? key with
      | none => none
      | some held => if held.owner = owner then none else some (.held owner key held.owner)
  | value => some (.key owner value)

/-- What the pass over the keys throws: the first refusal, or what the iterator throws after them. -/
def refusal (state : RegistryState) (owner : Str) (thrown : Option Value) : List Value → Option ReservationError
  | [] => thrown.map .iterator
  | value :: values =>
    match state.refuse owner value with
    | some error => some error
    | none => refusal state owner thrown values

/-- The keys among some values that nobody holds. -/
def newKeys (state : RegistryState) (values : List Value) : List Str :=
  values.filterMap fun value =>
    match value with
    | .str key => if state.reservations.get? key = none then some key else none
    | _ => none

/-- A reservation of a request. -/
def reservationOf (owner : Str) (reason : Option Str) (key : Str) : AttributeKeyReservation := { key, owner, reason }

section

variable {state : RegistryState} {owner : Str} {reason : Option Str} {thrown : Option Value}

/-- One key: it is refused, or pending, or held by the owner already. The state is only read. -/
theorem pendingReservations_cons (pending : List AttributeKeyReservation) (value : Value) (values : List Value) :
    (pendingReservations owner reason thrown pending (value :: values)).run.run state =
      match state.refuse owner value with
      | some error => (.error error, state)
      | none => (pendingReservations owner reason thrown
          (pending ++ (state.newKeys [value]).map (reservationOf owner reason)) values).run.run state := by
  cases value with
  | str key =>
    by_cases hkey : key = []
    · subst hkey
      rfl
    · rw [pendingReservations, if_neg hkey, refuse, if_neg hkey]
      show (match state.reservations.get? key with | none => _ | some held => _ : RegistryM _).run.run state = _
      cases hheld : state.reservations.get? key with
      | none => simp [newKeys, hheld, reservationOf]
      | some held =>
        dsimp only
        by_cases howner : held.owner = owner
        · simp [newKeys, hheld, howner]
        · rw [if_neg howner, if_neg howner]
          rfl
  | _ => rfl

/-- The whole pass. -/
theorem pendingReservations_run (pending : List AttributeKeyReservation) (values : List Value) :
    (pendingReservations owner reason thrown pending values).run.run state =
      (match state.refusal owner thrown values with
        | some error => .error error
        | none => .ok (pending ++ (state.newKeys values).map (reservationOf owner reason)), state) := by
  induction values generalizing pending with
  | nil =>
    cases thrown with
    | none => exact congrArg (fun ps => (Except.ok ps, state)) (List.append_nil pending).symm
    | some error => rfl
  | cons value values ih =>
    rw [pendingReservations_cons, refusal]
    cases state.refuse owner value with
    | some error => rfl
    | none =>
      have hnew : state.newKeys (value :: values) = state.newKeys [value] ++ state.newKeys values :=
        List.filterMap_append (l := [value])
      dsimp only
      rw [ih, hnew, List.map_append, List.append_assoc]

/-! ## The writes -/

/-- The state with these keys reserved, the map and the set written in turn. -/
def reserved (owner : Str) (reason : Option Str) (keys : List Str) (state : RegistryState) : RegistryState :=
  keys.foldl (fun state key => (state.setReservation (reservationOf owner reason key)).addKey key) state

theorem writeReservations_run (keys : List Str) :
    (writeReservations (keys.map (reservationOf owner reason))).run.run state =
      (.ok (), state.reserved owner reason keys) := by
  induction keys generalizing state with
  | nil => rfl
  | cons key keys ih => exact ih

theorem get?_reserved (keys : List Str) (key : Str) :
    (state.reserved owner reason keys).reservations.get? key =
      if key ∈ keys then some (reservationOf owner reason key) else state.reservations.get? key := by
  induction keys generalizing state with
  | nil => rfl
  | cons first keys ih =>
    have hfirst : ((state.setReservation (reservationOf owner reason first)).addKey first).reservations.get? key =
        if first = key then some (reservationOf owner reason first) else state.reservations.get? key :=
      OrderedMap.get?_set ..
    show (RegistryState.reserved owner reason keys
      ((state.setReservation (reservationOf owner reason first)).addKey first)).reservations.get? key = _
    rw [ih, hfirst]
    by_cases hkey : first = key
    · subst hkey
      simp
    · simp [hkey, Ne.symm hkey]

/-! ## A call -/

/-- A call with an owner and an iterable: it is refused, or reserves what nobody holds. -/
theorem call_iterable (hname : owner ≠ []) (values : List Value) :
    state.call (some { owner := .str owner, keys := .iterable values thrown, reason }) =
      match state.refusal owner thrown values with
      | some error => (.error error, state)
      | none => (.ok (), state.reserved owner reason (state.newKeys values)) := by
  have hcall : reserveAttributeKeys (some { owner := .str owner, keys := .iterable values thrown, reason }) =
      pendingReservations owner reason thrown [] values >>= writeReservations := if_neg hname
  rw [call, hcall, ExceptT.run_bind, StateT.run_bind, pendingReservations_run]
  cases state.refusal owner thrown values with
  | some error => rfl
  | none => exact writeReservations_run (state.newKeys values)

/-- Any other call throws at once, and not because of a key. -/
theorem call_cases (state : RegistryState) (request : Option AttributeKeyReservationRequest) :
    (∃ owner values thrown reason, owner ≠ [] ∧
        request = some { owner := .str owner, keys := .iterable values thrown, reason }) ∨
      ∃ error, state.call request = (.error error, state) ∧ ∀ owner key holder, error ≠ .held owner key holder := by
  rcases request with _ | ⟨owner, keys, reason⟩
  · exact Or.inr ⟨_, rfl, nofun⟩
  · cases owner with
    | str owner =>
      by_cases hname : owner = []
      · subst hname
        exact Or.inr ⟨_, rfl, nofun⟩
      · cases keys with
        | notIterable =>
          refine Or.inr ⟨.notIterable, ?_, nofun⟩
          have hcall : reserveAttributeKeys (some { owner := .str owner, keys := .notIterable, reason }) =
              throw .notIterable := if_neg hname
          rw [call, hcall]
          rfl
        | iterable values thrown => exact Or.inl ⟨owner, values, thrown, reason, hname, rfl⟩
    | _ => exact Or.inr ⟨_, rfl, nofun⟩

end

/-! ## What every call keeps -/

/-- The map and the set hold the same keys, each once, and a reservation stands under its own key. -/
structure Consistent (state : RegistryState) : Prop where
  inStep : ∀ key, key ∈ state.reservedKeys ↔ (state.attributeKeyReservation key).isSome = true
  nodup : state.reservedKeys.Nodup
  named : ∀ key held, state.attributeKeyReservation key = some held →
    held.key = key ∧ key ≠ [] ∧ held.owner ≠ []

theorem consistent_empty : Consistent {} where
  inStep key := by simp [attributeKeyReservation]
  nodup := List.nodup_nil
  named key held h := absurd h (by simp [attributeKeyReservation])

/-- Whatever is reserved in the first state is reserved in the second, by the same owner. -/
def Kept (state next : RegistryState) : Prop :=
  ∀ key held, state.attributeKeyReservation key = some held → next.attributeKeyReservation key = some held

section

variable {state : RegistryState} {owner : Str} {reason : Option Str} {thrown : Option Value}

/-- One key written to both keeps them in step. -/
theorem Consistent.write (h : Consistent state) {key : Str} (hkey : key ≠ []) (howner : owner ≠ []) :
    Consistent ((state.setReservation (reservationOf owner reason key)).addKey key) where
  inStep k := by
    have hget : (((state.setReservation (reservationOf owner reason key)).addKey key).attributeKeyReservation
        k).isSome = true ↔ key = k ∨ k ∈ state.reservedKeys := by
      rw [h.inStep]
      show ((state.reservations.set key _).get? k).isSome = true ↔ _
      rw [OrderedMap.get?_set]
      split <;> simp_all [attributeKeyReservation]
    rw [hget]
    show k ∈ (if key ∈ state.reservedKeys then state.reservedKeys else state.reservedKeys ++ [key]) ↔ _
    split
    · rename_i hmem
      exact ⟨Or.inr, fun hk => hk.elim (fun heq => heq ▸ hmem) id⟩
    · simp [or_comm, eq_comm]
  nodup := by
    show (if key ∈ state.reservedKeys then state.reservedKeys else state.reservedKeys ++ [key]).Nodup
    split
    · exact h.nodup
    · rename_i hmem
      rw [List.nodup_append_comm]
      exact List.nodup_cons.2 ⟨hmem, h.nodup⟩
  named k held hheld := by
    have hget : (state.reservations.set key (reservationOf owner reason key)).get? k = some held := hheld
    rw [OrderedMap.get?_set] at hget
    split at hget
    · rename_i heq
      obtain rfl := Option.some.inj hget
      exact ⟨heq, heq ▸ hkey, howner⟩
    · exact h.named k held hget

theorem Consistent.reserved (h : Consistent state) (howner : owner ≠ []) {keys : List Str}
    (hkeys : ∀ key ∈ keys, key ≠ []) : Consistent (state.reserved owner reason keys) := by
  induction keys generalizing state with
  | nil => exact h
  | cons key keys ih =>
    rw [List.forall_mem_cons] at hkeys
    exact ih (h.write hkeys.1 howner) hkeys.2

theorem mem_newKeys {values : List Value} {key : Str} :
    key ∈ state.newKeys values ↔ .str key ∈ values ∧ state.attributeKeyReservation key = none := by
  rw [newKeys, List.mem_filterMap]
  constructor
  · rintro ⟨value, hvalue, hkey⟩
    cases value with
    | str k =>
      dsimp only at hkey
      split at hkey
      · rename_i hfree
        obtain rfl := Option.some.inj hkey
        exact ⟨hvalue, hfree⟩
      · exact absurd hkey (by simp)
    | _ => exact absurd hkey (by simp)
  · rintro ⟨hvalue, hfree⟩
    exact ⟨_, hvalue, if_pos hfree⟩

/-- A pass that refuses nothing went over names that are free, or the owner's. -/
theorem refusal_eq_none {values : List Value} (h : state.refusal owner thrown values = none) :
    thrown = none ∧ ∀ value ∈ values, ∃ key, value = .str key ∧ key ≠ [] ∧
      ∀ held, state.attributeKeyReservation key = some held → held.owner = owner := by
  induction values with
  | nil => exact ⟨by simpa [refusal] using h, by simp⟩
  | cons value values ih =>
    rw [refusal] at h
    cases hvalue : state.refuse owner value with
    | some error => rw [hvalue] at h; exact absurd h (by simp)
    | none =>
      rw [hvalue] at h
      obtain ⟨hthrown, hrest⟩ := ih h
      refine ⟨hthrown, List.forall_mem_cons.2 ⟨?_, hrest⟩⟩
      cases value with
      | str key =>
        rw [refuse] at hvalue
        split at hvalue
        · exact absurd hvalue (by simp)
        · rename_i hkey
          refine ⟨key, rfl, hkey, fun held hheld => ?_⟩
          rw [attributeKeyReservation] at hheld
          rw [hheld] at hvalue
          by_contra howner
          exact absurd hvalue (by simp [howner])
      | _ => exact absurd hvalue (by simp [refuse])

theorem Consistent.call (h : Consistent state) (request : Option AttributeKeyReservationRequest) :
    Consistent (state.call request).2 := by
  rcases call_cases state request with ⟨owner, values, thrown, reason, howner, rfl⟩ | ⟨error, hcall, -⟩
  · rw [call_iterable howner]
    cases hrefusal : state.refusal owner thrown values with
    | some error => exact h
    | none =>
      refine h.reserved howner fun key hkey => ?_
      obtain ⟨k, hk, hne, -⟩ := (refusal_eq_none hrefusal).2 _ (mem_newKeys.1 hkey).1
      exact (Value.str.inj hk) ▸ hne
  · rw [hcall]
    exact h

/-- No key is dropped by a call, and none changes hands. -/
theorem kept_call (state : RegistryState) (request : Option AttributeKeyReservationRequest) :
    Kept state (state.call request).2 := by
  rcases call_cases state request with ⟨owner, values, thrown, reason, howner, rfl⟩ | ⟨error, hcall, -⟩
  · rw [call_iterable howner]
    cases state.refusal owner thrown values with
    | some error => exact fun _ _ hheld => hheld
    | none =>
      intro key held hheld
      have hnew : key ∉ state.newKeys values := fun hmem => by
        rw [(mem_newKeys.1 hmem).2] at hheld
        exact absurd hheld (by simp)
      show (state.reserved owner reason (state.newKeys values)).reservations.get? key = some held
      rw [get?_reserved, if_neg hnew]
      exact hheld
  · rw [hcall]
    exact fun _ _ hheld => hheld

/-- What a call throws finds nothing written. -/
theorem call_error {request : Option AttributeKeyReservationRequest} {error : ReservationError}
    (h : (state.call request).1 = .error error) : (state.call request).2 = state := by
  rcases call_cases state request with ⟨owner, values, thrown, reason, howner, rfl⟩ | ⟨error, hcall, -⟩
  · rw [call_iterable howner] at h ⊢
    cases hrefusal : state.refusal owner thrown values with
    | some error => rfl
    | none => rw [hrefusal] at h; exact absurd h (by simp)
  · rw [hcall]

end

/-! ## Keys of another owner -/

/-- The request names a key that another owner holds. -/
def NamesHeld (state : RegistryState) (request : Option AttributeKeyReservationRequest) : Prop :=
  ∃ owner values thrown reason key held,
    request = some { owner := .str owner, keys := .iterable values thrown, reason } ∧ .str key ∈ values ∧
      state.attributeKeyReservation key = some held ∧ held.owner ≠ owner

/-- The owner of the request is a non-empty string, and it names a key that another owner holds, after nothing
but non-empty strings. -/
def NamesHeldFirst (state : RegistryState) (request : Option AttributeKeyReservationRequest) : Prop :=
  ∃ owner before after thrown reason key held, owner ≠ [] ∧
    request = some { owner := .str owner, keys := .iterable (before ++ .str key :: after) thrown, reason } ∧
      (∀ value ∈ before, ∃ k, value = .str k ∧ k ≠ []) ∧
        state.attributeKeyReservation key = some held ∧ held.owner ≠ owner

/-- The call throws because a key has another owner. -/
def ThrowsOnOwnership (result : Except ReservationError Unit) : Prop :=
  ∃ owner key holder, result = .error (.held owner key holder)

section

variable {state : RegistryState} {owner : Str} {reason : Option Str} {thrown : Option Value}

/-- The pass stops at the first value it refuses, so a key of another owner is what it refuses where only
non-empty strings stand before one. -/
theorem refusal_held_iff (h : Consistent state) {values : List Value} :
    (∃ name key holder, state.refusal owner thrown values = some (.held name key holder)) ↔
      ∃ before key after held, values = before ++ .str key :: after ∧
        (∀ value ∈ before, ∃ k, value = .str k ∧ k ≠ []) ∧
          state.attributeKeyReservation key = some held ∧ held.owner ≠ owner := by
  induction values with
  | nil =>
    refine iff_of_false ?_ ?_
    · rintro ⟨name, key, holder, heq⟩
      cases thrown <;> exact absurd heq (by simp [refusal])
    · rintro ⟨before, key, after, held, heq, -⟩
      exact absurd heq (by simp)
  | cons value values ih =>
    rw [refusal]
    cases value with
    | str key =>
      by_cases hkey : key = []
      · subst hkey
        refine iff_of_false (by simp [refuse]) ?_
        rintro ⟨before, key, after, held, heq, hbefore, hheld, -⟩
        cases before with
        | nil =>
          obtain ⟨hkey, -⟩ := List.cons.inj heq
          exact (h.named key held hheld).2.1 (Value.str.inj hkey).symm
        | cons first before =>
          obtain ⟨rfl, -⟩ := List.cons.inj heq
          obtain ⟨k, hk, hne⟩ := hbefore _ List.mem_cons_self
          exact hne (Value.str.inj hk).symm
      · rw [refuse, if_neg hkey]
        by_cases hother : ∃ held, state.attributeKeyReservation key = some held ∧ held.owner ≠ owner
        · obtain ⟨held, hheld, howner⟩ := hother
          refine iff_of_true ⟨owner, key, held.owner, ?_⟩ ⟨[], key, values, held, rfl, by simp, hheld, howner⟩
          rw [attributeKeyReservation] at hheld
          rw [hheld]
          simp [howner]
        · have hmine : (match state.reservations.get? key with
              | none => none
              | some held => if held.owner = owner then none
                else some (ReservationError.held owner key held.owner)) = none := by
            cases hheld : state.reservations.get? key with
            | none => rfl
            | some held => exact if_pos (by_contra fun howner => hother ⟨held, hheld, howner⟩)
          rw [hmine]
          dsimp only
          rw [ih]
          constructor
          · rintro ⟨before, k, after, held, rfl, hbefore, hheld⟩
            exact ⟨.str key :: before, k, after, held, rfl,
              List.forall_mem_cons.2 ⟨⟨key, rfl, hkey⟩, hbefore⟩, hheld⟩
          · rintro ⟨before, k, after, held, heq, hbefore, hheld⟩
            cases before with
            | nil =>
              obtain ⟨hk, -⟩ := List.cons.inj heq
              obtain rfl := Value.str.inj hk
              exact absurd ⟨held, hheld⟩ hother
            | cons first before =>
              exact ⟨before, k, after, held, (List.cons.inj heq).2,
                fun value hvalue => hbefore value (List.mem_cons_of_mem first hvalue), hheld⟩
    | _ =>
      refine iff_of_false (by simp [refuse]) ?_
      rintro ⟨before, key, after, held, heq, hbefore, -⟩
      cases before with
      | nil => exact absurd (List.cons.inj heq).1 (by simp)
      | cons first before =>
        obtain ⟨rfl, -⟩ := List.cons.inj heq
        obtain ⟨k, hk, -⟩ := hbefore _ List.mem_cons_self
        exact absurd hk (by simp)

theorem throwsOnOwnership_iff (h : Consistent state) (request : Option AttributeKeyReservationRequest) :
    ThrowsOnOwnership (state.call request).1 ↔ NamesHeldFirst state request := by
  rcases call_cases state request with ⟨owner, values, thrown, reason, howner, rfl⟩ | ⟨error, hcall, hno⟩
  · have hthrows : ThrowsOnOwnership
        (state.call (some { owner := .str owner, keys := .iterable values thrown, reason })).1 ↔
          ∃ name key holder, state.refusal owner thrown values = some (.held name key holder) := by
      rw [call_iterable howner, ThrowsOnOwnership]
      cases state.refusal owner thrown values <;> simp
    rw [hthrows, refusal_held_iff h]
    constructor
    · rintro ⟨before, key, after, held, rfl, hbefore, hheld⟩
      exact ⟨owner, before, after, thrown, reason, key, held, howner, rfl, hbefore, hheld⟩
    · rintro ⟨_, before, after, _, _, key, held, -, heq, hbefore, hheld⟩
      obtain ⟨hname, hkeys, -⟩ := AttributeKeyReservationRequest.mk.inj (Option.some.inj heq)
      obtain rfl := Value.str.inj hname
      obtain ⟨rfl, -⟩ := ReservationKeys.iterable.inj hkeys
      exact ⟨before, key, after, held, rfl, hbefore, hheld⟩
  · rw [hcall]
    refine iff_of_false ?_ ?_
    · rintro ⟨name, key, holder, heq⟩
      exact hno name key holder (Except.error.inj heq)
    · rintro ⟨owner, before, after, thrown, reason, key, held, howner, rfl, hbefore, hheld, hother⟩
      have hrefused : ∃ name k holder,
          state.refusal owner thrown (before ++ .str key :: after) = some (.held name k holder) :=
        (refusal_held_iff h).2 ⟨before, key, after, held, rfl, hbefore, hheld, hother⟩
      obtain ⟨name, k, holder, hrefusal⟩ := hrefused
      rw [call_iterable howner, hrefusal] at hcall
      exact hno name k holder (Except.error.inj (Prod.mk.inj hcall).1).symm

/-! ## A call made again -/

/-- Everything the request asks for is held already, by its owner. -/
def Settled (state : RegistryState) (request : Option AttributeKeyReservationRequest) : Prop :=
  ∃ owner values reason, owner ≠ [] ∧
    request = some { owner := .str owner, keys := .iterable values none, reason } ∧
      ∀ value ∈ values, ∃ key held, value = .str key ∧ key ≠ [] ∧
        state.attributeKeyReservation key = some held ∧ held.owner = owner

theorem Settled.kept {next : RegistryState} {request : Option AttributeKeyReservationRequest}
    (h : Settled state request) (hkept : Kept state next) : Settled next request := by
  obtain ⟨owner, values, reason, howner, rfl, hvalues⟩ := h
  refine ⟨owner, values, reason, howner, rfl, fun value hvalue => ?_⟩
  obtain ⟨key, held, rfl, hkey, hheld, hmine⟩ := hvalues value hvalue
  exact ⟨key, held, rfl, hkey, hkept key held hheld, hmine⟩

/-- A call that went through has its keys held. -/
theorem settled_call {request : Option AttributeKeyReservationRequest}
    (h : (state.call request).1 = .ok ()) : Settled (state.call request).2 request := by
  rcases call_cases state request with ⟨owner, values, thrown, reason, howner, rfl⟩ | ⟨error, hcall, -⟩
  · rw [call_iterable howner] at h ⊢
    cases hrefusal : state.refusal owner thrown values with
    | some error => rw [hrefusal] at h; exact absurd h (by simp)
    | none =>
      obtain ⟨rfl, hvalues⟩ := refusal_eq_none hrefusal
      refine ⟨owner, values, reason, howner, rfl, fun value hvalue => ?_⟩
      obtain ⟨key, rfl, hkey, hmine⟩ := hvalues value hvalue
      have hget : (state.reserved owner reason (state.newKeys values)).attributeKeyReservation key =
          if key ∈ state.newKeys values then some (reservationOf owner reason key)
          else state.attributeKeyReservation key := get?_reserved _ _
      cases hheld : state.attributeKeyReservation key with
      | none =>
        rw [if_pos (mem_newKeys.2 ⟨hvalue, hheld⟩)] at hget
        exact ⟨key, _, rfl, hkey, hget, rfl⟩
      | some held =>
        have hnew : key ∉ state.newKeys values := fun hmem => by
          rw [(mem_newKeys.1 hmem).2] at hheld
          exact absurd hheld (by simp)
        rw [if_neg hnew, hheld] at hget
        exact ⟨key, held, rfl, hkey, hget, hmine held hheld⟩
  · rw [hcall] at h
    exact absurd h (by simp)

/-- A settled call goes through and changes nothing. -/
theorem Settled.call {request : Option AttributeKeyReservationRequest} (h : Settled state request) :
    state.call request = (.ok (), state) := by
  obtain ⟨owner, values, reason, howner, rfl, hvalues⟩ := h
  have hrefusal : state.refusal owner none values = none := by
    induction values with
    | nil => rfl
    | cons value values ih =>
      rw [List.forall_mem_cons] at hvalues
      obtain ⟨key, held, rfl, hkey, hheld, hmine⟩ := hvalues.1
      have hvalue : state.refuse owner (.str key) = none := by
        rw [attributeKeyReservation] at hheld
        rw [refuse, if_neg hkey, hheld]
        exact if_pos hmine
      rw [refusal, hvalue]
      exact ih hvalues.2
  have hnew : state.newKeys values = [] := by
    rw [List.eq_nil_iff_forall_not_mem]
    intro key hmem
    obtain ⟨hvalue, hfree⟩ := mem_newKeys.1 hmem
    obtain ⟨k, held, hk, -, hheld, -⟩ := hvalues _ hvalue
    obtain rfl := Value.str.inj hk
    rw [hfree] at hheld
    exact absurd hheld (by simp)
  rw [call_iterable howner, hrefusal, hnew]
  rfl

end

/-! ## A sequence of calls -/

theorem after_append (state : RegistryState) (calls later : List (Option AttributeKeyReservationRequest)) :
    state.after (calls ++ later) = (state.after calls).after later := List.foldl_append

theorem Consistent.after {state : RegistryState} (h : Consistent state)
    (calls : List (Option AttributeKeyReservationRequest)) : Consistent (state.after calls) := by
  induction calls generalizing state with
  | nil => exact h
  | cons request calls ih => exact ih (h.call request)

theorem kept_after (state : RegistryState) (calls : List (Option AttributeKeyReservationRequest)) :
    Kept state (state.after calls) := by
  induction calls generalizing state with
  | nil => exact fun _ _ hheld => hheld
  | cons request calls ih => exact fun key held hheld => ih _ key held (kept_call state request key held hheld)

/-- What a call of a sequence does to the registry. -/
structure CallKeeps (state : RegistryState) (request : Option AttributeKeyReservationRequest) : Prop where
  /-- The set holds the keys that have an owner. -/
  inStep : ∀ key, key ∈ (state.call request).2.reservedKeys ↔
    ((state.call request).2.attributeKeyReservation key).isSome = true
  /-- No key is dropped and none changes hands, by this call or a later one. -/
  kept : ∀ later key held, state.attributeKeyReservation key = some held →
    ((state.call request).2.after later).attributeKeyReservation key = some held
  /-- A call that throws leaves the registry as it was. -/
  unchanged : ∀ error, (state.call request).1 = .error error → (state.call request).2 = state
  /-- A call throws on ownership where it names another owner's key, after nothing but names. -/
  ownership : ThrowsOnOwnership (state.call request).1 ↔ NamesHeldFirst state request
  /-- A call that went through changes nothing when it is made again, at once or later. -/
  again : (state.call request).1 = .ok () → ∀ later,
    ((state.call request).2.after later).call request = (.ok (), (state.call request).2.after later)

/-- In every sequence of calls, each call keeps the registry in step and every key with its owner. -/
theorem registry_over_calls (calls : List (Option AttributeKeyReservationRequest))
    (request : Option AttributeKeyReservationRequest) : CallKeeps (after {} calls) request := by
  have hconsistent : Consistent (after {} calls) := consistent_empty.after calls
  exact {
    inStep := (hconsistent.call request).inStep
    kept := fun later key held hheld => kept_after _ later key held (kept_call _ request key held hheld)
    unchanged := fun error => call_error
    ownership := throwsOnOwnership_iff hconsistent request
    again := fun hok later => ((settled_call hok).kept (kept_after _ later)).call }

/-- A key that is no name is refused before the key of another owner after it is looked at. -/
theorem ownership_hidden :
    let state := after {} [some coreReservation]
    let request : Option AttributeKeyReservationRequest := some
      { owner := .str (js "@example/policy-plugin"), keys := .iterable [.str [], .str attrScopes] none }
    ¬ (ThrowsOnOwnership (state.call request).1 ↔ NamesHeld state request) := by
  intro state request hiff
  have howner : (state.attributeKeyReservation attrScopes).map AttributeKeyReservation.owner =
      some coreAttributeKeyOwner := by decide +kernel
  obtain ⟨held, hheld, hcore⟩ := Option.map_eq_some_iff.1 howner
  have hnames : NamesHeld state request :=
    ⟨_, _, _, _, attrScopes, held, rfl, by simp, hheld, by rw [hcore]; decide⟩
  obtain ⟨name, key, holder, hthrown⟩ := hiff.2 hnames
  have hrefused : (state.call request).1 = .error (.key (js "@example/policy-plugin") (.str [])) := rfl
  rw [hrefused] at hthrown
  exact absurd (Except.error.inj hthrown) nofun

end RegistryState

/-! ## The registry the collectors ask -/

namespace AttributeKeyRegistry

/-- The module's state that a registry stands for. -/
def state (registry : AttributeKeyRegistry) : RegistryState :=
  { reservations := registry.reservations, reservedKeys := registry.reservedKeys }

/-- What a sequence of calls leaves is a registry. -/
theorem exists_state_eq_after (calls : List (Option AttributeKeyReservationRequest)) :
    ∃ registry : AttributeKeyRegistry, registry.state = RegistryState.after {} calls := by
  have hinStep := (RegistryState.consistent_empty.after calls).inStep
  refine ⟨⟨(RegistryState.after {} calls).reservations, (RegistryState.after {} calls).reservedKeys,
    fun key => ?_⟩, rfl⟩
  rw [hinStep, ← OrderedMap.get?_isSome_iff]
  rfl

/-- The keys left to write are the new ones, unless one is refused. -/
theorem pending_eq (registry : AttributeKeyRegistry) (owner : Str) (reason : Option Str) (values : List Value) :
    match registry.state.refusal owner none values with
    | some error => ∃ message, error.message = some message ∧ registry.pending owner reason values = .error message
    | none => registry.pending owner reason values =
        .ok ((registry.state.newKeys values).map (RegistryState.reservationOf owner reason)) := by
  induction values with
  | nil => rfl
  | cons value values ih =>
    have hnew : registry.state.newKeys (value :: values) =
        registry.state.newKeys [value] ++ registry.state.newKeys values := List.filterMap_append (l := [value])
    cases value with
    | str key =>
      by_cases hkey : key = []
      · subst hkey
        exact ⟨_, rfl, rfl⟩
      · rw [RegistryState.refusal]
        cases hheld : registry.reservations.get? key with
        | none =>
          have hrefuse : registry.state.refuse owner (.str key) = none := by
            simp [RegistryState.refuse, state, hkey, hheld]
          have hone : registry.state.newKeys [.str key] = [key] := by simp [RegistryState.newKeys, state, hheld]
          have hpending : registry.pending owner reason (.str key :: values) =
              (registry.pending owner reason values).map (RegistryState.reservationOf owner reason key :: ·) := by
            rw [pending, if_neg hkey, hheld]
            rfl
          rw [hrefuse, hpending, hnew, hone]
          cases hrefusal : registry.state.refusal owner none values with
          | some error =>
            rw [hrefusal] at ih
            obtain ⟨message, hmessage, hpending⟩ := ih
            exact ⟨message, hmessage, by rw [hpending]; rfl⟩
          | none =>
            rw [hrefusal] at ih
            rw [show registry.pending owner reason values = _ from ih]
            rfl
        | some held =>
          by_cases howner : held.owner = owner
          · have hrefuse : registry.state.refuse owner (.str key) = none := by
              simp [RegistryState.refuse, state, hkey, hheld, howner]
            have hone : registry.state.newKeys [.str key] = [] := by
              simp [RegistryState.newKeys, state, hheld]
            have hpending : registry.pending owner reason (.str key :: values) =
                registry.pending owner reason values := by
              rw [pending, if_neg hkey, hheld]
              exact if_pos howner
            rw [hrefuse, hpending, hnew, hone]
            exact ih
          · have hrefuse : registry.state.refuse owner (.str key) = some (.held owner key held.owner) := by
              simp [RegistryState.refuse, state, hkey, hheld, howner]
            rw [hrefuse]
            refine ⟨_, rfl, ?_⟩
            rw [pending, if_neg hkey, hheld]
            exact if_neg howner
    | _ => exact ⟨_, rfl, rfl⟩

theorem state_foldl_write (registry : AttributeKeyRegistry) (owner : Str) (reason : Option Str) (keys : List Str) :
    (List.foldl write registry (keys.map (RegistryState.reservationOf owner reason))).state =
      registry.state.reserved owner reason keys := by
  induction keys generalizing registry with
  | nil => rfl
  | cons key keys ih => exact ih (registry.write (RegistryState.reservationOf owner reason key))

/-- Reserving the keys of an array is a call whose iterable is the array. -/
theorem call_of_array (registry : AttributeKeyRegistry) (owner : Value) (n : ℕ) (items : List Value)
    (reason : Option Str) :
    match registry.reserveAttributeKeys owner (.arr n items) reason with
    | .ok next => registry.state.call (some { owner, keys := .iterable items none, reason }) =
        (.ok (), next.state)
    | .error message => ∃ error, error.message = some message ∧
        registry.state.call (some { owner, keys := .iterable items none, reason }) =
          (.error error, registry.state) := by
  cases owner with
  | str owner =>
    by_cases hname : owner = []
    · subst hname
      exact ⟨_, rfl, rfl⟩
    · have hpending := registry.pending_eq owner reason items
      rw [reserveAttributeKeys, if_neg hname, RegistryState.call_iterable hname]
      cases hrefusal : registry.state.refusal owner none items with
      | some error =>
        rw [hrefusal] at hpending
        obtain ⟨message, hmessage, hpending⟩ := hpending
        rw [hpending]
        exact ⟨error, hmessage, rfl⟩
      | none =>
        rw [hrefusal] at hpending
        dsimp only at hpending
        rw [hpending]
        exact congrArg (Prod.mk _) (registry.state_foldl_write owner reason _).symm
  | _ => exact ⟨_, rfl, rfl⟩

end AttributeKeyRegistry

end PolicyVerifier.Core
