import PolicyVerifier.Cedar.AgentSetRead

/-!
# Reading the set never fails quietly

A read of the agent's set rejects only where nothing was answered to either of its requests before the
deadline. Whatever else `fetch` does is a set that was read whole, or a reason why there is none.
-/

namespace PolicyVerifier.Cedar

open Js PolicyVerifier.Core

variable {F : Type}

/-! ## What a read is to come to -/

/-- A request that was rejected while the deadline had not passed. -/
def RejectedInTime (fetched : Fetched F) : Prop :=
  ∃ failure, fetched = .rejected failure ∧ failure.aborted = false

/-- The response a read goes by: the first request's, or the second's where the first was rejected in time. -/
def AnsweredBy (get : GetAttempt → Fetched F) (response : AgentResponse F) : Prop :=
  get .first = .answered response ∨ RejectedInTime (get .first) ∧ get .again = .answered response

/-- A body that is neither declared nor found to be past the bound, read to its end. -/
def ReadWhole (platform : ReadPlatform F) (response : AgentResponse F) (maxBytes : Nat) (text : Str) : Prop :=
  Number.less (.rat maxBytes) (declaredLength platform response) = false ∧
    match response.body with
    | none => text = []
    | some body => body.broken = none ∧ body.chunks.flatten.length ≤ maxBytes ∧
        text = decodeUtf8 body.chunks.flatten

/-- A list of policies, each an id and a content, with no id twice. -/
def IsSetOf (body : Value) (entries : List (Str × Str)) : Prop :=
  (∃ items, body.items? = some items ∧
    List.Forall₂ (fun item entry => item.field (js "id") = .str entry.1 ∧
      item.field (js "content") = .str entry.2) items entries) ∧
  (entries.map Prod.fst).Nodup

/-! ## The bounded body -/

/-- The chunks of a body are read as the bytes they are, wherever one ends and the next begins. -/
theorem readChunks_eq_some_iff {maxBytes received : Nat} (h : received ≤ maxBytes)
    (broken : Option (CaughtFailure F)) (decoder : TextDecoder) (text out : Str) (chunks : List (List UInt8)) :
    readChunks maxBytes broken received decoder text chunks = .ok (some out) ↔
      broken = none ∧ received + chunks.flatten.length ≤ maxBytes ∧
        out = text ++ (decoder.decode chunks.flatten).2 ++ (decoder.decode chunks.flatten).1.flush := by
  induction chunks generalizing received decoder text with
  | nil =>
    cases broken with
    | none => simp [readChunks, TextDecoder.decode, h, eq_comm]
    | some failure => simp [readChunks]
  | cons value chunks ih =>
    rw [readChunks, List.flatten_cons, List.length_append, ← Nat.add_assoc]
    by_cases hover : maxBytes < received + value.length
    · rw [if_pos hover]
      refine iff_of_false (by simp) ?_
      rintro ⟨-, hle, -⟩
      omega
    · rw [if_neg hover]
      dsimp only
      rw [ih (by omega), TextDecoder.decode_append]
      simp only [List.append_assoc]

section Read

variable {platform : ReadPlatform F}

theorem boundedText_eq_some_iff {response : AgentResponse F} {maxBytes : Nat} {text : Str} :
    boundedText platform response maxBytes = .ok (some text) ↔ ReadWhole platform response maxBytes text := by
  unfold boundedText ReadWhole
  by_cases hover : Number.less (.rat maxBytes) (declaredLength platform response) = true
  · simp [hover]
  · rw [if_neg hover, Bool.not_eq_true] at *
    simp only [hover, true_and]
    cases response.body with
    | none => simp [eq_comm]
    | some body =>
      dsimp only
      rw [readChunks_eq_some_iff (Nat.zero_le maxBytes)]
      simp only [Nat.zero_add, List.nil_append, decodeUtf8]

/-! ## The set -/

theorem addPolicy_eq_some_iff {set set' : AgentPolicySet} {item : Value} :
    addPolicy set item = some set' ↔ ∃ id content, item.field (js "id") = .str id ∧
      item.field (js "content") = .str content ∧ id ∉ set.keys ∧ set'.entries = set.entries ++ [(id, content)] := by
  unfold addPolicy
  constructor
  · intro h
    split at h
    · rename_i id content hid hcontent
      split at h
      · exact absurd h (by simp)
      · rename_i hhas
        obtain rfl := Option.some.inj h
        have hkeys : id ∉ set.keys := fun hmem => hhas ((OrderedMap.get?_isSome_iff set id).2 hmem)
        exact ⟨id, content, Value.str?_eq_some.1 hid, Value.str?_eq_some.1 hcontent, hkeys,
          OrderedMap.entries_set_of_not_mem set id content hkeys⟩
    · exact absurd h (by simp)
  · rintro ⟨id, content, hid, hcontent, hkeys, hentries⟩
    have hhas : ¬ set.has id = true := fun hhas => hkeys ((OrderedMap.get?_isSome_iff set id).1 hhas)
    rw [hid, hcontent]
    simp only [Value.str?]
    rw [if_neg hhas, Option.some.injEq]
    exact OrderedMap.ext ((OrderedMap.entries_set_of_not_mem set id content hkeys).trans hentries.symm)

/-- The loop adds what every item names, in order, and fails at the first that repeats an id. -/
theorem foldlM_addPolicy_iff {items : List Value} {set set' : AgentPolicySet} :
    items.foldlM addPolicy set = some set' ↔ ∃ entries,
      List.Forall₂ (fun item entry => item.field (js "id") = .str entry.1 ∧
        item.field (js "content") = .str entry.2) items entries ∧
      set'.entries = set.entries ++ entries := by
  induction items generalizing set with
  | nil =>
    simp only [List.foldlM_nil, List.forall₂_nil_left_iff, Option.pure_def, Option.some.injEq]
    constructor
    · rintro rfl
      exact ⟨[], rfl, by simp⟩
    · rintro ⟨entries, rfl, hentries⟩
      exact OrderedMap.ext (by simpa using hentries.symm)
  | cons item items ih =>
    rw [List.foldlM_cons, Option.bind_eq_bind, Option.bind_eq_some_iff]
    constructor
    · rintro ⟨next, hnext, hrest⟩
      obtain ⟨id, content, hid, hcontent, -, hadded⟩ := addPolicy_eq_some_iff.1 hnext
      obtain ⟨entries, hitems, hentries⟩ := ih.1 hrest
      refine ⟨(id, content) :: entries, .cons ⟨hid, hcontent⟩ hitems, ?_⟩
      rw [hentries, hadded, List.append_assoc, List.singleton_append]
    · rintro ⟨entries, hitems, hentries⟩
      cases hitems with
      | cons hitem hitems =>
        rename_i entry entries
        -- the entries of the result are distinct, so the item's id is new to the set
        rw [← List.singleton_append, ← List.append_assoc] at hentries
        obtain ⟨next, hadded⟩ := OrderedMap.exists_entries hentries
        obtain ⟨hnew, -⟩ := OrderedMap.eq_set_of_concat hadded
        rw [← hadded] at hentries
        exact ⟨next, addPolicy_eq_some_iff.2 ⟨entry.1, entry.2, hitem.1, hitem.2, hnew, hadded⟩,
          ih.2 ⟨entries, hitems, hentries⟩⟩

theorem agentPolicySetOf_eq_some_iff {body : Value} {set : AgentPolicySet} :
    agentPolicySetOf body = some set ↔ IsSetOf body set.entries := by
  unfold agentPolicySetOf IsSetOf
  cases body.items? with
  | none => simp
  | some items =>
    dsimp only
    rw [foldlM_addPolicy_iff]
    have hempty : (∅ : AgentPolicySet).entries = [] := rfl
    simp only [hempty, List.nil_append, Option.some.injEq, exists_eq_left']
    constructor
    · rintro ⟨entries, hitems, rfl⟩
      exact ⟨hitems, set.nodup⟩
    · rintro ⟨hitems, -⟩
      exact ⟨set.entries, hitems, rfl⟩

/-! ## The read -/

/-- What a read comes to, for whatever `fetch` does. -/
structure NeverQuiet (platform : ReadPlatform F) (get : GetAttempt → Fetched F) (maxAnswerBytes : Nat)
    (read : Except Thrown AgentSetRead) : Prop where
  /-- It rejects where both requests were rejected in time. -/
  rejects : (∃ thrown, read = .error thrown) ↔ ∀ attempt, RejectedInTime (get attempt)
  /-- It is a set where a 2xx within the bound was read whole and is a list of policies: that list. -/
  held : ∀ set, read = .ok (.held set) ↔ ∃ response, AnsweredBy get response ∧ response.ok = true ∧
    ∃ text, ReadWhole platform response maxAnswerBytes text ∧
      ∃ body, platform.json text = some body ∧ IsSetOf body set.entries
  /-- Else it is a reason why there is none. -/
  unverifiable : (∃ attempt, ¬ RejectedInTime (get attempt)) → (∀ set, read ≠ .ok (.held set)) →
    ∃ reason, read = .ok (.unverifiable reason)

/-- Where the deadline passed before any response, there is a reason why there is no set. -/
theorem NeverQuiet.late {get : GetAttempt → Fetched F} {maxAnswerBytes : Nat} (reason : Str)
    (hby : ∀ other, ¬ AnsweredBy get other) (hsome : ∃ attempt, ¬ RejectedInTime (get attempt)) :
    NeverQuiet platform get maxAnswerBytes (.ok (.unverifiable reason)) := by
  obtain ⟨attempt, hattempt⟩ := hsome
  refine ⟨iff_of_false (by simp) fun hall => hattempt (hall attempt), fun set => iff_of_false (by simp) ?_,
    fun _ _ => ⟨reason, rfl⟩⟩
  rintro ⟨other, hother, -⟩
  exact hby other hother

variable [DecidableEq F]

/-- An answer that came is a set where it is a 2xx read whole and a list of policies. -/
theorem readResponse_held_iff {response : AgentResponse F} {maxAnswerBytes timeoutMs : Nat}
    {held : AgentPolicySet} :
    readResponse platform response maxAnswerBytes timeoutMs = .held held ↔
      response.ok = true ∧ ∃ text, ReadWhole platform response maxAnswerBytes text ∧
        ∃ body, platform.json text = some body ∧ IsSetOf body held.entries := by
  unfold readResponse
  by_cases hok : response.ok = true
  · simp only [hok, Bool.not_true, Bool.false_eq_true, if_false, true_and, ← boundedText_eq_some_iff]
    cases boundedText platform response maxAnswerBytes with
    | error failure => simp
    | ok text =>
      cases text with
      | none => simp
      | some text =>
        simp only [Except.ok.injEq, Option.some.injEq, exists_eq_left', ← agentPolicySetOf_eq_some_iff, parseJson]
        cases platform.json text with
        | none => simp [agentPolicySetOf, Value.items?]
        | some body =>
          simp only [Option.getD_some, Option.some.injEq, exists_eq_left']
          cases agentPolicySetOf body <;> simp
  · simp [hok]

/-- Where a response came, the read is what the response comes to. -/
theorem NeverQuiet.answered {get : GetAttempt → Fetched F} {response : AgentResponse F} (maxAnswerBytes timeoutMs : Nat)
    (hby : ∀ other, AnsweredBy get other ↔ response = other) (hsome : ∃ attempt, ¬ RejectedInTime (get attempt)) :
    NeverQuiet platform get maxAnswerBytes (.ok (readResponse platform response maxAnswerBytes timeoutMs)) := by
  obtain ⟨attempt, hattempt⟩ := hsome
  refine ⟨iff_of_false (by simp) fun hall => hattempt (hall attempt), fun set => ?_, fun _ hnone => ?_⟩
  · simp only [hby, exists_eq_left', Except.ok.injEq, readResponse_held_iff]
  · cases hresponse : readResponse platform response maxAnswerBytes timeoutMs with
    | held set => exact absurd (by rw [hresponse]) (hnone set)
    | unverifiable reason => exact ⟨reason, rfl⟩

/-- Reading the agent's set never fails quietly. -/
theorem readAgentSet_never_quiet (platform : ReadPlatform F) (doFetch : SetRequest → GetAttempt → Fetched F)
    (endpoint : Str) (headers : AgentHeaders) (maxAnswerBytes timeoutMs : Nat) :
    NeverQuiet platform (doFetch { url := endpoint ++ js "/v1/policies", headers }) maxAnswerBytes
      (readAgentSet platform doFetch endpoint headers maxAnswerBytes timeoutMs) := by
  unfold readAgentSet
  generalize doFetch { url := endpoint ++ js "/v1/policies", headers } = get
  dsimp only
  cases hfirst : get .first with
  | answered response =>
    exact .answered maxAnswerBytes timeoutMs (by simp [AnsweredBy, RejectedInTime, hfirst])
      ⟨.first, by simp [RejectedInTime, hfirst]⟩
  | rejected failure =>
    dsimp only
    by_cases haborted : failure.aborted = true
    · rw [if_pos haborted]
      exact .late _ (by simp [AnsweredBy, RejectedInTime, hfirst, haborted])
        ⟨.first, by simp [RejectedInTime, hfirst, haborted]⟩
    · rw [if_neg haborted]
      cases hagain : get .again with
      | answered response =>
        exact .answered maxAnswerBytes timeoutMs
          (by simp [AnsweredBy, RejectedInTime, hfirst, hagain, haborted])
          ⟨.again, by simp [RejectedInTime, hagain]⟩
      | rejected failure' =>
        dsimp only
        by_cases haborted' : failure'.aborted = true
        · rw [if_pos haborted']
          exact .late _ (by simp [AnsweredBy, RejectedInTime, hfirst, hagain])
            ⟨.again, by simp [RejectedInTime, hagain, haborted']⟩
        · rw [if_neg haborted']
          -- neither request was answered, and the deadline passed before neither rejection
          have hall : ∀ attempt, RejectedInTime (get attempt) := by
            intro attempt
            cases attempt with
            | first => exact ⟨failure, hfirst, by simpa using haborted⟩
            | again => exact ⟨failure', hagain, by simpa using haborted'⟩
          refine ⟨iff_of_true ⟨_, rfl⟩ hall, fun set => iff_of_false (by simp [cedarEngineError]) ?_, ?_⟩
          · rintro ⟨other, hother, -⟩
            simp [AnsweredBy, hfirst, hagain] at hother
          · rintro ⟨attempt, hattempt⟩
            exact absurd (hall attempt) hattempt

end Read

end PolicyVerifier.Cedar
