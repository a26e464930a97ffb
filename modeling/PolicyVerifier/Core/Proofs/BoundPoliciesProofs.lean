import Mathlib.Data.Finset.Card
import Mathlib.Data.List.Perm.Subperm
import PolicyVerifier.Core.RuleEvaluation
import PolicyVerifier.Js.Strings
import PolicyVerifier.Lib.Grouping

/-!
# Determining policies made to fit

What `boundDeterminingPolicies` answers is what the reporter accepts: the names it lists are distinct and
reportable, at most as many as a report may list, and the ones it leaves out are counted.
-/

namespace PolicyVerifier.Core

open Js RuleInvocation

/-! ## Each name once -/

/-- Picking something out of each element, distinct for distinct elements, commutes with keeping each
element once. -/
theorem filterMap_eraseDups {α β : Type} [BEq α] [LawfulBEq α] [BEq β] [LawfulBEq β]
    {f : α → Option β} (hf : ∀ x y b, f x = some b → f y = some b → x = y) (xs : List α) :
    xs.eraseDups.filterMap f = (xs.filterMap f).eraseDups := by
  induction xs using List.reverseRecOn with
  | nil => rfl
  | append_singleton xs x ih =>
    have hmem : ∀ b, f x = some b → (b ∈ xs.filterMap f ↔ x ∈ xs) := by
      intro b hb
      rw [List.mem_filterMap]
      constructor
      · rintro ⟨y, hy, hfy⟩
        exact hf x y b hb hfy ▸ hy
      · intro hx
        exact ⟨x, hx, hb⟩
    rw [OrderedMap.eraseDups_concat, List.filterMap_append]
    cases hx : f x with
    | none =>
      rw [List.filterMap_cons_none hx, List.filterMap_nil, List.append_nil, ← ih]
      split
      · rfl
      · rw [List.filterMap_append, List.filterMap_cons_none hx, List.filterMap_nil, List.append_nil]
    | some b =>
      rw [List.filterMap_cons_some hx, List.filterMap_nil, OrderedMap.eraseDups_concat]
      simp only [List.mem_eraseDups, hmem b hx]
      split
      · exact ih
      · rw [List.filterMap_append, List.filterMap_cons_some hx, List.filterMap_nil, ih]

theorem reportableId?_eq_some {v : Value} {id : Str} :
    reportableId? v = some id ↔ v = .str id ∧ isReportablePolicyId id = true := by
  rw [reportableId?, Option.filter_eq_some_iff, Value.str?_eq_some]

theorem reportableId?_mapKey (v : Value) : reportableId? v.mapKey = reportableId? v := by
  unfold Value.mapKey
  split <;> rfl

/-- The names a report can carry, each once, in the order they first appear. -/
theorem reportable_distinctNames (names : List Value) :
    (distinctNames names).filterMap reportableId? = (names.filterMap reportableId?).eraseDups := by
  have hinj : ∀ (x y : Value) (id : Str), reportableId? x = some id → reportableId? y = some id → x = y := by
    intro x y id hx hy
    exact (reportableId?_eq_some.1 hx).1.trans (reportableId?_eq_some.1 hy).1.symm
  have hkeys : reportableId? ∘ Value.mapKey = reportableId? := funext reportableId?_mapKey
  rw [distinctNames, filterMap_eraseDups hinj, List.filterMap_map, hkeys]

theorem length_distinctNames (names : List Value) :
    (distinctNames names).length = (names.map Value.mapKey).toFinset.card := by
  have hsame : (distinctNames names).toFinset = (names.map Value.mapKey).toFinset := by
    ext v
    rw [List.mem_toFinset, List.mem_toFinset, distinctNames, List.mem_eraseDups]
  have hnodup : (distinctNames names).Nodup := nodup_eraseDups _
  rw [← hsame, List.toFinset_card_of_nodup hnodup]

/-! ## What is answered -/

/-- The names a bounded report lists. -/
def listedNames (names : List Value) : List Str :=
  (names.filterMap reportableId?).eraseDups.take determiningPoliciesMax

theorem listedNames_reportable {names : List Value} {id : Str} (h : id ∈ listedNames names) :
    isReportablePolicyId id = true ∧ .str id ∈ names := by
  obtain ⟨v, hv, hid⟩ := List.mem_filterMap.1 (List.mem_eraseDups.1 (List.mem_of_mem_take h))
  obtain ⟨rfl, hreportable⟩ := reportableId?_eq_some.1 hid
  exact ⟨hreportable, hv⟩

theorem nodup_listedNames (names : List Value) : (listedNames names).Nodup :=
  (nodup_eraseDups _).sublist (List.take_sublist _ _)

theorem length_listedNames_le (names : List Value) :
    (listedNames names).length ≤ (distinctNames names).length := by
  unfold listedNames
  rw [← reportable_distinctNames, List.length_take]
  exact (Nat.min_le_right _ _).trans (List.length_filterMap_le _ _)

theorem boundDeterminingPolicies_eq (names : List Value) : boundDeterminingPolicies names =
    { determiningPolicies := some (listedNames names)
      determiningPoliciesOmitted :=
        if 0 < (distinctNames names).length - (listedNames names).length then
          some ((distinctNames names).length - (listedNames names).length)
        else none } := by
  unfold boundDeterminingPolicies listedNames
  dsimp only
  rw [reportable_distinctNames]

/-- Every distinct name is listed exactly where as many names are listed as there are. -/
theorem length_listedNames_eq_iff (names : List Value) :
    (listedNames names).length = (distinctNames names).length ↔
      ∀ v ∈ names, ∃ id ∈ listedNames names, v = .str id := by
  have hmem : ∀ v, v ∈ distinctNames names ↔ ∃ w ∈ names, w.mapKey = v := by
    intro v
    rw [distinctNames, List.mem_eraseDups, List.mem_map]
  have hlisted : ((listedNames names).map Value.str).Nodup :=
    (nodup_listedNames names).map fun _ _ h => Value.str.inj h
  have hsubset : (listedNames names).map Value.str ⊆ distinctNames names := by
    intro v hv
    obtain ⟨id, hid, rfl⟩ := List.mem_map.1 hv
    exact (hmem _).2 ⟨.str id, (listedNames_reportable hid).2, rfl⟩
  constructor
  · intro hlength v hv
    have hperm : ((listedNames names).map Value.str).Perm (distinctNames names) :=
      (hlisted.subperm hsubset).perm_of_length_le (by rw [List.length_map, hlength])
    obtain ⟨id, hid, hkey⟩ := List.mem_map.1 (hperm.mem_iff.2 ((hmem _).2 ⟨v, hv, rfl⟩))
    refine ⟨id, hid, ?_⟩
    unfold Value.mapKey at hkey
    split at hkey
    · exact absurd hkey (by simp)
    · exact hkey.symm
  · intro hall
    refine le_antisymm (length_listedNames_le names) ?_
    have hback : distinctNames names ⊆ (listedNames names).map Value.str := by
      intro v hv
      obtain ⟨w, hw, rfl⟩ := (hmem v).1 hv
      obtain ⟨id, hid, rfl⟩ := hall w hw
      exact List.mem_map.2 ⟨id, hid, rfl⟩
    have hsubperm := (nodup_eraseDups (names.map Value.mapKey)).subperm hback
    simpa [distinctNames] using hsubperm.length_le

/-! ## What the reporter makes of it -/

/-- A revision reference a report may name. -/
def ValidRevision (revision : Str) : Prop :=
  revision.length ≤ policyRevisionMaxLength ∧ matchesRevision false revision = true

/-- A revision part that is valid, and what it is kept as: a revision, or `null` and what was loaded. -/
inductive RevisionPart : Value → Value → EvaluatedRevision → Prop
  | named {revision : Str} (valid : ValidRevision revision) :
      RevisionPart (.str revision) .undefined (.revision revision)
  | unknown : RevisionPart .null .undefined (.unknown none)
  | loaded {revision : Str} (valid : ValidRevision revision) :
      RevisionPart .null (.str revision) (.unknown (some revision))

/-- The report `{ status: "completed", ...revision part, ...bound }`; `keys` are those of its revision
part. -/
def completedReport (keys : List Str) (revision loadedRevision : Value) (bound : DeterminingPolicies) : Reading :=
  .fields
    (js "status" :: keys ++ (bound.determiningPolicies.map fun _ => js "determiningPolicies").toList ++
      (bound.determiningPoliciesOmitted.map fun _ => js "determiningPoliciesOmitted").toList)
    (.str (js "completed")) revision loadedRevision
    ((bound.determiningPolicies.map Value.strings).getD .undefined)
    ((bound.determiningPoliciesOmitted.map fun n => .num (.rat n)).getD .undefined)

theorem readIds_ok {ids seen : List Str} (hids : ∀ id ∈ ids, isReportablePolicyId id = true)
    (hnodup : (seen ++ ids).Nodup) : readIds seen (ids.map .str) = .ok (seen ++ ids) := by
  induction ids generalizing seen with
  | nil => simp [readIds]
  | cons id ids ih =>
    have hid : reportableId? (.str id) = some id :=
      reportableId?_eq_some.2 ⟨rfl, hids id (List.mem_cons_self ..)⟩
    have hnew : id ∉ seen := fun hmem =>
      (List.nodup_append.1 hnodup).2.2 id hmem id (List.mem_cons_self ..) rfl
    have hsplit : ((seen ++ [id]) ++ ids).Nodup := by simpa using hnodup
    have hrest := ih (fun i hi => hids i (List.mem_cons_of_mem id hi)) hsplit
    rw [List.map_cons, readIds, hid]
    dsimp only
    rw [if_neg hnew, hrest, List.append_assoc, List.singleton_append]

theorem readOmitted_ok {n : Nat} (hpos : 0 < n) (hsafe : (n : Int) ≤ Number.maxSafeInteger) :
    readOmitted (.num (.rat n)) = .ok (some n) := by
  have hint : (Number.rat n).toInt? = some (n : Int) := by simp [Number.toInt?]
  have hmax : -Number.maxSafeInteger ≤ (n : Int) := by
    unfold Number.maxSafeInteger
    omega
  rw [readOmitted]
  simp only [hint, Number.isSafeInteger]
  rw [if_pos ⟨by simpa using ⟨hmax, hsafe⟩, by omega⟩, Int.toNat_natCast]

/-- What a list of names is bounded to. -/
structure BoundedWell (names : List Value) (bound : DeterminingPolicies) : Prop where
  /-- No report that carries it is refused, and the evaluation that is kept carries it as it is. -/
  kept : ∀ keys revision loadedRevision evaluated, (∀ key ∈ keys, key = js "revision" ∨ key = js "loadedRevision") →
    RevisionPart revision loadedRevision evaluated → ∀ caught,
      beginRuleInvocation.report (.mk [] (completedReport keys revision loadedRevision bound) caught) =
        ({ reported := some (.completed evaluated bound) }, .ok ())
  /-- It lists the first reportable names, each once, in the order they first appear. -/
  listed : bound.determiningPolicies =
    some ((names.filterMap reportableId?).eraseDups.take determiningPoliciesMax)
  /-- What it lists and what it counts are together the distinct values there are. -/
  counted : ∀ list, bound.determiningPolicies = some list →
    list.length + bound.determiningPoliciesOmitted.getD 0 = (names.map Value.mapKey).toFinset.card
  /-- It counts nothing exactly where every value is listed. -/
  omitted : ∀ list, bound.determiningPolicies = some list →
    (bound.determiningPoliciesOmitted = none ↔ ∀ v ∈ names, ∃ id ∈ list, v = .str id)

theorem refuseUnknownKeys_ok {keys allowed : List Str} {what : Str} (h : ∀ key ∈ keys, key ∈ allowed) :
    refuseUnknownKeys keys allowed what = .ok () := by
  unfold refuseUnknownKeys
  dsimp only
  rw [if_pos]
  rw [List.filter_eq_nil_iff]
  simpa using h

theorem readEvaluatedRevision_ok {status : Str} {revision loadedRevision : Value} {evaluated : EvaluatedRevision}
    (h : RevisionPart revision loadedRevision evaluated) :
    readEvaluatedRevision status revision loadedRevision = .ok evaluated := by
  have hread : ∀ {s : Str} (key : Str), ValidRevision s → readRevision (.str s) key = .ok s := by
    intro s key hvalid
    rw [readRevision]
    exact if_pos hvalid
  cases h with
  | named valid => simp [readEvaluatedRevision, hread _ valid, Except.map]
  | unknown => simp [readEvaluatedRevision]
  | loaded valid => simp [readEvaluatedRevision, hread _ valid, Except.map]

/-- A list that is distinct, reportable and short enough is read as it is, with the count beside it. -/
theorem readDeterminingPolicies_ok {ids : List Str} {omitted : Option Nat}
    (hids : ∀ id ∈ ids, isReportablePolicyId id = true) (hnodup : ids.Nodup)
    (hlength : ids.length ≤ determiningPoliciesMax)
    (homitted : ∀ n, omitted = some n → 0 < n ∧ (n : Int) ≤ Number.maxSafeInteger) :
    readDeterminingPolicies (Value.strings ids) ((omitted.map fun n => .num (.rat n)).getD .undefined) =
      .ok { determiningPolicies := some ids, determiningPoliciesOmitted := omitted } := by
  have hlist : Value.strings ids = .arr 0 (ids.map .str) := rfl
  have hread : readOmitted ((omitted.map fun n => .num (.rat n)).getD .undefined) = .ok omitted := by
    cases omitted with
    | none => rfl
    | some n =>
      obtain ⟨hpos, hsafe⟩ := homitted n rfl
      exact readOmitted_ok hpos hsafe
  rw [hlist, readDeterminingPolicies, List.length_map, if_neg (Nat.not_lt.2 hlength),
    readIds_ok hids (by simpa using hnodup), hread]
  rfl

/-- A completed report of a valid revision part and a list that fits is read as it is. -/
theorem readEvaluation_completed {keys ids : List Str} {revision loadedRevision : Value}
    {evaluated : EvaluatedRevision} {omitted : Option Nat}
    (hkeys : ∀ key ∈ keys, key = js "revision" ∨ key = js "loadedRevision")
    (hpart : RevisionPart revision loadedRevision evaluated)
    (hread : readDeterminingPolicies (Value.strings ids) ((omitted.map fun n => .num (.rat n)).getD .undefined) =
      .ok { determiningPolicies := some ids, determiningPoliciesOmitted := omitted }) :
    readEvaluation (completedReport keys revision loadedRevision
      { determiningPolicies := some ids, determiningPoliciesOmitted := omitted }) =
      .ok (.completed evaluated { determiningPolicies := some ids, determiningPoliciesOmitted := omitted }) := by
  have hallowed : ∀ key ∈ js "status" :: keys ++ [js "determiningPolicies"] ++
      (omitted.map fun _ => js "determiningPoliciesOmitted").toList, key ∈ completedKeys := by
    intro key hkey
    have hcompleted : completedKeys = [js "status", js "revision", js "loadedRevision",
      js "determiningPolicies", js "determiningPoliciesOmitted"] := rfl
    rw [hcompleted]
    simp only [List.mem_append, List.mem_cons, List.not_mem_nil, or_false, Option.mem_toList,
      Option.map_eq_some_iff] at hkey ⊢
    rcases hkey with ((rfl | hkey) | rfl) | ⟨-, -, rfl⟩
    · simp
    · rcases hkeys key hkey with rfl | rfl <;> simp
    · simp
    · simp
  unfold completedReport readEvaluation
  simp only [Option.map_some, Option.toList_some, Option.getD_some]
  rw [if_neg (by decide), if_pos trivial, refuseUnknownKeys_ok hallowed, hread, readEvaluatedRevision_ok hpart]
  rfl

/-- Whatever an evaluator names, bounding it answers what the reporter accepts. The names are as many as a
`Set` has a size for. -/
theorem boundDeterminingPolicies_accepted (names : List Value)
    (hsize : ((distinctNames names).length : Int) ≤ Number.maxSafeInteger) :
    BoundedWell names (boundDeterminingPolicies names) := by
  have hle := length_listedNames_le names
  have hcounted := length_distinctNames names
  have hall := length_listedNames_eq_iff names
  rw [boundDeterminingPolicies_eq]
  generalize homitted : (if 0 < (distinctNames names).length - (listedNames names).length then
    some ((distinctNames names).length - (listedNames names).length) else none : Option Nat) = omitted
  have hpos : ∀ n, omitted = some n → 0 < n ∧ n = (distinctNames names).length - (listedNames names).length := by
    rintro n rfl
    split at homitted
    · obtain rfl := Option.some.inj homitted
      exact ⟨by assumption, rfl⟩
    · exact absurd homitted (by simp)
  have hnone : omitted = none → (listedNames names).length = (distinctNames names).length := by
    rintro rfl
    split at homitted
    · exact absurd homitted (by simp)
    · omega
  refine ⟨?_, rfl, ?_, ?_⟩
  · intro keys revision loadedRevision evaluated hkeys hpart caught
    have hread := readDeterminingPolicies_ok (fun id hid => (listedNames_reportable hid).1)
      (nodup_listedNames names) (List.length_take_le _ _) fun n hn => by
        obtain ⟨hlt, rfl⟩ := hpos n hn
        exact ⟨hlt, by omega⟩
    have hkept := readEvaluation_completed hkeys hpart hread
    simp [RuleInvocation.report, RuleInvocation.reportAll, beginRuleInvocation, hkept]
  · intro list hlist
    obtain rfl := Option.some.inj hlist
    rw [← hcounted]
    cases omitted with
    | none =>
      have hsame := hnone rfl
      simpa using hsame
    | some n =>
      obtain ⟨hlt, rfl⟩ := hpos n rfl
      simp only [Option.getD_some]
      omega
  · intro list hlist
    obtain rfl := Option.some.inj hlist
    rw [← hall]
    cases omitted with
    | none => exact iff_of_true rfl (hnone rfl)
    | some n =>
      obtain ⟨hlt, rfl⟩ := hpos n rfl
      exact iff_of_false (by simp) (by omega)

/-- A name, one that is no string twice over in a `Set`'s eyes, and one that breaks a line. -/
theorem boundDeterminingPolicies_accepted_mixed :
    let names : List Value := [.num .negZero, .str (js "20-forbid"), .num (.rat 0), .str (js "a\nb"),
      .str (js "20-forbid")]
    BoundedWell names (boundDeterminingPolicies names) ∧ boundDeterminingPolicies names =
      { determiningPolicies := some [js "20-forbid"], determiningPoliciesOmitted := some 2 } :=
  ⟨boundDeterminingPolicies_accepted _ (by decide +kernel), by decide +kernel⟩

end PolicyVerifier.Core
