import PolicyVerifier.Cedar.HttpEngine
import PolicyVerifier.Cedar.WasmEngine
import PolicyVerifier.Lib.ExceptFold

/-!
# The names of the policies

Every policy of a set is named once, under an id no other policy has: the loop over the files goes through
exactly where the ids it would give are pairwise distinct, and then it has given all of them. The two engines
name a set of one policy a file alike.
-/

namespace PolicyVerifier.Cedar

open Js

/-! ## The ids of one file -/

/-- A file's name without `.cedar`. -/
def stem (file : PolicyFile) : Str :=
  if endsWith (js ".cedar") file.name then file.name.take (file.name.length - 6) else file.name

/-- The id of the policy at an index of a file that holds so many. -/
def policyId (file : PolicyFile) (count index : Nat) : Str :=
  if count = 1 then stem file else stem file ++ js "#" ++ decimal (index + 1)

theorem policyIdsOf_ok_iff {file : PolicyFile} {count : Nat} {ids : List Str} :
    policyIdsOf file count = .ok ids ↔
      (0 < count → stem file ≠ []) ∧ ids = (List.range count).map (policyId file count) := by
  have hids : policyIdsOf file count =
      if stem file = [] ∧ 0 < count then
        .error (js "\"" ++ file.source ++
          js "\" yields an empty policy id — the file needs a name before .cedar")
      else .ok ((List.range count).map (policyId file count)) := by
    unfold policyIdsOf
    show (if stem file = [] ∧ 0 < count then _ else if count = 1 then Except.ok [stem file] else _) = _
    by_cases hone : count = 1
    · rw [if_pos hone, hone]
      rfl
    · rw [if_neg hone]
      have hnumbered : policyId file count = fun index => stem file ++ js "#" ++ decimal (index + 1) :=
        funext fun index => if_neg hone
      rw [hnumbered]
      rfl
  rw [hids]
  split
  · rename_i hempty
    exact iff_of_false (by simp) fun h => h.1 hempty.2 hempty.1
  · rename_i hname
    rw [Except.ok.injEq, eq_comm]
    exact (and_iff_right fun hpositive hnil => hname ⟨hnil, hpositive⟩).symm

theorem policyId_ne_nil {file : PolicyFile} {count index : Nat} (h : stem file ≠ []) :
    policyId file count index ≠ [] := by
  unfold policyId
  split
  · exact h
  · simp [h]

/-- The policies of a file that holds these texts, each under its id. -/
def policiesNamed (file : PolicyFile) (texts : List Str) : List NamedPolicy :=
  texts.zipIdx.map fun entry =>
    { id := policyId file texts.length entry.2, text := entry.1, file }

theorem policiesNamed_eq (file : PolicyFile) (texts : List Str) :
    (((List.range texts.length).map (policyId file texts.length)).zip texts).map
        (fun policy => { id := policy.1, text := policy.2, file }) = policiesNamed file texts := by
  refine List.ext_getElem (by simp [policiesNamed]) fun index hleft hright => ?_
  simp [policiesNamed]

/-! ## The loops -/

/-- A policy is put under its id where no other has it. -/
theorem nameOne_ok_iff (file : PolicyFile) (named : OrderedMap Str NamedPolicy) (policy : Str × Str)
    (m : OrderedMap Str NamedPolicy) :
    nameOne file named policy = .ok m ↔ True ∧
      m.entries = named.entries ++ [(policy.1, { id := policy.1, text := policy.2, file })] := by
  unfold nameOne
  rw [true_and]
  cases hholder : named.get? policy.1 with
  | some holder =>
    refine iff_of_false (by simp) fun hentries => ?_
    have hnew := (OrderedMap.eq_set_of_concat hentries).1
    rw [← OrderedMap.get?_eq_none_iff, hholder] at hnew
    exact absurd hnew (by simp)
  | none =>
    have hnew : policy.1 ∉ named.keys := (OrderedMap.get?_eq_none_iff named policy.1).1 hholder
    dsimp only
    rw [Except.ok.injEq]
    constructor
    · rintro rfl
      exact OrderedMap.entries_set_of_not_mem named policy.1 _ hnew
    · intro hentries
      exact (OrderedMap.eq_set_of_concat hentries).2.symm

section

variable {split : PolicyFile → Except Str (List Str)}

/-- The texts a file is split into, where it is. -/
def textsOf (split : PolicyFile → Except Str (List Str)) (file : PolicyFile) : List Str :=
  (split file).toOption.getD []

/-- Every policy of the files, each under its id, in the order of the files. -/
def layout (files : List PolicyFile) (split : PolicyFile → List Str) : List NamedPolicy :=
  files.flatMap fun file => policiesNamed file (split file)

/-- Whether a file is split, and has a name where it holds a policy. -/
structure Nameable (split : PolicyFile → Except Str (List Str)) (file : PolicyFile) : Prop where
  splits : split file = .ok (textsOf split file)
  named : textsOf split file ≠ [] → stem file ≠ []

/-- What naming a file adds. -/
def namedEntries (split : PolicyFile → Except Str (List Str)) (file : PolicyFile) : List (Str × NamedPolicy) :=
  (policiesNamed file (textsOf split file)).map fun policy => (policy.id, policy)

/-- A file is named where it is split and has a name, under ids that are new. -/
theorem nameFile_ok_iff (named : OrderedMap Str NamedPolicy) (file : PolicyFile) (m : OrderedMap Str NamedPolicy) :
    nameFile split named file = .ok m ↔
      Nameable split file ∧ m.entries = named.entries ++ namedEntries split file := by
  have hall : ∀ texts, ((((List.range texts.length).map (policyId file texts.length)).zip texts).flatMap
      fun policy => [(policy.1, { id := policy.1, text := policy.2, file })]) =
        (policiesNamed file texts).map fun policy => (policy.id, policy) := by
    intro texts
    rw [← List.map_eq_flatMap, ← policiesNamed_eq, List.map_map]
    rfl
  unfold nameFile namedEntries
  constructor
  · intro h
    obtain ⟨texts, htexts, h⟩ := ExceptFold.bind_eq_ok h
    obtain ⟨ids, hids, h⟩ := ExceptFold.bind_eq_ok h
    obtain ⟨hstem, rfl⟩ := policyIdsOf_ok_iff.1 hids
    obtain ⟨-, hentries⟩ := (OrderedMap.foldlM_written_iff (nameOne_ok_iff file)).1 h
    have hsplit : textsOf split file = texts := by
      rw [textsOf, htexts]
      rfl
    rw [hall] at hentries
    rw [hsplit]
    refine ⟨⟨?_, fun hne => ?_⟩, hentries⟩
    · rw [hsplit]
      exact htexts
    · rw [hsplit] at hne
      exact hstem (List.length_pos_iff.2 hne)
  · rintro ⟨⟨hsplits, hstem⟩, hentries⟩
    have hids := policyIdsOf_ok_iff.2 ⟨fun hpos => hstem (List.length_pos_iff.1 hpos), rfl⟩
    rw [← hall] at hentries
    rw [hsplits]
    show (policyIdsOf file (textsOf split file).length >>= _) = _
    rw [hids]
    exact (OrderedMap.foldlM_written_iff (nameOne_ok_iff file)).2 ⟨fun _ _ => trivial, hentries⟩

/-- A set is named exactly where every file is split and named and no two policies share an id, and it is
named whole. -/
theorem namePoliciesSplit_ok_iff {files : List PolicyFile} {policies : List NamedPolicy} :
    namePoliciesSplit files split = .ok policies ↔ (∀ file ∈ files, Nameable split file) ∧
      ((layout files (textsOf split)).map NamedPolicy.id).Nodup ∧ policies = layout files (textsOf split) := by
  have hwritten : files.flatMap (namedEntries split) =
      (layout files (textsOf split)).map fun policy => (policy.id, policy) := by
    rw [layout, List.map_flatMap]
    rfl
  have hkeys : (files.flatMap (namedEntries split)).map Prod.fst =
      (layout files (textsOf split)).map NamedPolicy.id := by
    rw [hwritten, List.map_map]
    rfl
  have hvalues : (files.flatMap (namedEntries split)).map Prod.snd = layout files (textsOf split) := by
    rw [hwritten, List.map_map]
    exact List.map_id _
  unfold namePoliciesSplit
  constructor
  · intro h
    obtain ⟨m, hm, h⟩ := ExceptFold.bind_eq_ok h
    obtain ⟨hall, hentries⟩ := (OrderedMap.foldlM_written_iff nameFile_ok_iff).1 hm
    obtain rfl := Except.ok.inj h
    have hnodup := m.nodup
    rw [hentries, OrderedMap.entries_empty, List.nil_append, hkeys] at hnodup
    refine ⟨hall, hnodup, ?_⟩
    rw [hentries, OrderedMap.entries_empty, List.nil_append, hvalues]
  · rintro ⟨hall, hnodup, rfl⟩
    rw [← hkeys] at hnodup
    have hentries : (OrderedMap.mk (files.flatMap (namedEntries split)) hnodup).entries =
        (∅ : OrderedMap Str NamedPolicy).entries ++ files.flatMap (namedEntries split) := rfl
    rw [(OrderedMap.foldlM_written_iff nameFile_ok_iff).2 ⟨hall, hentries⟩]
    exact congrArg Except.ok hvalues

end

/-! ## What is named -/

section

variable {files : List PolicyFile} {split : PolicyFile → List Str}

theorem namePolicies_ok_iff {policies : List NamedPolicy} : namePolicies files split = .ok policies ↔
    (∀ file ∈ files, split file ≠ [] → stem file ≠ []) ∧
      ((layout files split).map NamedPolicy.id).Nodup ∧ policies = layout files split := by
  have htexts : textsOf (fun file => .ok (split file)) = split := rfl
  rw [namePolicies, namePoliciesSplit_ok_iff, htexts]
  refine and_congr_left fun _ => forall₂_congr fun file _ => ?_
  exact ⟨fun h => h.named, fun h => ⟨rfl, h⟩⟩

theorem layout_id_ne_nil (hstem : ∀ file ∈ files, split file ≠ [] → stem file ≠ []) :
    ∀ policy ∈ layout files split, policy.id ≠ [] := by
  intro policy hpolicy
  obtain ⟨file, hfile, hnamed⟩ := List.mem_flatMap.1 hpolicy
  obtain ⟨entry, hentry, rfl⟩ := List.mem_map.1 hnamed
  have hholds : split file ≠ [] := by
    intro hnil
    rw [hnil] at hentry
    exact absurd hentry (by simp)
  exact policyId_ne_nil (hstem file hfile hholds)

/-- What naming the policies of a set comes to. -/
structure PoliciesNamed (files : List PolicyFile) (split : PolicyFile → List Str) : Prop where
  /-- Every policy once, in the order of the files, with its own text, file and id, and no two ids the same. -/
  named : ∀ policies, namePolicies files split = .ok policies → policies = layout files split ∧
    (policies.map NamedPolicy.id).Nodup ∧ ∀ policy ∈ policies, policy.id ≠ []
  /-- Otherwise two policies would share an id, or a file of no name holds one. -/
  refused : (∃ message, namePolicies files split = .error message) ↔
    ¬ ((layout files split).map NamedPolicy.id).Nodup ∨ ∃ file ∈ files, split file ≠ [] ∧ stem file = []

theorem policiesNamed_all (files : List PolicyFile) (split : PolicyFile → List Str) :
    PoliciesNamed files split where
  named := by
    intro policies h
    obtain ⟨hstem, hnodup, rfl⟩ := namePolicies_ok_iff.1 h
    exact ⟨rfl, hnodup, layout_id_ne_nil hstem⟩
  refused := by
    have hok : (∃ message, namePolicies files split = .error message) ↔
        ¬ ∃ policies, namePolicies files split = .ok policies := by
      cases namePolicies files split <;> simp
    rw [hok]
    simp only [namePolicies_ok_iff, exists_and_left, exists_eq, and_true, not_and_or]
    rw [or_comm]
    refine or_congr_right ?_
    push Not
    rfl

/-! ## The two engines -/

/-- How Cedar reads the files of a set of one policy a file: one that is not blank holds one policy, and white
space holds none. -/
def OnePolicyEach (policySetTextToParts : Str → PolicySetParts) (files : List PolicyFile) : Prop :=
  ∀ file ∈ files,
    if nonBlank file then ∃ text, policySetTextToParts file.text = .success [text] []
    else ∀ policies templates, policySetTextToParts file.text = .success policies templates → policies = []

/-- What a policy is called, and where it came from. -/
def NamedPolicy.naming (policy : NamedPolicy) : Str × PolicyFile := (policy.id, policy.file)

variable {policySetTextToParts : Str → PolicySetParts} {file : PolicyFile}

theorem inFileOrder_one (text : Str) : inFileOrder [text] = [some text] := by
  have hsorted : sort ((List.range [text].length).map positionalId) = [positionalId 0] := rfl
  have hposition : positionOf (positionalId 0) = 0 := by decide
  unfold inFileOrder
  rw [hsorted]
  show [none].set (positionOf (positionalId 0)) (some text) = [some text]
  rw [hposition]
  rfl

theorem policiesOf_one {text : Str} (h : policySetTextToParts file.text = .success [text] []) :
    policiesOf policySetTextToParts file = .ok [text] := by
  rw [policiesOf, h]
  show Except.ok ((inFileOrder [text]).map fun text => text.getD []) = .ok [text]
  rw [inFileOrder_one]
  rfl

theorem policiesOf_nothing (h : policySetTextToParts file.text = .success [] []) :
    policiesOf policySetTextToParts file = .ok [] := by
  rw [policiesOf, h]
  rfl

/-- A file that is not blank has its one text, and a blank one none. -/
theorem textsOf_each (hone : OnePolicyEach policySetTextToParts files) (hfile : file ∈ files) :
    ∃ texts, textsOf (policiesOf policySetTextToParts) file = texts ∧
      texts.length = if nonBlank file then 1 else 0 := by
  have heach := hone file hfile
  refine ⟨_, rfl, ?_⟩
  split at heach
  · rename_i hblank
    obtain ⟨text, htext⟩ := heach
    rw [if_pos hblank, textsOf, policiesOf_one htext]
    rfl
  · rename_i hblank
    rw [if_neg hblank, textsOf, policiesOf]
    cases hparts : policySetTextToParts file.text with
    | failure errors => rfl
    | success policies templates =>
      obtain rfl := heach policies templates hparts
      dsimp only
      split
      · rfl
      · rfl

theorem naming_one {texts : List Str} (h : texts.length = 1) :
    (policiesNamed file texts).map NamedPolicy.naming = [(stem file, file)] := by
  obtain ⟨text, rfl⟩ := List.length_eq_one_iff.1 h
  rfl

/-- Both engines call every policy the same. -/
theorem naming_layout (hone : OnePolicyEach policySetTextToParts files) :
    (layout files (textsOf (policiesOf policySetTextToParts))).map NamedPolicy.naming =
      (layout (files.filter nonBlank) fun file => [file.text]).map NamedPolicy.naming := by
  induction files with
  | nil => rfl
  | cons file files ih =>
    have hrest := ih fun f hf => hone f (List.mem_cons_of_mem file hf)
    obtain ⟨texts, htexts, hlength⟩ := textsOf_each hone (List.mem_cons_self ..)
    rw [layout, List.flatMap_cons, List.map_append, htexts]
    by_cases hblank : nonBlank file = true
    · rw [if_pos hblank] at hlength
      rw [List.filter_cons_of_pos hblank, layout, List.flatMap_cons, List.map_append, naming_one hlength,
        naming_one rfl]
      exact congrArg _ hrest
    · rw [if_neg hblank, List.length_eq_zero_iff] at hlength
      rw [List.filter_cons_of_neg hblank, hlength]
      exact hrest

/-- How the two engines name a set of one policy a file. -/
structure NamedAlike (policySetTextToParts : Str → PolicySetParts) (files : List PolicyFile) : Prop where
  /-- What is compiled in process is called as it is where it is pushed. -/
  compiled : ∀ compiled, wasmPolicies policySetTextToParts files = .ok compiled →
    ∃ pushed, httpPolicies files = .ok pushed ∧
      compiled.map NamedPolicy.naming = pushed.map NamedPolicy.naming
  /-- What is pushed is compiled too, under the same names, where Cedar reads the blank files. -/
  pushed : (∀ file ∈ files, nonBlank file = false →
      ∃ policies, policySetTextToParts file.text = .success policies []) →
    ∀ pushed, httpPolicies files = .ok pushed →
      ∃ compiled, wasmPolicies policySetTextToParts files = .ok compiled ∧
        compiled.map NamedPolicy.naming = pushed.map NamedPolicy.naming

theorem map_id_eq {policies policies' : List NamedPolicy}
    (h : policies.map NamedPolicy.naming = policies'.map NamedPolicy.naming) :
    policies.map NamedPolicy.id = policies'.map NamedPolicy.id := by
  have hids : ∀ ps : List NamedPolicy, ps.map NamedPolicy.id = (ps.map NamedPolicy.naming).map Prod.fst := by
    intro ps
    rw [List.map_map]
    rfl
  rw [hids, hids, h]

theorem namedAlike (hone : OnePolicyEach policySetTextToParts files) :
    NamedAlike policySetTextToParts files where
  compiled := by
    intro compiled h
    obtain ⟨hall, hnodup, rfl⟩ := namePoliciesSplit_ok_iff.1 h
    rw [map_id_eq (naming_layout hone)] at hnodup
    refine ⟨_, namePolicies_ok_iff.2 ⟨fun file hfile _ => ?_, hnodup, rfl⟩, naming_layout hone⟩
    obtain ⟨hfile, hblank⟩ := List.mem_filter.1 hfile
    obtain ⟨texts, htexts, hlength⟩ := textsOf_each hone hfile
    rw [if_pos hblank] at hlength
    refine (hall file hfile).named fun hnil => ?_
    rw [htexts] at hnil
    rw [hnil] at hlength
    exact absurd hlength (by simp)
  pushed := by
    intro hread pushed h
    obtain ⟨hstem, hnodup, rfl⟩ := namePolicies_ok_iff.1 h
    rw [← map_id_eq (naming_layout hone)] at hnodup
    refine ⟨_, namePoliciesSplit_ok_iff.2 ⟨fun file hfile => ?_, hnodup, rfl⟩, naming_layout hone⟩
    have heach := hone file hfile
    split at heach
    · rename_i hblank
      obtain ⟨text, htext⟩ := heach
      have hsplit := policiesOf_one htext
      refine ⟨?_, fun _ => hstem file (List.mem_filter.2 ⟨hfile, hblank⟩) (by simp)⟩
      rw [textsOf, hsplit]
      rfl
    · rename_i hblank
      obtain ⟨policies, hparts⟩ := hread file hfile (by simpa using hblank)
      obtain rfl := heach policies [] hparts
      have hsplit := policiesOf_nothing hparts
      have htexts : textsOf (policiesOf policySetTextToParts) file = [] := by
        rw [textsOf, hsplit]
        rfl
      refine ⟨?_, fun hne => absurd htexts hne⟩
      rw [htexts]
      exact hsplit

end

/-- For every list of files, every split of them and every reading of them by Cedar: the policies are all named
apart or refused, and a set of one policy a file is named alike by both engines. -/
theorem policy_naming (policySetTextToParts : Str → PolicySetParts) (files : List PolicyFile) :
    (∀ split, PoliciesNamed files split) ∧
      (OnePolicyEach policySetTextToParts files → NamedAlike policySetTextToParts files) :=
  ⟨policiesNamed_all files, namedAlike⟩

/-- A file of one policy beside a blank one. -/
theorem policy_naming_blank :
    let files : List PolicyFile := [{ name := js "10-permit.cedar", source := js "p/10-permit.cedar",
                                      text := js "permit(principal, action, resource);" },
                                    { name := js "20-todo.cedar", source := js "p/20-todo.cedar", text := js "\n" }]
    let parts (text : Str) : PolicySetParts := .success (if text = js "\n" then [] else [text]) []
    (∀ split, PoliciesNamed files split) ∧ NamedAlike parts files := by
  intro files parts
  obtain ⟨hnamed, halike⟩ := policy_naming parts files
  refine ⟨hnamed, halike fun file hfile => ?_⟩
  have hcases : file = files[0] ∨ file = files[1] := by simpa [files] using hfile
  rcases hcases with rfl | rfl
  · rw [if_pos (by decide)]
    exact ⟨files[0].text, rfl⟩
  · rw [if_neg (by decide)]
    rintro policies templates h
    exact (PolicySetParts.success.inj h).1.symm

end PolicyVerifier.Cedar
