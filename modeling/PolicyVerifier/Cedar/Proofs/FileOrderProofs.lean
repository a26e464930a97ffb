import PolicyVerifier.Cedar.Proofs.PolicyNamingProofs
import PolicyVerifier.Js.Proofs.NumberTextProofs
import PolicyVerifier.Lib.Scatter

/-!
# The order of a file restored

Cedar hands the policies of a file back sorted by their positional ids as strings, `policy10` before
`policy2`. Sorting the same ids again tells which part has which id, and each part is written at the place its
id names. So the policies stand in the order of their file, however many digits the ids have.
-/

namespace PolicyVerifier.Cedar

open Js

/-- What Cedar makes of a file of `n` policies: each under its positional id, sorted by the ids as strings. -/
structure HandedSorted (n : ℕ) (parts : List (Str × Str)) : Prop where
  ids : (parts.map Prod.fst).Perm ((List.range n).map positionalId)
  sorted : (parts.map Prod.fst).Pairwise fun s t => notAfter s t = true

/-! ## Positions and ids -/

/-- A position is read back off its id. -/
@[simp] theorem positionOf_positionalId (position : ℕ) : positionOf (positionalId position) = position := by
  have hdigits : (positionalId position).drop 6 = decimal position := rfl
  have hcomm : (fun (n : ℕ) (c : UInt16) => n * 10 + (c.toNat - 0x30)) =
      fun n c => 10 * n + (c.toNat - 0x30) := by
    funext n c
    rw [Nat.mul_comm]
  rw [positionOf, hdigits, hcomm]
  exact ofDigits_decimal position

theorem positionalId_injective : Function.Injective positionalId := fun i j h => by
  rw [← positionOf_positionalId i, h, positionOf_positionalId]

section

variable {n : ℕ} {parts : List (Str × Str)}

theorem HandedSorted.length (h : HandedSorted n parts) : parts.length = n := by
  simpa using h.ids.length_eq

/-- Sorting the ids anew gives them as Cedar sorted them. -/
theorem HandedSorted.sort_ids (h : HandedSorted n parts) :
    sort ((List.range n).map positionalId) = parts.map Prod.fst :=
  List.Perm.eq_of_pairwise' (List.pairwise_insertionSort _ _) h.sorted
    ((List.perm_insertionSort _ _).trans h.ids.symm)

/-- The parts, each with the place it is written to. -/
def places (parts : List (Str × Str)) : List (ℕ × Str) := parts.map fun part => (positionOf part.1, part.2)

theorem HandedSorted.places (h : HandedSorted n parts) :
    ((places parts).map Prod.fst).Perm (List.range (places parts).length) := by
  have hpositions : (Cedar.places parts).map Prod.fst = (parts.map Prod.fst).map positionOf := by
    rw [Cedar.places, List.map_map, List.map_map]
    rfl
  have hback : ((List.range n).map positionalId).map positionOf = List.range n := by
    rw [List.map_map]
    exact (List.map_congr_left fun i _ => positionOf_positionalId i).trans (List.map_id _)
  have hlength : (Cedar.places parts).length = n := by rw [Cedar.places, List.length_map, h.length]
  rw [hpositions, hlength, ← hback]
  exact h.ids.map positionOf

theorem HandedSorted.mem_places (h : HandedSorted n parts) (i : ℕ) (text : Str) :
    (i, text) ∈ Cedar.places parts ↔ (positionalId i, text) ∈ parts := by
  constructor
  · intro hmem
    obtain ⟨⟨id, _⟩, hpart, heq⟩ := List.mem_map.1 hmem
    obtain ⟨rfl, rfl⟩ := Prod.mk.inj heq
    obtain ⟨j, -, rfl⟩ := List.mem_map.1 (h.ids.mem_iff.1 (List.mem_map.2 ⟨_, hpart, rfl⟩))
    rwa [positionOf_positionalId]
  · intro hpart
    exact List.mem_map.2 ⟨_, hpart, by rw [positionOf_positionalId]⟩

theorem HandedSorted.inFileOrder_eq (h : HandedSorted n parts) :
    inFileOrder (parts.map Prod.snd) =
      Scatter.write (Cedar.places parts) (List.replicate (Cedar.places parts).length none) := by
  have hzip : (parts.map Prod.fst).zip (parts.map Prod.snd) = parts := (List.zip_of_prod rfl rfl).symm
  unfold inFileOrder
  dsimp only
  rw [List.length_map, h.length, h.sort_ids, hzip, Cedar.places, Scatter.write, List.foldl_map,
    List.length_map, h.length]

/-- No place is a hole, and at each stands the part whose id names it. -/
theorem HandedSorted.exists_texts (h : HandedSorted n parts) :
    ∃ texts : List Str, inFileOrder (parts.map Prod.snd) = texts.map some ∧
      ∀ i text, texts[i]? = some text ↔ (positionalId i, text) ∈ parts := by
  obtain ⟨texts, hwrite, hat⟩ := Scatter.exists_write_eq h.places
  refine ⟨texts, h.inFileOrder_eq.trans hwrite, fun i text => ?_⟩
  rw [hat, h.mem_places]

end

/-! ## The policies of a file -/

/-- What the policies of a file come to, where Cedar handed back these parts. -/
structure InOrder (policySetTextToParts : Str → PolicySetParts) (file : PolicyFile) (n : ℕ)
    (parts : List (Str × Str)) (texts : List Str) : Prop where
  /-- The file is split into as many policies as it has. -/
  split : policiesOf policySetTextToParts file = .ok texts
  length : texts.length = n
  /-- No place was left unwritten. -/
  noHole : inFileOrder (parts.map Prod.snd) = texts.map some
  /-- The policy at an index is the part whose id names the index. -/
  at_index : ∀ i text, texts[i]? = some text ↔ (positionalId i, text) ∈ parts
  /-- No part is lost and none stands twice. -/
  all : (texts.mapIdx fun i text => (positionalId i, text)).Perm parts
  /-- In a set that holds the file, the numbered ids name its policies in order. -/
  named : ∀ files policies, file ∈ files → wasmPolicies policySetTextToParts files = .ok policies → 2 ≤ n →
    ∀ i text, (positionalId i, text) ∈ parts → ∀ policy,
      policy ∈ policies ∧ policy.id = stem file ++ js "#" ++ decimal (i + 1) ↔
        policy = { id := stem file ++ js "#" ++ decimal (i + 1), text, file }

section

variable {policySetTextToParts : Str → PolicySetParts} {file : PolicyFile} {n : ℕ}
  {parts : List (Str × Str)} {texts : List Str}

theorem policiesOf_of_inFileOrder {policies : List Str}
    (hread : policySetTextToParts file.text = .success policies [])
    (h : inFileOrder policies = texts.map some) : policiesOf policySetTextToParts file = .ok texts := by
  have hback : (texts.map some).map (fun text => text.getD []) = texts := by
    rw [List.map_map]
    exact List.map_id _
  rw [policiesOf, hread]
  dsimp only
  rw [if_neg (not_not_intro rfl), h, hback]

/-- Each policy of a set has the text of its file and index. -/
theorem mem_layout_of_getElem? {files : List PolicyFile} {split : PolicyFile → List Str} {i : ℕ} {text : Str}
    (hfile : file ∈ files) (htext : (split file)[i]? = some text) :
    { id := policyId file (split file).length i, text, file } ∈ layout files split := by
  refine List.mem_flatMap.2 ⟨file, hfile, List.mem_map.2 ⟨(text, i), ?_, rfl⟩⟩
  rwa [List.mk_mem_zipIdx_iff_getElem?]

theorem perm_of_at_index (hparts : HandedSorted n parts)
    (h : ∀ i text, texts[i]? = some text ↔ (positionalId i, text) ∈ parts) :
    (texts.mapIdx fun i text => (positionalId i, text)).Perm parts := by
  have hnodup : parts.Nodup := by
    refine List.Nodup.of_map Prod.fst (hparts.ids.nodup_iff.2 ?_)
    exact List.nodup_range.map positionalId_injective
  have hnodup' : (texts.mapIdx fun i text => (positionalId i, text)).Nodup := by
    refine List.Nodup.of_map Prod.fst ?_
    have hids : (texts.mapIdx fun i text => (positionalId i, text)).map Prod.fst =
        (List.range texts.length).map positionalId := by
      refine List.ext_getElem (by simp) fun i hi hi' => ?_
      simp
    rw [hids]
    exact List.nodup_range.map positionalId_injective
  rw [List.perm_ext_iff_of_nodup hnodup' hnodup]
  rintro ⟨id, text⟩
  rw [List.mem_mapIdx]
  constructor
  · rintro ⟨i, hi, heq⟩
    obtain ⟨rfl, rfl⟩ := Prod.mk.inj heq
    exact (h i _).1 (List.getElem?_eq_getElem hi)
  · intro hmem
    obtain ⟨i, -, rfl⟩ := List.mem_map.1 (hparts.ids.mem_iff.1 (List.mem_map.2 ⟨_, hmem, rfl⟩))
    obtain ⟨hi, htext⟩ := List.getElem?_eq_some_iff.1 ((h i text).2 hmem)
    exact ⟨i, hi, by rw [htext]⟩

theorem length_of_at_index (hparts : HandedSorted n parts)
    (h : ∀ i text, texts[i]? = some text ↔ (positionalId i, text) ∈ parts) : texts.length = n := by
  rw [← hparts.length, ← (perm_of_at_index hparts h).length_eq, List.length_mapIdx]

/-- The numbered ids of a file of several policies name them in the order of the file. -/
theorem named_in_order {files : List PolicyFile} {policies : List NamedPolicy} {i : ℕ} {text : Str}
    (hsplit : policiesOf policySetTextToParts file = .ok texts) (hfile : file ∈ files)
    (hok : wasmPolicies policySetTextToParts files = .ok policies) (hmany : 2 ≤ texts.length)
    (htext : texts[i]? = some text) (policy : NamedPolicy) :
    policy ∈ policies ∧ policy.id = stem file ++ js "#" ++ decimal (i + 1) ↔
      policy = { id := stem file ++ js "#" ++ decimal (i + 1), text, file } := by
  obtain ⟨-, hnodup, rfl⟩ := namePoliciesSplit_ok_iff.1 hok
  have htexts : textsOf (policiesOf policySetTextToParts) file = texts := by
    rw [textsOf, hsplit]
    rfl
  have hid : policyId file texts.length i = stem file ++ js "#" ++ decimal (i + 1) :=
    if_neg (by omega)
  have hmem : { id := stem file ++ js "#" ++ decimal (i + 1), text, file } ∈
      layout files (textsOf (policiesOf policySetTextToParts)) := by
    rw [← htexts] at htext hid
    rw [← hid]
    exact mem_layout_of_getElem? hfile htext
  constructor
  · rintro ⟨hpolicy, heq⟩
    exact List.inj_on_of_nodup_map hnodup hpolicy hmem heq
  · rintro rfl
    exact ⟨hmem, rfl⟩

end

/-- For every number of policies in a file: where Cedar hands them back sorted by their positional ids, they
are put back in the order of the file, and named in it. -/
theorem policies_in_file_order (policySetTextToParts : Str → PolicySetParts) (file : PolicyFile) (n : ℕ)
    (parts : List (Str × Str)) (hparts : HandedSorted n parts)
    (hread : policySetTextToParts file.text = .success (parts.map Prod.snd) []) :
    ∃ texts, InOrder policySetTextToParts file n parts texts := by
  obtain ⟨texts, hslots, hat⟩ := hparts.exists_texts
  have hlength := length_of_at_index hparts hat
  have hsplit := policiesOf_of_inFileOrder hread hslots
  refine ⟨texts, ⟨hsplit, hlength, hslots, hat, perm_of_at_index hparts hat, ?_⟩⟩
  intro files policies hfile hok hmany i text hmem
  exact named_in_order hsplit hfile hok (hlength ▸ hmany) ((hat i text).2 hmem)

/-- A file of a dozen policies: `policy10` and `policy11` are handed back before `policy2`. -/
theorem policies_in_file_order_dozen :
    let policy (i : ℕ) : Str := js "forbid(principal, action == Action::\"" ++ decimal i ++ js "\", resource);"
    let file : PolicyFile :=
      { name := js "10-forbid.cedar", source := js "p/10-forbid.cedar", text := (List.range 12).flatMap policy }
    let parts := [0, 1, 10, 11, 2, 3, 4, 5, 6, 7, 8, 9].map fun i => (positionalId i, policy i)
    let read (text : Str) : PolicySetParts :=
      if text = file.text then .success (parts.map Prod.snd) [] else .success [text] []
    ∃ texts, InOrder read file 12 parts texts := by
  intro policy file parts read
  exact policies_in_file_order read file 12 parts ⟨by decide +kernel, by decide +kernel⟩ (if_pos rfl)

end PolicyVerifier.Cedar
