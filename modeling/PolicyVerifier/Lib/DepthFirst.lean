import Mathlib.Data.Set.Insert
import Mathlib.Logic.Relation

/-!
# Depth-first search for a cycle

The three-mark search over a graph given by the successors of each node, as its finite runs: what is open
is the path from the node the search began with, what is done has been searched to the end. A search that
comes upon an open node has found a cycle, and where it comes upon none there is none.
-/

namespace DepthFirst

open Relation

variable {κ : Type*} {next : κ → List κ}

/-- One node leads to another. -/
def Edge (next : κ → List κ) (a b : κ) : Prop := b ∈ next a

/-- The finite runs of the search over a list of nodes, with what is open and what is done when it
begins. It ends with what is done, or with nothing once it comes upon an open node. -/
inductive Search (next : κ → List κ) : Set κ → Set κ → List κ → Option (Set κ) → Prop where
  | nil (opened done : Set κ) : Search next opened done [] (some done)
  | done {opened done : Set κ} {k : κ} {ks : List κ} {found : Option (Set κ)} (searched : k ∈ done) :
      Search next opened done ks found → Search next opened done (k :: ks) found
  | opened {opened done : Set κ} {k : κ} (ks : List κ) (back : k ∈ opened) :
      Search next opened done (k :: ks) none
  | finished {opened done done' : Set κ} {k : κ} {ks : List κ} {found : Option (Set κ)}
      (new : k ∉ opened) (unsearched : k ∉ done) :
      Search next (insert k opened) done (next k) (some done') →
      Search next opened (insert k done') ks found → Search next opened done (k :: ks) found
  | refused {opened done : Set κ} {k : κ} (ks : List κ) (new : k ∉ opened) (unsearched : k ∉ done) :
      Search next (insert k opened) done (next k) none → Search next opened done (k :: ks) none

/-- What is done is closed under successors, and on no cycle. -/
structure Finished (next : κ → List κ) (done : Set κ) : Prop where
  closed : ∀ a ∈ done, ∀ b ∈ next a, b ∈ done
  acyclic : ∀ a ∈ done, ¬ TransGen (Edge next) a a

theorem Finished.empty : Finished next (∅ : Set κ) := ⟨by simp, by simp⟩

theorem Finished.reaches {done : Set κ} (h : Finished next done) {a b : κ} (ha : a ∈ done)
    (hab : TransGen (Edge next) a b) : b ∈ done := by
  induction hab with
  | single hab => exact h.closed a ha _ hab
  | tail _ hbc ih => exact h.closed _ ih _ hbc

/-- A node all of whose successors are done is done. -/
theorem Finished.insert {done : Set κ} (h : Finished next done) {a : κ} (hnext : ∀ b ∈ next a, b ∈ done)
    (ha : a ∉ done) : Finished next (Set.insert a done) := by
  refine ⟨fun b hb c hc => ?_, fun b hb hcycle => ?_⟩
  · rcases hb with rfl | hb
    · exact Or.inr (hnext c hc)
    · exact Or.inr (h.closed b hb c hc)
  · rcases hb with rfl | hb
    · -- the cycle leaves the node for one that is done, and never comes back
      obtain ⟨c, hbc, hca⟩ := TransGen.head'_iff.1 hcycle
      rcases reflTransGen_iff_eq_or_transGen.1 hca with rfl | hca
      · exact ha (hnext b hbc)
      · exact ha (h.reaches (hnext c hbc) hca)
    · exact h.acyclic b hb hcycle

/-- What a search comes to, where the open nodes lead to every node it is given. -/
def Outcome (next : κ → List κ) (opened done : Set κ) (ks : List κ) : Option (Set κ) → Prop
  | some done' => Finished next done' ∧ done ⊆ done' ∧ (∀ k ∈ ks, k ∈ done') ∧ ∀ o ∈ opened, o ∉ done'
  | none => ∃ a, TransGen (Edge next) a a

theorem Search.outcome {opened done : Set κ} {ks : List κ} {found : Option (Set κ)}
    (h : Search next opened done ks found) (hfinished : Finished next done)
    (hopened : ∀ o ∈ opened, ∀ k ∈ ks, TransGen (Edge next) o k) (hapart : ∀ o ∈ opened, o ∉ done) :
    Outcome next opened done ks found := by
  induction h with
  | nil opened done => exact ⟨hfinished, subset_rfl, by simp, hapart⟩
  | @done opened done k ks found searched _ ih =>
    have hrest := ih hfinished (fun o ho k' hk' => hopened o ho k' (List.mem_cons_of_mem k hk')) hapart
    cases found with
    | none => exact hrest
    | some done' =>
      obtain ⟨hfinished', hgrows, hks, hapart'⟩ := hrest
      refine ⟨hfinished', hgrows, fun k' hk' => ?_, hapart'⟩
      rcases List.mem_cons.1 hk' with rfl | hk'
      · exact hgrows searched
      · exact hks k' hk'
  | @opened opened done k ks back => exact ⟨k, hopened k back k List.mem_cons_self⟩
  | @finished opened done done' k ks found new unsearched _ _ ihbelow ihrest =>
    obtain ⟨hbelow, hgrows, hnext, hapart'⟩ : Outcome next (Insert.insert k opened) done (next k)
        (some done') := by
      refine ihbelow hfinished (fun o ho b hb => ?_) fun o ho => ?_
      · rcases ho with rfl | ho
        · exact .single hb
        · exact (hopened o ho k List.mem_cons_self).tail hb
      · rcases ho with rfl | ho
        · exact unsearched
        · exact hapart o ho
    have hrest := ihrest (hbelow.insert hnext (hapart' k (Or.inl rfl)))
      (fun o ho k' hk' => hopened o ho k' (List.mem_cons_of_mem k hk')) fun o ho hmem => by
        rcases hmem with rfl | hmem
        · exact new ho
        · exact hapart' o (Or.inr ho) hmem
    cases found with
    | none => exact hrest
    | some last =>
      obtain ⟨hlast, hgrows', hks, hapart''⟩ := hrest
      refine ⟨hlast, fun a ha => hgrows' (Or.inr (hgrows ha)), fun k' hk' => ?_, hapart''⟩
      rcases List.mem_cons.1 hk' with rfl | hk'
      · exact hgrows' (Or.inl rfl)
      · exact hks k' hk'
  | @refused opened done k ks new unsearched _ ih =>
    refine ih hfinished (fun o ho b hb => ?_) fun o ho => ?_
    · rcases ho with rfl | ho
      · exact .single hb
      · exact (hopened o ho k List.mem_cons_self).tail hb
    · rcases ho with rfl | ho
      · exact unsearched
      · exact hapart o ho

/-- A search over every node that leads anywhere comes upon an open node exactly when there is a cycle. -/
theorem Search.none_iff {ks : List κ} {found : Option (Set κ)} (h : Search next ∅ ∅ ks found)
    (hall : ∀ a, next a ≠ [] → a ∈ ks) : found = none ↔ ∃ a, TransGen (Edge next) a a := by
  have houtcome := h.outcome Finished.empty (by simp) (by simp)
  cases found with
  | none => exact iff_of_true rfl houtcome
  | some done =>
    refine iff_of_false (by simp) ?_
    rintro ⟨a, hcycle⟩
    obtain ⟨b, hab, -⟩ := TransGen.head'_iff.1 hcycle
    have hnext : next a ≠ [] := List.ne_nil_of_mem hab
    exact houtcome.1.acyclic a (houtcome.2.2.1 a (hall a hnext)) hcycle

end DepthFirst
