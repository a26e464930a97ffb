import Mathlib.Data.List.Lex
import Mathlib.Data.List.Sort
import PolicyVerifier.Js.Value

/-!
# Lists of strings

`Array.prototype.sort` without a comparator, `join`, and the spread of a `Set`. A `Set` keeps the
first occurrence of each string, so `[...new Set(xs)]` is `xs.eraseDups`.
-/

namespace Js

/-- Whether a string does not come after another: by UTF-16 code units. -/
def notAfter (s t : Str) : Bool := decide (s.map UInt16.toNat ≤ t.map UInt16.toNat)

theorem notAfter_total (s t : Str) : notAfter s t = true ∨ notAfter t s = true := by
  simpa [notAfter] using le_total (s.map UInt16.toNat) (t.map UInt16.toNat)

theorem notAfter_trans {s t u : Str} (hst : notAfter s t = true) (htu : notAfter t u = true) :
    notAfter s u = true := by
  simp only [notAfter, decide_eq_true_eq] at *
  exact hst.trans htu

theorem notAfter_antisymm {s t : Str} (hst : notAfter s t = true) (hts : notAfter t s = true) :
    s = t := by
  simp only [notAfter, decide_eq_true_eq] at *
  exact List.map_injective_iff.2 (fun _ _ => UInt16.toNat_inj.1) (hst.antisymm hts)

instance : Std.Total (fun s t => notAfter s t = true) := ⟨notAfter_total⟩

instance : IsTrans Str (fun s t => notAfter s t = true) := ⟨fun _ _ _ => notAfter_trans⟩

instance : Std.Antisymm (fun s t => notAfter s t = true) := ⟨fun _ _ => notAfter_antisymm⟩

/-- `xs.sort()`. -/
def sort (xs : List Str) : List Str := xs.insertionSort fun s t => notAfter s t = true

/-- `xs.join(separator)`. -/
def join (separator : Str) (xs : List Str) : Str := separator.intercalate xs

/-! ## Cutting a string -/

/-- A string of two parts around a separator that neither holds. -/
theorem splitOn_pair {c : UInt16} {s t : Str} (hs : c ∉ s) (ht : c ∉ t) :
    (s ++ c :: t).splitOn c = [s, t] := by
  rw [List.splitOn_append_cons_self_of_not_mem hs, List.splitOn_eq_singleton ht]

/-! ## Sorting -/

@[simp] theorem mem_sort {s : Str} {xs : List Str} : s ∈ sort xs ↔ s ∈ xs :=
  (List.perm_insertionSort _ xs).mem_iff

theorem nodup_eraseDups {α : Type} [BEq α] [LawfulBEq α] (xs : List α) : xs.eraseDups.Nodup := by
  induction h : xs.length using Nat.strong_induction_on generalizing xs with
  | _ n ih =>
    cases xs with
    | nil => simp
    | cons x xs =>
      have hlt : (xs.filter fun y => !y == x).length < n := by
        have := List.length_filter_le (fun y => !y == x) xs
        simp only [List.length_cons] at h
        omega
      rw [List.eraseDups_cons, List.nodup_cons]
      exact ⟨by simp, ih _ hlt _ rfl⟩

/-- Sorting tells how often each string stands in a list, and nothing else. -/
theorem sort_eq_iff_perm {xs ys : List Str} : sort xs = sort ys ↔ xs.Perm ys := by
  have hsorted : ∀ zs : List Str, (sort zs).Perm zs := List.perm_insertionSort _
  constructor
  · intro h
    exact (hsorted xs).symm.trans (h ▸ hsorted ys)
  · intro h
    exact List.Perm.eq_of_pairwise' (List.pairwise_insertionSort _ _) (List.pairwise_insertionSort _ _)
      (((hsorted xs).trans h).trans (hsorted ys).symm)

/-- What is sorted and written once depends only on which strings there are. -/
theorem sort_eraseDups_eq_iff {xs ys : List Str} :
    sort xs.eraseDups = sort ys.eraseDups ↔ ∀ s, s ∈ xs ↔ s ∈ ys := by
  rw [sort_eq_iff_perm, List.perm_ext_iff_of_nodup (nodup_eraseDups xs) (nodup_eraseDups ys)]
  simp only [List.mem_eraseDups]

end Js
