import PolicyVerifier.Builtins.ResourceActionRules
import PolicyVerifier.Js.Strings
import PolicyVerifier.Lib.Framing

/-!
# Which grants satisfy a permission

A grant satisfies the permission it spells out, and one with a single asterisk any permission its two halves
fit around. No other entry of the attributes counts.
-/

namespace PolicyVerifier.Builtins

open Js PolicyVerifier.Core

/-! ## One grant -/

/-- A grant is the permission, or its single asterisk stands for a part of it. -/
def Covers (grant required : Str) : Prop :=
  grant = required ∨ grant.count asterisk = 1 ∧ ∃ before after,
    grant = before ++ asterisk :: after ∧ ∃ w, required = before ++ w ++ after

theorem not_mem_halves {before after : Str} (h : (before ++ asterisk :: after).count asterisk = 1) :
    asterisk ∉ before ∧ asterisk ∉ after := by
  rw [List.count_append, List.count_cons_self] at h
  exact ⟨List.count_eq_zero.1 (by omega), List.count_eq_zero.1 (by omega)⟩

/-- The two halves, when they do not overlap, leave a part between them. -/
theorem halves_iff {before after required : Str} :
    (∃ w, required = before ++ w ++ after) ↔
      before.length + after.length ≤ required.length ∧ before <+: required ∧ after <:+ required := by
  constructor
  · rintro ⟨w, rfl⟩
    refine ⟨?_, ⟨w ++ after, by rw [List.append_assoc]⟩, ⟨before ++ w, rfl⟩⟩
    simp only [List.length_append]
    omega
  · rintro ⟨hlength, ⟨rest, rfl⟩, hsuffix⟩
    rw [List.length_append] at hlength
    have hrest : after <:+ rest :=
      List.suffix_of_suffix_length_le hsuffix (List.suffix_append before rest) (by omega)
    obtain ⟨w, rfl⟩ := hrest
    exact ⟨w, by rw [List.append_assoc]⟩

theorem matchPermission_wildcard {before after required : Str} (hbefore : asterisk ∉ before)
    (hafter : asterisk ∉ after) :
    matchPermission (before ++ asterisk :: after) required = true ↔ ∃ w, required = before ++ w ++ after := by
  have hsplit : (before ++ asterisk :: after).splitOn asterisk = [before, after] :=
    splitOn_pair hbefore hafter
  have hcount : (before ++ asterisk :: after).count asterisk = 1 := by
    rw [List.count_append, List.count_cons_self, List.count_eq_zero.2 hbefore, List.count_eq_zero.2 hafter]
  rw [matchPermission]
  split
  · rename_i hall
    -- `"*"` alone: both halves are empty
    obtain rfl : before = [] := by
      cases before with
      | nil => rfl
      | cons c cs => simp at hall
    obtain rfl : after = [] := by simpa using hall
    exact iff_of_true rfl ⟨required, by simp⟩
  · split
    · rename_i hexact
      exact iff_of_true rfl ⟨[asterisk], by simp [← hexact]⟩
    · rw [if_pos (by simp), if_neg (by omega), hsplit, halves_iff]
      have hstarts : (before.isEmpty || startsWith before required) = true ↔ before <+: required := by
        cases before with
        | nil => simp
        | cons c cs => simp [startsWith]
      have hends : (after.isEmpty || endsWith after required) = true ↔ after <:+ required := by
        cases after with
        | nil => simp
        | cons c cs => simp [endsWith]
      simp only
      split
      · rename_i hlength
        exact iff_of_false (by simp) fun h => absurd h.1 (by omega)
      · rename_i hlength
        have hfits : before.length + after.length ≤ required.length := by omega
        rw [Bool.and_eq_true, hstarts, hends, and_iff_right hfits]

theorem matchPermission_iff {grant required : Str} :
    matchPermission grant required = true ↔ Covers grant required := by
  by_cases hone : grant.count asterisk = 1
  · obtain ⟨before, after, rfl⟩ := List.append_of_mem (List.count_pos_iff.1 (by omega : 0 < grant.count asterisk))
    obtain ⟨hbefore, hafter⟩ := not_mem_halves hone
    rw [matchPermission_wildcard hbefore hafter]
    constructor
    · exact fun h => Or.inr ⟨hone, before, after, rfl, h⟩
    · rintro (rfl | ⟨-, before', after', heq, w, rfl⟩)
      · exact ⟨[asterisk], by simp⟩
      · obtain ⟨hbefore', hafter'⟩ := not_mem_halves (heq ▸ hone)
        obtain ⟨rfl, rfl⟩ := Framing.cut_at_first hbefore hbefore' heq
        exact ⟨w, rfl⟩
  · rw [Covers, or_iff_left fun h => hone h.1, matchPermission]
    have hall : grant ≠ [asterisk] := by
      rintro rfl
      exact hone (by simp)
    rw [if_neg hall]
    split
    · rename_i heq
      exact iff_of_true rfl heq
    · rename_i hne
      refine iff_of_false ?_ hne
      split
      · rename_i hmem
        have hpos := List.count_pos_iff.2 hmem
        rw [if_pos (by omega)]
        simp
      · simp

/-- A grant with two or more asterisks is no pattern. -/
theorem matchPermission_of_two {grant required : Str} (h : 2 ≤ grant.count asterisk) :
    matchPermission grant required = true ↔ grant = required := by
  rw [matchPermission_iff, Covers, or_iff_left]
  rintro ⟨hone, -⟩
  omega

/-! ## The attributes -/

/-- A grant the attributes hold: a string in the subject's permissions, or in those of one of its roles. -/
inductive Granted (attrs : Attributes) (grant : Str) : Prop
  | direct (ref : Nat) (items : List Value) : attrs.get? attrPermissions = some (.arr ref items) →
      .str grant ∈ items → Granted attrs grant
  | role (ref : Nat) (roles : List Value) (role : Value) (own : Nat) (items : List Value) :
      attrs.get? attrRoles = some (.arr ref roles) → role ∈ roles →
      role.field (js "permissions") = .arr own items → .str grant ∈ items → Granted attrs grant

theorem mem_arrayItems {value : Option Value} {item : Value} :
    item ∈ arrayItems value ↔ ∃ ref items, value = some (.arr ref items) ∧ item ∈ items := by
  rcases value with - | value
  · simp [arrayItems]
  · cases value <;> simp [arrayItems, Value.items?]

theorem mem_permissionEntries {attrs : Attributes} {grant : Str} :
    .str grant ∈ permissionEntries attrs ↔ Granted attrs grant := by
  rw [permissionEntries, List.mem_append, List.mem_flatMap, mem_arrayItems]
  constructor
  · rintro (⟨ref, items, hattr, hmem⟩ | ⟨role, hrole, hmem⟩)
    · exact .direct ref items hattr hmem
    · obtain ⟨ref, roles, hattr, hrole⟩ := mem_arrayItems.1 hrole
      obtain ⟨own, items, hfield, hmem⟩ := mem_arrayItems.1 hmem
      exact .role ref roles role own items hattr hrole (Option.some.inj hfield) hmem
  · rintro (⟨ref, items, hattr, hmem⟩ | ⟨ref, roles, role, own, items, hattr, hrole, hfield, hmem⟩)
    · exact Or.inl ⟨ref, items, hattr, hmem⟩
    · exact Or.inr ⟨role, mem_arrayItems.2 ⟨ref, roles, hattr, hrole⟩,
        mem_arrayItems.2 ⟨own, items, congrArg some hfield, hmem⟩⟩

theorem hasPermission_verify_iff {permission : Str} {attrs : Attributes} :
    hasPermission.verify permission attrs = true ↔ ∃ grant, Granted attrs grant ∧ Covers grant permission := by
  rw [hasPermission.verify, List.any_eq_true]
  constructor
  · rintro ⟨entry, hentry, hmatch⟩
    obtain ⟨grant, rfl, hmatch⟩ : ∃ grant, entry = .str grant ∧ matchPermission grant permission = true := by
      cases entry <;> simp_all [Value.str?]
    exact ⟨grant, mem_permissionEntries.1 hentry, matchPermission_iff.1 hmatch⟩
  · rintro ⟨grant, hgranted, hcovers⟩
    exact ⟨.str grant, mem_permissionEntries.2 hgranted, matchPermission_iff.2 hcovers⟩

/-- What a permission rule answers. -/
structure PermissionDecided (permission : Str) : Prop where
  /-- It answers on every attribute map, whatever its entries are, and passes exactly when some grant there
  covers the permission. -/
  answers : ∀ attrs, ∃ passed : Bool, (hasPermission permission).verify attrs = { answer := .ok (.bool passed) } ∧
    (passed = true ↔ ∃ grant, Granted attrs grant ∧ Covers grant permission)
  /-- A grant with two or more asterisks covers only itself. -/
  starred : ∀ grant, 2 ≤ grant.count asterisk → (Covers grant permission ↔ grant = permission)

theorem permission_decided (permission : Str) : PermissionDecided permission := by
  refine ⟨fun attrs => ⟨_, rfl, hasPermission_verify_iff⟩, fun grant hstars => ?_⟩
  rw [← matchPermission_iff, matchPermission_of_two hstars]

end PolicyVerifier.Builtins
