import PolicyVerifier.Builtins.DotNotation
import PolicyVerifier.Builtins.Proofs.PermissionProofs
import PolicyVerifier.Server.Routes.DecisionRequests

/-!
# Two requests, two permissions

The permission a request requires joins a resource and an action, each admitted by its own check. Two
requests that require one permission straddle the join; the grant of one covers the other only as a pattern.
-/

namespace PolicyVerifier.Server

open Js PolicyVerifier.Core PolicyVerifier.Builtins

/-- A request whose resource the parser accepts and whose action the router admits. -/
structure Admitted (context : CollectorContext) : Prop where
  parsed : parse context.resource.raw = .ok context.resource
  checked : ∃ label maxLength,
    checkIdentifier (.str context.action) (js "action") label maxLength = .ok context.action

/-- The other resource goes on into this action: `.perm:` stands in both, around the same text. -/
def Straddles (context other : CollectorContext) : Prop :=
  ∃ w, other.resource.raw = context.resource.raw ++ js ".perm:" ++ w ∧
    context.action = w ++ js ".perm:" ++ other.action

/-- The separator overlaps no copy of itself, as its dot is its first character alone. -/
theorem separator_overlap {action action' u : Str}
    (h : js ".perm:" ++ action = u ++ (js ".perm:" ++ action')) :
    (u = [] ∧ action = action') ∨ ∃ w, u = js ".perm:" ++ w ∧ action = w ++ js ".perm:" ++ action' := by
  have hseparator : js ".perm:" = [0x2E, 0x70, 0x65, 0x72, 0x6D, 0x3A] := by decide
  rw [hseparator] at h ⊢
  rcases u with - | ⟨c₁, - | ⟨c₂, - | ⟨c₃, - | ⟨c₄, - | ⟨c₅, - | ⟨c₆, w⟩⟩⟩⟩⟩⟩
  · exact Or.inl ⟨rfl, by simpa using h⟩
  · exact absurd h (by simp)
  · exact absurd h (by simp)
  · exact absurd h (by simp)
  · exact absurd h (by simp)
  · exact absurd h (by simp)
  · simp only [List.cons_append, List.nil_append, List.cons.injEq] at h
    obtain ⟨rfl, rfl, rfl, rfl, rfl, rfl, rfl⟩ := h
    exact Or.inr ⟨w, by simp, by simp⟩

theorem requiredPermission_eq {context other : CollectorContext}
    (h : requiredPermission context = requiredPermission other) :
    (context.resource.raw = other.resource.raw ∧ context.action = other.action) ∨
      Straddles context other ∨ Straddles other context := by
  rw [requiredPermission, requiredPermission, List.append_assoc, List.append_assoc] at h
  rcases List.append_eq_append_iff.1 h with ⟨u, hraw, hrest⟩ | ⟨u, hraw, hrest⟩
  · rcases separator_overlap hrest with ⟨rfl, haction⟩ | ⟨w, rfl, haction⟩
    · exact Or.inl ⟨by rw [hraw, List.append_nil], haction⟩
    · exact Or.inr (Or.inl ⟨w, by rw [hraw, List.append_assoc], haction⟩)
  · rcases separator_overlap hrest with ⟨rfl, haction⟩ | ⟨w, rfl, haction⟩
    · exact Or.inl ⟨by rw [hraw, List.append_nil], haction.symm⟩
    · exact Or.inr (Or.inr ⟨w, by rw [hraw, List.append_assoc], haction⟩)

/-- Two requests that do not straddle the join require two permissions, and where one's permission is the only
grant it satisfies the other's rule exactly as a pattern of one asterisk. -/
theorem permissions_told (context other : CollectorContext)
    (hne : (context.resource.raw, context.action) ≠ (other.resource.raw, other.action))
    (hstraddle : ¬ Straddles context other) (hstraddle' : ¬ Straddles other context) :
    requiredPermission context ≠ requiredPermission other ∧
      ∀ attrs, (∀ grant, Granted attrs grant ↔ grant = requiredPermission context) →
        (hasPermission.verify (requiredPermission other) attrs = true ↔
          (requiredPermission context).count asterisk = 1 ∧ ∃ before after,
            requiredPermission context = before ++ asterisk :: after ∧
              ∃ w, requiredPermission other = before ++ w ++ after) := by
  have hdistinct : requiredPermission context ≠ requiredPermission other := by
    intro heq
    rcases requiredPermission_eq heq with ⟨hraw, haction⟩ | hs | hs
    · exact hne (Prod.ext hraw haction)
    · exact hstraddle hs
    · exact hstraddle' hs
  refine ⟨hdistinct, fun attrs hgrants => ?_⟩
  rw [hasPermission_verify_iff]
  constructor
  · rintro ⟨grant, hgranted, hcovers⟩
    obtain rfl := (hgrants grant).1 hgranted
    exact hcovers.resolve_left hdistinct
  · exact fun hpattern => ⟨_, (hgrants _).2 rfl, Or.inr hpattern⟩

/-- Reading the posts, and whatever action is named by an asterisk. -/
def readPosts : CollectorContext where
  subject _ := .undefined
  resource := { raw := js "posts", resourceType := js "posts", resourceId := none }
  action := js "read"

def starPosts : CollectorContext := { readPosts with action := js "*" }

theorem admitted_readPosts : Admitted readPosts := ⟨rfl, js "", 100, rfl⟩

theorem admitted_starPosts : Admitted starPosts := ⟨rfl, js "", 100, rfl⟩

theorem permissions_told_posts :
    (readPosts.resource.raw, readPosts.action) ≠ (starPosts.resource.raw, starPosts.action) ∧
      requiredPermission readPosts ≠ requiredPermission starPosts := by
  have hne : (readPosts.resource.raw, readPosts.action) ≠ (starPosts.resource.raw, starPosts.action) := by
    decide
  have hshort : ∀ w, (js "posts").length ≠ (js "posts" ++ js ".perm:" ++ w).length := by
    intro w
    simp only [List.length_append]
    have hseparator : (js ".perm:").length = 6 := by decide
    omega
  exact ⟨hne, (permissions_told readPosts starPosts hne
    (fun ⟨w, hw, _⟩ => hshort w (congrArg List.length hw))
    (fun ⟨w, hw, _⟩ => hshort w (congrArg List.length hw))).1⟩

/-- The grant of the action `*` satisfies the rule of every other action on its resource. -/
theorem star_grant_covers :
    ¬ ∀ context other : CollectorContext, Admitted context → Admitted other →
      (context.resource.raw, context.action) ≠ (other.resource.raw, other.action) →
      requiredPermission context ≠ requiredPermission other ∧
        ∀ attrs, (∀ grant, Granted attrs grant ↔ grant = requiredPermission context) →
          hasPermission.verify (requiredPermission other) attrs = false := by
  intro hclaim
  set attrs : Attributes :=
    OrderedMap.ofList [(attrPermissions, Value.strings [requiredPermission starPosts])] with hattrs
  have hgrants : ∀ grant, Granted attrs grant ↔ grant = requiredPermission starPosts := by
    intro grant
    have hentries : permissionEntries attrs = [.str (requiredPermission starPosts)] := by decide +kernel
    rw [← mem_permissionEntries, hentries, List.mem_singleton, Value.str.injEq]
  have hfalse := (hclaim starPosts readPosts admitted_starPosts admitted_readPosts (by decide)).2 attrs hgrants
  exact absurd hfalse (by decide +kernel)

end PolicyVerifier.Server
