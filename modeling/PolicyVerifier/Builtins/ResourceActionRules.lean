import PolicyVerifier.Builtins.DelegationRange
import PolicyVerifier.Core.Keys

/-!
# What a request's action requires

`HasPermission` and `HasScope`, and the two collectors that emit one of them for the request's resource and
action: `ResourceActionPermissionRuleCollector` and `ResourceActionScopeRuleCollector`.
-/

namespace PolicyVerifier.Builtins

open Js PolicyVerifier.Core

/-- The items of an attribute that is an array; none of any other. -/
def arrayItems (value : Option Value) : List Value := (value.bind Value.items?).getD []

/-! ## `HasPermission` -/

/-- `*`. -/
def asterisk : UInt16 := 0x2A

/-- `match`: exactly, except where a grant carries a single `*`. -/
def matchPermission (permission required : Str) : Bool :=
  if permission = [asterisk] then true
  else if permission = required then true
  else if asterisk ∈ permission then
    if 1 < permission.count asterisk then false
    else
      match permission.splitOn asterisk with
      | before :: after :: _ =>
        if required.length < before.length + after.length then false
        else
          (before.isEmpty || startsWith before required) && (after.isEmpty || endsWith after required)
      | _ => false
  else false

/-- Every entry of the subject's own permissions and then of its roles', of any kind. -/
def permissionEntries (attrs : Attributes) : List Value :=
  arrayItems (attrs.get? attrPermissions) ++
    (arrayItems (attrs.get? attrRoles)).flatMap fun role => arrayItems (some (role.field (js "permissions")))

def hasPermission (permission : Str) : AnyRule where
  ruleType := js "permission"
  code := js "no_permission"
  message := js "User does not have required permission: " ++ permission
  verify attrs := { answer := .ok (.bool (verify attrs)) }
  decide _ := []
where
  /-- Some entry is a grant that matches. -/
  verify (attrs : Attributes) : Bool :=
    (permissionEntries attrs).any fun p => p.str?.any (matchPermission · permission)

/-- The permission a request requires. -/
def requiredPermission (context : CollectorContext) : Str :=
  context.resource.raw ++ js ".perm:" ++ context.action

/-- `ResourceActionPermissionRuleCollector.collect`. -/
def ResourceActionPermissionRuleCollector.collect (context : CollectorContext) : List AnyRule :=
  [hasPermission (requiredPermission context)]

/-! ## `HasScope` -/

/-- `matchScope`: exactly, or `read:` before a bare scope where that is allowed. -/
def matchScope (allowBareScopeRewrite : Bool) (granted required : Str) : Bool :=
  if granted = required then true
  else if allowBareScopeRewrite && !granted.contains 0x3A then js "read:" ++ granted == required
  else false

def hasScope (scope : Str) (allowBareScopeRewrite : Bool) : AnyRule where
  ruleType := js "scope"
  code := js "invalid_scope"
  message := js "Token does not have required scope: " ++ scope
  verify attrs := { answer := .ok (.bool (verify attrs)) }
  decide _ := []
where
  /-- Some granted scope matches. -/
  verify (attrs : Attributes) : Bool :=
    match attrs.get? attrScopes with
    | some (.arr _ scopes) => scopes.any fun s => s.str?.any (matchScope allowBareScopeRewrite · scope)
    | _ => false

/-- `DEFAULT_SCOPE_CLAIM`. -/
def defaultScopeClaim : Str := js "scope"

/-- How a token that carries no scope claim is treated. -/
inductive ScopelessPolicy where
  | deny
  | skip
deriving DecidableEq

structure ResourceActionScopeRuleCollector where
  scopeless : ScopelessPolicy
  allowBareScopeRewrite : Bool
  claim : Str

namespace ResourceActionScopeRuleCollector

section New

variable (template : Value → Str)

/-- The `scopeless` option: absent or `null` means `"deny"`. -/
def resolveScopeless (raw : Value) : Except Str ScopelessPolicy :=
  match raw with
  | .undefined => .ok .deny
  | .null => .ok .deny
  | .str s => if s = js "deny" then .ok .deny else if s = js "skip" then .ok .skip else .error (refused raw)
  | _ => .error (refused raw)
where
  /-- What any other value is refused with. -/
  refused (raw : Value) : Str :=
    js "ResourceActionScopeRuleCollector: scopeless must be one of deny, skip, got \"" ++ template raw ++
      js "\""

/-- The `allowBareScopeRewrite` option: absent means `false`, and `null` is refused. -/
def resolveRewrite (raw : Value) : Except Str Bool :=
  match raw with
  | .undefined => .ok false
  | .bool b => .ok b
  | _ =>
    .error (js "ResourceActionScopeRuleCollector: allowBareScopeRewrite must be a boolean, got \"" ++
      template raw ++ js "\"")

/-- The constructor; `template` is what a template string writes for a value. -/
def new (config : Value) : Except Str ResourceActionScopeRuleCollector := do
  let claim ← resolveClaimName (js "ResourceActionScopeRuleCollector") (config.field (js "claim"))
    defaultScopeClaim
  let scopeless ← resolveScopeless template (config.field (js "scopeless"))
  let allowBareScopeRewrite ← resolveRewrite template (config.field (js "allowBareScopeRewrite"))
  .ok { scopeless, allowBareScopeRewrite, claim }

end New

/-- The scope a request requires. -/
def requiredScope (context : CollectorContext) : Str :=
  context.action ++ js ":" ++ context.resource.resourceType

/-- One rule, unless the token carries no scopes and such tokens are skipped. -/
def collect (self : ResourceActionScopeRuleCollector) (context : CollectorContext) : List AnyRule :=
  if self.scopeless = .skip ∧ context.subject self.claim = .undefined then []
  else [hasScope (requiredScope context) self.allowBareScopeRewrite]

end ResourceActionScopeRuleCollector

end PolicyVerifier.Builtins
