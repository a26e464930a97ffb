import Mathlib.Data.List.DropRight
import PolicyVerifier.Js.Proofs.Utf8Proofs
import PolicyVerifier.Lib.ExceptFold
import PolicyVerifier.Server.Http.CallerAuth

/-!
# A credential is configured exactly where a request can present it

What the HTTP parser hands over of a header is a parameter, with what is documented of it: the spaces and
tabs around the value are stripped, a control character refuses the request, and the bytes are Latin-1.
-/

namespace PolicyVerifier.Server

open Js

/-! ## Header values -/

/-- The spaces and tabs around a value, stripped. -/
def stripBlanks (s : Str) : Str := (s.dropWhile isBlank).rdropWhile isBlank

/-- The HTTP parser: what it hands over of a header's bytes, `none` where it refuses the request. -/
structure HeaderParser where
  value : List UInt8 → Option Str
  reads : ∀ bytes text, value bytes = some text ↔
    text = stripBlanks (bytes.map UInt8.toUInt16) ∧ hasControlCharacter text = false

/-- The parser that does what is documented, and nothing else. -/
def documentedParser : HeaderParser where
  value bytes :=
    let text := stripBlanks (bytes.map UInt8.toUInt16)
    if hasControlCharacter text then none else some text
  reads bytes text := by
    dsimp only
    split
    · rename_i hcontrol
      refine iff_of_false (by simp) ?_
      rintro ⟨rfl, hnone⟩
      rw [hcontrol] at hnone
      exact absurd hnone (by simp)
    · rename_i hcontrol
      constructor
      · intro h
        obtain rfl := Option.some.inj h
        exact ⟨rfl, by simpa using hcontrol⟩
      · rintro ⟨rfl, -⟩
        rfl

/-- A value that starts and ends with neither. -/
def Stripped (s : Str) : Prop := s.head?.any isBlank = false ∧ s.getLast?.any isBlank = false

theorem stripBlanks_eq_self {s : Str} (h : Stripped s) : stripBlanks s = s := by
  have hfirst : s.dropWhile isBlank = s := by
    cases s with
    | nil => rfl
    | cons c s =>
      have hc : isBlank c = false := h.1
      rw [List.dropWhile_cons, hc, if_neg (by simp)]
  rw [stripBlanks, hfirst, List.rdropWhile_eq_self_iff]
  intro hne hlast
  have hread := h.2
  rw [List.getLast?_eq_getLast_of_ne_nil hne, Option.any_some, hlast] at hread
  exact absurd hread (by simp)

theorem stripBlanks_stripped (s : Str) : Stripped (stripBlanks s) := by
  constructor
  · obtain ⟨rest, hrest⟩ := List.rdropWhile_prefix isBlank (l := s.dropWhile isBlank)
    cases hstrip : stripBlanks s with
    | nil => rfl
    | cons c t =>
      have hhead := List.head?_dropWhile_not isBlank s
      rw [← hrest, show List.rdropWhile isBlank (s.dropWhile isBlank) = c :: t from hstrip] at hhead
      simpa using hhead
  · cases hstrip : stripBlanks s with
    | nil => rfl
    | cons c t =>
      have hne : stripBlanks s ≠ [] := by
        rw [hstrip]
        simp
      have hlast := List.rdropWhile_last_not isBlank (s.dropWhile isBlank) hne
      rw [← hstrip, List.getLast?_eq_getLast_of_ne_nil hne, Option.any_some]
      exact Bool.eq_false_iff.2 hlast

/-- Latin-1 reads every character up to U+00FF, and no other. -/
theorem exists_latin1_iff {s : Str} :
    (∃ bytes : List UInt8, bytes.map UInt8.toUInt16 = s) ↔ hasCharacterAboveLatin1 s = false := by
  rw [hasCharacterAboveLatin1, List.any_eq_false]
  constructor
  · rintro ⟨bytes, rfl⟩ c hc
    obtain ⟨b, -, rfl⟩ := List.mem_map.1 hc
    have hb := b.toNat_lt
    rw [decide_eq_true_eq, UInt16.not_lt, UInt16.le_iff_toNat_le, UInt8.toNat_toUInt16]
    show b.toNat ≤ 255
    omega
  · intro h
    refine ⟨s.map UInt16.toUInt8, ?_⟩
    rw [List.map_map]
    refine (List.map_congr_left fun c hc => ?_).trans (List.map_id s)
    have hle : c.toNat ≤ 255 := by
      have hc' := h c hc
      rw [decide_eq_true_eq, UInt16.not_lt, UInt16.le_iff_toNat_le] at hc'
      exact hc'
    rw [Function.comp_apply, UInt16.toUInt16_toUInt8, id_eq]
    apply UInt16.toNat_inj.1
    rw [UInt16.toNat_mod]
    exact Nat.mod_eq_of_lt (Nat.lt_succ_of_le hle)

theorem mem_of_mem_stripBlanks {s : Str} {c : UInt16} (h : c ∈ stripBlanks s) : c ∈ s :=
  (List.dropWhile_sublist isBlank).subset ((List.rdropWhile_prefix isBlank _).subset h)

/-- What some request can present. -/
theorem presentable_iff (parser : HeaderParser) {s : Str} :
    (∃ bytes, parser.value bytes = some s) ↔
      Stripped s ∧ hasControlCharacter s = false ∧ hasCharacterAboveLatin1 s = false := by
  constructor
  · rintro ⟨bytes, hread⟩
    obtain ⟨rfl, hcontrol⟩ := (parser.reads bytes s).1 hread
    refine ⟨stripBlanks_stripped _, hcontrol, ?_⟩
    have hwhole := exists_latin1_iff.1 ⟨bytes, rfl⟩
    rw [hasCharacterAboveLatin1, List.any_eq_false] at hwhole ⊢
    intro c hc
    exact hwhole c (mem_of_mem_stripBlanks hc)
  · rintro ⟨hstripped, hcontrol, hlatin⟩
    obtain ⟨bytes, hbytes⟩ := exists_latin1_iff.2 hlatin
    exact ⟨bytes, (parser.reads bytes s).2 ⟨by rw [hbytes, stripBlanks_eq_self hstripped], hcontrol⟩⟩

/-! ## The two checks -/

/-- A token is accepted exactly where it is not blank and some request can present it. -/
theorem checkCallerAuthToken_ok_iff (parser : HeaderParser) {value : Value} {token : Str} :
    checkCallerAuthToken value = .ok token ↔
      value = .str token ∧ ¬ token.all isWhiteSpace ∧ ∃ bytes, parser.value bytes = some token := by
  rw [presentable_iff parser]
  unfold checkCallerAuthToken
  split
  · rename_i s
    constructor
    · intro h
      split_ifs at h with hempty hblank hedge hcontrol hlatin
      obtain rfl := Except.ok.inj h
      rw [Bool.or_eq_true, not_or] at hedge
      exact ⟨rfl, hblank, ⟨by simpa using hedge.1, by simpa using hedge.2⟩, by simpa using hcontrol,
        by simpa using hlatin⟩
    · rintro ⟨hvalue, hblank, ⟨hfirst, hlast⟩, hcontrol, hlatin⟩
      obtain rfl := Value.str.inj hvalue
      have hne : s ≠ [] := by
        rintro rfl
        exact hblank rfl
      rw [if_neg hne, if_neg hblank, hfirst, hlast, hcontrol, hlatin]
      rfl
  · rename_i hvalue
    refine iff_of_false (by simp) ?_
    rintro ⟨rfl, -⟩
    exact hvalue token rfl

/-- A header's name is accepted exactly where it is an HTTP field name. -/
theorem checkCallerAuthHeader_ok_iff {value : Value} {header : Str} :
    checkCallerAuthHeader value = .ok header ↔
      value = .str header ∧ header ≠ [] ∧ ∀ c ∈ header, isTokenCharacter c = true := by
  unfold checkCallerAuthHeader
  split
  · rename_i s
    constructor
    · intro h
      split_ifs at h with hempty htoken
      obtain rfl := Except.ok.inj h
      exact ⟨rfl, hempty, by simpa using htoken⟩
    · rintro ⟨hvalue, hne, htoken⟩
      obtain rfl := Value.str.inj hvalue
      have hall : s.all isTokenCharacter = true := List.all_eq_true.2 htoken
      rw [if_neg hne, hall]
      rfl
  · rename_i hvalue
    refine iff_of_false (by simp) ?_
    rintro ⟨rfl, -⟩
    exact hvalue header rfl

theorem checkedField_ok_iff {context : CallerAuthErrorContext} {check : Except Str Str} {value : Str} :
    checkedField context check = .ok value ↔ check = .ok value := by
  cases check with
  | error message => exact iff_of_false (by simp [checkedField, Except.mapError]) (by simp)
  | ok found => exact Iff.rfl

/-! ## The configuration and the gate -/

/-- The header a block names, its own or the default. -/
def HeaderOf (block : Value) (header : Str) : Prop :=
  (block.field (js "header") = .undefined ∧ header = defaultCallerAuthHeader) ∨
    (block.field (js "header") = .str header ∧ header ≠ [] ∧ ∀ c ∈ header, isTokenCharacter c = true)

theorem defaultCallerAuthHeader_ok : checkCallerAuthHeader (.str defaultCallerAuthHeader) = .ok defaultCallerAuthHeader := by
  decide

theorem HeaderOf.checks {block : Value} {header : Str} (h : HeaderOf block header) :
    checkCallerAuthHeader (.str header) = .ok header := by
  rcases h with ⟨-, rfl⟩ | ⟨-, hne, htoken⟩
  · exact defaultCallerAuthHeader_ok
  · exact checkCallerAuthHeader_ok_iff.2 ⟨rfl, hne, htoken⟩

theorem checkedHeader_ok_iff {context : CallerAuthErrorContext} {block : Value} {header : Str} :
    checkedHeader context block = .ok header ↔ HeaderOf block header := by
  unfold checkedHeader HeaderOf
  split
  · rename_i hundefined
    rw [hundefined]
    constructor
    · intro h
      exact Or.inl ⟨rfl, (Except.ok.inj h).symm⟩
    · rintro (⟨-, rfl⟩ | ⟨hstr, -⟩)
      · rfl
      · exact absurd hstr (by simp)
  · rename_i hdefined
    rw [checkedField_ok_iff, checkCallerAuthHeader_ok_iff]
    constructor
    · exact Or.inr
    · rintro (⟨hundefined, -⟩ | h)
      · exact absurd hundefined hdefined
      · exact h

theorem resolveCallerAuth_obj {http : Value} {context : CallerAuthErrorContext} {ref : Nat}
    {props : List (Str × Value)} (h : http.field (js "callerAuth") = .obj ref props) :
    resolveCallerAuth http context =
      checkedHeader context (.obj ref props) >>= checkedToken context (.obj ref props) := by
  unfold resolveCallerAuth
  rw [h]

theorem checkedToken_some_iff {context : CallerAuthErrorContext} {block : Value} {header : Str}
    {config : CallerAuthConfig} : checkedToken context block header = .ok (some config) ↔
      config.header = header ∧ checkCallerAuthToken (block.field (js "token")) = .ok config.token := by
  unfold checkedToken
  split
  · rename_i hundefined
    rw [hundefined]
    refine iff_of_false (by simp) ?_
    rintro ⟨-, hchecked⟩
    exact absurd hchecked (by simp [checkCallerAuthToken])
  · constructor
    · intro h
      obtain ⟨token, htoken, hconfig⟩ := ExceptFold.bind_eq_ok h
      obtain rfl := Option.some.inj (Except.ok.inj hconfig)
      exact ⟨rfl, checkedField_ok_iff.1 htoken⟩
    · rintro ⟨rfl, hchecked⟩
      rw [checkedField_ok_iff.2 hchecked]
      rfl

theorem checkedToken_none_iff {context : CallerAuthErrorContext} {block : Value} {header : Str} :
    checkedToken context block header = .ok none ↔ block.field (js "token") = .undefined := by
  unfold checkedToken
  split
  · rename_i hundefined
    exact iff_of_true rfl hundefined
  · rename_i hdefined
    refine iff_of_false ?_ hdefined
    intro h
    obtain ⟨token, -, hconfig⟩ := ExceptFold.bind_eq_ok h
    exact absurd hconfig (by simp)

/-- A gate is configured where a block names an HTTP field and a token that may be presented. -/
theorem resolveCallerAuth_some_iff (parser : HeaderParser) {http : Value} {context : CallerAuthErrorContext}
    {config : CallerAuthConfig} : resolveCallerAuth http context = .ok (some config) ↔
      ∃ ref props, http.field (js "callerAuth") = .obj ref props ∧ HeaderOf (.obj ref props) config.header ∧
        (Value.obj ref props).field (js "token") = .str config.token ∧ ¬ config.token.all isWhiteSpace ∧
        ∃ bytes, parser.value bytes = some config.token := by
  constructor
  · intro h
    cases hblock : http.field (js "callerAuth") with
    | obj ref props =>
      rw [resolveCallerAuth_obj hblock] at h
      obtain ⟨header, hheader, htoken⟩ := ExceptFold.bind_eq_ok h
      obtain ⟨rfl, hchecked⟩ := checkedToken_some_iff.1 htoken
      exact ⟨ref, props, rfl, checkedHeader_ok_iff.1 hheader, (checkCallerAuthToken_ok_iff parser).1 hchecked⟩
    | _ =>
      unfold resolveCallerAuth at h
      rw [hblock] at h
      exact absurd h (by simp)
  · rintro ⟨ref, props, hblock, hheader, htoken⟩
    rw [resolveCallerAuth_obj hblock, checkedHeader_ok_iff.2 hheader]
    exact checkedToken_some_iff.2 ⟨rfl, (checkCallerAuthToken_ok_iff parser).2 htoken⟩

/-- There is no gate where there is no block, or one without a token. -/
theorem resolveCallerAuth_none_iff {http : Value} {context : CallerAuthErrorContext} :
    resolveCallerAuth http context = .ok none ↔ http.field (js "callerAuth") = .undefined ∨
      ∃ ref props header, http.field (js "callerAuth") = .obj ref props ∧ HeaderOf (.obj ref props) header ∧
        (Value.obj ref props).field (js "token") = .undefined := by
  constructor
  · intro h
    cases hblock : http.field (js "callerAuth") with
    | undefined => exact Or.inl rfl
    | obj ref props =>
      rw [resolveCallerAuth_obj hblock] at h
      obtain ⟨header, hheader, htoken⟩ := ExceptFold.bind_eq_ok h
      exact Or.inr ⟨ref, props, header, rfl, checkedHeader_ok_iff.1 hheader, checkedToken_none_iff.1 htoken⟩
    | _ =>
      unfold resolveCallerAuth at h
      rw [hblock] at h
      exact absurd h (by simp)
  · rintro (hblock | ⟨ref, props, header, hblock, hheader, htoken⟩)
    · unfold resolveCallerAuth
      rw [hblock]
    · rw [resolveCallerAuth_obj hblock, checkedHeader_ok_iff.2 hheader]
      exact checkedToken_none_iff.2 htoken

theorem no_surrogate_of_latin1 {c : UInt16} (h : c.toNat ≤ 0xFF) :
    Json.isHighSurrogate c = false ∧ Json.isLowSurrogate c = false := by
  simp only [Json.isHighSurrogate, Json.isLowSurrogate, Bool.and_eq_false_iff, decide_eq_false_iff_not,
    UInt16.le_iff_toNat_le, UInt16.reduceToNat]
  omega

theorem isWellFormed_latin1 {s : Str} (h : ∀ c ∈ s, c.toNat ≤ 0xFF) : isWellFormed s = true := by
  induction s using isWellFormed.induct with
  | case1 => rfl
  | case2 c =>
    obtain ⟨hhigh, hlow⟩ := no_surrogate_of_latin1 (h c List.mem_cons_self)
    rw [isWellFormed, hhigh, hlow]
    rfl
  | case3 c d s hpair ih =>
    rw [(no_surrogate_of_latin1 (h c List.mem_cons_self)).1] at hpair
    exact absurd hpair (by simp)
  | case4 c d s hpair ih =>
    obtain ⟨hhigh, hlow⟩ := no_surrogate_of_latin1 (h c List.mem_cons_self)
    rw [isWellFormed, hhigh, hlow, ih fun e he => h e (List.mem_cons_of_mem c he)]
    rfl

/-- A value the parser hands over holds no surrogate, so its bytes are its own. -/
theorem wellFormed_of_presentable {parser : HeaderParser} {bytes : List UInt8} {s : Str}
    (h : parser.value bytes = some s) : isWellFormed s = true := by
  obtain ⟨-, -, hlatin⟩ := (presentable_iff parser).1 ⟨bytes, h⟩
  refine isWellFormed_latin1 fun c hc => ?_
  rw [hasCharacterAboveLatin1, List.any_eq_false] at hlatin
  have hle := hlatin c hc
  rw [decide_eq_true_eq, UInt16.not_lt, UInt16.le_iff_toNat_le] at hle
  exact hle

section Gate

variable {Digest : Type} [DecidableEq Digest] (sha256 : List UInt8 → Digest)

/-- What a gate that was configured does. -/
structure GateLaw (parser : HeaderParser) (config : CallerAuthConfig) : Prop where
  /-- It is built as configured. -/
  built : createCallerAuthMiddleware config = .ok { header := config.header, token := config.token }
  /-- Some header passes it. -/
  passable : ∃ bytes, ∀ get : Str → Option Str, get config.header = parser.value bytes →
    CallerGate.admits sha256 { header := config.header, token := config.token } get = true
  /-- A request without the header does not. -/
  absent : ∀ get : Str → Option Str, get config.header = none →
    CallerGate.admits sha256 { header := config.header, token := config.token } get = false
  /-- Where no other bytes have the token's digest, nothing but the token passes. -/
  exact : (∀ bytes, sha256 bytes = sha256 (utf8Bytes config.token) → bytes = utf8Bytes config.token) →
    ∀ (get : Str → Option Str) bytes, get config.header = parser.value bytes →
      CallerGate.admits sha256 { header := config.header, token := config.token } get = true →
      get config.header = some config.token

theorem gate_law (parser : HeaderParser) {http : Value} {context : CallerAuthErrorContext} {config : CallerAuthConfig}
    (h : resolveCallerAuth http context = .ok (some config)) : GateLaw sha256 parser config := by
  obtain ⟨ref, props, -, hheader, htoken, hblank, bytes, hbytes⟩ := (resolveCallerAuth_some_iff parser).1 h
  refine ⟨?_, ⟨bytes, ?_⟩, ?_, ?_⟩
  · have hchecked := (checkCallerAuthToken_ok_iff parser).2 ⟨rfl, hblank, bytes, hbytes⟩
    unfold createCallerAuthMiddleware
    dsimp only
    rw [checkedField_ok_iff.2 hheader.checks, checkedField_ok_iff.2 hchecked]
    rfl
  · intro get hget
    rw [CallerGate.admits, hget, hbytes]
    exact beq_self_eq_true _
  · intro get hget
    rw [CallerGate.admits, hget]
  · intro hunique get sent hget hadmits
    rw [CallerGate.admits, hget] at hadmits
    cases hsent : parser.value sent with
    | none => rw [hsent] at hadmits; exact absurd hadmits (by simp)
    | some presented =>
      rw [hsent] at hadmits
      have hbytes' := hunique _ (eq_of_beq hadmits)
      rw [hget, hsent, (utf8Bytes_inj (wellFormed_of_presentable hsent) (wellFormed_of_presentable hbytes)).1 hbytes']

end Gate

/-- For every `http` block and every HTTP parser: caller authentication is on exactly where the block names an
HTTP field and a token that is not blank and that some request can present; then the gate is built, passes a
request that presents the token and, short of a collision of digests, no other. It is off exactly without a
block, or without a token in one whose header is an HTTP field or the default, and every other block is refused. -/
theorem caller_auth_presentable {Digest : Type} [DecidableEq Digest] (sha256 : List UInt8 → Digest)
    (parser : HeaderParser) (http : Value) (context : CallerAuthErrorContext) :
    (∀ config, resolveCallerAuth http context = .ok (some config) ↔
      ∃ ref props, http.field (js "callerAuth") = .obj ref props ∧ HeaderOf (.obj ref props) config.header ∧
        (Value.obj ref props).field (js "token") = .str config.token ∧ ¬ config.token.all isWhiteSpace ∧
        ∃ bytes, parser.value bytes = some config.token) ∧
    (resolveCallerAuth http context = .ok none ↔ http.field (js "callerAuth") = .undefined ∨
      ∃ ref props header, http.field (js "callerAuth") = .obj ref props ∧ HeaderOf (.obj ref props) header ∧
        (Value.obj ref props).field (js "token") = .undefined) ∧
    ∀ config, resolveCallerAuth http context = .ok (some config) → GateLaw sha256 parser config :=
  ⟨fun _ => resolveCallerAuth_some_iff parser, resolveCallerAuth_none_iff, fun _ h => gate_law sha256 parser h⟩

/-- A block with a token, behind the default header: with digests that never collide, only its token passes. -/
theorem caller_auth_presentable_key :
    let config : CallerAuthConfig := { header := defaultCallerAuthHeader, token := js "gate-key" }
    resolveCallerAuth (.obj 0 [(js "callerAuth", .obj 1 [(js "token", .str (js "gate-key"))])])
        { caller := js "createApp", path := js "http.callerAuth" } = .ok (some config) ∧
      (∃ bytes, documentedParser.value bytes = some config.token) ∧
      createCallerAuthMiddleware config = .ok { header := config.header, token := config.token } ∧
      ∀ (get : Str → Option Str) bytes, get config.header = documentedParser.value bytes →
        CallerGate.admits id { header := config.header, token := config.token } get = true →
        get config.header = some config.token := by
  intro config
  obtain ⟨hon, -, hgate⟩ := caller_auth_presentable id documentedParser
    (.obj 0 [(js "callerAuth", .obj 1 [(js "token", .str (js "gate-key"))])])
    { caller := js "createApp", path := js "http.callerAuth" }
  have hresolved : resolveCallerAuth (.obj 0 [(js "callerAuth", .obj 1 [(js "token", .str (js "gate-key"))])])
      { caller := js "createApp", path := js "http.callerAuth" } = .ok (some config) := by decide
  obtain ⟨-, -, -, -, -, -, hpresented⟩ := (hon config).1 hresolved
  have hlaw := hgate config hresolved
  exact ⟨hresolved, hpresented, hlaw.built, hlaw.exact fun _ hsame => hsame⟩

end PolicyVerifier.Server
