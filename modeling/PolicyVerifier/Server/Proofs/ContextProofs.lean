import Mathlib.Algebra.Order.BigOperators.Group.List
import Mathlib.Algebra.Order.Group.Nat
import PolicyVerifier.Server.Routes.DecisionRequests

/-!
# What a context is held to

The nodes still to be read carry between them everything that has not been counted, so the loop over them
stops without an error exactly where the whole context is within its bounds.
-/

namespace PolicyVerifier.Server

open Js

/-! ## What a context holds -/

/-- What a value holds at a depth: itself, and what its properties and elements hold one further down. -/
inductive Reaches : Value → Nat → Value → Prop
  | self (v : Value) : Reaches v 0 v
  | step {node held v : Value} {key : Option Str} {depth : Nat} (entry : (key, held) ∈ ownEntries node)
      (rest : Reaches held depth v) : Reaches node (depth + 1) v

/-- Every property name and every string of a value, at every depth, is short enough. -/
structure ShortStrings (maxLength : Nat) (context : Value) : Prop where
  names : ∀ depth node name held, Reaches context depth node → (some name, held) ∈ ownEntries node →
    name.length ≤ maxLength
  strings : ∀ depth s, Reaches context depth (.str s) → s.length ≤ maxLength

/-- The name and the value of an entry are short enough. -/
structure ShortEntry (maxLength : Nat) (entry : Option Str × Value) : Prop where
  name : ∀ name, entry.1 = some name → name.length ≤ maxLength
  value : ∀ s, entry.2 = .str s → s.length ≤ maxLength

theorem ownEntries_leaf {v : Value} (h : v.isObject = false) : ownEntries v = [] := by
  cases v with
  | arr ref items => exact absurd h (by simp [Value.isObject])
  | obj ref props => exact absurd h (by simp [Value.isObject])
  | _ => rfl

/-- What is no container holds itself alone. -/
theorem Reaches.leaf {v w : Value} {depth : Nat} (h : v.isObject = false) (hreach : Reaches v depth w) :
    w = v := by
  cases hreach with
  | self => rfl
  | step entry rest =>
    rw [ownEntries_leaf h] at entry
    exact absurd entry (by simp)

theorem mem_containers {node held : Value} : held ∈ containers node ↔
    (∃ key, (key, held) ∈ ownEntries node) ∧ held.isObject = true := by
  simp [containers]

/-- A container is short throughout where its own entries are, and the containers among them. -/
theorem shortStrings_iff {maxLength : Nat} {node : Value} (hnode : node.isObject = true) :
    ShortStrings maxLength node ↔
      (∀ entry ∈ ownEntries node, ShortEntry maxLength entry) ∧
        ∀ held ∈ containers node, ShortStrings maxLength held := by
  constructor
  · intro h
    refine ⟨?_, ?_⟩
    · rintro ⟨key, held⟩ hentry
      refine ⟨?_, ?_⟩
      · rintro name rfl
        exact h.names 0 node name held (.self node) hentry
      · rintro s rfl
        exact h.strings 1 s (.step hentry (.self _))
    · intro held hheld
      obtain ⟨⟨key, hentry⟩, -⟩ := mem_containers.1 hheld
      refine ⟨?_, ?_⟩
      · intro depth inner name v hreach hinner
        exact h.names (depth + 1) inner name v (.step hentry hreach) hinner
      · intro depth s hreach
        exact h.strings (depth + 1) s (.step hentry hreach)
  · rintro ⟨hown, hheld⟩
    refine ⟨?_, ?_⟩
    · intro depth inner name v hreach hinner
      cases hreach with
      | self => exact (hown _ hinner).name name rfl
      | @step _ held _ key depth entry rest =>
        by_cases hcontainer : held.isObject = true
        · exact (hheld held (mem_containers.2 ⟨⟨key, entry⟩, hcontainer⟩)).names _ _ _ _ rest hinner
        · have hleaf : held.isObject = false := by simpa using hcontainer
          rw [rest.leaf hleaf, ownEntries_leaf hleaf] at hinner
          exact absurd hinner (by simp)
    · intro depth s hreach
      cases hreach with
      | self => exact absurd hnode (by simp [Value.isObject])
      | @step _ held _ key depth entry rest =>
        by_cases hcontainer : held.isObject = true
        · exact (hheld held (mem_containers.2 ⟨⟨key, entry⟩, hcontainer⟩)).strings _ _ rest
        · have hleaf : held.isObject = false := by simpa using hcontainer
          exact (hown _ entry).value s (rest.leaf hleaf).symm

/-! ## Counting -/

/-- What is held at a depth is held by as many entries at least. -/
theorem Reaches.depth_le {context v : Value} {depth : Nat} (h : Reaches context depth v) :
    depth + entryCount v ≤ entryCount context := by
  induction h with
  | self v => omega
  | @step node held v key depth entry rest ih =>
    have hone : entryCount held + 1 ≤ entryCount node := by
      rw [entryCount_eq node]
      have hlength : 1 ≤ (ownEntries node).length := List.length_pos_of_mem entry
      by_cases hcontainer : held.isObject = true
      · have hmem := mem_containers.2 ⟨⟨key, entry⟩, hcontainer⟩
        have hle := List.single_le_sum (fun n _ => Nat.zero_le n) _ (List.mem_map_of_mem (f := entryCount) hmem)
        omega
      · rw [entryCount_leaf (by simpa using hcontainer)]
        omega
    omega

/-! ## The loop -/

section

variable {label : Str} {limits : RequestLimits}

theorem shortEntry_iff {maxLength : Nat} {key : Option Str} {value : Value} :
    ShortEntry maxLength (key, value) ↔
      ¬ (key.any fun key => maxLength < key.length) = true ∧
        ¬ (value.str?.any fun s => maxLength < s.length) = true := by
  simp only [Option.any_eq_true, Value.str?_eq_some, decide_eq_true_eq, not_exists, not_and, Nat.not_lt]
  exact ⟨fun h => ⟨h.name, h.value⟩, fun h => ⟨h.1, h.2⟩⟩

/-- The entries of one node pass where there are not too many by then and each is short enough. -/
theorem checkEntries_ok_iff {own : List (Option Str × Value)} {entries total : Nat}
    (h : entries ≤ limits.maxContextEntries) :
    checkEntries label limits own entries = .ok total ↔
      total = entries + own.length ∧ total ≤ limits.maxContextEntries ∧
        ∀ entry ∈ own, ShortEntry limits.maxContextValueLength entry := by
  induction own generalizing entries with
  | nil =>
    simp only [checkEntries, Except.ok.injEq, List.length_nil, Nat.add_zero, List.not_mem_nil]
    constructor
    · rintro rfl
      exact ⟨rfl, h, by simp⟩
    · rintro ⟨rfl, -⟩
      rfl
  | cons entry own ih =>
    obtain ⟨key, value⟩ := entry
    rw [checkEntries, List.forall_mem_cons, List.length_cons, shortEntry_iff]
    by_cases hmany : limits.maxContextEntries < entries + 1
    · rw [if_pos hmany]
      refine iff_of_false (by simp) ?_
      rintro ⟨rfl, hle, -⟩
      omega
    rw [if_neg hmany]
    by_cases hname : (key.any fun key => limits.maxContextValueLength < key.length) = true
    · rw [if_pos hname]
      exact iff_of_false (by simp) fun h => h.2.2.1.1 hname
    rw [if_neg hname]
    by_cases hstring : (value.str?.any fun s => limits.maxContextValueLength < s.length) = true
    · rw [if_pos hstring]
      exact iff_of_false (by simp) fun h => h.2.2.1.2 hstring
    rw [if_neg hstring, ih (by omega)]
    constructor
    · rintro ⟨rfl, hle, hall⟩
      exact ⟨by omega, hle, ⟨hname, hstring⟩, hall⟩
    · rintro ⟨rfl, hle, -, hall⟩
      exact ⟨by omega, hle, hall⟩

/-- What is still to be read, after what has been counted: it passes where all it holds is not too many, and
each string of it is short enough. -/
theorem checkPending_none_iff {pending : List Value} {entries : Nat} (h : entries ≤ limits.maxContextEntries)
    (hcontainers : ∀ node ∈ pending, node.isObject = true) :
    checkPending label limits pending entries = none ↔
      entries + (pending.map entryCount).sum ≤ limits.maxContextEntries ∧
        ∀ node ∈ pending, ShortStrings limits.maxContextValueLength node := by
  induction pending, entries using checkPending.induct label limits with
  | case1 entries => simpa [checkPending] using h
  | case2 node pending entries message herror =>
    rw [checkPending, herror]
    refine iff_of_false (by simp) ?_
    rintro ⟨hcount, hshort⟩
    obtain ⟨hnode, -⟩ := List.forall_mem_cons.1 hcontainers
    have hown := ((shortStrings_iff hnode).1 (hshort node (by simp))).1
    rw [List.map_cons, List.sum_cons, entryCount_eq node] at hcount
    have hok : checkEntries label limits (ownEntries node) entries =
        .ok (entries + (ownEntries node).length) := (checkEntries_ok_iff h).2 ⟨rfl, by omega, hown⟩
    rw [herror] at hok
    exact absurd hok (by simp)
  | case3 node pending entries total hok ih =>
    rw [checkPending, hok]
    obtain ⟨rfl, hle, hown⟩ := (checkEntries_ok_iff h).1 hok
    obtain ⟨hnode, hrest⟩ := List.forall_mem_cons.1 hcontainers
    have hpushed : ∀ held ∈ containers node ++ pending, held.isObject = true := by
      intro held hheld
      rcases List.mem_append.1 hheld with hinner | hwaiting
      · exact (mem_containers.1 hinner).2
      · exact hrest held hwaiting
    rw [ih hle hpushed, List.map_append, List.sum_append, List.map_cons, List.sum_cons, entryCount_eq node,
      List.forall_mem_append, List.forall_mem_cons, shortStrings_iff hnode]
    constructor
    · rintro ⟨hcount, hheld, hall⟩
      exact ⟨by omega, ⟨hown, hheld⟩, hall⟩
    · rintro ⟨hcount, ⟨-, hheld⟩, hall⟩
      exact ⟨by omega, hheld, hall⟩

end

/-- What the bounds of a context come to. -/
structure ContextBounded (label : Str) (limits : RequestLimits) (context : Value) : Prop where
  accepted : checkContext label limits context = none ↔
    entryCount context ≤ limits.maxContextEntries ∧ ShortStrings limits.maxContextValueLength context
  /-- An accepted context holds nothing deeper than it may have entries. -/
  nested : checkContext label limits context = none →
    ∀ depth v, Reaches context depth v → depth ≤ limits.maxContextEntries

/-- For every object and all limits: the loop ends without an error exactly where the object is within them. -/
theorem checkContext_bounded (label : Str) (limits : RequestLimits) (ref : Nat) (props : List (Str × Value)) :
    ContextBounded label limits (.obj ref props) := by
  have haccepted : checkContext label limits (.obj ref props) = none ↔
      entryCount (.obj ref props) ≤ limits.maxContextEntries ∧
        ShortStrings limits.maxContextValueLength (.obj ref props) := by
    have hcontainer : ∀ node ∈ [Value.obj ref props], node.isObject = true := by
      intro node hnode
      rw [List.mem_singleton.1 hnode]
      rfl
    rw [checkContext, checkPending_none_iff (Nat.zero_le _) hcontainer]
    simp
  refine ⟨haccepted, fun hnone depth v hreach => ?_⟩
  have hdepth := hreach.depth_le
  have hcount := (haccepted.1 hnone).1
  omega

end PolicyVerifier.Server
