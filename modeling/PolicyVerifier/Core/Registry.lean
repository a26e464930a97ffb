import PolicyVerifier.Js.Value
import PolicyVerifier.Lib.OrderedMap

/-!
# The registries

Names, and what is registered under each: the first registration of a name is the one that counts.
-/

namespace PolicyVerifier.Core

open Js

/-- A name-keyed registry. -/
structure Registry (T : Type) where
  map : OrderedMap Str T := ∅

namespace Registry

variable {T : Type}

/-- `register`: refuses a name that is taken. -/
def register (r : Registry T) (name : Str) (registered : T) : Except Str (Registry T) :=
  if r.map.has name then .error (js "Registry: \"" ++ name ++ js "\" is already registered")
  else .ok { map := r.map.set name registered }

/-- `get`: refuses a name that is not registered. -/
def get (r : Registry T) (name : Str) : Except Str T :=
  match r.map.get? name with
  | some registered => .ok registered
  | none => .error (js "Registry: \"" ++ name ++ js "\" is not registered")

def has (r : Registry T) (name : Str) : Bool := r.map.has name

theorem get_ok_iff {r : Registry T} {name : Str} {registered : T} :
    r.get name = .ok registered ↔ r.map.get? name = some registered := by
  unfold get
  cases r.map.get? name with
  | none => simp
  | some found => simp

theorem get_error {r : Registry T} {name message : Str} (h : r.get name = .error message) :
    message = js "Registry: \"" ++ name ++ js "\" is not registered" := by
  unfold get at h
  split at h
  · exact absurd h (by simp)
  · exact (Except.error.inj h).symm

/-- What is registered stays what it is. -/
theorem get_register {r r' : Registry T} {name other : Str} {registered found : T}
    (h : r.register name registered = .ok r') (hfound : r.get other = .ok found) : r'.get other = .ok found := by
  unfold register at h
  split at h
  · exact absurd h (by simp)
  · rename_i hfree
    obtain rfl := Except.ok.inj h
    rw [get_ok_iff] at hfound ⊢
    show OrderedMap.lookup other (OrderedMap.setEntry name registered r.map.entries) = _
    rw [OrderedMap.lookup_setEntry]
    split_ifs with hname
    · rw [hname] at hfree
      rw [OrderedMap.has, hfound] at hfree
      exact absurd rfl hfree
    · exact hfound

/-- What a name leads to was registered before, or just now. -/
theorem get_of_register {r r' : Registry T} {name other : Str} {registered found : T}
    (h : r.register name registered = .ok r') (hfound : r'.get other = .ok found) :
    r.get other = .ok found ∨ (name = other ∧ registered = found) := by
  unfold register at h
  split at h
  · exact absurd h (by simp)
  · obtain rfl := Except.ok.inj h
    rw [get_ok_iff] at hfound ⊢
    have hread : OrderedMap.lookup other (OrderedMap.setEntry name registered r.map.entries) = some found := hfound
    rw [OrderedMap.lookup_setEntry] at hread
    split at hread
    · exact .inr ⟨‹_›, Option.some.inj hread⟩
    · exact .inl hread

end Registry

end PolicyVerifier.Core
