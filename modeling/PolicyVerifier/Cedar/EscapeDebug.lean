import PolicyVerifier.Cedar.HttpEngine
import PolicyVerifier.Js.Proofs.TextProofs

/-!
# Ids as Rust prints them

An agent prints the id in an evaluation error through `str::escape_debug`. Which characters it writes as
code points is Rust's table of printable characters, and is left open here; what the engine reads is undone
whatever the table says.
-/

namespace PolicyVerifier.Cedar

open Js

/-- A string of Rust's, as JavaScript holds it. -/
def utf16 (s : List Char) : Str := s.flatMap units

/-- The letter `escape_debug` writes after a backslash, for the characters that have one. -/
def debugLetter (c : Char) : Option UInt16 :=
  if c.toNat = 0 then some 0x30
  else if c.toNat = 0x09 then some 0x74
  else if c.toNat = 0x0D then some 0x72
  else if c.toNat = 0x0A then some 0x6E
  else if c.toNat = 0x5C then some 0x5C
  else if c.toNat = 0x22 then some 0x22
  else if c.toNat = 0x27 then some 0x27
  else none

/-- What a character may be written as: its letter where it has one; else itself or its code point. The
characters of a mark, as the other printable ones of ASCII, are written as themselves. -/
inductive DebugWriting (c : Char) : Str → Prop
  | letter (d : UInt16) (has : debugLetter c = some d) : DebugWriting c [0x5C, d]
  | itself (none : debugLetter c = none) : DebugWriting c (units c)
  | codePoint (none : debugLetter c = none) (other : ∀ u ∈ units c, u ≠ 0x40 ∧ isHexDigit u = false) :
      DebugWriting c (0x5C :: 0x75 :: 0x7B :: (hexadecimal c.toNat ++ [0x7D]))

/-- The text a string is written as, character by character. -/
inductive DebugWritten : List Char → Str → Prop
  | nil : DebugWritten [] []
  | cons {c : Char} {s : List Char} {piece rest : Str} (head : DebugWriting c piece)
      (tail : DebugWritten s rest) : DebugWritten (c :: s) (piece ++ rest)

/-! ## Characters -/

theorem utf16_cons (c : Char) (s : List Char) : utf16 (c :: s) = units c ++ utf16 s := rfl

theorem units_ne_nil (c : Char) : units c ≠ [] := by
  unfold units
  split <;> simp

theorem toNat_lt (c : Char) : c.toNat < 0x110000 := by
  have hvalid := c.valid
  simp only [UInt32.isValidChar, Nat.isValidChar, Char.toNat_val] at hvalid
  omega

/-- A code unit of ASCII is a character of its own. -/
theorem units_of_ascii {c : Char} {u : UInt16} (h : u ∈ units c) (hu : u.toNat < 0x80) :
    c.toNat = u.toNat ∧ units c = [u] := by
  have hc := toNat_lt c
  unfold units at h ⊢
  split at h
  · rename_i hsmall
    obtain rfl := List.mem_singleton.1 h
    rw [UInt16.toNat_ofNat', Nat.mod_eq_of_lt (by omega), if_pos hsmall]
    exact ⟨rfl, rfl⟩
  · simp only [List.mem_cons, List.not_mem_nil, or_false] at h
    rcases h with rfl | rfl
    · rw [UInt16.toNat_ofNat', Nat.mod_eq_of_lt (by omega)] at hu
      omega
    · rw [UInt16.toNat_ofNat', Nat.mod_eq_of_lt (by omega)] at hu
      omega

/-- The characters that have a letter are of ASCII, and no letter of theirs is a delimiter's. -/
theorem debugEscape_debugLetter {c : Char} {d : UInt16} (h : debugLetter c = some d) :
    debugEscape d = some (UInt16.ofNat c.toNat) ∧ units c = [UInt16.ofNat c.toNat] ∧ d ≠ 0x75 ∧
      d ∉ js "\x60: " := by
  unfold debugLetter at h
  repeat' split at h
  all_goals first
    | (rename_i hc
       obtain rfl := Option.some.inj h
       rw [units, hc]
       exact ⟨by decide, rfl, by decide, by decide⟩)
    | exact absurd h (by simp)

/-- A character without a letter is no backslash. -/
theorem backslash_not_mem {c : Char} (h : debugLetter c = none) : (0x5C : UInt16) ∉ units c := by
  intro hmem
  obtain ⟨hc, -⟩ := units_of_ascii hmem (by decide)
  simp [debugLetter, hc] at h

/-! ## Undoing it -/

/-- What holds no backslash is left as it is. -/
theorem unescapeDebugFrom_plain {s t : Str} (h : (0x5C : UInt16) ∉ s) :
    unescapeDebugFrom 0 (s ++ t) = s ++ unescapeDebugFrom 0 t := by
  induction s with
  | nil => rfl
  | cons c s ih =>
    have hc : c ≠ 0x5C := fun hc => h (by simp [hc])
    rw [List.cons_append, unescapeDebugFrom.eq_def]
    simp only [if_neg (Nat.lt_irrefl 0), if_neg hc]
    rw [ih fun hs => h (List.mem_cons_of_mem c hs), List.cons_append]

/-- The code units of an escape that is already read are passed over. -/
theorem unescapeDebugFrom_skip (s t : Str) : unescapeDebugFrom s.length (s ++ t) = unescapeDebugFrom 0 t := by
  induction s with
  | nil => rfl
  | cons c s ih =>
    rw [List.cons_append, List.length_cons, unescapeDebugFrom.eq_def]
    simp only [if_pos (Nat.succ_pos s.length)]
    exact ih

/-- The digits of a code point end at the brace. -/
theorem unicodeDebugEscape_hexadecimal {n : Nat} (hn : n < 0x110000) (t : Str) :
    unicodeDebugEscape (hexadecimal n ++ 0x7D :: t) = some (hexadecimal n) := by
  have htake : (hexadecimal n ++ 0x7D :: t).takeWhile isHexDigit = hexadecimal n := by
    rw [List.takeWhile_append_of_pos (isHexDigit_hexadecimal n)]
    simp [show isHexDigit 0x7D = false by decide]
  have hpos := length_hexadecimal_pos n
  have hle := length_hexadecimal_le (n := n) (k := 6) (by omega) (by omega)
  rw [unicodeDebugEscape, htake]
  simp only [List.drop_left, List.head?_cons]
  rw [if_pos ⟨hpos, hle, trivial⟩]

/-- One character is undone, and the text after it is left to be undone. -/
theorem DebugWriting.undone {c : Char} {piece : Str} (h : DebugWriting c piece) (t : Str) :
    unescapeDebugFrom 0 (piece ++ t) = units c ++ unescapeDebugFrom 0 t := by
  cases h with
  | letter d has =>
    obtain ⟨hback, hunits, hu, -⟩ := debugEscape_debugLetter has
    rw [List.cons_append, List.cons_append, List.nil_append, unescapeDebugFrom.eq_def]
    simp only [if_neg (Nat.lt_irrefl 0), if_true]
    split
    · rename_i heq
      exact absurd (List.cons.inj heq).1 hu
    · rename_i heq
      obtain ⟨rfl, rfl⟩ := List.cons.inj heq
      have hskip : unescapeDebugFrom 1 (d :: t) = unescapeDebugFrom 0 t := unescapeDebugFrom_skip [d] t
      simp only [hback, hunits, hskip, List.singleton_append]
    · rename_i heq
      exact absurd heq (by simp)
  | itself none => exact unescapeDebugFrom_plain (backslash_not_mem none)
  | codePoint none other =>
    have hc := toNat_lt c
    have hdigits := unicodeDebugEscape_hexadecimal hc t
    have hskip := unescapeDebugFrom_skip (0x75 :: 0x7B :: (hexadecimal c.toNat ++ [0x7D])) t
    simp only [List.length_cons, List.length_append, List.length_nil, List.cons_append, List.append_assoc,
      List.nil_append] at hskip
    simp only [List.cons_append, List.append_assoc, List.nil_append]
    rw [unescapeDebugFrom.eq_def]
    simp only [if_neg (Nat.lt_irrefl 0), if_true, hdigits, parseHex_hexadecimal]
    rw [if_pos (by omega)]
    exact congrArg _ hskip

/-- What `escape_debug` wrote is undone, and the text after it is left to be undone. -/
theorem DebugWritten.undone {s : List Char} {e : Str} (h : DebugWritten s e) (t : Str) :
    unescapeDebug (e ++ t) = utf16 s ++ unescapeDebug t := by
  unfold unescapeDebug
  induction h with
  | nil => rfl
  | cons head tail ih =>
    rw [List.append_assoc, head.undone, ih, utf16_cons, List.append_assoc]

end PolicyVerifier.Cedar
