import PolicyVerifier.Cedar.EscapeDebug
import PolicyVerifier.Cedar.Proofs.HttpEngineProofs

/-!
# Which policy an evaluation error names

An error is read up to this load's mark where the mark ends an id, else up to the first delimiter. The
message that follows may repeat both; it still turns no policy of another set into one of this load's, and
none of this load's into another.
-/

namespace PolicyVerifier.Cedar

open Js

/-- What ends an id in an evaluation error. -/
def idDelimiter : Str := [0x60, 0x3A, 0x20]

theorem js_idDelimiter : js "\x60: " = idDelimiter := by decide

/-- What Cedar's evaluation errors open with. -/
def evaluationErrors : List Str :=
  [js "error occurred while evaluating policy \x60", js "error while evaluating policy \x60"]

/-! ## Where a delimiter stands -/

/-- A delimiter that stands in a text around another one, before which there is none, is that one or
stands after it. -/
theorem idDelimiter_at {e message front back : Str} (he : ¬ idDelimiter <:+: e)
    (h : front ++ idDelimiter ++ back = e ++ idDelimiter ++ message) :
    (front = e ∧ back = message) ∨
      ∃ u, front = e ++ idDelimiter ++ u ∧ message = u ++ idDelimiter ++ back := by
  rw [List.append_assoc, List.append_assoc] at h
  rcases List.append_eq_append_iff.1 h with ⟨u, rfl, hu⟩ | ⟨u, rfl, hu⟩
  · -- it begins in what stands before
    rcases u with _ | ⟨a, _ | ⟨b, _ | ⟨c, u⟩⟩⟩
    · exact Or.inl ⟨by simp, by simpa using hu⟩
    · simp [idDelimiter] at hu
    · simp [idDelimiter] at hu
    · refine absurd ⟨front, u, ?_⟩ he
      simp only [idDelimiter, List.cons_append, List.nil_append, List.cons.injEq] at hu
      simp [idDelimiter, hu.1, hu.2.1, hu.2.2.1]
  · rcases u with _ | ⟨a, _ | ⟨b, _ | ⟨c, u⟩⟩⟩
    · exact Or.inl ⟨by simp, by simpa using hu.symm⟩
    · simp [idDelimiter] at hu
    · simp [idDelimiter] at hu
    · simp only [idDelimiter, List.cons_append, List.nil_append, List.cons.injEq] at hu
      obtain ⟨rfl, rfl, rfl, hmessage⟩ := hu
      exact Or.inr ⟨u, by simp [idDelimiter], by simpa [idDelimiter] using hmessage⟩

/-- The same of a delimiter after a mark, which holds no character of it. -/
theorem marked_idDelimiter_at {mark e message front back : Str} (he : ¬ idDelimiter <:+: e)
    (hmark : ∀ u ∈ idDelimiter, u ∉ mark)
    (h : front ++ (mark ++ idDelimiter) ++ back = e ++ idDelimiter ++ message) :
    (front ++ mark = e ∧ back = message) ∨
      ∃ u, front = e ++ idDelimiter ++ u ∧ message = u ++ (mark ++ idDelimiter) ++ back := by
  rw [← List.append_assoc front] at h
  rcases idDelimiter_at he h with hown | ⟨u, hfront, hmessage⟩
  · exact Or.inl hown
  · rcases List.append_eq_append_iff.1 hfront with ⟨v, hv, hvmark⟩ | ⟨v, rfl, rfl⟩
    · rcases List.eq_nil_or_concat v with rfl | ⟨v, c, rfl⟩
      · refine Or.inr ⟨[], by simpa using hv.symm, ?_⟩
        rw [hmessage]
        simpa using hvmark.symm
      · -- the delimiter's last character would stand in the mark
        have hspace : c = 0x20 := by
          have hlast := congrArg List.getLast? hv
          simpa [idDelimiter] using hlast.symm
        exact absurd (by rw [hvmark, hspace]; simp) (hmark 0x20 (by decide))
    · exact Or.inr ⟨v, rfl, by rw [hmessage]; simp [List.append_assoc]⟩

/-! ## What is written of an id -/

/-- The delimiter's characters are of ASCII, and none of those an escape is written with. -/
theorem idDelimiter_plain {u : UInt16} (hu : u ∈ idDelimiter) : u.toNat < 0x80 ∧ u ≠ 0x5C ∧ u ≠ 0x75 ∧
    u ≠ 0x7B ∧ u ≠ 0x7D ∧ u ≠ 0x40 ∧ isHexDigit u = false := by
  simp only [idDelimiter, List.mem_cons, List.not_mem_nil, or_false] at hu
  rcases hu with rfl | rfl | rfl <;> decide

/-- A character of the delimiter stands in what a character is written as only for itself. -/
theorem DebugWriting.delimiter {c : Char} {piece : Str} {u : UInt16} (h : DebugWriting c piece)
    (hu : u ∈ idDelimiter) (hmem : u ∈ piece) : piece = [u] ∧ units c = [u] := by
  obtain ⟨hascii, hbackslash, hletter, hopen, hclose, -, hhex⟩ := idDelimiter_plain hu
  cases h with
  | letter d has =>
    obtain ⟨-, -, -, hd⟩ := debugEscape_debugLetter has
    rcases List.mem_cons.1 hmem with rfl | hmem
    · exact absurd rfl hbackslash
    · obtain rfl := List.mem_singleton.1 hmem
      exact absurd (js_idDelimiter ▸ hu) hd
  | itself none => exact ⟨(units_of_ascii hmem hascii).2, (units_of_ascii hmem hascii).2⟩
  | codePoint none other =>
    simp only [List.mem_cons, List.mem_append, List.not_mem_nil, or_false] at hmem
    rcases hmem with h | h | h | h | h
    · exact absurd h hbackslash
    · exact absurd h hletter
    · exact absurd h hopen
    · exact absurd (isHexDigit_hexadecimal _ _ h) (by simp [hhex])
    · exact absurd h hclose

/-- What is written of an id begins with characters of the delimiter only where the id does. -/
theorem DebugWritten.starts_delimiter {s : List Char} {e d : Str} (h : DebugWritten s e)
    (hd : ∀ u ∈ d, u ∈ idDelimiter) (hstarts : d <+: e) : d <+: utf16 s := by
  induction h generalizing d with
  | nil => exact hstarts
  | @cons c s piece rest head tail ih =>
    cases d with
    | nil => exact List.nil_prefix
    | cons u d =>
      have hpiece : piece ≠ [] := by cases head <;> simp [units_ne_nil]
      obtain ⟨v, piece', rfl⟩ := List.exists_cons_of_ne_nil hpiece
      obtain ⟨rfl, htail⟩ := List.cons_prefix_cons.1 hstarts
      obtain ⟨hpiece, hunits⟩ := head.delimiter (hd u (by simp)) (by simp)
      obtain rfl := (List.cons.inj hpiece).2
      rw [utf16_cons, hunits]
      exact List.cons_prefix_cons.2 ⟨rfl, ih (fun v hv => hd v (List.mem_cons_of_mem u hv)) htail⟩

/-- What begins with a character that a text does not hold stands after the text. -/
theorem infix_of_not_mem {u : UInt16} {d x y : Str} (hu : u ∉ x) (h : u :: d <:+: x ++ y) :
    u :: d <:+: y := by
  induction x with
  | nil => exact h
  | cons c x ih =>
    rw [List.cons_append, List.infix_cons_iff] at h
    rcases h with hstarts | hholds
    · exact absurd (List.cons_prefix_cons.1 hstarts).1 fun hc => hu (by simp [hc])
    · exact ih (fun hx => hu (List.mem_cons_of_mem c hx)) hholds

/-- What is written of an id holds a delimiter only where the id does. -/
theorem DebugWritten.holds_delimiter {s : List Char} {e : Str} (h : DebugWritten s e)
    (hholds : idDelimiter <:+: e) : idDelimiter <:+: utf16 s := by
  induction h with
  | nil => exact hholds
  | @cons c s piece rest head tail ih =>
    rw [utf16_cons]
    by_cases hmem : (0x60 : UInt16) ∈ piece
    · obtain ⟨rfl, hunits⟩ := head.delimiter (by decide) hmem
      rcases List.infix_cons_iff.1 hholds with hstarts | hholds
      · refine List.IsPrefix.isInfix ?_
        rw [← utf16_cons]
        exact (DebugWritten.cons head tail).starts_delimiter (fun _ hu => hu) hstarts
      · exact (ih hholds).trans (List.suffix_append _ _).isInfix
    · exact (ih (infix_of_not_mem hmem hholds)).trans (List.suffix_append _ _).isInfix

/-- `@` and `[0-9a-f]`, which a mark is made of. -/
def isMarkUnit (u : UInt16) : Bool := u == 0x40 || isHexDigit u

theorem isMarkUnit_ascii {u : UInt16} (h : isMarkUnit u = true) : u.toNat < 0x80 := by
  simp only [isMarkUnit, isHexDigit, Bool.or_eq_true, Bool.and_eq_true, beq_iff_eq, decide_eq_true_eq,
    UInt16.le_iff_toNat_le] at h
  rcases h with rfl | ⟨-, h⟩ | ⟨-, h⟩
  · decide
  · exact h.trans_lt (by decide)
  · exact h.trans_lt (by decide)

/-- A character of a mark is written as itself. -/
theorem DebugWriting.mark {c : Char} {piece : Str} {u : UInt16} (h : DebugWriting c piece)
    (hu : isMarkUnit u = true) (hmem : u ∈ units c) : piece = units c := by
  cases h with
  | letter d has =>
    obtain ⟨hc, -⟩ := units_of_ascii hmem (isMarkUnit_ascii hu)
    unfold debugLetter at has
    repeat' split at has
    all_goals first
      | (rename_i hc'
         obtain rfl : u = UInt16.ofNat c.toNat := by rw [hc, UInt16.ofNat_toNat]
         rw [hc'] at hu
         exact absurd hu (by decide))
      | exact absurd has (by simp)
  | itself none => rfl
  | codePoint none other =>
    obtain ⟨hat, hhex⟩ := other u hmem
    exact absurd hu (by simp [isMarkUnit, hat, hhex])

theorem DebugWritten.mark {s : List Char} {e : Str} (h : DebugWritten s e)
    (hmark : ∀ u ∈ utf16 s, isMarkUnit u = true) : e = utf16 s := by
  induction h with
  | nil => rfl
  | @cons c s piece rest head tail ih =>
    rw [utf16_cons] at hmark ⊢
    obtain ⟨u, hu⟩ := List.exists_mem_of_ne_nil _ (units_ne_nil c)
    rw [head.mark (hmark u (List.mem_append_left _ hu)) hu,
      ih fun v hv => hmark v (List.mem_append_right _ hv)]

/-- What is written of an id that ends in a mark ends in it. -/
theorem DebugWritten.mark_suffix {s : List Char} {e t d : Str} (h : DebugWritten s e)
    (hd : ∀ u ∈ d, isMarkUnit u = true) (hs : utf16 s = t ++ d) : ∃ front, e = front ++ d := by
  induction h generalizing t with
  | nil =>
    obtain ⟨-, rfl⟩ := List.append_eq_nil_iff.1 hs.symm
    exact ⟨[], rfl⟩
  | @cons c s piece rest head tail ih =>
    have hwhole := DebugWritten.cons head tail
    rw [utf16_cons] at hs
    rcases List.append_eq_append_iff.1 hs with ⟨v, rfl, hv⟩ | ⟨v, hv, rfl⟩
    · obtain ⟨front, rfl⟩ := ih hv
      exact ⟨piece ++ front, (List.append_assoc ..).symm⟩
    · cases v with
      | nil =>
        obtain ⟨front, rfl⟩ := ih (t := []) rfl
        exact ⟨piece ++ front, by simp⟩
      | cons u v =>
        -- the mark begins in this character, so it is the mark's first one
        obtain ⟨-, hunits⟩ := units_of_ascii (u := u) (by rw [hv]; simp) (isMarkUnit_ascii (hd u (by simp)))
        rw [hunits] at hv
        obtain ⟨rfl, hcons⟩ := List.append_eq_singleton_iff.1 hv.symm |>.resolve_right (by simp)
        obtain rfl : v = [] := by simpa using hcons
        refine ⟨[], ?_⟩
        rw [hwhole.mark (by rw [utf16_cons, hunits]; exact hd), utf16_cons, hunits]
        rfl

/-! ## The policy that is read -/

theorem afterEvaluationError_opening {opening : Str} (h : opening ∈ evaluationErrors) (rest : Str) :
    startsWith attributeEvaluationError (opening ++ rest) = false ∧
      afterEvaluationError (opening ++ rest) = some rest := by
  simp only [evaluationErrors, List.mem_cons, List.not_mem_nil, or_false] at h
  rcases h with rfl | rfl
  · exact ⟨rfl, rfl⟩
  · exact ⟨rfl, rfl⟩

/-- What an evaluation error is read as: up to the mark where a delimiter follows it, else up to the first
delimiter. -/
theorem erroringPolicy_opening {opening : Str} (h : opening ∈ evaluationErrors) (rest mark : Str) :
    erroringPolicy (.str (opening ++ rest)) mark =
      match indexOf (mark ++ idDelimiter) rest with
      | some own => some (unescapeDebug (rest.take (own + mark.length)))
      | none =>
        match indexOf idDelimiter rest with
        | some first => some (unescapeDebug (rest.take first))
        | none => some unreadablePolicyId := by
  obtain ⟨hattribute, hafter⟩ := afterEvaluationError_opening h rest
  unfold erroringPolicy
  simp only [hattribute, hafter, js_idDelimiter]
  rfl

/-- The policy that is read is the one the error names, or one that holds a delimiter: then the message
holds the mark before one, and the policy the error names ends in no mark. -/
theorem erroringPolicy_reads {opening mark e : Str} {s : List Char} (message : Str)
    (h : opening ∈ evaluationErrors) (hmark : ∀ u ∈ mark, isMarkUnit u = true) (hwritten : DebugWritten s e)
    (hs : ¬ idDelimiter <:+: utf16 s) :
    ∃ policy, erroringPolicy (.str (opening ++ (e ++ idDelimiter ++ message))) mark = some policy ∧
      (policy = utf16 s ∨ (idDelimiter <:+: policy ∧ mark ++ idDelimiter <:+: message ∧
        ∀ id, utf16 s ≠ id ++ mark)) := by
  have he : ¬ idDelimiter <:+: e := fun hholds => hs (hwritten.holds_delimiter hholds)
  have hplain : ∀ u ∈ idDelimiter, u ∉ mark := by
    intro u hu hmem
    obtain ⟨-, -, -, -, -, hat, hhex⟩ := idDelimiter_plain hu
    exact absurd (hmark u hmem) (by simp [isMarkUnit, hat, hhex])
  have hundone : unescapeDebug e = utf16 s := by simpa [unescapeDebug, unescapeDebugFrom] using hwritten.undone []
  rw [erroringPolicy_opening h]
  cases hown : indexOf (mark ++ idDelimiter) (e ++ idDelimiter ++ message) with
  | some i =>
    refine ⟨_, rfl, ?_⟩
    obtain ⟨⟨front, back, hfound, rfl⟩, hleast⟩ := indexOf_eq_some_iff.1 hown
    rcases marked_idDelimiter_at he hplain hfound.symm with ⟨hfront, -⟩ | ⟨u, rfl, hmessage⟩
    · refine Or.inl ?_
      rw [← List.length_append, hfront, List.append_assoc, List.take_left, hundone]
    · refine Or.inr ⟨?_, ⟨u, back, hmessage.symm⟩, fun id hid => ?_⟩
      · -- the id the error names is read with its delimiter, and more
        have hsplit : e ++ idDelimiter ++ message = e ++ (idDelimiter ++ (u ++ mark)) ++ (idDelimiter ++ back) := by
          rw [hmessage]
          simp only [List.append_assoc]
        have hlength : (e ++ idDelimiter ++ u).length + mark.length =
            (e ++ (idDelimiter ++ (u ++ mark))).length := by
          simp only [List.length_append]
          omega
        rw [hsplit, hlength, List.take_left, hwritten.undone]
        refine List.IsInfix.trans ?_ (List.suffix_append _ _).isInfix
        rw [unescapeDebug, unescapeDebugFrom_plain (by decide)]
        exact (List.prefix_append _ _).isInfix
      · -- an own id's mark would be found before
        obtain ⟨front, rfl⟩ := hwritten.mark_suffix hmark hid
        have := hleast front message (by simp)
        simp only [List.length_append] at this
        have : 0 < idDelimiter.length := by decide
        omega
  | none =>
    have hfirst : indexOf idDelimiter (e ++ idDelimiter ++ message) = some e.length := by
      refine indexOf_eq_some_iff.2 ⟨⟨e, message, rfl, rfl⟩, fun front back hfound => ?_⟩
      rcases idDelimiter_at he hfound.symm with ⟨rfl, -⟩ | ⟨u, rfl, -⟩
      · exact le_rfl
      · simp only [List.length_append]
        omega
    rw [hfirst]
    refine ⟨_, rfl, Or.inl ?_⟩
    rw [List.append_assoc, List.take_left, hundone]

/-- A mark brings no delimiter. -/
theorem idDelimiter_infix_append {id mark : Str} (hmark : ∀ u ∈ mark, isMarkUnit u = true)
    (h : idDelimiter <:+: id ++ mark) : idDelimiter <:+: id := by
  obtain ⟨front, back, h⟩ := h
  rcases List.append_eq_append_iff.1 h with ⟨v, rfl, -⟩ | ⟨v, hfront, rfl⟩
  · exact ⟨front, v, rfl⟩
  · rcases List.eq_nil_or_concat v with rfl | ⟨v, c, rfl⟩
    · exact ⟨front, [], by simpa using hfront⟩
    · have hlast := congrArg List.getLast? hfront
      obtain rfl : c = 0x20 := by simpa [idDelimiter] using hlast.symm
      exact absurd (hmark 0x20 (by simp)) (by decide)

section Loaded

variable {sha256 : Str → Digest} {source : PolicySource sha256} {set : HttpPolicySet}

theorem Own.isMarkUnit (own : Own source set) : ∀ u ∈ set.ownMark, isMarkUnit u = true := by
  obtain ⟨digits, hmark, -, hhex⟩ := own.marked
  rw [hmark]
  intro u hu
  rcases List.mem_cons.1 hu with rfl | hu
  · decide
  · simp [PolicyVerifier.Cedar.isMarkUnit, hhex u hu]

theorem Own.has_iff (own : Own source set) {policy : Str} :
    set.ownIds.has policy = true ↔ ∃ id ∈ ownFileIds source, policy = id ++ set.ownMark := by
  rw [OrderedMap.has, Option.isSome_iff_exists]
  simp only [own.ids, own.agentPolicyId]

end Loaded

/-- What an agent prints its ids through: `str::escape_debug`, whichever characters besides those with a
letter it writes as code points. -/
def EscapesDebug (escapeDebug : List Char → Str) : Prop := ∀ s, DebugWritten s (escapeDebug s)

/-- Every evaluation error an agent can answer is read as this load's exactly when the policy it names is. -/
structure ErrorsNamePolicies {sha256 : Str → Digest} (escapeDebug : List Char → Str)
    (source : PolicySource sha256) (set : HttpPolicySet) : Prop where
  /-- Whatever id was printed is read back. -/
  undone : ∀ id, unescapeDebug (escapeDebug id) = utf16 id
  /-- The policy an error is read as is this load's exactly when the one it names is; and it is the one it
  names where that is this load's, or where the message does not hold this load's mark before a delimiter. -/
  named : ∀ opening ∈ evaluationErrors, ∀ (id : List Char) (message : Str), ¬ idDelimiter <:+: utf16 id →
    ∃ policy, erroringPolicy (.str (opening ++ escapeDebug id ++ idDelimiter ++ message)) set.ownMark =
        some policy ∧
      (set.ownIds.has policy = true ↔ set.ownIds.has (utf16 id) = true) ∧
      (set.ownIds.has (utf16 id) = true ∨ ¬ set.ownMark ++ idDelimiter <:+: message → policy = utf16 id)

/-- No message of an evaluation error makes a foreign id read as this load's, or the reverse. -/
theorem errors_name_policies {sha256 : Str → Digest} (endpoint : Str)
    (push : List (Str × Str) → Except Str Unit) (source : PolicySource sha256) (set : HttpPolicySet)
    (escapeDebug : List Char → Str) (hescape : EscapesDebug escapeDebug)
    (hload : loadHttp endpoint push source = .ok set)
    (hids : ∀ id ∈ ownFileIds source, ¬ idDelimiter <:+: id) : ErrorsNamePolicies escapeDebug source set := by
  have own := loadHttp_own hload
  refine ⟨fun id => ?_, fun opening hopening id message hid => ?_⟩
  · simpa [unescapeDebug, unescapeDebugFrom] using (hescape id).undone []
  obtain ⟨policy, hpolicy, hread⟩ :=
    erroringPolicy_reads message hopening own.isMarkUnit (hescape id) hid
  refine ⟨policy, by simpa only [List.append_assoc] using hpolicy, ?_⟩
  rcases hread with rfl | ⟨hdelimiter, hmessage, hforeign⟩
  · exact ⟨Iff.rfl, fun _ => rfl⟩
  · have hnamed : ¬ set.ownIds.has (utf16 id) = true := by
      rw [own.has_iff]
      rintro ⟨file, -, hfile⟩
      exact hforeign file hfile
    refine ⟨iff_of_false ?_ hnamed, fun hor => ?_⟩
    · rw [own.has_iff]
      rintro ⟨file, hfile, rfl⟩
      exact hids file hfile (idDelimiter_infix_append own.isMarkUnit hdelimiter)
    · rcases hor with h | h
      · exact absurd h hnamed
      · exact absurd hmessage h

/-- `escape_debug` on ASCII: a control character without a letter is written as its code point. -/
def asciiEscapeDebug (s : List Char) : Str := s.flatMap fun c =>
  match debugLetter c with
  | some d => [0x5C, d]
  | none =>
    if c.toNat < 0x20 ∨ c.toNat = 0x7F then 0x5C :: 0x75 :: 0x7B :: (hexadecimal c.toNat ++ [0x7D]) else units c

theorem asciiEscapeDebug_escapes : EscapesDebug asciiEscapeDebug := by
  intro s
  induction s with
  | nil => exact .nil
  | cons c s ih =>
    refine .cons ?_ ih
    dsimp only
    split
    · rename_i d hd
      exact .letter d hd
    · rename_i hnone
      split
      · rename_i hcontrol
        refine .codePoint hnone fun u hu => ?_
        rw [units, if_pos (by omega), List.mem_singleton] at hu
        subst hu
        rcases hcontrol with hlt | hdelete
        · have hall : ∀ n < 0x20, UInt16.ofNat n ≠ 0x40 ∧ isHexDigit (UInt16.ofNat n) = false := by decide
          exact hall _ hlt
        · rw [hdelete]
          decide
      · exact .itself hnone

/-- An error of this load's policy names it, whatever its message repeats. -/
theorem errors_name_policies_permit : ∃ set,
    loadHttp (js "http://localhost:8180") (fun _ => .ok ()) permitSource = .ok set ∧
    ErrorsNamePolicies asciiEscapeDebug permitSource set ∧
    erroringPolicy (.str (js "error while evaluating policy `10-permit@02e91050ebf7521a`: no a@02e91050ebf7521a`: here"))
      set.ownMark = some (js "10-permit@02e91050ebf7521a") := by
  obtain ⟨set, hload, hnamed⟩ : ∃ set,
      loadHttp (js "http://localhost:8180") (fun _ => .ok ()) permitSource = .ok set ∧
      erroringPolicy (.str (js "error while evaluating policy `10-permit@02e91050ebf7521a`: no a@02e91050ebf7521a`: here"))
        set.ownMark = some (js "10-permit@02e91050ebf7521a") := ⟨_, rfl, by rfl⟩
  have hids : ownFileIds permitSource = [js "10-permit"] := by rfl
  refine ⟨set, hload, errors_name_policies (js "http://localhost:8180") (fun _ => .ok ()) permitSource set
    asciiEscapeDebug asciiEscapeDebug_escapes hload (fun id hid => ?_), hnamed⟩
  rw [hids, List.mem_singleton] at hid
  rw [hid]
  decide

end PolicyVerifier.Cedar
