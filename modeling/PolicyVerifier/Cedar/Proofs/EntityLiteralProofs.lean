import PolicyVerifier.Cedar.EntityLiteral
import PolicyVerifier.Js.Proofs.TextProofs

/-!
# What is written is the reference that is read

An entity reference the engine writes is read back as the entity it was written for, whatever text
follows it. The type path holds no quote, so the first quote of a reference opens the id; and the inside
of the id's literal is undone one code unit of the id at a time.
-/

namespace PolicyVerifier.Cedar

open Js

/-! ## Type paths -/

/-- An identifier is letters and digits, so it holds neither of the characters that end it. -/
theorem isIdentifier_plain {ident : Str} (h : isIdentifier ident = true) {c : UInt16}
    (hc : c = 0x3A ∨ c = 0x22) : c ∉ ident := by
  intro hmem
  have hletter : isIdentifier.isLetter c = false ∧ (decide (0x30 ≤ c) && decide (c ≤ 0x39)) = false := by
    rcases hc with rfl | rfl <;> decide
  cases ident with
  | nil => exact absurd hmem List.not_mem_nil
  | cons d s =>
    simp only [isIdentifier, Bool.and_eq_true, List.all_eq_true] at h
    obtain ⟨hd, hs⟩ := h
    rcases List.mem_cons.1 hmem with rfl | hmem
    · exact absurd hd (by simp [hletter.1])
    · have := hs c hmem
      rw [hletter.1, hletter.2] at this
      exact absurd this (by decide)

/-- The parts of a text, joined again, are the text. -/
theorem join_splitPath (part s : Str) :
    splitPath part s ≠ [] ∧ join (js "::") (splitPath part s) = part ++ s := by
  induction part, s using splitPath.induct with
  | case1 part => simp [splitPath, join]
  | case2 part c => simp [splitPath, join]
  | case3 part c d s hcolons ih =>
    obtain ⟨hne, hjoin⟩ := ih
    obtain ⟨rfl, rfl⟩ := hcolons
    rw [splitPath, if_pos ⟨rfl, rfl⟩]
    refine ⟨List.cons_ne_nil _ _, ?_⟩
    unfold join at hjoin ⊢
    rw [List.intercalate_cons_of_ne_nil hne, hjoin]
    simp [js, units]
  | case4 part c d s hcolons ih =>
    obtain ⟨hne, hjoin⟩ := ih
    rw [splitPath, if_neg hcolons]
    exact ⟨hne, by simpa using hjoin⟩

/-- A text without a colon is one part. -/
theorem splitPath_plain {s : Str} (h : (0x3A : UInt16) ∉ s) (part : Str) :
    splitPath part s = [part ++ s] := by
  induction part, s using splitPath.induct with
  | case1 part => simp [splitPath]
  | case2 part c => simp [splitPath]
  | case3 part c d s hcolons ih => exact absurd (by simp [hcolons.1]) h
  | case4 part c d s hcolons ih =>
    rw [splitPath, if_neg hcolons, ih fun hs => h (List.mem_cons_of_mem c hs)]
    simp

/-- The first part ends at the first two colons. -/
theorem splitPath_colons {s : Str} (h : (0x3A : UInt16) ∉ s) (part t : Str) :
    splitPath part (s ++ js "::" ++ t) = (part ++ s) :: splitPath [] t := by
  induction s generalizing part with
  | nil => simp [js, units, splitPath]
  | cons c s ih =>
    have hc : c ≠ 0x3A := fun hc => h (by simp [hc])
    have hs := ih (fun hs => h (List.mem_cons_of_mem c hs)) (part ++ [c])
    -- the text after `c` is not empty, so the equation of the last case applies
    obtain ⟨d, u, hu⟩ : ∃ d u, s ++ js "::" ++ t = d :: u := by
      cases s with
      | nil => exact ⟨_, _, rfl⟩
      | cons d s => exact ⟨d, _, rfl⟩
    rw [List.cons_append, List.cons_append, hu, splitPath, if_neg fun hcolons => hc hcolons.1, ← hu, hs]
    simp

theorem splitPath_join {idents : List Str} (hne : idents ≠ [])
    (h : ∀ ident ∈ idents, (0x3A : UInt16) ∉ ident) : splitPath [] (join (js "::") idents) = idents := by
  unfold join
  induction idents with
  | nil => exact absurd rfl hne
  | cons ident idents ih =>
    have hident := h ident (List.mem_cons_self ..)
    rcases eq_or_ne idents [] with rfl | hrest
    · simpa using splitPath_plain hident []
    · have htail := ih hrest fun i hi => h i (List.mem_cons_of_mem ident hi)
      rw [List.intercalate_cons_of_ne_nil hrest, splitPath_colons hident, htail, List.nil_append]

/-- What the pattern of a type accepts is a path of identifiers. -/
theorem isTypePath_iff {type : Str} : isTypePath type = true ↔ TypePath type := by
  unfold isTypePath TypePath
  rw [List.all_eq_true]
  constructor
  · intro h
    obtain ⟨hne, hjoin⟩ := join_splitPath [] type
    exact ⟨splitPath [] type, hne, h, by simpa using hjoin.symm⟩
  · rintro ⟨idents, hne, hall, rfl⟩
    rw [splitPath_join hne fun ident hident => isIdentifier_plain (hall ident hident) (.inl rfl)]
    exact hall

theorem TypePath.quote_not_mem {type : Str} (h : TypePath type) : (0x22 : UInt16) ∉ type := by
  obtain ⟨idents, -, hall, rfl⟩ := h
  unfold join
  intro hmem
  induction idents with
  | nil => exact absurd hmem (by simp)
  | cons ident idents ih =>
    have hident := isIdentifier_plain (hall ident (List.mem_cons_self ..)) (.inr rfl)
    rcases eq_or_ne idents [] with rfl | hrest
    · exact hident (by simpa using hmem)
    · rw [List.intercalate_cons_of_ne_nil hrest, List.mem_append, List.mem_append] at hmem
      rcases hmem with (hmem | hmem) | hmem
      · exact hident hmem
      · exact absurd hmem (by decide)
      · exact ih (fun i hi => hall i (List.mem_cons_of_mem ident hi)) hmem

/-! ## The inside of a literal -/

/-- What a code unit of an id is written as: a letter after a backslash, its code point, or itself. -/
inductive LiteralWriting (c : UInt16) : Str → Prop
  | letter (d : UInt16) (has : debugEscape d = some c) (plain : ¬ IsControl d) : LiteralWriting c [0x5C, d]
  | codePoint (control : IsControl c) :
      LiteralWriting c (0x5C :: 0x75 :: 0x7B :: (hexadecimal c.toNat ++ [0x7D]))
  | itself (backslash : c ≠ 0x5C) (quote : c ≠ 0x22) (plain : ¬ IsControl c) : LiteralWriting c [c]

/-- The text an id is written as, code unit by code unit. -/
inductive LiteralWritten : Str → Str → Prop
  | nil : LiteralWritten [] []
  | cons {c : UInt16} {id piece inside : Str} (head : LiteralWriting c piece)
      (tail : LiteralWritten id inside) : LiteralWritten (c :: id) (piece ++ inside)

instance (c : UInt16) : Decidable (IsControl c) := inferInstanceAs (Decidable (_ ∨ _))

/-- A literal is a written id between two quotes. -/
theorem cedarStringLiteral_written (id : Str) :
    ∃ inside, cedarStringLiteral id = 0x22 :: (inside ++ [0x22]) ∧ LiteralWritten id inside := by
  have hquote : js "\"" = [0x22] := by decide
  unfold cedarStringLiteral
  rw [hquote, List.singleton_append, List.cons_append]
  refine ⟨_, rfl, ?_⟩
  induction id with
  | nil => exact .nil
  | cons c id ih =>
    refine .cons ?_ ih
    dsimp only
    split_ifs with h₁ h₂ h₃ h₄ h₅ h₆ h₇
    · exact h₁ ▸ .letter 0x5C (by decide) (by decide)
    · exact h₂ ▸ .letter 0x22 (by decide) (by decide)
    · exact h₃ ▸ .letter 0x6E (by decide) (by decide)
    · exact h₄ ▸ .letter 0x72 (by decide) (by decide)
    · exact h₅ ▸ .letter 0x74 (by decide) (by decide)
    · exact h₆ ▸ .letter 0x30 (by decide) (by decide)
    · exact .codePoint h₇
    · exact .itself h₁ h₂ h₇

theorem lowerHexDigit_of_isHexDigit {c : UInt16} (h : isHexDigit c = true) : lowerHexDigit c = c := by
  simp only [isHexDigit, Bool.or_eq_true, Bool.and_eq_true, decide_eq_true_eq, UInt16.le_iff_toNat_le] at h
  rw [lowerHexDigit, if_neg]
  simp only [UInt16.le_iff_toNat_le]
  simp only [UInt16.toNat_ofNat] at h ⊢
  omega

/-- A hexadecimal digit is no control character, and neither a quote nor a backslash. -/
theorem isHexDigit_plain {c : UInt16} (h : isHexDigit c = true) : ¬ IsControl c ∧ c ≠ 0x22 ∧ c ≠ 0x5C := by
  simp only [isHexDigit, Bool.or_eq_true, Bool.and_eq_true, decide_eq_true_eq, UInt16.le_iff_toNat_le] at h
  unfold IsControl
  simp only [UInt16.lt_iff_toNat_lt, ← UInt16.toNat_inj, ne_eq]
  simp only [UInt16.toNat_ofNat] at h ⊢
  omega

/-- The digits of a number are read up to the brace that ends them. -/
theorem hexDigitsOf_hexadecimal (n : Nat) (t : Str) : hexDigitsOf (hexadecimal n ++ 0x7D :: t) = hexadecimal n := by
  have hsame : (hexadecimal n).map lowerHexDigit = hexadecimal n :=
    (List.map_congr_left fun c hc => lowerHexDigit_of_isHexDigit (isHexDigit_hexadecimal n c hc)).trans
      (List.map_id _)
  rw [hexDigitsOf, List.map_append, hsame, List.takeWhile_append_of_pos (isHexDigit_hexadecimal n)]
  simp [show isHexDigit (lowerHexDigit 0x7D) = false by decide]

/-- The code units of an escape that is already read are passed over. -/
theorem unescapeCedarFrom_skip (s t : Str) : unescapeCedarFrom s.length (s ++ t) = unescapeCedarFrom 0 t := by
  induction s with
  | nil => rfl
  | cons c s ih =>
    rw [List.cons_append, List.length_cons, unescapeCedarFrom, if_pos (Nat.succ_pos s.length)]
    exact ih

/-- One code unit is undone, and the text after it is left to be undone. -/
theorem LiteralWriting.undone {c : UInt16} {piece : Str} (h : LiteralWriting c piece) (t : Str) :
    unescapeCedarFrom 0 (piece ++ t) = (unescapeCedarFrom 0 t).map (c :: ·) := by
  cases h with
  | letter d has plain =>
    have hu : d ≠ 0x75 ∧ d ≠ 0x78 := by
      constructor
      · rintro rfl
        simp [debugEscape] at has
      · rintro rfl
        simp [debugEscape] at has
    have hescape : cedarEscape (d :: t) = some ([c], 1) := by
      unfold cedarEscape
      split
      · rename_i heq
        exact absurd (List.cons.inj heq).1 hu.1
      · rename_i heq
        exact absurd (List.cons.inj heq).1 hu.2
      · rename_i heq
        obtain ⟨rfl, -⟩ := List.cons.inj heq
        rw [has, Option.map_some]
      · rename_i heq
        exact absurd heq (by simp)
    have hskip : unescapeCedarFrom 1 (d :: t) = unescapeCedarFrom 0 t := unescapeCedarFrom_skip [d] t
    rw [List.cons_append, List.cons_append, List.nil_append, unescapeCedarFrom, if_neg (Nat.lt_irrefl 0),
      if_pos rfl, hescape]
    simp only [hskip, List.singleton_append]
  | codePoint control =>
    have hsmall : c.toNat ≤ 0x7F := by
      rcases control with h | rfl
      · have : c.toNat < 0x20 := UInt16.lt_iff_toNat_lt.1 h
        omega
      · decide
    have hpos := length_hexadecimal_pos c.toNat
    have hle : (hexadecimal c.toNat).length ≤ 6 := length_hexadecimal_le (by omega) (by omega)
    have hescape : cedarEscape (0x75 :: 0x7B :: (hexadecimal c.toNat ++ 0x7D :: t)) =
        some ([c], (hexadecimal c.toNat).length + 3) := by
      have hone : fromCodePoint c.toNat = [c] := by
        rw [fromCodePoint, if_pos (by omega), UInt16.ofNat_toNat]
      rw [cedarEscape]
      simp only [hexDigitsOf_hexadecimal, parseHex_hexadecimal, List.drop_left, List.head?_cons, hone]
      rw [if_pos ⟨hpos, hle, trivial, by omega, by omega⟩]
    have hskip := unescapeCedarFrom_skip (0x75 :: 0x7B :: (hexadecimal c.toNat ++ [0x7D])) t
    simp only [List.length_cons, List.length_append, List.length_nil, List.cons_append, List.append_assoc,
      List.nil_append] at hskip
    simp only [List.cons_append, List.append_assoc, List.nil_append]
    rw [unescapeCedarFrom, if_neg (Nat.lt_irrefl 0), if_pos rfl, hescape]
    simp only [hskip, List.singleton_append]
  | itself backslash quote plain =>
    have hreturn : c ≠ 0x0D := by
      rintro rfl
      exact plain (.inl (by decide))
    rw [List.singleton_append, unescapeCedarFrom, if_neg (Nat.lt_irrefl 0), if_neg backslash,
      if_neg (by simp [quote, hreturn])]

/-- What an id is written as stands for the id. -/
theorem LiteralWritten.undone {id inside : Str} (h : LiteralWritten id inside) :
    unescapeCedar inside = some id := by
  unfold unescapeCedar
  induction h with
  | nil => rfl
  | cons head tail ih => rw [head.undone, ih, Option.map_some]

/-- What is neither a quote nor a backslash stands inside a literal. -/
theorem insideOfLiteral_plain {s : Str} (h : ∀ c ∈ s, c ≠ 0x22 ∧ c ≠ 0x5C) (t : Str) :
    insideOfLiteral (s ++ t) = (insideOfLiteral t).map fun read => (s ++ read.1, read.2) := by
  induction s with
  | nil => simp
  | cons c s ih =>
    obtain ⟨hquote, hbackslash⟩ := h c (List.mem_cons_self ..)
    have hs := ih fun d hd => h d (List.mem_cons_of_mem c hd)
    rw [List.cons_append]
    cases hrest : s ++ t with
    | nil =>
      obtain ⟨rfl, rfl⟩ := List.append_eq_nil_iff.1 hrest
      simp [insideOfLiteral, hquote]
    | cons d u =>
      rw [insideOfLiteral, if_neg hquote, if_neg hbackslash, ← hrest, hs, Option.map_map]
      rfl

/-- A written code unit does not end the literal. -/
theorem LiteralWriting.stays {c : UInt16} {piece : Str} (h : LiteralWriting c piece) (t : Str) :
    insideOfLiteral (piece ++ t) = (insideOfLiteral t).map fun read => (piece ++ read.1, read.2) := by
  have hback : ∀ (d : UInt16) (s : Str), insideOfLiteral (0x5C :: d :: s) =
      (insideOfLiteral s).map fun read => (0x5C :: d :: read.1, read.2) := by
    intro d s
    rw [insideOfLiteral, if_neg (by decide), if_pos rfl]
  cases h with
  | letter d has plain => exact hback d t
  | codePoint control =>
    have hplain : ∀ d ∈ 0x7B :: (hexadecimal c.toNat ++ [0x7D]), d ≠ 0x22 ∧ d ≠ 0x5C := by
      intro d hd
      rcases List.mem_cons.1 hd with rfl | hd
      · decide
      rcases List.mem_append.1 hd with hd | hd
      · exact (isHexDigit_plain (isHexDigit_hexadecimal _ d hd)).2
      · obtain rfl := List.mem_singleton.1 hd
        decide
    rw [List.cons_append, List.cons_append, hback, insideOfLiteral_plain hplain, Option.map_map]
    rfl
  | itself backslash quote plain =>
    exact insideOfLiteral_plain (s := [c]) (by simpa using ⟨quote, backslash⟩) t

/-- The literal ends at its closing quote, whatever follows it. -/
theorem LiteralWritten.ends {id inside : Str} (h : LiteralWritten id inside) (rest : Str) :
    insideOfLiteral (inside ++ 0x22 :: rest) = some (inside, rest) := by
  induction h with
  | nil =>
    cases rest with
    | nil => rfl
    | cons d rest => rw [List.nil_append, insideOfLiteral, if_pos rfl]
  | cons head tail ih => rw [List.append_assoc, head.stays, ih, Option.map_some]

theorem LiteralWriting.plain {c : UInt16} {piece : Str} (h : LiteralWriting c piece) :
    ∀ d ∈ piece, ¬ IsControl d := by
  intro d hd
  cases h with
  | letter e has plain =>
    simp only [List.mem_cons, List.not_mem_nil, or_false] at hd
    rcases hd with rfl | rfl
    · decide
    · exact plain
  | codePoint control =>
    simp only [List.mem_cons, List.mem_append, List.not_mem_nil, or_false] at hd
    rcases hd with rfl | rfl | rfl | hd | rfl
    · decide
    · decide
    · decide
    · exact (isHexDigit_plain (isHexDigit_hexadecimal _ d hd)).1
    · decide
  | itself backslash quote plain =>
    obtain rfl := List.mem_singleton.1 hd
    exact plain

theorem LiteralWritten.plain {id inside : Str} (h : LiteralWritten id inside) :
    ∀ d ∈ inside, ¬ IsControl d := by
  induction h with
  | nil => simp
  | cons head tail ih =>
    intro d hd
    rcases List.mem_append.1 hd with hd | hd
    · exact head.plain d hd
    · exact ih d hd

/-! ## The reference -/

/-- What a reference is to the program that reads it. -/
structure ReferenceTo (uid : CedarEntityUid) (literal : Str) : Prop where
  /-- It is the type, then the id's literal: without a control character, ended by no quote before its
  closing one, and standing for the id. -/
  quoted : ∃ inside, literal = uid.type ++ js "::" ++ js "\"" ++ inside ++ js "\"" ∧
    (∀ c ∈ inside, ¬ IsControl c) ∧
    (∀ rest, insideOfLiteral (inside ++ js "\"" ++ rest) = some (inside, rest)) ∧
    unescapeCedar inside = some uid.id
  /-- Whatever stands after it, it is read as the entity. -/
  read : ∀ rest, readEntityUid (literal ++ rest) = some (uid, rest)
  /-- And no other entity is written so, whatever stands after either. -/
  injective : ∀ other literal', entityUidLiteral other = .ok literal' →
    ∀ rest rest', literal ++ rest = literal' ++ rest' → other = uid ∧ rest' = rest

/-- A written reference is read back, and the text after it is left. -/
theorem readEntityUid_written {uid : CedarEntityUid} {inside : Str} (htype : TypePath uid.type)
    (h : LiteralWritten uid.id inside) (rest : Str) :
    readEntityUid (uid.type ++ js "::" ++ 0x22 :: (inside ++ [0x22]) ++ rest) = some (uid, rest) := by
  have hpath : (uid.type ++ js "::" ++ 0x22 :: (inside ++ [0x22]) ++ rest).takeWhile (· ≠ 0x22) =
      uid.type ++ js "::" := by
    rw [List.append_assoc, List.takeWhile_append_of_pos]
    · simp
    · intro c hc
      have hne : c ≠ 0x22 := by
        rintro rfl
        rcases List.mem_append.1 hc with hc | hc
        · exact htype.quote_not_mem hc
        · exact absurd hc (by decide)
      simpa using hne
  have htwo : (uid.type ++ js "::").length - 2 = uid.type.length := by simp [js, units]
  have hinside : (uid.type ++ js "::" ++ 0x22 :: (inside ++ [0x22]) ++ rest).drop
      ((uid.type ++ js "::").length + 1) = inside ++ 0x22 :: rest := by
    rw [List.append_assoc, ← List.drop_drop, List.drop_left]
    simp
  unfold readEntityUid
  simp only [hpath, htwo, hinside, List.drop_left, List.take_left, isTypePath_iff.2 htype, h.ends, and_self,
    if_true, Option.bind_eq_bind, Option.bind_some, h.undone]
  rfl

/-- A reference is written for the entities whose type is a path, and is theirs alone. -/
theorem entityUidLiteral_refers (uid : CedarEntityUid) :
    ((∃ thrown, entityUidLiteral uid = .error thrown) ↔ ¬ TypePath uid.type) ∧
      ∀ literal, entityUidLiteral uid = .ok literal → ReferenceTo uid literal := by
  have hok : ∀ (uid : CedarEntityUid) literal, entityUidLiteral uid = .ok literal → TypePath uid.type ∧
      ∃ inside, LiteralWritten uid.id inside ∧ literal = uid.type ++ js "::" ++ 0x22 :: (inside ++ [0x22]) := by
    intro uid literal h
    obtain ⟨inside, hliteral, hwritten⟩ := cedarStringLiteral_written uid.id
    unfold entityUidLiteral cedarEngineError at h
    split at h
    · rename_i htype
      exact ⟨isTypePath_iff.1 htype, inside, hwritten, by rw [← hliteral]; exact (Except.ok.inj h).symm⟩
    · exact absurd h (by simp)
  refine ⟨?_, fun literal h => ?_⟩
  · rw [← isTypePath_iff]
    unfold entityUidLiteral cedarEngineError
    split <;> simp_all
  · obtain ⟨htype, inside, hwritten, rfl⟩ := hok uid literal h
    have hquote : js "\"" = [0x22] := by decide
    refine ⟨⟨inside, ?_, hwritten.plain, fun rest => ?_, hwritten.undone⟩,
      readEntityUid_written htype hwritten, ?_⟩
    · rw [hquote]
      simp
    · rw [hquote, List.append_assoc]
      exact hwritten.ends rest
    · intro other literal' h' rest rest' hsame
      obtain ⟨htype', inside', hwritten', rfl⟩ := hok other literal' h'
      have hread := readEntityUid_written htype hwritten rest
      rw [hsame, readEntityUid_written htype' hwritten' rest'] at hread
      simpa using hread

end PolicyVerifier.Cedar
