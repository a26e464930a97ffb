import PolicyVerifier.Cedar.CedarJson
import PolicyVerifier.Js.Proofs.JsonProofs

/-!
# `canonical` decides Cedar equality

Two values are written alike exactly when Cedar holds them equal: an array is a set at every level,
an entity reference its uid, an integer its value. The text of a value ends where it ends, whatever
stands after it in the array it is an item of, so no text can be taken apart in two ways.
-/

namespace PolicyVerifier.Cedar

open Js Json

namespace CedarValue

mutual

/-- Cedar's equality: of two arrays, that each item of one equals some item of the other. -/
def Same : CedarValue → CedarValue → Prop
  | .bool a, .bool b => a = b
  | .num m, .num n => m.toInt = n.toInt
  | .str s, .str t => s = t
  | .entity p, .entity q => p = q
  | .arr xs, .arr ys => AllFound xs ys ∧ ∀ y ∈ ys, Found xs y
  | _, _ => False

/-- Every item equals one of `ys`. -/
def AllFound : List CedarValue → List CedarValue → Prop
  | [], _ => True
  | x :: xs, ys => (∃ y ∈ ys, Same x y) ∧ AllFound xs ys

/-- Some item equals `y`. -/
def Found : List CedarValue → CedarValue → Prop
  | [], _ => False
  | x :: xs, y => Same x y ∨ Found xs y

end

theorem allFound_iff {xs ys : List CedarValue} : AllFound xs ys ↔ ∀ x ∈ xs, ∃ y ∈ ys, Same x y := by
  induction xs with
  | nil => simp [AllFound]
  | cons x xs ih => simp [AllFound, ih]

theorem found_iff {xs : List CedarValue} {y : CedarValue} : Found xs y ↔ ∃ x ∈ xs, Same x y := by
  induction xs with
  | nil => simp [Found]
  | cons x xs ih => simp [Found, ih]

theorem same_arr {xs ys : List CedarValue} : Same (.arr xs) (.arr ys) ↔
    (∀ x ∈ xs, ∃ y ∈ ys, Same x y) ∧ ∀ y ∈ ys, ∃ x ∈ xs, Same x y := by
  simp [Same, allFound_iff, found_iff]

/-- Induction over a value, with the hypothesis for every item of an array. -/
@[elab_as_elim]
theorem items_induction {motive : CedarValue → Prop}
    (bool : ∀ b, motive (.bool b)) (num : ∀ n, motive (.num n)) (str : ∀ s, motive (.str s))
    (arr : ∀ items, (∀ v ∈ items, motive v) → motive (.arr items))
    (entity : ∀ uid, motive (.entity uid)) (v : CedarValue) : motive v :=
  CedarValue.rec (motive_1 := motive) (motive_2 := fun items => ∀ v ∈ items, motive v)
    bool num str arr entity (by simp) (fun v vs hv hvs => by simpa using ⟨hv, hvs⟩) v

end CedarValue

/-! ## Uids -/

theorem uidKey_append_inj {p q : CedarEntityUid} {u v : Str} (h : uidKey p ++ u = uidKey q ++ v) :
    p = q ∧ u = v := by
  have hopen : quote p.type ++ (js "," ++ (quote p.id ++ (js "]" ++ u))) =
      quote q.type ++ (js "," ++ (quote q.id ++ (js "]" ++ v))) := by
    simpa [uidKey] using h
  obtain ⟨htype, hcomma⟩ := quote_append_inj hopen
  obtain ⟨hid, hclose⟩ := quote_append_inj (List.append_cancel_left hcomma)
  refine ⟨?_, List.append_cancel_left hclose⟩
  cases p
  cases q
  obtain rfl := htype
  obtain rfl := hid
  rfl

/-- Two uids have one key exactly when they are one uid. -/
theorem uidKey_inj {p q : CedarEntityUid} : uidKey p = uidKey q ↔ p = q := by
  refine ⟨fun h => ?_, fun h => h ▸ rfl⟩
  exact (uidKey_append_inj (u := []) (v := []) (by rw [h])).1

/-! ## Where the text of a value ends -/

/-- `,`. -/
def comma : UInt16 := 0x2C

/-- `]`. -/
def closing : UInt16 := 0x5D

/-- What may follow the text of a value. -/
def EndsValue (text : Str) : Prop := ∀ c ∈ text.head?, c = comma ∨ c = closing

theorem EndsValue.endsNumber {text : Str} (h : EndsValue text) : EndsNumber text := by
  intro c hc
  obtain rfl | rfl := h c hc
  · rfl
  · rfl

/-- The code units the text of a value may begin with. -/
def Leads : CedarValue → UInt16 → Prop
  | .arr _, c => c = 0x5B
  | .entity _, c => c = 0x65
  | .str _, c => c = quotationMark
  | .bool true, c => c = 0x74
  | .bool false, c => c = 0x66
  | .num _, c => isDigit c = true ∨ c = 0x2D

theorem canonical_leads (a : CedarValue) : ∃ c s, canonical a = c :: s ∧ Leads a c := by
  cases a with
  | arr items => exact ⟨_, _, rfl, rfl⟩
  | entity uid => exact ⟨_, _, rfl, rfl⟩
  | str s => exact ⟨_, _, rfl, rfl⟩
  | bool b => cases b <;> exact ⟨_, _, rfl, rfl⟩
  | num n =>
    rw [canonical]
    cases n.toInt with
    | ofNat k =>
      obtain ⟨c, s, hcs, hc⟩ := head_decimal k
      exact ⟨c, s, hcs, Or.inl hc⟩
    | negSucc k => exact ⟨_, _, rfl, Or.inr rfl⟩

theorem leads_not_closing {a : CedarValue} : ¬ Leads a closing := by
  cases a with
  | bool b => cases b <;> simp [Leads, closing]
  | num n => simp [Leads, closing, isDigit]
  | _ => simp [Leads, closing, quotationMark]

/-- Whatever follows it, the text ends where it ends: no value is written otherwise. -/
def Unambiguous (s : Str) : Prop :=
  ∀ (b : CedarValue) (u v : Str), EndsValue u → EndsValue v → s ++ u = canonical b ++ v →
    s = canonical b ∧ u = v

/-- The texts of the items of an array, and the text after the array. -/
def itemsText (items : List Str) (text : Str) : Str := join [comma] items ++ closing :: text

/-- The text after the first item of an array. -/
def afterItem (items : List Str) (text : Str) : Str :=
  if items = [] then closing :: text else comma :: itemsText items text

theorem itemsText_cons (s : Str) (items : List Str) (text : Str) :
    itemsText (s :: items) text = s ++ afterItem items text := by
  cases items with
  | nil => simp [itemsText, afterItem, join]
  | cons t items => simp [itemsText, afterItem, join, List.intercalate_cons_cons]

theorem endsValue_afterItem (items : List Str) (text : Str) : EndsValue (afterItem items text) := by
  intro c hc
  unfold afterItem at hc
  split at hc
  · obtain rfl := Option.some.inj hc
    exact Or.inr rfl
  · obtain rfl := Option.some.inj hc
    exact Or.inl rfl

/-- The text of an array's items can be taken apart in one way only. -/
theorem itemsText_inj {xs ys : List Str} {u v : Str} (hxs : ∀ s ∈ xs, Unambiguous s)
    (hvalues : ∀ s ∈ xs, ∃ a, s = canonical a) (hys : ∀ t ∈ ys, ∃ b, t = canonical b)
    (h : itemsText xs u = itemsText ys v) : xs = ys ∧ u = v := by
  induction xs generalizing ys with
  | nil =>
    cases ys with
    | nil => exact ⟨rfl, (List.cons.inj h).2⟩
    | cons t ys =>
      obtain ⟨b, rfl⟩ := hys t (by simp)
      obtain ⟨c, s, hcs, hc⟩ := canonical_leads b
      rw [itemsText_cons, hcs] at h
      obtain ⟨rfl, -⟩ := List.cons.inj h
      exact absurd hc leads_not_closing
  | cons s xs ih =>
    cases ys with
    | nil =>
      obtain ⟨a, rfl⟩ := hvalues s (by simp)
      obtain ⟨c, s, hcs, hc⟩ := canonical_leads a
      rw [itemsText_cons, hcs] at h
      obtain ⟨rfl, -⟩ := List.cons.inj h
      exact absurd hc leads_not_closing
    | cons t ys =>
      obtain ⟨b, rfl⟩ := hys t (by simp)
      rw [itemsText_cons, itemsText_cons] at h
      obtain ⟨rfl, hafter⟩ :=
        hxs s (by simp) b _ _ (endsValue_afterItem xs u) (endsValue_afterItem ys v) h
      unfold afterItem at hafter
      split at hafter
      · rename_i hxsnil
        split at hafter
        · rename_i hysnil
          subst hxsnil hysnil
          exact ⟨rfl, (List.cons.inj hafter).2⟩
        · exact absurd (List.cons.inj hafter).1 (by decide)
      · split at hafter
        · exact absurd (List.cons.inj hafter).1 (by decide)
        · obtain ⟨rfl, rfl⟩ := ih (fun s hs => hxs s (List.mem_cons_of_mem _ hs))
            (fun s hs => hvalues s (List.mem_cons_of_mem _ hs))
            (fun t ht => hys t (List.mem_cons_of_mem _ ht)) (List.cons.inj hafter).2
          exact ⟨rfl, rfl⟩

theorem canonicals_eq_map (items : List CedarValue) : canonicals items = items.map canonical := by
  induction items with
  | nil => rfl
  | cons v items ih => rw [canonicals, ih, List.map_cons]

/-- The texts an array is written from: its items', each once, in order. -/
def itemTexts (items : List CedarValue) : List Str := sort (canonicals items).eraseDups

theorem mem_itemTexts {items : List CedarValue} {s : Str} :
    s ∈ itemTexts items ↔ ∃ v ∈ items, canonical v = s := by
  simp [itemTexts, canonicals_eq_map]

theorem canonical_arr_append (items : List CedarValue) (text : Str) :
    canonical (.arr items) ++ text = 0x5B :: itemsText (itemTexts items) text := by
  have hcomma : js "," = [comma] := rfl
  have hclose : js "]" = [closing] := rfl
  have hopen : js "[" = [0x5B] := rfl
  simp [canonical, itemsText, itemTexts, hcomma, hclose, hopen]

theorem canonical_arr_congr {xs ys : List CedarValue} (h : itemTexts xs = itemTexts ys) :
    canonical (.arr xs) = canonical (.arr ys) := by
  rw [← List.append_nil (canonical (.arr xs)), canonical_arr_append, h, ← canonical_arr_append,
    List.append_nil]

theorem itemTexts_inj {xs ys : List CedarValue} {u v : Str}
    (hxs : ∀ x ∈ xs, Unambiguous (canonical x))
    (h : canonical (.arr xs) ++ u = canonical (.arr ys) ++ v) :
    itemTexts xs = itemTexts ys ∧ u = v := by
  rw [canonical_arr_append, canonical_arr_append] at h
  refine itemsText_inj ?_ ?_ ?_ (List.cons.inj h).2
  · intro s hs
    obtain ⟨x, hx, rfl⟩ := mem_itemTexts.1 hs
    exact hxs x hx
  · intro s hs
    obtain ⟨x, -, rfl⟩ := mem_itemTexts.1 hs
    exact ⟨x, rfl⟩
  · intro t ht
    obtain ⟨y, -, rfl⟩ := mem_itemTexts.1 ht
    exact ⟨y, rfl⟩

/-- What a value is: an array, a reference, a string, an integer, or one of the two booleans. -/
inductive Kind where
  | arr
  | entity
  | str
  | num
  | bool (b : Bool)

/-- The kind of a value. -/
def kind : CedarValue → Kind
  | .arr _ => .arr
  | .entity _ => .entity
  | .str _ => .str
  | .num _ => .num
  | .bool b => .bool b

/-- The kind of value a text that begins so is read as. -/
def kindOfLead (c : UInt16) : Kind :=
  if c = 0x5B then .arr
  else if c = 0x65 then .entity
  else if c = quotationMark then .str
  else if c = 0x74 then .bool true
  else if c = 0x66 then .bool false
  else .num

theorem kind_of_leads {a : CedarValue} {c : UInt16} (h : Leads a c) : kind a = kindOfLead c := by
  cases a with
  | arr items => obtain rfl : c = _ := h; rfl
  | entity uid => obtain rfl : c = _ := h; rfl
  | str s => obtain rfl : c = _ := h; rfl
  | bool b => cases b <;> obtain rfl : c = _ := h <;> rfl
  | num n =>
    have hother : ∀ d : UInt16, ¬ (isDigit d = true ∨ d = 0x2D) → c ≠ d := by
      rintro d hd rfl
      exact hd h
    rw [kindOfLead, if_neg (hother _ (by decide)), if_neg (hother _ (by decide)),
      if_neg (hother _ (by decide)), if_neg (hother _ (by decide)), if_neg (hother _ (by decide))]
    rfl

/-- Two values whose texts agree on what they begin with are of one kind. -/
theorem kind_eq {a b : CedarValue} {u v : Str} (h : canonical a ++ u = canonical b ++ v) :
    kind a = kind b := by
  obtain ⟨c, s, hcs, hc⟩ := canonical_leads a
  obtain ⟨d, t, hdt, hd⟩ := canonical_leads b
  rw [hcs, hdt] at h
  obtain ⟨rfl, -⟩ := List.cons.inj h
  rw [kind_of_leads hc, kind_of_leads hd]

/-- No value's text is ambiguous. -/
theorem canonical_unambiguous (a : CedarValue) : Unambiguous (canonical a) := by
  induction a using CedarValue.items_induction with
  | bool x =>
    intro b u v _ _ h
    have hkind := kind_eq h
    cases b with
    | bool y =>
      obtain rfl := Kind.bool.inj hkind
      exact ⟨rfl, List.append_cancel_left h⟩
    | _ => exact absurd hkind (by simp [kind])
  | num m =>
    intro b u v hu hv h
    have hkind := kind_eq h
    cases b with
    | num n =>
      obtain ⟨hmn, huv⟩ := integer_append_inj hu.endsNumber hv.endsNumber h
      exact ⟨congrArg integer hmn, huv⟩
    | _ => exact absurd hkind (by simp [kind])
  | str s =>
    intro b u v _ _ h
    have hkind := kind_eq h
    cases b with
    | str t =>
      obtain ⟨rfl, huv⟩ := quote_append_inj h
      exact ⟨rfl, huv⟩
    | _ => exact absurd hkind (by simp [kind])
  | arr xs ih =>
    intro b u v _ _ h
    have hkind := kind_eq h
    cases b with
    | arr ys =>
      obtain ⟨htexts, huv⟩ := itemTexts_inj ih h
      exact ⟨canonical_arr_congr htexts, huv⟩
    | _ => exact absurd hkind (by simp [kind])
  | entity p =>
    intro b u v _ _ h
    have hkind := kind_eq h
    cases b with
    | entity q =>
      simp only [canonical, List.append_assoc] at h
      obtain ⟨rfl, huv⟩ := uidKey_append_inj (List.append_cancel_left h)
      exact ⟨rfl, huv⟩
    | _ => exact absurd hkind (by simp [kind])

theorem kind_of_canonical_eq {a b : CedarValue} (h : canonical a = canonical b) : kind a = kind b :=
  kind_eq (u := []) (v := []) (by rw [h])

/-- Two arrays are written alike exactly when the same texts stand in both. -/
theorem canonical_arr_eq_iff {xs ys : List CedarValue} :
    canonical (.arr xs) = canonical (.arr ys) ↔
      ∀ s, (∃ x ∈ xs, canonical x = s) ↔ ∃ y ∈ ys, canonical y = s := by
  have htexts : canonical (.arr xs) = canonical (.arr ys) ↔ itemTexts xs = itemTexts ys :=
    ⟨fun h => (itemTexts_inj (fun x _ => canonical_unambiguous x) (congrArg (· ++ []) h)).1,
      canonical_arr_congr⟩
  rw [htexts, itemTexts, itemTexts, sort_eraseDups_eq_iff]
  simp only [canonicals_eq_map, List.mem_map]

/-- Two values are written alike exactly when Cedar holds them equal. -/
theorem canonical_eq_iff (a b : CedarValue) : canonical a = canonical b ↔ a.Same b := by
  induction a using CedarValue.items_induction generalizing b with
  | bool x =>
    cases b with
    | bool y =>
      refine ⟨fun h => Kind.bool.inj (kind_of_canonical_eq h), fun h => ?_⟩
      obtain rfl : x = y := h
      rfl
    | _ => exact ⟨fun h => absurd (kind_of_canonical_eq h) (by simp [kind]), False.elim⟩
  | num m =>
    cases b with
    | num n =>
      refine ⟨fun h => ?_, fun h => congrArg integer h⟩
      exact (integer_append_inj (u := []) (v := []) (by simp [EndsNumber]) (by simp [EndsNumber])
        (congrArg (· ++ []) h)).1
    | _ => exact ⟨fun h => absurd (kind_of_canonical_eq h) (by simp [kind]), False.elim⟩
  | str s =>
    cases b with
    | str t => exact ⟨quote_injective, congrArg quote⟩
    | _ => exact ⟨fun h => absurd (kind_of_canonical_eq h) (by simp [kind]), False.elim⟩
  | entity p =>
    cases b with
    | entity q =>
      refine ⟨fun h => uidKey_inj.1 (List.append_cancel_left h), fun h => ?_⟩
      obtain rfl : p = q := h
      rfl
    | _ => exact ⟨fun h => absurd (kind_of_canonical_eq h) (by simp [kind]), False.elim⟩
  | arr xs ih =>
    cases b with
    | arr ys =>
      rw [canonical_arr_eq_iff, CedarValue.same_arr]
      constructor
      · intro h
        refine ⟨fun x hx => ?_, fun y hy => ?_⟩
        · obtain ⟨y, hy, hxy⟩ := (h (canonical x)).1 ⟨x, hx, rfl⟩
          exact ⟨y, hy, (ih x hx y).1 hxy.symm⟩
        · obtain ⟨x, hx, hxy⟩ := (h (canonical y)).2 ⟨y, hy, rfl⟩
          exact ⟨x, hx, (ih x hx y).1 hxy⟩
      · rintro ⟨hleft, hright⟩ s
        constructor
        · rintro ⟨x, hx, rfl⟩
          obtain ⟨y, hy, hxy⟩ := hleft x hx
          exact ⟨y, hy, ((ih x hx y).2 hxy).symm⟩
        · rintro ⟨y, hy, rfl⟩
          obtain ⟨x, hx, hxy⟩ := hright y hy
          exact ⟨x, hx, (ih x hx y).2 hxy⟩
    | _ => exact ⟨fun h => absurd (kind_of_canonical_eq h) (by simp [kind]), False.elim⟩

/-- A text for every value that is the same for two exactly when Cedar holds them equal. -/
structure DecidesEquality (text : CedarValue → Str) : Prop where
  same : ∀ a b, text a = text b ↔ a.Same b
  /-- An array is a set at every level: two hold the same items, up to Cedar's equality. -/
  arrays : ∀ xs ys, text (.arr xs) = text (.arr ys) ↔
    (∀ x ∈ xs, ∃ y ∈ ys, x.Same y) ∧ ∀ y ∈ ys, ∃ x ∈ xs, x.Same y
  /-- Neither order nor repetition counts. -/
  sets : ∀ xs ys, (∀ v, v ∈ xs ↔ v ∈ ys) → text (.arr xs) = text (.arr ys)
  entities : ∀ p q, text (.entity p) = text (.entity q) ↔ p.type = q.type ∧ p.id = q.id
  integers : ∀ m n, text (.num m) = text (.num n) ↔ m.toInt = n.toInt
  strings : ∀ s t, text (.str s) = text (.str t) ↔ s = t
  /-- A string is only ever another string, whatever it spells. -/
  apart : ∀ s b, text (.str s) = text b → ∃ t, b = .str t
  equivalence : Equivalence CedarValue.Same

/-- `canonical` writes two values alike exactly when Cedar holds them equal. -/
theorem canonical_decides_equality : DecidesEquality canonical := by
  have hsame := canonical_eq_iff
  refine ⟨hsame, fun xs ys => ?_, fun xs ys h => ?_, fun p q => ?_, fun m n => hsame _ _,
    fun s t => hsame _ _, fun s b h => ?_, ⟨fun a => ?_, fun {a b} h => ?_, fun {a b c} hab hbc => ?_⟩⟩
  · rw [hsame, CedarValue.same_arr]
  · rw [canonical_arr_eq_iff]
    simp only [h, implies_true]
  · obtain ⟨type, id⟩ := p
    obtain ⟨type', id'⟩ := q
    rw [hsame]
    simp [CedarValue.Same]
  · cases b with
    | str t => exact ⟨t, rfl⟩
    | _ => exact absurd (kind_of_canonical_eq h) (by simp [kind])
  · exact (hsame a a).1 rfl
  · exact (hsame b a).1 ((hsame a b).2 h).symm
  · exact (hsame a c).1 (((hsame a b).2 hab).trans ((hsame b c).2 hbc))

end PolicyVerifier.Cedar
