import Mathlib.Data.List.OfFn
import PolicyVerifier.Cedar.PolicySource
import PolicyVerifier.Js.Proofs.Utf8Proofs
import PolicyVerifier.Lib.Framing

/-!
# What a revision tells

A name and a text are each framed by the length of their UTF-8, so the bytes the digest is taken of are read
back in one way: they tell every name and every text, in order. Digest collisions aside, so does the revision.
-/

namespace PolicyVerifier.Cedar

open Js Json

/-- What the revision covers of a file. -/
def PolicyFile.content (file : PolicyFile) : Str × Str := (file.name, file.text)

/-- The name and the text of a file are well-formed strings. -/
structure PolicyFile.WellFormed (file : PolicyFile) : Prop where
  name : isWellFormed file.name = true
  text : isWellFormed file.text = true

/-! ## Netstrings -/

/-- The bytes of a length in decimal. -/
def numeralBytes (n : ℕ) : List UInt8 := utf8Bytes (decimal n)

theorem digit_bounds {c : UInt16} (h : isDigit c = true) : 0x30 ≤ c.toNat ∧ c.toNat ≤ 0x39 := by
  simpa [isDigit, UInt16.le_iff_toNat_le] using h

theorem decimal_ascii (n : ℕ) : ∀ c ∈ decimal n, c.toNat < 0x80 := by
  intro c hc
  have := digit_bounds (isDigit_decimal n c hc)
  omega

theorem numerals : Framing.Numerals numeralBytes 0x3A where
  injective m n h := by
    have hwell : ∀ n, isWellFormed (decimal n) = true := fun n => isWellFormed_ascii (decimal_ascii n)
    exact decimal_injective ((utf8Bytes_inj (hwell m) (hwell n)).1 h)
  ends n := by
    rw [numeralBytes, utf8Bytes_ascii (decimal_ascii n), List.mem_map]
    rintro ⟨c, hc, hcolon⟩
    have hdigit := digit_bounds (isDigit_decimal n c hc)
    have hnat : (UInt8.ofNat c.toNat).toNat = 0x3A := by rw [hcolon]; rfl
    rw [TextDecoder.toNat_ofNat_of_lt (by omega)] at hnat
    omega

theorem utf8Bytes_netstring_append (value rest : Str) :
    utf8Bytes (netstring value ++ rest) = utf8Bytes (netstring value) ++ utf8Bytes rest :=
  utf8Bytes_cut_after (by decide)

/-- A netstring is a frame around the bytes of its value. -/
theorem utf8Bytes_netstring (value : Str) :
    utf8Bytes (netstring value) = Framing.frame numeralBytes 0x3A 0x2C (utf8Bytes value) := by
  have hparts : netstring value = decimal (utf8Length value) ++ [0x3A] ++ (value ++ [0x2C]) := by
    simp [netstring, js, units]
  rw [hparts, utf8Bytes_cut_after (by decide), utf8Bytes_cut_before (by decide), utf8Bytes_cut_before (by decide)]
  simp [Framing.frame, numeralBytes, utf8Length, utf8Bytes, utf8Bytes.alone, utf8Point, isHighSurrogate,
    isLowSurrogate]

/-! ## The bytes of a set -/

/-- The parts a list of files is written as. -/
def revisionParts (contents : List (Str × Str)) : List (List UInt8) :=
  contents.flatMap fun content => [utf8Bytes content.1, utf8Bytes content.2]

theorem revisionPreimage_eq (files : List PolicyFile) : revisionPreimage files =
    utf8Bytes revisionPreimageHeader ++
      (revisionParts (files.map PolicyFile.content)).flatMap (Framing.frame numeralBytes 0x3A 0x2C) := by
  rw [revisionPreimage, revisionUpdates, List.flatMap_cons, revisionParts, List.flatMap_assoc, List.flatMap_assoc,
    List.flatMap_map]
  congr 1
  refine List.flatMap_congr fun file _ => ?_
  simp [PolicyFile.content, utf8Bytes_netstring]

theorem revisionParts_inj {contents contents' : List (Str × Str)}
    (h : ∀ content ∈ contents, isWellFormed content.1 = true ∧ isWellFormed content.2 = true)
    (h' : ∀ content ∈ contents', isWellFormed content.1 = true ∧ isWellFormed content.2 = true) :
    revisionParts contents = revisionParts contents' ↔ contents = contents' := by
  refine ⟨fun heq => ?_, congrArg _⟩
  induction contents generalizing contents' with
  | nil =>
    cases contents' with
    | nil => rfl
    | cons content' contents' => exact absurd heq (by simp [revisionParts])
  | cons content contents ih =>
    cases contents' with
    | nil => exact absurd heq (by simp [revisionParts])
    | cons content' contents' =>
      rw [List.forall_mem_cons] at h h'
      simp only [revisionParts, List.flatMap_cons, List.cons_append, List.nil_append, List.cons.injEq] at heq
      obtain ⟨hname, htext, hrest⟩ := heq
      rw [utf8Bytes_inj h.1.1 h'.1.1] at hname
      rw [utf8Bytes_inj h.1.2 h'.1.2] at htext
      rw [ih h.2 h'.2 hrest, Prod.ext hname htext]

section

variable {files files' : List PolicyFile}

theorem wellFormed_contents (h : ∀ file ∈ files, file.WellFormed) :
    ∀ content ∈ files.map PolicyFile.content,
      isWellFormed content.1 = true ∧ isWellFormed content.2 = true := by
  intro content hcontent
  obtain ⟨file, hfile, rfl⟩ := List.mem_map.1 hcontent
  exact ⟨(h file hfile).name, (h file hfile).text⟩

theorem revisionPreimage_inj (h : ∀ file ∈ files, file.WellFormed) (h' : ∀ file ∈ files', file.WellFormed) :
    revisionPreimage files = revisionPreimage files' ↔
      files.map PolicyFile.content = files'.map PolicyFile.content := by
  rw [revisionPreimage_eq, revisionPreimage_eq, List.append_right_inj, Framing.flatMap_frame_inj numerals,
    revisionParts_inj (wellFormed_contents h) (wellFormed_contents h')]

end

/-! ## The revision -/

/-- No update cuts a surrogate pair, so the digest of the whole string is the digest of the updates. -/
theorem utf8Bytes_revisionString (files : List PolicyFile) :
    utf8Bytes (revisionPreimageHeader ++
        files.flatMap fun file => netstring file.name ++ netstring file.text) = revisionPreimage files := by
  have hfiles : utf8Bytes (files.flatMap fun file => netstring file.name ++ netstring file.text) =
      (files.flatMap fun file => [netstring file.name, netstring file.text]).flatMap utf8Bytes := by
    induction files with
    | nil => rfl
    | cons file files ih =>
      rw [List.flatMap_cons, List.append_assoc, utf8Bytes_netstring_append, utf8Bytes_netstring_append, ih]
      simp
  have hheader : ∃ front, revisionPreimageHeader = front ++ [0x0A] :=
    ⟨js "auth.policy-verifier.cedar/policy-set/v1", by decide⟩
  obtain ⟨front, hfront⟩ := hheader
  rw [revisionPreimage, revisionUpdates, List.flatMap_cons, ← hfiles, hfront, utf8Bytes_cut_after (by decide)]

theorem computePolicyRevision_eq (digest : List UInt8 → Digest) (files : List PolicyFile) :
    computePolicyRevision (fun s => digest (utf8Bytes s)) files =
      js "sha256:" ++ (digest (revisionPreimage files)).hex := by
  rw [computePolicyRevision, utf8Bytes_revisionString]

theorem Digest.hex_injective : Function.Injective Digest.hex := by
  intro d d' h
  have hdigit : Function.Injective fun n : Fin 16 => hexDigit n := fun m n heq => Fin.ext <| calc
    (m : ℕ) = hexValue (hexDigit m) := (hexValue_hexDigit m m.isLt).symm
    _ = hexValue (hexDigit n) := congrArg hexValue heq
    _ = n := hexValue_hexDigit n n.isLt
  exact List.ofFn_injective (List.map_injective_iff.2 hdigit h)

/-- For every two lists of files of well-formed names and texts: the bytes the revisions are computed from are
the same exactly where the names and the texts are, in order; so are the revisions, where the digest does not
collide on the two. -/
theorem revision_names_the_set (files files' : List PolicyFile) (h : ∀ file ∈ files, file.WellFormed)
    (h' : ∀ file ∈ files', file.WellFormed) :
    (revisionPreimage files = revisionPreimage files' ↔
        files.map PolicyFile.content = files'.map PolicyFile.content) ∧
      ∀ digest : List UInt8 → Digest,
        (digest (revisionPreimage files) = digest (revisionPreimage files') →
          revisionPreimage files = revisionPreimage files') →
        (computePolicyRevision (fun s => digest (utf8Bytes s)) files =
            computePolicyRevision (fun s => digest (utf8Bytes s)) files' ↔
          files.map PolicyFile.content = files'.map PolicyFile.content) := by
  have hbytes := revisionPreimage_inj h h'
  refine ⟨hbytes, fun digest hcollides => ?_⟩
  rw [computePolicyRevision_eq, computePolicyRevision_eq, List.append_right_inj, Digest.hex_injective.eq_iff,
    ← hbytes]
  exact ⟨hcollides, congrArg digest⟩

/-- Two sets of one concatenated text, the boundary moved by a newline. -/
theorem revision_names_the_set_boundary :
    let file (name text : String) : PolicyFile := { name := js name, source := js name, text := js text }
    let one := [file "a.cedar" "X\n", file "b.cedar" "Y"]
    let other := [file "a.cedar" "X", file "b.cedar" "\nY"]
    one.flatMap PolicyFile.text = other.flatMap PolicyFile.text ∧
      revisionPreimage one ≠ revisionPreimage other := by
  intro file one other
  have hwell : ∀ file ∈ one ++ other, file.WellFormed := by
    intro file hfile
    simp only [one, other, List.mem_append, List.mem_cons, List.not_mem_nil, or_false] at hfile
    rcases hfile with (rfl | rfl) | rfl | rfl <;> exact ⟨by decide, by decide⟩
  have hbytes := (revision_names_the_set one other (fun file hfile => hwell file (List.mem_append_left _ hfile))
    fun file hfile => hwell file (List.mem_append_right _ hfile)).1
  refine ⟨by decide, fun heq => absurd (hbytes.1 heq) (by decide)⟩

end PolicyVerifier.Cedar
