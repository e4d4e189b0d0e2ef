import Mathlib
import PaletteBitmap.Proofs.Trimming

/-!
# Which texts are colors

A color text is meant to have three, six or eight hexadecimal digits (`Hexadecimal`).  The groups of
two in the longer forms are read as numbers, though, and a number may have a plus sign in front.  So
a text is read as well if plus signs stand in the place of first digits of a group (`Signed`).  All
other texts are refused, for their length if they are not three, six or eight ASCII characters
(`Sized`), and for a digit otherwise.
-/

namespace PaletteBitmap

namespace Color

variable {c d : Char} {body : List Char}

/-! ## Grammar -/

def IsHexDigit (c : Char) : Prop :=
  ('0' ≤ c ∧ c ≤ '9') ∨ ('a' ≤ c ∧ c ≤ 'f') ∨ ('A' ≤ c ∧ c ≤ 'F')

instance : DecidablePred IsHexDigit := fun _ => inferInstanceAs (Decidable (_ ∨ _))

/-- Three, six or eight ASCII characters. -/
def Sized (body : List Char) : Prop := (∀ c ∈ body, c.toNat < 128) ∧ body.length ∈ [3, 6, 8]

/-- Three, six or eight hexadecimal digits. -/
def Hexadecimal (body : List Char) : Prop :=
  body.length ∈ [3, 6, 8] ∧ ∀ c ∈ body, IsHexDigit c

/-- Six or eight characters that are hexadecimal digits, but for plus signs in the places of some
first digits of a group of two. -/
def Signed (body : List Char) : Prop :=
  body.length ∈ [6, 8] ∧ '+' ∈ body ∧
    ∀ p ∈ body.zipIdx, IsHexDigit p.1 ∨ p.2 % 2 = 0 ∧ p.1 = '+'

/-- Three, six or eight characters, each of which may stand in its place. -/
def Readable (body : List Char) : Prop :=
  body.length ∈ [3, 6, 8] ∧
    ∀ p ∈ body.zipIdx, IsHexDigit p.1 ∨ body.length ≠ 3 ∧ p.2 % 2 = 0 ∧ p.1 = '+'

theorem not_isHexDigit_plus : ¬ IsHexDigit '+' := by decide

theorem readable_iff : Readable body ↔ Hexadecimal body ∨ Signed body := by
  constructor
  · rintro ⟨hlen, hplaces⟩
    by_cases hplus : '+' ∈ body
    · -- A plus sign is no digit, so its place says that there are not three characters.
      rcases List.mem_iff_getElem?.1 hplus with ⟨i, hi⟩
      have hlong : body.length ≠ 3 := by
        rcases hplaces ('+', i) (List.mem_zipIdx_iff_getElem?.2 hi) with hdigit | hsign
        · exact absurd hdigit not_isHexDigit_plus
        · exact hsign.1
      exact .inr ⟨(List.mem_cons.1 hlen).resolve_left hlong, hplus,
        fun p hp => (hplaces p hp).imp_right And.right⟩
    · refine .inl ⟨hlen, fun c hc => ?_⟩
      rcases List.mem_iff_getElem?.1 hc with ⟨i, hi⟩
      rcases hplaces (c, i) (List.mem_zipIdx_iff_getElem?.2 hi) with hdigit | ⟨-, -, rfl⟩
      · exact hdigit
      · exact absurd hc hplus
  · rintro (⟨hlen, hdigits⟩ | ⟨hlen, -, hplaces⟩)
    · exact ⟨hlen, fun p hp => .inl (hdigits p.1 (List.fst_mem_of_mem_zipIdx hp))⟩
    · have hne : body.length ≠ 3 := by
        intro h
        simp [h] at hlen
      exact ⟨List.mem_cons_of_mem 3 hlen, fun p hp => (hplaces p hp).imp_right fun h => ⟨hne, h⟩⟩

theorem IsHexDigit.toNat_within (h : IsHexDigit c) : (48 ≤ c.toNat ∧ c.toNat ≤ 57) ∨
    (97 ≤ c.toNat ∧ c.toNat ≤ 102) ∨ (65 ≤ c.toNat ∧ c.toNat ≤ 70) := h

theorem IsHexDigit.toNat_lt (h : IsHexDigit c) : c.toNat < 128 := by
  have hwithin := h.toNat_within
  omega

theorem Readable.sized (h : Readable body) : Sized body := by
  refine ⟨fun c hc => ?_, h.1⟩
  rcases List.mem_iff_getElem?.1 hc with ⟨i, hi⟩
  rcases h.2 (c, i) (List.mem_zipIdx_iff_getElem?.2 hi) with hdigit | ⟨-, -, rfl⟩
  · exact hdigit.toNat_lt
  · decide

/-! ## Groups -/

theorem exists_digitValue?_iff : (∃ v, digitValue? c = some v) ↔ IsHexDigit c := by
  rw [digitValue?, IsHexDigit]
  split_ifs with hdecimal hsmall hcapital
  · exact ⟨fun _ => .inl hdecimal, fun _ => ⟨_, rfl⟩⟩
  · exact ⟨fun _ => .inr (.inl hsmall), fun _ => ⟨_, rfl⟩⟩
  · exact ⟨fun _ => .inr (.inr hcapital), fun _ => ⟨_, rfl⟩⟩
  · simp [hdecimal, hsmall, hcapital]

theorem digitValue?_eq_none_iff : digitValue? c = none ↔ ¬ IsHexDigit c := by
  rw [← exists_digitValue?_iff, ← Option.isSome_iff_exists, Bool.not_eq_true,
    Option.isSome_eq_false_iff, Option.isNone_iff_eq_none]

/-- A reading gives a value where `P` holds, and finds a wrong digit where it does not. -/
def ReadsIff {α : Type} (P : Prop) (reading : Except HexError α) : Prop :=
  (P ∧ ∃ v, reading = .ok v) ∨ (¬ P ∧ reading = .error .digit)

section ReadsIff

variable {α β : Type} {P Q : Prop} {reading : Except HexError α}

theorem ReadsIff.bind {next : α → Except HexError β} (h : ReadsIff P reading)
    (hnext : ∀ v, ReadsIff Q (next v)) : ReadsIff (P ∧ Q) (reading >>= next) := by
  rcases h with ⟨hP, v, rfl⟩ | ⟨hP, rfl⟩
  · rcases hnext v with ⟨hQ, hw⟩ | ⟨hQ, herror⟩
    · exact .inl ⟨⟨hP, hQ⟩, hw⟩
    · exact .inr ⟨fun h => hQ h.2, herror⟩
  · exact .inr ⟨fun h => hP h.1, rfl⟩

/-- Where nothing more is read, nothing more can be wrong. -/
theorem ReadsIff.map (f : α → β) (h : ReadsIff P reading) :
    ReadsIff P (reading >>= fun v => pure (f v)) := by
  rcases h with ⟨hP, v, rfl⟩ | ⟨hP, rfl⟩
  · exact .inl ⟨hP, f v, rfl⟩
  · exact .inr ⟨hP, rfl⟩

end ReadsIff

theorem readSingle_readsIff (c : Char) : ReadsIff (IsHexDigit c) (readSingle c) := by
  rw [readSingle]
  cases hc : digitValue? c with
  | some v => exact .inl ⟨exists_digitValue?_iff.1 ⟨v, hc⟩, _, rfl⟩
  | none => exact .inr ⟨digitValue?_eq_none_iff.1 hc, rfl⟩

/-- A group of two that is read as a number. -/
def IsPair (c d : Char) : Prop := (IsHexDigit c ∨ c = '+') ∧ IsHexDigit d

theorem readPair_readsIff (c d : Char) : ReadsIff (IsPair c d) (readPair c d) := by
  rw [readPair]
  cases hd : digitValue? d with
  | none => exact .inr ⟨fun h => digitValue?_eq_none_iff.1 hd h.2, rfl⟩
  | some low =>
      have hlow := exists_digitValue?_iff.1 ⟨low, hd⟩
      dsimp only
      split_ifs with hplus
      · exact .inl ⟨⟨.inr hplus, hlow⟩, _, rfl⟩
      · cases hc : digitValue? c with
        | some high => exact .inl ⟨⟨.inl (exists_digitValue?_iff.1 ⟨high, hc⟩), hlow⟩, _, rfl⟩
        | none => exact .inr ⟨fun h => h.1.elim (digitValue?_eq_none_iff.1 hc) hplus, rfl⟩

/-! ## Whole texts -/

theorem readBody_of_not_sized (h : ¬ Sized body) : readBody body = .error .length := by
  rw [readBody.eq_def]
  split
  · rfl
  · next hascii =>
    have hsmall : ∀ c ∈ body, c.toNat < 128 := by simpa using hascii
    split
    · exact absurd ⟨hsmall, by simp⟩ h
    · exact absurd ⟨hsmall, by simp⟩ h
    · exact absurd ⟨hsmall, by simp⟩ h
    · rfl

theorem readBody_readsIff (h : Sized body) : ReadsIff (Readable body) (readBody body) := by
  have hascii : body.any (fun c => decide (128 ≤ c.toNat)) = false := by simpa using h.1
  have hlen : body.length = 3 ∨ body.length = 6 ∨ body.length = 8 := by simpa using h.2
  -- The characters are named, so that what may stand in each place is said group by group.
  rw [readBody.eq_def, hascii]
  rcases hlen with hlen | hlen | hlen
  · match body, hlen with
    | [r, g, b], _ =>
        have hplaces : Readable [r, g, b] ↔ IsHexDigit r ∧ IsHexDigit g ∧ IsHexDigit b := by
          simp [Readable, List.zipIdx]
        rw [hplaces]
        exact (readSingle_readsIff r).bind fun _ => (readSingle_readsIff g).bind fun _ =>
          (readSingle_readsIff b).map _
  · match body, hlen with
    | [r₁, r₂, g₁, g₂, b₁, b₂], _ =>
        have hplaces : Readable [r₁, r₂, g₁, g₂, b₁, b₂] ↔
            IsPair r₁ r₂ ∧ IsPair g₁ g₂ ∧ IsPair b₁ b₂ := by
          simp [Readable, IsPair, List.zipIdx, and_assoc]
        rw [hplaces]
        exact (readPair_readsIff r₁ r₂).bind fun _ => (readPair_readsIff g₁ g₂).bind fun _ =>
          (readPair_readsIff b₁ b₂).map _
  · match body, hlen with
    | [r₁, r₂, g₁, g₂, b₁, b₂, a₁, a₂], _ =>
        have hplaces : Readable [r₁, r₂, g₁, g₂, b₁, b₂, a₁, a₂] ↔
            IsPair r₁ r₂ ∧ IsPair g₁ g₂ ∧ IsPair b₁ b₂ ∧ IsPair a₁ a₂ := by
          simp [Readable, IsPair, List.zipIdx, and_assoc]
        rw [hplaces]
        exact (readPair_readsIff r₁ r₂).bind fun _ => (readPair_readsIff g₁ g₂).bind fun _ =>
          (readPair_readsIff b₁ b₂).bind fun _ => (readPair_readsIff a₁ a₂).map _

end Color

/-! ## Main statement -/

open Color

/-- Every text carries one row of digits, and what becomes of it is told by them.  It is a color if
they are three, six or eight hexadecimal digits, or six or eight with a plus sign for some of the
first digits of the groups.  It has a wrong digit if they are as many ASCII characters but not such,
and has the wrong length in all other cases. -/
theorem Rgba.ofText_decided_by_digits (s : String) :
    ∃ body, (∀ other, Carries s.toList other ↔ other = body) ∧
      ((∃ c, Rgba.ofText s = .ok c) ↔ Hexadecimal body ∨ Signed body) ∧
      (Rgba.ofText s = .error .digit ↔ Sized body ∧ ¬ (Hexadecimal body ∨ Signed body)) ∧
      (Rgba.ofText s = .error .length ↔ ¬ Sized body) := by
  refine ⟨hexBody s.toList, fun _ => carries_iff, ?_⟩
  rw [← readable_iff, Rgba.ofText]
  generalize hexBody s.toList = body
  by_cases hsized : Sized body
  · rcases readBody_readsIff hsized with ⟨hreadable, c, hc⟩ | ⟨hreadable, herror⟩
    · simp [hc, hsized, hreadable]
    · simp [herror, hsized, hreadable]
  · have hunreadable : ¬ Readable body := fun h => hsized h.sized
    simp [readBody_of_not_sized hsized, hsized, hunreadable]

/-- Plus signs are no hexadecimal digits, and yet this text is read as a color. -/
theorem Rgba.plus_signs_read :
    (∀ other, Carries "+F+F+F".toList other ↔ other = ['+', 'F', '+', 'F', '+', 'F']) ∧
      ¬ Hexadecimal ['+', 'F', '+', 'F', '+', 'F'] ∧
      Rgba.ofText "+F+F+F" = .ok (Rgba.solid 15 15 15) :=
  ⟨fun _ => carries_iff, fun h => not_isHexDigit_plus (h.2 '+' (by simp)), by cbv⟩

end PaletteBitmap
