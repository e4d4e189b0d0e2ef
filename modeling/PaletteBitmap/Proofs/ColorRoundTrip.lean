import Mathlib
import PaletteBitmap.Proofs.ColorGrammar

/-!
# Color texts read back

The digits of a color (`Rgba.Digits`) are read back as that color, however a text spells them
(`Color.Spells`): letters may be of either case, a number sign may stand in front, and blank
characters may stand around.  The text that a color is shown by is one of the spellings.

A digit is read by its value alone, which its case does not change.  So the proof compares the
values of the characters with the halves of the channels and forgets the characters themselves.
-/

namespace PaletteBitmap

/-- The rows of digits that stand for a color.  All colors have eight digits; colors that hide what
is behind them have six as well, and three where the two digits of every channel are the same. -/
inductive Rgba.Digits : Rgba → List Char → Prop where
  | full (c : Rgba) : Digits c (c.toBytes.flatMap Color.hexByte)
  | solid (r g b : UInt8) : Digits (Rgba.solid r g b) ([r, g, b].flatMap Color.hexByte)
  | single {r g b : Nat} (hr : r < 16) (hg : g < 16) (hb : b < 16) :
      Digits (Rgba.solid (.ofNat (17 * r)) (.ofNat (17 * g)) (.ofNat (17 * b)))
        [Color.hexDigit r, Color.hexDigit g, Color.hexDigit b]

namespace Color

/-- A text has these digits, with letters of any case, between blanks and behind one number sign or
behind none. -/
def Spells (s : String) (digits : List Char) : Prop :=
  ∃ before mark body after, s.toList = before ++ (mark ++ body) ++ after ∧
    Text.Blank before ∧ Text.Blank after ∧ mark ∈ [[], ['#']] ∧
    body.map Text.lower = digits.map Text.lower

variable {c d : Char} {body digits : List Char}

/-! ## Values of digits -/

theorem digitValue?_hexDigit {n : Nat} (h : n < 16) : digitValue? (hexDigit n) = some n := by
  interval_cases n <;> rfl

/-- A capital letter and the small one have the same value. -/
theorem digitValue?_lower (c : Char) : digitValue? (Text.lower c) = digitValue? c := by
  rw [Text.lower]
  split
  · next hcapital =>
    have hlow : 65 ≤ c.toNat := UInt32.le_iff_toNat_le.1 hcapital.1
    have hhigh : c.toNat ≤ 90 := UInt32.le_iff_toNat_le.1 hcapital.2
    -- The letters behind F have no value in either case.
    rw [← Char.ofNat_toNat c]
    generalize c.toNat = n at hlow hhigh
    interval_cases n <;> rfl
  · rfl

/-- The values of the two digits of a byte. -/
def halves (v : UInt8) : List Nat := [v.toNat / 16, v.toNat % 16]

theorem map_digitValue?_hexByte (bytes : List UInt8) :
    (bytes.flatMap hexByte).map digitValue? = (bytes.flatMap halves).map some := by
  induction bytes with
  | nil => rfl
  | cons v bytes ih =>
      have hhigh : v.toNat / 16 < 16 := by
        have := v.toNat_lt
        omega
      have hlow : v.toNat % 16 < 16 := Nat.mod_lt _ (by decide)
      have hbyte : (hexByte v).map digitValue? = (halves v).map some := by
        simp [hexByte, halves, digitValue?_hexDigit hhigh, digitValue?_hexDigit hlow]
      rw [List.flatMap_cons, List.flatMap_cons, List.map_append, List.map_append, ih, hbyte]

theorem map_digitValue?_of_lower (h : body.map Text.lower = digits.map Text.lower) :
    body.map digitValue? = digits.map digitValue? := by
  have hlower : digitValue? ∘ Text.lower = digitValue? := funext digitValue?_lower
  rw [← hlower, ← List.map_map, ← List.map_map, h]

section Values

variable {values : List Nat} (h : body.map digitValue? = values.map some)
include h

theorem isHexDigit_of_mem (hc : c ∈ body) : IsHexDigit c := by
  have hvalue : digitValue? c ∈ values.map some := h ▸ List.mem_map_of_mem hc
  rcases List.mem_map.1 hvalue with ⟨v, -, hv⟩
  exact exists_digitValue?_iff.1 ⟨v, hv.symm⟩

theorem any_not_ascii_eq_false : body.any (fun c => decide (128 ≤ c.toNat)) = false := by
  simpa using fun c hc => (isHexDigit_of_mem h hc).toNat_lt

end Values

/-! ## Reading -/

theorem readSingle_of_value {n : Nat} (hc : digitValue? c = some n) :
    readSingle c = .ok (UInt8.ofNat (17 * n)) := by
  rw [readSingle, hc, Nat.mul_comm]

theorem readPair_of_halves {v : UInt8} (hc : digitValue? c = some (v.toNat / 16))
    (hd : digitValue? d = some (v.toNat % 16)) : readPair c d = .ok v := by
  have hplus : c ≠ '+' := by
    rintro rfl
    exact not_isHexDigit_plus (exists_digitValue?_iff.1 ⟨_, hc⟩)
  have hv : v.toNat / 16 * 16 + v.toNat % 16 = v.toNat := Nat.div_add_mod' _ _
  simp [readPair, hc, hd, hplus, hv]

theorem readBody_single {r g b : Nat} (h : body.map digitValue? = [r, g, b].map some) :
    readBody body = .ok (Rgba.solid (.ofNat (17 * r)) (.ofNat (17 * g)) (.ofNat (17 * b))) := by
  have hascii := any_not_ascii_eq_false h
  simp only [List.map_cons, List.map_nil, List.map_eq_cons_iff, List.map_eq_nil_iff] at h
  rcases h with ⟨c₁, _, rfl, hr, c₂, _, rfl, hg, c₃, _, rfl, hb, rfl⟩
  rw [readBody.eq_def, hascii]
  simp only [readSingle_of_value hr, readSingle_of_value hg, readSingle_of_value hb]
  rfl

theorem readBody_solid {r g b : UInt8}
    (h : body.map digitValue? = ([r, g, b].flatMap halves).map some) :
    readBody body = .ok (Rgba.solid r g b) := by
  have hascii := any_not_ascii_eq_false h
  simp only [halves, List.flatMap_cons, List.flatMap_nil, List.cons_append, List.nil_append,
    List.map_cons, List.map_nil, List.map_eq_cons_iff, List.map_eq_nil_iff] at h
  rcases h with ⟨c₁, _, rfl, hr₁, c₂, _, rfl, hr₂, c₃, _, rfl, hg₁, c₄, _, rfl, hg₂, c₅, _, rfl,
    hb₁, c₆, _, rfl, hb₂, rfl⟩
  rw [readBody.eq_def, hascii]
  simp only [readPair_of_halves hr₁ hr₂, readPair_of_halves hg₁ hg₂, readPair_of_halves hb₁ hb₂]
  rfl

theorem readBody_full {r g b a : UInt8}
    (h : body.map digitValue? = ([r, g, b, a].flatMap halves).map some) :
    readBody body = .ok ⟨r, g, b, a⟩ := by
  have hascii := any_not_ascii_eq_false h
  simp only [halves, List.flatMap_cons, List.flatMap_nil, List.cons_append, List.nil_append,
    List.map_cons, List.map_nil, List.map_eq_cons_iff, List.map_eq_nil_iff] at h
  rcases h with ⟨c₁, _, rfl, hr₁, c₂, _, rfl, hr₂, c₃, _, rfl, hg₁, c₄, _, rfl, hg₂, c₅, _, rfl,
    hb₁, c₆, _, rfl, hb₂, c₇, _, rfl, ha₁, c₈, _, rfl, ha₂, rfl⟩
  rw [readBody.eq_def, hascii]
  simp only [readPair_of_halves hr₁ hr₂, readPair_of_halves hg₁ hg₂, readPair_of_halves hb₁ hb₂,
    readPair_of_halves ha₁ ha₂]
  rfl

/-- The digits of a color have values, and whatever has these values is read as the color. -/
theorem exists_values {c : Rgba} (h : c.Digits digits) :
    ∃ values : List Nat, digits.map digitValue? = values.map some ∧
      ∀ body, body.map digitValue? = values.map some → readBody body = .ok c := by
  cases h with
  | full => exact ⟨_, map_digitValue?_hexByte _, fun _ => readBody_full⟩
  | solid r g b => exact ⟨_, map_digitValue?_hexByte _, fun _ => readBody_solid⟩
  | @single r g b hr hg hb =>
      refine ⟨[r, g, b], ?_, fun _ => readBody_single⟩
      simp [digitValue?_hexDigit hr, digitValue?_hexDigit hg, digitValue?_hexDigit hb]

/-! ## Spelling -/

theorem IsHexDigit.isBlank_eq_false (h : IsHexDigit c) : Text.isBlank c = false := by
  have hwithin := h.toNat_within
  simp only [Text.isBlank, Bool.or_eq_false_iff, Bool.and_eq_false_iff, decide_eq_false_iff_not,
    beq_eq_false_iff_ne]
  omega

/-- Hexadecimal digits are carried as they stand: they are not blank, and no number sign. -/
theorem carries_of_isHexDigit {before mark after : List Char} (hbefore : Text.Blank before)
    (hafter : Text.Blank after) (hmark : mark ∈ [[], ['#']]) (hbody : ∀ c ∈ body, IsHexDigit c) :
    Carries (before ++ (mark ++ body) ++ after) body := by
  have hcore : ∀ c ∈ mark ++ body, Text.isBlank c = false := by
    intro c hc
    rcases List.mem_append.1 hc with hc | hc
    · have hsign : c = '#' := by
        rcases List.mem_pair.1 hmark with rfl | rfl
        · cases hc
        · exact List.mem_singleton.1 hc
      rw [hsign]
      decide
    · exact (hbody c hc).isBlank_eq_false
  refine ⟨mark ++ body, ⟨⟨before, after, hbefore, hafter, rfl⟩, ?_, ?_⟩, ?_⟩
  · exact fun c hc => hcore c (List.mem_of_head? hc)
  · exact fun c hc => hcore c (List.mem_of_getLast? hc)
  · rcases List.mem_pair.1 hmark with rfl | rfl
    · refine .inr ⟨rfl, ?_⟩
      intro hhead
      exact absurd (hbody '#' (List.mem_of_head? hhead)) (by decide)
    · exact .inl rfl

end Color

/-! ## Main statement -/

open Color

/-- The text that a color is shown by is read as that color, and so is every other spelling of its
digits. -/
theorem Rgba.ofText_of_spelling (c : Rgba) : Rgba.ofText c.text = .ok c ∧
    ∀ digits, c.Digits digits → ∀ s, Spells s digits → Rgba.ofText s = .ok c := by
  have hread : ∀ digits, c.Digits digits → ∀ s, Spells s digits → Rgba.ofText s = .ok c := by
    rintro digits hdigits s ⟨before, mark, body, after, hs, hbefore, hafter, hmark, hcase⟩
    rcases exists_values hdigits with ⟨values, hvalues, hreads⟩
    have hbody := (map_digitValue?_of_lower hcase).trans hvalues
    have hcarries := carries_of_isHexDigit hbefore hafter hmark fun _ => isHexDigit_of_mem hbody
    rw [Rgba.ofText, hs, ← carries_iff.1 hcarries]
    exact hreads body hbody
  refine ⟨hread _ (.full c) _ ?_, hread⟩
  exact ⟨[], ['#'], _, [], by simp [Rgba.text], by decide, by decide, by decide, rfl⟩

/-- A color with two equal digits for every channel, in three of its spellings: the one it is shown
by, three digits behind a number sign with blanks around, and six digits by themselves. -/
theorem Rgba.slate_spelled :
    Rgba.ofText (Rgba.solid 51 187 204).text = .ok (Rgba.solid 51 187 204) ∧
      Rgba.ofText " \t#3bC\u3000" = .ok (Rgba.solid 51 187 204) ∧
      Rgba.ofText "33bBCc" = .ok (Rgba.solid 51 187 204) := by
  rcases Rgba.ofText_of_spelling (Rgba.solid 51 187 204) with ⟨hshown, hspelled⟩
  have hthree : (Rgba.solid 51 187 204).Digits ['3', 'B', 'C'] :=
    .single (r := 3) (g := 11) (b := 12) (by decide) (by decide) (by decide)
  have hsix : (Rgba.solid 51 187 204).Digits ['3', '3', 'B', 'B', 'C', 'C'] := .solid 51 187 204
  refine ⟨hshown, hspelled _ hthree _ ?_, hspelled _ hsix _ ?_⟩
  · exact ⟨[' ', '\t'], ['#'], ['3', 'b', 'C'], ['\u3000'], rfl, by decide, by decide, by decide,
      by decide⟩
  · exact ⟨[], [], ['3', '3', 'b', 'B', 'C', 'c'], [], rfl, by decide, by decide, by decide,
      by decide⟩

end PaletteBitmap
