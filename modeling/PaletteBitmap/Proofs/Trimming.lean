import Mathlib
import PaletteBitmap.Color.Hex

/-!
# What is around the digits of a color

Trimming takes blank characters off both ends and nothing else, so its result is told by the text
alone (`Trims`).  The same goes for the digits that a color text carries, with one number sign in
front of them or without (`Color.Carries`).
-/

namespace PaletteBitmap

namespace Text

/-! ## Trimmed texts -/

def Blank (cs : List Char) : Prop := ∀ c ∈ cs, isBlank c = true

instance (cs : List Char) : Decidable (Blank cs) := List.decidableBAll _ cs

/-- `core` is what is left of a text without the blank characters at its ends. -/
structure Trims (cs core : List Char) : Prop where
  around : ∃ before after, Blank before ∧ Blank after ∧ cs = before ++ core ++ after
  head : ∀ c ∈ core.head?, isBlank c = false
  last : ∀ c ∈ core.getLast?, isBlank c = false

variable {cs core : List Char}

theorem dropWhile_of_head (h : ∀ c ∈ cs.head?, isBlank c = false) : cs.dropWhile isBlank = cs := by
  cases cs with
  | nil => rfl
  | cons c cs => exact List.dropWhile_cons_of_neg (by simpa using h c)

theorem Trims.trim_eq (h : Trims cs core) : trim cs = core := by
  rcases h.around with ⟨before, after, hbefore, hafter, rfl⟩
  have hfront : ((before ++ core ++ after).dropWhile isBlank).reverse.dropWhile isBlank =
      core.reverse := by
    rw [List.append_assoc, List.dropWhile_append_of_pos hbefore]
    cases core with
    | nil =>
        -- Everything is blank, and the first pass has taken it all.
        rw [List.nil_append, List.dropWhile_eq_nil_iff.2 hafter]
        rfl
    | cons c core =>
        have hback : Blank after.reverse := fun x hx => hafter x (List.mem_reverse.1 hx)
        have hlast : ∀ x ∈ (c :: core).reverse.head?, isBlank x = false := by
          rw [List.head?_reverse]
          exact h.last
        have hkeep : (c :: core ++ after).dropWhile isBlank = c :: core ++ after :=
          dropWhile_of_head (by simpa using h.head c)
        rw [hkeep, List.reverse_append, List.dropWhile_append_of_pos hback, dropWhile_of_head hlast]
  rw [trim, hfront, List.reverse_reverse]

theorem trims_trim (cs : List Char) : Trims cs (trim cs) := by
  have htrim : trim cs = (cs.dropWhile isBlank).rdropWhile isBlank := rfl
  refine ⟨⟨cs.takeWhile isBlank, (cs.dropWhile isBlank).rtakeWhile isBlank, ?_, ?_, ?_⟩, ?_, ?_⟩
  · exact fun c hc => List.mem_takeWhile_imp hc
  · exact fun c hc => List.mem_rtakeWhile_imp hc
  · rw [htrim, List.append_assoc, List.rdropWhile_append_rtakeWhile,
      List.takeWhile_append_dropWhile]
  · -- What is left begins as it did before the end was trimmed.
    intro c hc
    rcases List.rdropWhile_prefix isBlank (l := cs.dropWhile isBlank) with ⟨tail, htail⟩
    have hhead : (cs.dropWhile isBlank).head? = some c := by
      rw [← htail, List.head?_append, ← htrim, Option.mem_def.1 hc]
      rfl
    have hnot := List.head?_dropWhile_not isBlank cs
    rw [hhead] at hnot
    exact hnot
  · intro c hc
    rw [htrim, Option.mem_def] at hc
    have hne : (cs.dropWhile isBlank).rdropWhile isBlank ≠ [] := by
      intro hnil
      simp [hnil] at hc
    have hlast := List.rdropWhile_last_not isBlank (cs.dropWhile isBlank) hne
    rw [List.getLast?_eq_some_getLast hne, Option.some.injEq] at hc
    simpa [hc] using hlast

theorem trims_iff : Trims cs core ↔ trim cs = core := by
  constructor
  · exact Trims.trim_eq
  · rintro rfl
    exact trims_trim cs

end Text

namespace Color

open Text

/-! ## The digits of a color text -/

/-- A text has these characters between blanks, behind one number sign or behind none. -/
def Carries (cs body : List Char) : Prop :=
  ∃ core, Trims cs core ∧ (core = '#' :: body ∨ core = body ∧ body.head? ≠ some '#')

theorem carries_iff {cs body : List Char} : Carries cs body ↔ body = hexBody cs := by
  simp only [Carries, trims_iff, exists_eq_left', hexBody]
  split
  · next rest htrim =>
    rw [htrim]
    constructor
    · rintro (hrest | ⟨rfl, hhead⟩)
      · exact (List.cons.inj hrest).2.symm
      · exact absurd rfl hhead
    · rintro rfl
      exact .inl rfl
  · next hmark =>
    constructor
    · rintro (htrim | ⟨hbody, -⟩)
      · exact absurd htrim (hmark body)
      · exact hbody.symm
    · rintro rfl
      refine .inr ⟨rfl, ?_⟩
      intro hhead
      rcases List.head?_eq_some_iff.1 hhead with ⟨rest, htrim⟩
      exact hmark rest htrim

end Color

end PaletteBitmap
