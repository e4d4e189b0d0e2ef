import PaletteBitmap.Color.Perceptual
import PaletteBitmap.Nearest

/-!
# Palettes

A palette is an ordered table of colors.  The position of a color is the number by which
bitmaps refer to it, so the order matters; no color stands in the table twice and the table
is never empty.
-/

namespace PaletteBitmap

inductive PaletteError where
  | empty
  /-- The color at a position stood earlier in the list already. -/
  | duplicate (index : Nat)
  /-- The bytes are no whole number of entries. -/
  | partialEntry (length entrySize : Nat)
  deriving DecidableEq, Repr

def PaletteError.message : PaletteError → String
  | .empty => "palette cannot be empty"
  | .duplicate index => s!"duplicate color found at index {index}"
  | .partialEntry length entrySize =>
    s!"palette data of {length} bytes is not a multiple of the {entrySize}-byte entry size"

/-- A table of different colors, at least one. -/
structure Palette where
  entries : List Rgba
  entries_ne_nil : entries ≠ []
  nodup : entries.Nodup
  deriving DecidableEq, Repr

namespace Palette

/-- The position of the first color that already stands before it. -/
def firstDuplicate? (seen : List Rgba) (i : Nat) : List Rgba → Option Nat
  | [] => none
  | c :: rest => if c ∈ seen then some i else firstDuplicate? (c :: seen) (i + 1) rest

theorem nodup_of_firstDuplicate? {seen : List Rgba} {i : Nat} {colors : List Rgba}
    (h : firstDuplicate? seen i colors = none) :
    colors.Nodup ∧ ∀ c ∈ colors, c ∉ seen := by
  induction colors generalizing seen i with
  | nil => simp
  | cons c rest ih =>
      rw [firstDuplicate?] at h
      split at h
      · cases h
      · next hc =>
        obtain ⟨hn, hs⟩ := ih h
        refine ⟨List.nodup_cons.2 ⟨fun hm => hs c hm List.mem_cons_self, hn⟩, ?_⟩
        intro d hd
        rcases List.mem_cons.1 hd with rfl | hd
        · exact hc
        · exact fun hm => hs d hd (List.mem_cons_of_mem _ hm)

def ofList (colors : List Rgba) : Except PaletteError Palette :=
  if hne : colors = [] then .error .empty
  else
    match h : firstDuplicate? [] 0 colors with
    | some i => .error (.duplicate i)
    | none => .ok ⟨colors, hne, (nodup_of_firstDuplicate? h).1⟩

/-- Different colors have no duplicate among them. -/
theorem firstDuplicate?_of_nodup {seen : List Rgba} {colors : List Rgba} (i : Nat)
    (h : colors.Nodup) (hseen : ∀ c ∈ colors, c ∉ seen) :
    firstDuplicate? seen i colors = none := by
  induction colors generalizing seen i with
  | nil => rfl
  | cons c rest ih =>
      obtain ⟨hc, hrest⟩ := List.nodup_cons.1 h
      rw [firstDuplicate?, if_neg (hseen c List.mem_cons_self)]
      apply ih (i + 1) hrest
      intro d hd hm
      rcases List.mem_cons.1 hm with rfl | hm
      · exact hc hd
      · exact hseen d (List.mem_cons_of_mem _ hd) hm

/-- Different colors, at least one of them, form a palette. -/
theorem ofList_of_nodup {colors : List Rgba} (hne : colors ≠ []) (h : colors.Nodup) :
    ofList colors = .ok ⟨colors, hne, h⟩ := by
  have hnone : firstDuplicate? [] 0 colors = none :=
    firstDuplicate?_of_nodup 0 h fun _ _ => List.not_mem_nil
  rw [ofList, dif_neg hne]
  split
  · next i hi => rw [hnone] at hi; cases hi
  · rfl

def size (p : Palette) : Nat := p.entries.length

def get? (p : Palette) (i : Nat) : Option Rgba := p.entries[i]?

theorem size_pos (p : Palette) : 0 < p.size :=
  List.length_pos_iff.2 p.entries_ne_nil

/-- The entries in the form in which they are compared. -/
def points (p : Palette) : List (Option Perceptual) :=
  p.entries.map fun c => some (Perceptual.ofRgba c)

/-- The position of the point nearest to a color, the first of several. -/
def nearestPoint (dist : Perceptual → Perceptual → Float32)
    (points : List (Option Perceptual)) (c : Rgba) : Nat :=
  let target := Perceptual.ofRgba c
  (Nearest.scan (fun p => dist target p) 0 Nearest.largest 0 points).1

/-- The position of the entry nearest to a color, the first of several, with a measure of distance
to choose by. -/
def nearestWith (dist : Perceptual → Perceptual → Float32) (p : Palette) (c : Rgba) : Nat :=
  nearestPoint dist p.points c

/-- The position of the entry that looks most like a color. -/
def nearest (p : Palette) (c : Rgba) : Nat :=
  p.nearestWith Perceptual.distance c

end Palette

end PaletteBitmap
