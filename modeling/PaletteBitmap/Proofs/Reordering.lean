import Mathlib
import PaletteBitmap.Proofs.Failures

/-!
# Pixels in another order

An image is quantized through the entries of its histogram and through nothing else.  Boxes,
centers and donors that are equally good are chosen by the position of an entry, palette entries
are numbered by it, and a pixel only ever asks for the entry of its color.

So it does not matter where the pixels of a color are, as long as the colors are met in the same
order.  Two images have the same entries if and only if one is the other with its pixels moved in
such a way (`Histogram.entries_eq_iff`), and then both are quantized to the same palette, with one
number for every color (`Quantize.SameOutcome`).
-/

namespace PaletteBitmap

open FirstUse

/-! ## The same histogram -/

/-- The same pixels in another order, with the colors met for the first time in the same order. -/
structure Rearranged (pixels pixels' : List Rgba) : Prop where
  perm : pixels.Perm pixels'
  eraseDups_eq : pixels.eraseDups = pixels'.eraseDups

variable {pixels pixels' : List Rgba}

namespace Histogram

theorem entries_eq_of_rearranged (h : Rearranged pixels pixels') :
    (ofPixels pixels).entries.toList = (ofPixels pixels').entries.toList := by
  rw [entries_ofPixels, entries_ofPixels, h.eraseDups_eq]
  apply List.map_congr_left
  intro c _
  rw [h.perm.count_eq]

/-- The entries tell how often each color is used, and so all pixels but for their places. -/
theorem rearranged_of_entries_eq
    (h : (ofPixels pixels).entries.toList = (ofPixels pixels').entries.toList) :
    Rearranged pixels pixels' := by
  have hcolors : (ofPixels pixels).colors = (ofPixels pixels').colors := by
    rw [colors, colors, h]
  rw [colors_ofPixels, colors_ofPixels] at hcolors
  rw [entries_ofPixels, entries_ofPixels, ← hcolors] at h
  refine ⟨List.perm_iff_count.2 ?_, hcolors⟩
  intro c
  by_cases hc : c ∈ pixels
  · have hentry := List.map_inj_left.1 h c (List.mem_eraseDups.2 hc)
    exact congrArg HistogramEntry.count hentry
  · -- A color without an entry is on neither side.
    have hc' : c ∉ pixels' := by
      rw [← List.mem_eraseDups, ← hcolors, List.mem_eraseDups]
      exact hc
    rw [List.count_eq_zero.2 hc, List.count_eq_zero.2 hc']

theorem entries_eq_iff :
    (ofPixels pixels).entries.toList = (ofPixels pixels').entries.toList ↔
      Rearranged pixels pixels' :=
  ⟨rearranged_of_entries_eq, entries_eq_of_rearranged⟩

end Histogram

/-! ## The same outcome -/

namespace Quantize

/-- Two runs that come to the same thing: one refusal, or one palette and one number for every
color, wherever the pixels of that color are. -/
inductive SameOutcome (pixels pixels' : List Rgba) :
    Except EncodeError Quantized → Except EncodeError Quantized → Prop where
  | refused (e : EncodeError) : SameOutcome pixels pixels' (.error e) (.error e)
  | drawn (palette : Palette) (number : Rgba → UInt8) :
      SameOutcome pixels pixels' (.ok ⟨palette, pixels.map number⟩)
        (.ok ⟨palette, pixels'.map number⟩)

theorem SameOutcome.exists_number {q : Quantized} {outcome : Except EncodeError Quantized}
    (h : SameOutcome pixels pixels' (.ok q) outcome) :
    ∃ number, q.indices = pixels.map number ∧ outcome = .ok ⟨q.palette, pixels'.map number⟩ := by
  cases h with
  | drawn palette number => exact ⟨number, rfl, rfl⟩

variable {depth : BitDepth} {options : QuantizeOptions} {e : EncodeError}

theorem Refuses.rearranged (hrefused : Refuses pixels depth options e)
    (h : Rearranged pixels pixels') : Refuses pixels' depth options e := by
  have hcard : pixels.toFinset.card = pixels'.toFinset.card := by
    rw [← length_eraseDups, ← length_eraseDups, h.eraseDups_eq]
  cases hrefused with
  | count hlt => exact .count hlt
  | empty hle hnil =>
      subst hnil
      exact .empty hle h.perm.nil_eq.symm
  | colors hzero hne hlt =>
      rw [hcard] at hlt ⊢
      refine .colors hzero ?_ hlt
      rintro rfl
      exact hne h.perm.eq_nil

theorem Accepts.rearranged (haccepts : Accepts pixels depth options)
    (h : Rearranged pixels pixels') : Accepts pixels' depth options where
  count_le := haccepts.count_le
  ne_nil := by
    rintro rfl
    exact haccepts.ne_nil h.perm.eq_nil
  fits := by
    intro hzero
    rw [← h.eraseDups_eq]
    exact haccepts.fits hzero

/-- A color is drawn in the same shade, as its cluster is found from the entries. -/
theorem shade_rearranged (h : Rearranged pixels pixels') (k : Clustering) :
    shade pixels k = shade pixels' k := by
  funext c
  rw [shade, shade, Histogram.entries_eq_of_rearranged h, h.eraseDups_eq]

/-- Two images that are drawn color by color in the same way, and whose colors are met in the same
order, are drawn with one palette and one number for every color. -/
theorem sameOutcome_of_draws {q q' : Quantized} {shade : Rgba → Rgba}
    (hdraws : q.Draws (pixels.map shade)) (hdraws' : q'.Draws (pixels'.map shade))
    (hfirst : pixels.eraseDups = pixels'.eraseDups) :
    SameOutcome pixels pixels' (.ok q) (.ok q') := by
  -- Which shades there are, and in which order, only the first use of each color decides.
  have hshades : (pixels'.map shade).eraseDups = (pixels.map shade).eraseDups := by
    rw [eraseDups_map, ← hfirst, ← eraseDups_map]
  rcases q with ⟨⟨entries, hne, hnodup⟩, indices⟩
  rcases q' with ⟨⟨entries', hne', hnodup'⟩, indices'⟩
  have hentries : entries' = entries :=
    hdraws'.entries.trans (hshades.trans hdraws.entries.symm)
  have hindices : indices = pixels.map fun c =>
      UInt8.ofNat ((pixels.map shade).eraseDups.idxOf (shade c)) := by
    exact hdraws.indices.trans (List.map_map ..)
  have hindices' : indices' = pixels'.map fun c =>
      UInt8.ofNat ((pixels.map shade).eraseDups.idxOf (shade c)) := by
    rw [← hshades]
    exact hdraws'.indices.trans (List.map_map ..)
  subst hentries hindices hindices'
  exact .drawn _ _

end Quantize

/-! ## Main statement -/

open Quantize

/-- What an image is quantized to depends on its colors, on how many pixels have each of them, and
on the order in which they are met for the first time.  Where the pixels are does not matter: the
same is refused, or the palette is the same and equal colors get equal indices in both images. -/
theorem quantizeWith_rearranged (dist : Perceptual → Perceptual → Float32) (depth : BitDepth)
    (options : QuantizeOptions) (hperm : pixels.Perm pixels')
    (hfirst : pixels.eraseDups = pixels'.eraseDups) :
    SameOutcome pixels pixels' (quantizeWith dist pixels depth options)
      (quantizeWith dist pixels' depth options) := by
  have h : Rearranged pixels pixels' := ⟨hperm, hfirst⟩
  rcases refuses_or_accepts pixels depth options with ⟨e, hrefused⟩ | haccepts
  · rw [hrefused.quantizeWith_eq, (hrefused.rearranged h).quantizeWith_eq]
    exact .refused e
  · rcases haccepts.exists_draws dist with ⟨q, hq, hdraws⟩
    rcases (haccepts.rearranged h).exists_draws dist with ⟨q', hq', hdraws'⟩
    -- Both runs find the same clusters, because they start from the same entries.
    rw [picture, ← Histogram.entries_eq_of_rearranged h, ← shade_rearranged h] at hdraws'
    rw [hq, hq']
    exact sameOutcome_of_draws hdraws hdraws' hfirst

/-- Two dark grays and two light ones, some of them twice. -/
def mottled : List Rgba :=
  [0, 250, 250, 2, 0, 248].map fun v => Rgba.solid v v v

/-- The grays of `mottled`, with the second uses at other places. -/
def speckled : List Rgba :=
  [0, 0, 250, 2, 250, 248].map fun v => Rgba.solid v v v

theorem quantizeWith_mottled :
    quantizeWith Perceptual.distance mottled .two { count := 2, iterations := 0 } =
      .ok ⟨⟨[⟨1, 1, 1, 255⟩, ⟨249, 249, 249, 255⟩], by decide, by decide⟩, [0, 1, 1, 0, 0, 1]⟩ := by
  have hmedian : Clustering.medianCut (Histogram.ofPixels mottled).entries.toList 2 =
      ⟨[0, 1, 0, 1], 2⟩ := by cbv
  have hcluster : cluster Perceptual.distance (Histogram.ofPixels mottled).entries.toList
      { count := 2, iterations := 0 } = ⟨[0, 1, 0, 1], 2⟩ := by
    rw [cluster, if_neg (by cbv)]
    simp only [hmedian]
    rfl
  have haccepts : Accepts mottled .two { count := 2, iterations := 0 } :=
    ⟨by decide, by decide, by decide⟩
  rw [haccepts.quantizeWith_eq, hcluster]
  cbv

theorem speckled_as_mottled : mottled.Perm speckled ∧ mottled.eraseDups = speckled.eraseDups ∧
    ∃ q, quantizeWith Perceptual.distance speckled .two { count := 2, iterations := 0 } = .ok q ∧
      q.palette.entries = [⟨1, 1, 1, 255⟩, ⟨249, 249, 249, 255⟩] ∧
      q.indices = [0, 0, 1, 0, 1, 1] := by
  have hperm : mottled.Perm speckled := by decide
  have hfirst : mottled.eraseDups = speckled.eraseDups := by decide
  have hsame := quantizeWith_rearranged Perceptual.distance .two { count := 2, iterations := 0 }
    hperm hfirst
  rw [quantizeWith_mottled] at hsame
  rcases hsame.exists_number with ⟨number, hnumber, hspeckled⟩
  refine ⟨hperm, hfirst, _, hspeckled, rfl, ?_⟩
  -- The numbers of the four grays are read off the first image.
  simp only [mottled, List.map_cons, List.map_nil, List.cons.injEq] at hnumber
  rcases hnumber with ⟨hblack, hwhite, -, hdark, -, hlight, -⟩
  simp only [speckled, List.map_cons, List.map_nil, ← hblack, ← hwhite, ← hdark, ← hlight]

end PaletteBitmap
