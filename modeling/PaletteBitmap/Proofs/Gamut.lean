import Mathlib
import PaletteBitmap.Proofs.Quantization

/-!
# Colors within what they replace

A palette entry is a mean, so each of its channels lies between the least and the greatest value
of that channel over the pixels that the entry is used for.  Red, green and blue are weighted by
alpha, so for them only visible pixels count, unless there are none.

The bounds are proved for the sums of any cluster first (`ColorSum.mean_within`).  An entry may be
the mean of several clusters at once; then any one of them gives bounds for all its pixels, if a
cluster with a visible pixel is taken where there is one.
-/

namespace PaletteBitmap

/-! ## Ranges -/

/-- A number from the least to the greatest of some numbers. -/
def Within (values : List Nat) (v : Nat) : Prop :=
  ∃ low high, values.min? = some low ∧ values.max? = some high ∧ low ≤ v ∧ v ≤ high

theorem within_of_bounds {values : List Nat} {v : Nat} (hne : values ≠ [])
    (h : ∀ low high, high ∈ values → (∀ x ∈ values, low ≤ x ∧ x ≤ high) → low ≤ v ∧ v ≤ high) :
    Within values v := by
  obtain ⟨low, hlow⟩ := Option.isSome_iff_exists.1 (List.isSome_min?_of_ne_nil hne)
  obtain ⟨high, hhigh⟩ := Option.isSome_iff_exists.1 (List.isSome_max?_of_ne_nil hne)
  refine ⟨low, high, hlow, hhigh, h low high (List.max?_eq_some_iff.1 hhigh).1 ?_⟩
  intro x hx
  exact ⟨(List.min?_eq_some_iff.1 hlow).2 x hx, (List.max?_eq_some_iff.1 hhigh).2 x hx⟩

/-- More numbers only widen the range. -/
theorem Within.mono {values more : List Nat} {v : Nat} (h : Within values v)
    (hsub : ∀ x ∈ values, x ∈ more) : Within more v := by
  obtain ⟨low, high, hlow, hhigh, hle, hge⟩ := h
  have hlowmem := hsub low (List.min?_eq_some_iff.1 hlow).1
  have hhighmem := hsub high (List.max?_eq_some_iff.1 hhigh).1
  apply within_of_bounds (List.ne_nil_of_mem hlowmem)
  intro l u _ hall
  exact ⟨Nat.le_trans (hall low hlowmem).1 hle, Nat.le_trans hge (hall high hhighmem).2⟩

namespace ColorSum

/-! ## Sums -/

/-- What some entries come to when each counts for `f` of it. -/
def total (f : HistogramEntry → Nat) (entries : List HistogramEntry) : Nat :=
  entries.foldl (fun t e => t + f e) 0

theorem total_concat (f : HistogramEntry → Nat) (entries : List HistogramEntry)
    (e : HistogramEntry) : total f (entries ++ [e]) = total f entries + f e := by
  rw [total, List.foldl_append]
  rfl

theorem total_append (f : HistogramEntry → Nat) (entries more : List HistogramEntry) :
    total f (entries ++ more) = total f entries + total f more := by
  induction more using List.reverseRecOn with
  | nil => rw [List.append_nil]; rfl
  | append_singleton more e ih =>
      rw [← List.append_assoc, total_concat, total_concat, ih, Nat.add_assoc]

theorem total_pos {f : HistogramEntry → Nat} {entries : List HistogramEntry} {e : HistogramEntry}
    (h : e ∈ entries) (he : 0 < f e) : 0 < total f entries := by
  induction entries using List.reverseRecOn with
  | nil => cases h
  | append_singleton entries last ih =>
      rw [total_concat]
      rcases List.mem_append.1 h with hmem | hlast
      · have := ih hmem
        omega
      · rw [List.mem_singleton] at hlast
        subst hlast
        omega

/-- A weighted sum of values in a range is in that range times the weights.  What has no weight
need not be in the range. -/
theorem total_bounds {value weight : HistogramEntry → Nat} {low high : Nat}
    {entries : List HistogramEntry}
    (h : ∀ e ∈ entries, weight e ≠ 0 → low ≤ value e ∧ value e ≤ high) :
    low * total weight entries ≤ total (fun e => value e * weight e) entries ∧
      total (fun e => value e * weight e) entries ≤ high * total weight entries := by
  induction entries using List.reverseRecOn with
  | nil => exact ⟨Nat.le_refl _, Nat.le_refl _⟩
  | append_singleton entries e ih =>
      obtain ⟨hlow, hhigh⟩ := ih fun e' he' => h e' (List.mem_append_left _ he')
      have hlast : low * weight e ≤ value e * weight e ∧ value e * weight e ≤ high * weight e := by
        rcases Nat.eq_zero_or_pos (weight e) with hzero | hpos
        · simp [hzero]
        · obtain ⟨hle, hge⟩ := h e (by simp) (Nat.ne_of_gt hpos)
          exact ⟨Nat.mul_le_mul_right _ hle, Nat.mul_le_mul_right _ hge⟩
      simp only [total_concat, Nat.mul_add]
      omega

/-- The sums of a channel other than alpha. -/
def tint (s : ColorSum) : Channel → ChannelSum
  | .red => s.red
  | .green => s.green
  | .blue => s.blue
  | .alpha => {}

theorem tint_add (s : ColorSum) (c : Rgba) (n : Nat) {ch : Channel} (hch : ch ≠ .alpha) :
    (s.add c n).tint ch = (s.tint ch).add (c.channel ch).toNat c.a.toNat n := by
  cases ch with
  | alpha => exact absurd rfl hch
  | red => rfl
  | green => rfl
  | blue => rfl

variable (entries : List HistogramEntry)

theorem count_ofEntries : (ofEntries entries).count = total (·.count) entries := by
  induction entries using List.reverseRecOn with
  | nil => rfl
  | append_singleton entries e ih => rw [ofEntries_concat, total_concat, ← ih]; rfl

theorem alpha_ofEntries :
    (ofEntries entries).alpha = total (fun e => e.color.a.toNat * e.count) entries := by
  induction entries using List.reverseRecOn with
  | nil => rfl
  | append_singleton entries e ih => rw [ofEntries_concat, total_concat, ← ih]; rfl

theorem tint_ofEntries {ch : Channel} (hch : ch ≠ .alpha) :
    (ofEntries entries).tint ch =
      ⟨total (fun e => (e.color.channel ch).toNat * (e.color.a.toNat * e.count)) entries,
        total (fun e => (e.color.channel ch).toNat * e.count) entries⟩ := by
  induction entries using List.reverseRecOn with
  | nil => cases ch <;> rfl
  | append_singleton entries e ih =>
      rw [ofEntries_concat, tint_add _ _ _ hch, ih, ChannelSum.add, total_concat, total_concat,
        Nat.mul_assoc]

/-! ## Means -/

/-- Half the divisor is not enough to get to the next number. -/
theorem rounded_quotient_le {high sum divisor : Nat} (hpos : 0 < divisor)
    (h : sum ≤ high * divisor) : (sum + divisor / 2) / divisor ≤ high := by
  have hhalf : divisor / 2 < divisor := Nat.div_lt_self hpos (by decide)
  rw [← Nat.lt_succ_iff, Nat.div_lt_iff_lt_mul hpos, Nat.succ_mul]
  omega

/-- Rounding a quotient does not leave a range that the quotient is in. -/
theorem toNat_rounded_bounds {low high sum divisor : Nat} (hpos : 0 < divisor)
    (hlow : low * divisor ≤ sum) (hhigh : sum ≤ high * divisor) (hbyte : high ≤ 255) :
    low ≤ (rounded sum divisor).toNat ∧ (rounded sum divisor).toNat ≤ high := by
  have hle : low ≤ (sum + divisor / 2) / divisor := by
    rw [Nat.le_div_iff_mul_le hpos]
    omega
  have hge := rounded_quotient_le hpos hhigh
  have hvalue : (rounded sum divisor).toNat = (sum + divisor / 2) / divisor := by
    rw [rounded, Nat.min_eq_left (Nat.le_trans hge hbyte), UInt8.toNat_ofNat']
    exact Nat.mod_eq_of_lt (by omega)
  rw [hvalue]
  exact ⟨hle, hge⟩

theorem channel_mean {s : ColorSum} (hcount : s.count ≠ 0) {ch : Channel} (hch : ch ≠ .alpha) :
    s.mean.channel ch = s.channelMean (s.tint ch) := by
  rw [mean, if_neg hcount]
  cases ch with
  | alpha => exact absurd rfl hch
  | red => rfl
  | green => rfl
  | blue => rfl

theorem alpha_mean {s : ColorSum} (hcount : s.count ≠ 0) : s.mean.a = rounded s.alpha s.count := by
  rw [mean, if_neg hcount]

/-- A quotient of a weighted sum and the weights is within the values that have weight. -/
theorem rounded_within {value weight : HistogramEntry → Nat} {entries : List HistogramEntry}
    {values : List Nat} (hpos : 0 < total weight entries) (hne : values ≠ [])
    (hbyte : ∀ x ∈ values, x ≤ 255) (h : ∀ e ∈ entries, weight e ≠ 0 → value e ∈ values) :
    Within values
      (rounded (total (fun e => value e * weight e) entries) (total weight entries)).toNat := by
  apply within_of_bounds hne
  intro low high hhigh hall
  obtain ⟨hlow, hle⟩ := total_bounds fun e he hw => hall (value e) (h e he hw)
  exact toNat_rounded_bounds hpos hlow hle (hbyte high hhigh)

end ColorSum

/-! ## Visible pixels -/

/-- The pixels that give a group its color: the visible ones, or all if none is visible. -/
def seen (group : List Rgba) : List Rgba :=
  if group.all Rgba.isTransparent then group else group.filter fun c => !c.isTransparent

theorem mem_seen_of_visible {group : List Rgba} {p : Rgba} (h : p ∈ group)
    (hp : p.isTransparent = false) {c : Rgba} :
    c ∈ seen group ↔ c ∈ group ∧ c.isTransparent = false := by
  have hall : ¬ group.all Rgba.isTransparent = true := by
    rw [List.all_eq_true]
    intro hall
    rw [hall p h] at hp
    cases hp
  rw [seen, if_neg hall, List.mem_filter]
  simp

theorem toNat_alpha_eq_zero_iff {c : Rgba} : c.a.toNat = 0 ↔ c.isTransparent = true := by
  rw [Rgba.isTransparent, beq_iff_eq, ← UInt8.toNat_inj]
  rfl

theorem seen_of_invisible {group : List Rgba} (h : ∀ c ∈ group, c.isTransparent = true) :
    seen group = group := by
  rw [seen, if_pos (List.all_eq_true.2 h)]

namespace ColorSum

variable {entries : List HistogramEntry}

theorem count_ofEntries_ne_zero (hne : entries ≠ []) (hcount : ∀ e ∈ entries, 0 < e.count) :
    (ofEntries entries).count ≠ 0 := by
  obtain ⟨first, hfirst⟩ := List.exists_mem_of_ne_nil entries hne
  rw [count_ofEntries]
  exact Nat.ne_of_gt (total_pos hfirst (hcount first hfirst))

theorem alpha_mean_within (hne : entries ≠ []) (hcount : ∀ e ∈ entries, 0 < e.count) :
    Within (entries.map fun e => e.color.a.toNat) (ofEntries entries).mean.a.toNat := by
  have hzero := count_ofEntries_ne_zero hne hcount
  rw [alpha_mean hzero, alpha_ofEntries]
  rw [count_ofEntries] at hzero ⊢
  apply rounded_within (Nat.pos_of_ne_zero hzero)
  · simpa using hne
  · intro x hx
    obtain ⟨e, -, rfl⟩ := List.mem_map.1 hx
    exact Nat.le_of_lt_succ e.color.a.toNat_lt
  · intro e he _
    exact List.mem_map.2 ⟨e, he, rfl⟩

theorem toNat_channel_le {colors : List Rgba} (ch : Channel) :
    ∀ x ∈ colors.map fun c => (c.channel ch).toNat, x ≤ 255 := by
  intro x hx
  obtain ⟨c, -, rfl⟩ := List.mem_map.1 hx
  exact Nat.le_of_lt_succ (c.channel ch).toNat_lt

/-- Visible entries have weight, and only they have. -/
theorem tint_mean_within_visible (hcount : ∀ e ∈ entries, 0 < e.count) {p : HistogramEntry}
    (hp : p ∈ entries) (hpa : p.color.isTransparent = false) {ch : Channel} (hch : ch ≠ .alpha) :
    Within ((seen (entries.map (·.color))).map fun c => (c.channel ch).toNat)
      ((ofEntries entries).mean.channel ch).toNat := by
  have hpcolor : p.color ∈ entries.map (·.color) := List.mem_map.2 ⟨p, hp, rfl⟩
  have halpha : 0 < total (fun e => e.color.a.toNat * e.count) entries := by
    apply total_pos hp
    refine Nat.mul_pos (Nat.pos_of_ne_zero fun h => ?_) (hcount p hp)
    rw [toNat_alpha_eq_zero_iff, hpa] at h
    cases h
  have hzero := count_ofEntries_ne_zero (List.ne_nil_of_mem hp) hcount
  rw [channel_mean hzero hch, channelMean, tint_ofEntries _ hch, alpha_ofEntries, if_pos halpha]
  apply rounded_within halpha _ (toNat_channel_le ch)
  · intro e he hweight
    have hea : e.color.isTransparent = false := by
      rw [← Bool.not_eq_true, ← toNat_alpha_eq_zero_iff]
      exact fun h => hweight (by rw [h, Nat.zero_mul])
    exact List.mem_map.2 ⟨e.color, (mem_seen_of_visible hpcolor hpa).2
      ⟨List.mem_map.2 ⟨e, he, rfl⟩, hea⟩, rfl⟩
  · intro hnil
    have hmem := (mem_seen_of_visible hpcolor hpa).2 ⟨hpcolor, hpa⟩
    rw [List.map_eq_nil_iff.1 hnil] at hmem
    cases hmem

/-- Where nothing is visible, the entries count as they are. -/
theorem tint_mean_within_invisible (hne : entries ≠ []) (hcount : ∀ e ∈ entries, 0 < e.count)
    (hinvisible : ∀ e ∈ entries, e.color.isTransparent = true) {ch : Channel} (hch : ch ≠ .alpha) :
    Within ((seen (entries.map (·.color))).map fun c => (c.channel ch).toNat)
      ((ofEntries entries).mean.channel ch).toNat := by
  have halpha : ¬ 0 < total (fun e => e.color.a.toNat * e.count) entries := by
    have hnone : ∀ e ∈ entries, e.count ≠ 0 → 0 ≤ e.color.a.toNat ∧ e.color.a.toNat ≤ 0 :=
      fun e he _ => ⟨Nat.zero_le _, Nat.le_of_eq (toNat_alpha_eq_zero_iff.2 (hinvisible e he))⟩
    have hbound := (total_bounds hnone).2
    omega
  have hseen : seen (entries.map (·.color)) = entries.map (·.color) := by
    apply seen_of_invisible
    intro c hc
    obtain ⟨e, he, rfl⟩ := List.mem_map.1 hc
    exact hinvisible e he
  have hzero := count_ofEntries_ne_zero hne hcount
  rw [channel_mean hzero hch, channelMean, tint_ofEntries _ hch, alpha_ofEntries, if_neg halpha,
    hseen]
  rw [count_ofEntries] at hzero ⊢
  apply rounded_within (Nat.pos_of_ne_zero hzero) _ (toNat_channel_le ch)
  · intro e he _
    exact List.mem_map.2 ⟨e.color, List.mem_map.2 ⟨e, he, rfl⟩, rfl⟩
  · simpa using hne

theorem tint_mean_within (hne : entries ≠ []) (hcount : ∀ e ∈ entries, 0 < e.count)
    {ch : Channel} (hch : ch ≠ .alpha) :
    Within ((seen (entries.map (·.color))).map fun c => (c.channel ch).toNat)
      ((ofEntries entries).mean.channel ch).toNat := by
  by_cases hvisible : ∃ e ∈ entries, e.color.isTransparent = false
  · obtain ⟨p, hp, hpa⟩ := hvisible
    exact tint_mean_within_visible hcount hp hpa hch
  · apply tint_mean_within_invisible hne hcount _ hch
    intro e he
    rw [← Bool.not_eq_false]
    exact fun h => hvisible ⟨e, he, h⟩

end ColorSum

/-! ## Clusters and groups -/

open FirstUse

namespace Clustering

theorem mem_membersIn {pairs : List (HistogramEntry × Nat)} {k : Nat} {e : HistogramEntry} :
    e ∈ membersIn pairs k ↔ (e, k) ∈ pairs := by
  simp [membersIn]

end Clustering

namespace Quantize

variable {pixels : List Rgba} {k : Clustering}

theorem shade_of_assigned {c : Rgba} {i : Nat}
    (h : k.assignment[pixels.eraseDups.idxOf c]? = some i) : shade pixels k c =
      ((Clustering.sums (Histogram.ofPixels pixels).entries.toList k.assignment
        k.clusters).map ColorSum.mean).getD i Rgba.transparent := by
  rw [shade, drawn, List.getD_eq_getElem?_getD, List.getElem?_map, h]
  rfl

/-- A color is drawn in the mean of its cluster, like the other colors of the cluster. -/
theorem exists_cluster (h : Covers k pixels.eraseDups.length) {c : Rgba} (hc : c ∈ pixels) :
    ∃ members, shade pixels k c = (ColorSum.ofEntries members).mean ∧
      ⟨c, pixels.count c⟩ ∈ members ∧ ∀ e ∈ members, 0 < e.count ∧ e.color ∈ pixels ∧
        shade pixels k e.color = shade pixels k c := by
  have hidx : pixels.eraseDups.idxOf c < k.assignment.length := by
    rw [h.length_eq]
    exact idxOf_eraseDups_lt hc
  have hassigned := List.getElem?_eq_getElem hidx
  have hlt := h.lt_clusters _ (List.getElem_mem hidx)
  generalize k.assignment[pixels.eraseDups.idxOf c] = i at hassigned hlt
  have hshade := shade_of_assigned hassigned
  refine ⟨Clustering.membersIn ((Histogram.ofPixels pixels).entries.toList.zip k.assignment) i,
    ?_, ?_, ?_⟩
  · rw [hshade, Clustering.getD_means _ _ _ i hlt]
  · rw [Clustering.mem_membersIn, List.mem_iff_getElem?]
    refine ⟨pixels.eraseDups.idxOf c, ?_⟩
    rw [List.getElem?_zip_eq_some, Histogram.entries_ofPixels, List.getElem?_map,
      getElem?_idxOf_eraseDups hc]
    exact ⟨rfl, hassigned⟩
  · intro e he
    rw [Clustering.mem_membersIn, List.mem_iff_getElem?] at he
    obtain ⟨j, hj⟩ := he
    rw [List.getElem?_zip_eq_some, Histogram.entries_ofPixels, List.getElem?_map,
      Option.map_eq_some_iff] at hj
    obtain ⟨⟨d, hd, rfl⟩, hij⟩ := hj
    have hmem : d ∈ pixels := List.mem_eraseDups.1 (List.mem_of_getElem? hd)
    have hnumber : pixels.eraseDups.idxOf d = j := by
      obtain ⟨hlen, rfl⟩ := List.getElem?_eq_some_iff.1 hd
      exact (nodup_eraseDups pixels).idxOf_getElem j hlen
    have hassigned' : k.assignment[pixels.eraseDups.idxOf d]? = some i := hnumber ▸ hij
    exact ⟨List.count_pos_iff.2 hmem, hmem, (shade_of_assigned hassigned').trans hshade.symm⟩

/-- The color of a group is within the group, if all that is drawn in it is there. -/
theorem shade_within (h : Covers k pixels.eraseDups.length) {group : List Rgba} {c : Rgba}
    (hne : group ≠ []) (hgroup : ∀ p, p ∈ group ↔ p ∈ pixels ∧ shade pixels k p = c) :
    Within (group.map fun p => p.a.toNat) c.a.toNat ∧ ∀ ch ≠ Channel.alpha,
      Within ((seen group).map fun p => (p.channel ch).toNat) (c.channel ch).toNat := by
  -- Of the clusters with this mean, one with a visible pixel is taken, if there is one.
  obtain ⟨p, hp, hbest⟩ : ∃ p ∈ group,
      p.isTransparent = true → ∀ x ∈ group, x.isTransparent = true := by
    by_cases hvisible : ∃ p ∈ group, p.isTransparent = false
    · obtain ⟨p, hp, hpa⟩ := hvisible
      exact ⟨p, hp, fun h => by rw [hpa] at h; cases h⟩
    · obtain ⟨p, hp⟩ := List.exists_mem_of_ne_nil group hne
      refine ⟨p, hp, fun _ x hx => ?_⟩
      rw [← Bool.not_eq_false]
      exact fun h => hvisible ⟨x, hx, h⟩
  obtain ⟨hpixel, hshade⟩ := (hgroup p).1 hp
  obtain ⟨members, hmean, hself, hmembers⟩ := exists_cluster h hpixel
  have hmembersne : members ≠ [] := List.ne_nil_of_mem hself
  have hcount : ∀ e ∈ members, 0 < e.count := fun e he => (hmembers e he).1
  have hsub : ∀ e ∈ members, e.color ∈ group := fun e he =>
    (hgroup e.color).2 ⟨(hmembers e he).2.1, (hmembers e he).2.2.trans hshade⟩
  have hseen : ∀ x ∈ seen (members.map (·.color)), x ∈ seen group := by
    intro x hx
    have hpcolor : p ∈ members.map (·.color) := List.mem_map.2 ⟨_, hself, rfl⟩
    have hcolors : ∀ x ∈ members.map (·.color), x ∈ group := by
      intro x hx
      obtain ⟨e, he, rfl⟩ := List.mem_map.1 hx
      exact hsub e he
    cases hpa : p.isTransparent with
    | false =>
        rw [mem_seen_of_visible hpcolor hpa] at hx
        exact (mem_seen_of_visible hp hpa).2 ⟨hcolors x hx.1, hx.2⟩
    | true =>
        rw [seen_of_invisible fun x hx => hbest hpa x (hcolors x hx)] at hx
        rw [seen_of_invisible (hbest hpa)]
        exact hcolors x hx
  rw [← hshade, hmean]
  constructor
  · apply (ColorSum.alpha_mean_within hmembersne hcount).mono
    intro x hx
    obtain ⟨e, he, rfl⟩ := List.mem_map.1 hx
    exact List.mem_map.2 ⟨e.color, hsub e he, rfl⟩
  · intro ch hch
    apply (ColorSum.tint_mean_within hmembersne hcount hch).mono
    intro x hx
    obtain ⟨y, hy, rfl⟩ := List.mem_map.1 hx
    exact List.mem_map.2 ⟨y, hseen y hy, rfl⟩

end Quantize

namespace Quantized

/-- The pixels that have the palette entry at a position. -/
def group (q : Quantized) (pixels : List Rgba) (k : Nat) : List Rgba :=
  ((pixels.zip q.indices).filter fun p => p.2.toNat == k).map (·.1)

/-- The pixels of an entry are those drawn in its color. -/
theorem Draws.mem_group {q : Quantized} {pixels : List Rgba} {shade : Rgba → Rgba}
    (h : q.Draws (pixels.map shade)) (hsize : q.palette.size ≤ 256) {k : Nat} {c : Rgba}
    (hc : q.palette.get? k = some c) (p : Rgba) :
    p ∈ q.group pixels k ↔ p ∈ pixels ∧ shade p = c := by
  rw [Palette.get?, h.entries] at hc
  have hnumber : ∀ p ∈ pixels, (UInt8.ofNat ((pixels.map shade).eraseDups.idxOf (shade p))).toNat = k
      ↔ shade p = c := by
    intro p hp
    have hmem : shade p ∈ pixels.map shade := List.mem_map_of_mem hp
    rw [h.toNat_number hsize hmem]
    constructor
    · rintro rfl
      rw [getElem?_idxOf_eraseDups hmem] at hc
      exact Option.some.inj hc
    · rintro rfl
      obtain ⟨hlen, hget⟩ := List.getElem?_eq_some_iff.1 hc
      rw [← hget]
      exact (nodup_eraseDups _).idxOf_getElem k hlen
  rw [group, h.indices, List.map_map, ← List.map_prod_left_eq_zip]
  simp only [List.filter_map, List.map_map, List.mem_map, List.mem_filter, Function.comp_apply,
    beq_iff_eq]
  constructor
  · rintro ⟨x, ⟨hx, hk⟩, rfl⟩
    exact ⟨hx, (hnumber x hx).1 hk⟩
  · rintro ⟨hp, hshade⟩
    exact ⟨p, ⟨hp, (hnumber p hp).2 hshade⟩, rfl⟩

end Quantized

open Quantize

variable {dist : Perceptual → Perceptual → Float32} {pixels : List Rgba} {depth : BitDepth}
  {options : QuantizeOptions} {q : Quantized}

/-- Every palette entry is within the pixels that have it: its alpha within their alphas, its
other channels within those of the visible ones, or of all where none is visible.  So an image
without any transparency gets no transparent entry. -/
theorem palette_within_pixels (h : quantizeWith dist pixels depth options = .ok q) :
    (∀ k c, q.palette.get? k = some c →
      Within ((q.group pixels k).map fun p => p.a.toNat) c.a.toNat ∧
      ∀ ch ≠ Channel.alpha,
        Within ((seen (q.group pixels k)).map fun p => (p.channel ch).toNat)
          (c.channel ch).toNat) ∧
    ((∀ p ∈ pixels, p.a = 255) → ∀ c ∈ q.palette.entries, c.a = 255) := by
  have hdraws := draws_of_quantizeWith h
  have hcovers := covers_cluster_ofPixels dist options (accepts_of_quantizeWith h).ne_nil
  have hgroup : ∀ k c, q.palette.get? k = some c → ∀ p, p ∈ q.group pixels k ↔ p ∈ pixels ∧
      shade pixels (cluster dist (Histogram.ofPixels pixels).entries.toList options) p = c :=
    fun k c hc => hdraws.mem_group (size_le_256 h) hc
  have hwithin : ∀ k c, q.palette.get? k = some c →
      Within ((q.group pixels k).map fun p => p.a.toNat) c.a.toNat ∧ ∀ ch ≠ Channel.alpha,
        Within ((seen (q.group pixels k)).map fun p => (p.channel ch).toNat)
          (c.channel ch).toNat := by
    intro k c hc
    -- No entry is idle, so its group is not empty.
    have hmem : c ∈ picture dist pixels options := by
      rw [← List.mem_eraseDups, ← hdraws.entries]
      exact List.mem_of_getElem? hc
    obtain ⟨p, hp, hshade⟩ := List.mem_map.1 hmem
    exact shade_within hcovers (List.ne_nil_of_mem ((hgroup k c hc p).2 ⟨hp, hshade⟩))
      (hgroup k c hc)
  refine ⟨hwithin, ?_⟩
  intro hsolid c hc
  obtain ⟨k, hk⟩ := List.mem_iff_getElem?.1 hc
  obtain ⟨low, high, hlow, hhigh, hle, hge⟩ := (hwithin k c hk).1
  have hall : ∀ x ∈ (q.group pixels k).map fun p => p.a.toNat, x = 255 := by
    intro x hx
    obtain ⟨p, hp, rfl⟩ := List.mem_map.1 hx
    rw [hsolid p ((hgroup k c hk p).1 hp).1]
    rfl
  rw [hall low (List.min?_mem hlow)] at hle
  rw [hall high (List.max?_mem hhigh)] at hge
  exact UInt8.toNat_inj.1 (Nat.le_antisymm hge hle)

/-- Two reds and a green that nobody sees, to share one color. -/
def ghost : List Rgba := [⟨250, 0, 0, 255⟩, ⟨0, 255, 0, 0⟩, ⟨255, 0, 0, 255⟩]

/-- All of `ghost` in their mean, which is not tinted green. -/
def untinted : Quantized := ⟨⟨[⟨253, 0, 0, 170⟩], by decide, by decide⟩, [0, 0, 0]⟩

theorem quantizeWith_ghost :
    quantizeWith Perceptual.distance ghost .one { count := 1 } = .ok untinted := by
  cbv

theorem ghost_within_pixels :
    quantizeWith Perceptual.distance ghost .one { count := 1 } = .ok untinted ∧
      untinted.palette.get? 0 = some ⟨253, 0, 0, 170⟩ ∧
      Within [255, 0, 255] 170 ∧ Within [250, 255] 253 ∧ Within [0, 0] 0 := by
  have hentry := (palette_within_pixels quantizeWith_ghost).1 0 ⟨253, 0, 0, 170⟩ (by decide)
  exact ⟨quantizeWith_ghost, by decide, hentry.1, hentry.2 .red (by decide),
    hentry.2 .green (by decide)⟩

end PaletteBitmap
