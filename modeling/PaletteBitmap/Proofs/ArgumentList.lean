import Mathlib
import PaletteBitmap.CommandLine.Arguments
import PaletteBitmap.Conversion.External

/-!
# Arguments that are written and read

An external encoder is given its arguments as texts, and the command `encode` reads such texts.
What is written for some settings is read as these settings, whatever arguments stand before, as
long as those choose the command and nothing that the settings say (`Chooses`).
-/

namespace PaletteBitmap
namespace CommandLine

/-! ## Numbers -/

theorem toList_toString (n : Nat) : (toString n).toList = Nat.toDigits 10 n := by
  rw [Nat.toString_eq_ofList_toDigits, String.toList_ofList]

/-- The text of a number starts with a digit. -/
theorem exists_digit_toString (n : Nat) :
    ∃ c cs, (toString n).toList = c :: cs ∧ c.isDigit = true := by
  cases hdigits : Nat.toDigits 10 n with
  | nil => exact absurd hdigits Nat.toDigits_ne_nil
  | cons c cs =>
      have hmem : c ∈ Nat.toDigits 10 n := hdigits ▸ List.mem_cons_self
      exact ⟨c, cs, (toList_toString n).trans hdigits,
        Nat.isDigit_of_mem_toDigits (by decide) (by decide) hmem⟩

theorem digits?_toString (n : Nat) : digits? (toString n) = some n := by
  obtain ⟨c, cs, hlist, hc⟩ := exists_digit_toString n
  have hplus : c ≠ '+' := by
    rintro rfl
    exact absurd hc (by decide)
  have hall : (c :: cs).all Char.isDigit = true := by
    rw [← hlist, toList_toString, List.all_eq_true]
    exact fun _ => Nat.isDigit_of_mem_toDigits (by decide) (by decide)
  have hvalue : (c :: cs).foldl (fun n c => n * 10 + (c.toNat - 48)) 0 = n := by
    have hback := Nat.ofDigitChars_ten_toDigits (n := n)
    rw [Nat.ofDigitChars_eq_foldl, ← toList_toString, hlist] at hback
    have hzero : '0'.toNat = 48 := rfl
    simpa only [Nat.mul_comm, hzero] using hback
  rw [digits?, hlist]
  simp [hplus, hall, hvalue]

theorem count?_toString {limit n : Nat} (h : n < limit) : count? limit (toString n) = some n := by
  rw [count?, digits?_toString]
  simp [h]

theorem number?_toString {limit n : Nat} (h : n < limit) :
    number? limit (toString n) = some n := by
  obtain ⟨c, cs, hlist, hc⟩ := exists_digit_toString n
  have hminus : c ≠ '-' := by
    rintro rfl
    exact absurd hc (by decide)
  rw [← count?_toString h, number?, hlist]
  simp [hminus]

/-! ## Plain arguments -/

/-- What does not start with a dash is no flag. -/
theorem written_of_head {a : String} {c : Char} {cs : List Char} (h : a.toList = c :: cs)
    (hc : c ≠ '-') : written a = .plain := by
  rw [written, h]
  simp [hc]

theorem written_toString (n : Nat) : written (toString n) = .plain := by
  obtain ⟨c, cs, hlist, hc⟩ := exists_digit_toString n
  refine written_of_head hlist ?_
  rintro rfl
  exact absurd hc (by decide)

/-! ## Reading on -/

namespace Grammar

variable {g : Grammar} {m m' : Matches} {a value : String} {rest : List String}

/-- A flag that is taken at the end of the arguments makes no use of one after it. -/
theorem takeWritten_of_none {w : Written} {used : Bool}
    (h : g.takeWritten m w none = .ok (m', used)) :
    used = false ∧ ∀ next, g.takeWritten m w next = .ok (m', used) := by
  cases hrequest : g.request? w with
  | some r => simp [takeWritten, hrequest] at h
  | none =>
      cases hflag : g.flag? w with
      | none => simp [takeWritten, hrequest, hflag] at h
      | some f =>
          simp only [takeWritten, hrequest, hflag] at h ⊢
          have hunused : ∀ {x : Except Refusal Matches},
              x.map (·, false) = .ok (m', used) → used = false := by
            intro x hx
            cases x with
            | error r => cases hx
            | ok m => cases hx; rfl
          cases haccepts : f.accepts.isSome with
          | false =>
              cases hattached : attached? w with
              | none =>
                  simp only [haccepts, hattached] at h ⊢
                  exact ⟨hunused h, fun _ => h⟩
              | some value => simp [haccepts, hattached] at h
          | true =>
              cases hattached : attached? w with
              | none => simp [haccepts, hattached] at h
              | some value =>
                  simp only [haccepts, hattached] at h ⊢
                  exact ⟨hunused h, fun _ => h⟩

theorem readFrom_plain (ha : a ≠ "--") (hplain : written a = .plain)
    (hcommand : g.hasCommand a = false) (htake : g.takePositional m a = .ok m') :
    g.readFrom m (a :: rest) = g.readFrom m' rest := by
  rw [readFrom, if_neg ha, if_pos hplain, hcommand, htake]
  simp

theorem readFrom_command (ha : a ≠ "--") (hplain : written a = .plain)
    (hcommand : g.hasCommand a = true) : g.readFrom m (a :: rest) = .ok (m, a :: rest) := by
  rw [readFrom, if_neg ha, if_pos hplain, if_pos hcommand]

/-- A flag given by its letter, with its value after it. -/
theorem readFrom_letter {c : Char} {f : Flag} {accepts : String → Bool}
    (ha : written a = .short c none) (hrequest : g.request? (.short c none) = none)
    (hf : g.flag? (.short c none) = some f) (haccepts : f.accepts = some accepts)
    (hvalue : written value = .plain) (hok : accepts value = true) (hnew : m.value? f.name = none) :
    g.readFrom m (a :: value :: rest) =
      g.readFrom { m with flags := m.flags ++ [(f.name, value)] } rest := by
  have hdashes : a ≠ "--" := by
    rintro rfl
    have hlong : written "--" = .long "" none := by decide
    rw [hlong] at ha
    cases ha
  have hflag : written a ≠ .plain := by simp [ha]
  have htake : take m f value = .ok { m with flags := m.flags ++ [(f.name, value)] } := by
    simp [take, Matches.has, hnew, haccepts, hok]
  have hwritten : g.takeWritten m (written a) (some value) =
      .ok ({ m with flags := m.flags ++ [(f.name, value)] }, true) := by
    simp [takeWritten, ha, hrequest, hf, haccepts, attached?, hvalue, htake, Except.map]
  rw [readFrom, if_neg hdashes, if_neg hflag, List.head?_cons, hwritten]
  rfl

/-- Arguments that are read to their end are read the same way when others follow. -/
theorem readFrom_append {args : List String} (hdashes : "--" ∉ args)
    (h : g.readFrom m args = .ok (m', [])) (rest : List String) :
    g.readFrom m (args ++ rest) = g.readFrom m' rest := by
  -- The cases are those of the reader; where it stops early, nothing was read to the end.
  induction m, args using readFrom.induct g with
  | case1 m =>
      rw [readFrom] at h
      cases h
      rfl
  | case2 m tail => exact absurd List.mem_cons_self hdashes
  | case3 m a tail ha hplain hcommand =>
      rw [readFrom_command ha hplain hcommand] at h
      cases h
  | case4 m a tail ha hplain hcommand r htake =>
      rw [readFrom, if_neg ha, if_pos hplain, if_neg hcommand, htake] at h
      cases h
  | case5 m a tail ha hplain hcommand m₁ htake ih =>
      have hno : g.hasCommand a = false := by simpa using hcommand
      rw [readFrom_plain ha hplain hno htake] at h
      rw [List.cons_append, readFrom_plain ha hplain hno htake]
      exact ih (fun hmem => hdashes (List.mem_cons_of_mem a hmem)) h
  | case6 m a tail ha hflag r htake =>
      rw [readFrom, if_neg ha, if_neg hflag, htake] at h
      cases h
  | case7 m a tail ha hflag m₁ used htake ih =>
      rw [readFrom, if_neg ha, if_neg hflag, htake] at h
      have hrest := ih (fun hmem => hdashes (List.mem_cons_of_mem a (List.mem_of_mem_drop hmem))) h
      rw [List.cons_append, readFrom, if_neg ha, if_neg hflag]
      cases tail with
      | nil =>
          -- The last flag takes none of the arguments that now follow.
          obtain ⟨rfl, hnext⟩ := takeWritten_of_none htake
          rw [hnext]
          exact hrest
      | cons b tail =>
          rw [List.cons_append, List.head?_cons, ← List.head?_cons (a := b) (l := tail), htake]
          cases used with
          | false => exact hrest
          | true => exact hrest

end Grammar

/-! ## Arguments of encoders -/

section Encode

variable {n : Matches} {s : EncodeSettings} {f : ExternalEncoder.Files} {p : Path}
  {rest : List String} {config : Option Path}

/-- The text of a path that starts from the root is no flag. -/
theorem written_of_isAbsolute (h : p.isAbsolute = true) : written p.text = .plain := by
  rw [Path.isAbsolute, beq_iff_eq, List.head?_eq_some_iff] at h
  obtain ⟨cs, hcs⟩ := h
  exact written_of_head hcs (by decide)

theorem ne_of_isAbsolute (h : p.isAbsolute = true) {a : String}
    (ha : a.toList.head? ≠ some '/') : p.text ≠ a := by
  rintro rfl
  rw [Path.isAbsolute, beq_iff_eq] at h
  exact ha h

/-- The flags that an encoder is given, as they are kept. -/
def settingFlags (s : EncodeSettings) : List (String × String) :=
  ("bit-depth", toString s.depth.bits) ::
    if s.count = 0 then [] else [("quantize", toString s.count)]

/-- What stands for the settings is read as flags. -/
theorem readFrom_settings (hbits : n.value? "bit-depth" = none) (hcount : n.value? "quantize" = none)
    (s : EncodeSettings) :
    encodeGrammar.readFrom n (["-b", toString s.depth.bits] ++
        (if s.count = 0 then [] else ["-q", toString s.count]) ++ rest) =
      encodeGrammar.readFrom { n with flags := n.flags ++ settingFlags s } rest := by
  have hdepth : (byte? (toString s.depth.bits)).isSome = true := by
    rw [byte?, number?_toString (by cases s.depth <;> decide)]
    rfl
  have hsize : (size? (toString s.count)).isSome = true := by
    have hlt : s.count < UInt64.size :=
      Nat.lt_of_le_of_lt (Nat.le_trans s.count_le s.depth.capacity_le) (by decide)
    rw [size?, count?_toString hlt]
    rfl
  have hfirst : ∀ tail, encodeGrammar.readFrom n ("-b" :: toString s.depth.bits :: tail) =
      encodeGrammar.readFrom
        { n with flags := n.flags ++ [("bit-depth", toString s.depth.bits)] } tail := fun _ =>
    Grammar.readFrom_letter (f := encodeGrammar.flags[0]) (c := 'b') (by decide) rfl rfl rfl
      (written_toString _) hdepth hbits
  rw [List.append_assoc, List.cons_append, List.singleton_append, hfirst]
  by_cases hzero : s.count = 0
  · rw [settingFlags, if_pos hzero, if_pos hzero]
    rfl
  · have hnew : Matches.value?
        { n with flags := n.flags ++ [("bit-depth", toString s.depth.bits)] } "quantize" =
          none := by
      rw [Matches.value?] at hcount ⊢
      rw [List.lookup_append, hcount]
      rfl
    rw [settingFlags, if_neg hzero, if_neg hzero, List.cons_append, List.singleton_append]
    refine (Grammar.readFrom_letter (f := encodeGrammar.flags[2]) (c := 'q') (by decide) rfl rfl rfl
      (written_toString _) hsize hnew).trans ?_
    simp only [List.append_assoc, List.singleton_append]
    rfl

/-- The three files stand at the end. -/
theorem readFrom_files (hnone : n.positionals = []) {f : ExternalEncoder.Files}
    (hinput : f.input.isAbsolute = true) (himage : f.image.isAbsolute = true)
    (hpalette : f.palette.isAbsolute = true) :
    encodeGrammar.readFrom n [f.input.text, f.image.text, f.palette.text] =
      .ok ({ n with positionals := [f.input.text, f.image.text, f.palette.text] }, []) := by
  have htake : ∀ {m : Matches} {p : Path} (tail : List String), p.isAbsolute = true →
      m.positionals.length < 3 → encodeGrammar.readFrom m (p.text :: tail) =
        encodeGrammar.readFrom { m with positionals := m.positionals ++ [p.text] } tail := by
    intro m p tail hp hlt
    refine Grammar.readFrom_plain (ne_of_isAbsolute hp (by decide)) (written_of_isAbsolute hp)
      rfl ?_
    rw [Grammar.takePositional, if_pos ⟨hlt, ne_of_isAbsolute hp (by decide)⟩]
  rw [htake _ hinput (by simp [hnone]), htake _ himage (by simp [hnone]),
    htake _ hpalette (by simp [hnone]), Grammar.readFrom]
  simp [hnone]

/-- The arguments of every encoder, behind others. -/
theorem readFrom_standardArgs (hnone : n.positionals = []) (hbits : n.value? "bit-depth" = none)
    (hcount : n.value? "quantize" = none) (s : EncodeSettings) {f : ExternalEncoder.Files}
    (hinput : f.input.isAbsolute = true) (himage : f.image.isAbsolute = true)
    (hpalette : f.palette.isAbsolute = true) :
    encodeGrammar.readFrom n (ExternalEncoder.standardArgs s f) =
      .ok (⟨n.flags ++ settingFlags s, [f.input.text, f.image.text, f.palette.text]⟩, []) := by
  rw [ExternalEncoder.standardArgs, readFrom_settings hbits hcount]
  exact readFrom_files (n := ⟨n.flags ++ settingFlags s, n.positionals⟩) hnone hinput himage
    hpalette

theorem value?_append (flags : List (String × String)) (positionals : List String)
    (name : String) : (Matches.mk (n.flags ++ flags) positionals).value? name =
      (n.value? name).or (flags.lookup name) := by
  rw [Matches.value?, List.lookup_append, Matches.value?]

/-- The flags mean the settings; a count of zero is the one that is left out. -/
theorem ofMatches?_settingFlags (hbits : n.value? "bit-depth" = none)
    (hcount : n.value? "quantize" = none) (s : EncodeSettings) (input image palette : String) :
    EncodeArguments.ofMatches? ⟨n.flags ++ settingFlags s, [input, image, palette]⟩ =
      some ⟨s.depth.bits, s.count, ⟨input⟩, ⟨image⟩, ⟨palette⟩⟩ := by
  have hdepth : (byte? (toString s.depth.bits)) = some s.depth.bits :=
    number?_toString (by cases s.depth <;> decide)
  have hsize : (size? (toString s.count)) = some s.count :=
    count?_toString
      (Nat.lt_of_le_of_lt (Nat.le_trans s.count_le s.depth.capacity_le) (by decide))
  have hfirst : (settingFlags s).lookup "bit-depth" = some (toString s.depth.bits) := rfl
  have hsecond : ((settingFlags s).lookup "quantize").bind size? =
      if s.count = 0 then none else some s.count := by
    by_cases hzero : s.count = 0
    · rw [settingFlags, if_pos hzero, if_pos hzero]
      rfl
    · rw [settingFlags, if_neg hzero, if_neg hzero, ← hsize]
      rfl
  simp only [EncodeArguments.ofMatches?, Matches.get?, value?_append, hbits, hcount,
    Option.none_or, hfirst, hsecond, Option.bind_some, hdepth]
  by_cases hzero : s.count = 0
  · simp [hzero]
  · simp [hzero]

end Encode

/-! ## Command lines of encoders -/

/-- Arguments that choose the command `encode`, and perhaps a configuration file: those before the
name of the command and those after it are read to their end, and say nothing that every encoder
is told. -/
structure Chooses (args : List String) (config : Option Path) : Prop where
  split : ∃ before after m n, args = before ++ "encode" :: after ∧ "--" ∉ args ∧
    mainGrammar.read before = .ok (m, []) ∧ encodeGrammar.read after = .ok (n, []) ∧
    n.positionals = [] ∧ n.value? "bit-depth" = none ∧ n.value? "quantize" = none ∧
    config = (n.get? "config" path?).or (m.get? "config" path?)

/-- The command line that an external encoder is run with asks the command for just the settings
and files that it was made for. -/
theorem Chooses.read_invocation {e : ExternalEncoder} {config : Option Path}
    (h : Chooses e.args config) (s : EncodeSettings) {f : ExternalEncoder.Files}
    (hinput : f.input.isAbsolute = true) (himage : f.image.isAbsolute = true)
    (hpalette : f.palette.isAbsolute = true) : Line.read (e.invocation s f).args =
      .ok ⟨config, .encode ⟨s.depth.bits, s.count, f.input, f.image, f.palette⟩⟩ := by
  obtain ⟨before, after, m, n, hargs, hdashes, hbefore, hafter, hnone, hbits, hcount, rfl⟩ :=
    h.split
  rw [hargs] at hdashes
  have hmain : mainGrammar.read (e.invocation s f).args =
      .ok (m, "encode" :: (after ++ ExternalEncoder.standardArgs s f)) := by
    rw [ExternalEncoder.invocation, hargs, List.append_assoc, Grammar.read,
      Grammar.readFrom_append (fun hmem => hdashes (by simp [hmem])) hbefore]
    exact Grammar.readFrom_command (by decide) (by decide) (by decide)
  have hencode : encodeGrammar.read (after ++ ExternalEncoder.standardArgs s f) =
      .ok (⟨n.flags ++ settingFlags s, [f.input.text, f.image.text, f.palette.text]⟩, []) := by
    rw [Grammar.read, Grammar.readFrom_append (fun hmem => hdashes (by simp [hmem])) hafter]
    exact readFrom_standardArgs hnone hbits hcount s hinput himage hpalette
  have hconfig : Matches.get? ⟨n.flags ++ settingFlags s,
      [f.input.text, f.image.text, f.palette.text]⟩ "config" path? = n.get? "config" path? := by
    have hother : (settingFlags s).lookup "config" = none := by
      rw [settingFlags]
      split <;> rfl
    rw [Matches.get?, value?_append, hother, Option.or_none, Matches.get?]
  simp only [Line.read, hmain, readNamed, readCommand, hencode,
    ofMatches?_settingFlags hbits hcount, hconfig, Except.map]

end CommandLine
end PaletteBitmap
