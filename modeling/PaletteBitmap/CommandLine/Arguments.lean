import PaletteBitmap.Bitmap.Depth
import PaletteBitmap.CommandLine.Grammar
import PaletteBitmap.File.Path
import PaletteBitmap.Palette.Layout
import PaletteBitmap.Raster.Resample

/-!
# Commands and their arguments

The three commands, `convert`, `encode` and `preview`, and what can be said with each.  Without
a command the effective configuration is shown.  `--config` names the configuration file before
or after the name of the command; the one after it counts.
-/

namespace PaletteBitmap
namespace CommandLine

/-! ## Commands -/

/-- The arguments of `convert`; what is left out is taken from the configuration. -/
structure ConvertArguments where
  input : Path
  image : Path
  palette : Path
  width : Option Nat := none
  height : Option Nat := none
  bits : Option Nat := none
  count : Option Nat := none
  mode : Option ResizeMode := none
  padColor : Option String := none
  format : Option PaletteFormat := none
  order : Option PixelOrder := none
  cutoff : Option UInt8 := none
  pad : Option Bool := none
  iterations : Option Nat := none
  encoder : Option Path := none
  deriving DecidableEq, Repr

structure EncodeArguments where
  bits : Nat
  /-- The most palette entries; zero keeps all colors. -/
  count : Nat := 0
  input : Path
  image : Path
  palette : Path
  deriving DecidableEq, Repr

/-- The arguments of `preview`; what is left out is taken from the configuration. -/
structure PreviewArguments where
  image : Path
  palette : Path
  output : Path
  width : Option Nat := none
  height : Option Nat := none
  bits : Option Nat := none
  format : Option PaletteFormat := none
  order : Option PixelOrder := none
  deriving DecidableEq, Repr

inductive Command where
  | status
  | convert (a : ConvertArguments)
  | encode (a : EncodeArguments)
  | preview (a : PreviewArguments)
  deriving DecidableEq, Repr

/-! ## Grammars -/

/-- A flag with a value that is read by a function. -/
def Flag.of (name : String) (short : Option Char) (read : String → Option α) (about : String) :
    Flag :=
  { name, short, about, accepts := some fun s => (read s).isSome }

/-- The same flag where it has to be given. -/
def Flag.must (f : Flag) : Flag := { f with required := true }

/-- The same flag where only its letter can be given. -/
def Flag.letterOnly (f : Flag) : Flag := { f with long := false }

/-- A side of an image. -/
def side? : String → Option Nat := number? UInt32.size

def byte? : String → Option Nat := number? UInt8.size

def size? : String → Option Nat := count? UInt64.size

def path? (s : String) : Option Path := if s = "" then none else some ⟨s⟩

def choice? (read : String → Except UnknownName α) (s : String) : Option α := (read s).toOption

/-- The flag that every command knows. -/
def configFlag : Flag :=
  .of "config" none path? "YAML config file (defaults to $BGPACK_CONFIG, then built-in defaults)"

def convertGrammar : Grammar where
  command := some "convert"
  about := "Resample an image and write the packed bitmap and palette"
  flags :=
    [ configFlag,
      (Flag.of "output-image" none path? "Packed bitmap output path").must,
      (Flag.of "output-palette" none path? "Palette output path").must,
      .of "width" none side? "Target width in pixels",
      .of "height" none side? "Target height in pixels",
      .of "bit-depth" (some 'b') byte? "Bits per pixel: 1, 2, 4 or 8",
      .of "quantize" (some 'q') size?
        "Maximum palette entries (0 keeps the image's own colors)",
      .of "resize-mode" none (choice? ResizeMode.ofName) "stretch, fit or crop",
      .of "pad-color" none some "Border color for fit mode, e.g. \"#000000FF\"",
      .of "palette-format" none (choice? PaletteFormat.ofName) "rgba8888 or psx16",
      .of "pixel-order" none (choice? PixelOrder.ofName) "low-first or high-first",
      .of "alpha-cutoff" none byte? "Alpha below which psx16 entries become transparent",
      { name := "pad-palette", about := "Pad the palette file to 2^B entries" },
      { name := "no-pad-palette",
        about := "Write only the used palette entries, even if the config pads" },
      .of "refine-iterations" none size? "Perceptual refinement passes after the median cut",
      .of "encoder-command" none path?
        "Delegate encoding to this program instead of the built-in encoder" ]
  positionals := [⟨"<INPUT>", "Source PNG or JPEG"⟩]

def encodeGrammar : Grammar where
  command := some "encode"
  about := "Encode an image at its own size: \x60-b B [-q Q] INPUT IMAGE_OUT PALETTE_OUT\x60"
  flags :=
    [ (Flag.of "bit-depth" (some 'b') byte? "Bits per pixel: 1, 2, 4 or 8").must.letterOnly,
      configFlag,
      (Flag.of "quantize" (some 'q') size?
        "Maximum palette entries; omitted keeps the image's own colors").letterOnly ]
  positionals :=
    [ ⟨"<INPUT>", "Source image, encoded at its own size"⟩,
      ⟨"<IMAGE_OUT>", "Packed bitmap output path"⟩,
      ⟨"<PALETTE_OUT>", "Palette output path"⟩ ]

def previewGrammar : Grammar where
  command := some "preview"
  about := "Render an image/palette pair back into a PNG"
  flags :=
    [ configFlag,
      (Flag.of "image" none path? "Packed bitmap to read").must,
      (Flag.of "palette" none path? "Palette file to read").must,
      .of "width" none side? "Bitmap width in pixels",
      .of "height" none side? "Bitmap height in pixels",
      .of "bit-depth" (some 'b') byte? "Bits per pixel of the bitmap",
      .of "palette-format" none (choice? PaletteFormat.ofName) "rgba8888 or psx16",
      .of "pixel-order" none (choice? PixelOrder.ofName) "low-first or high-first",
      (Flag.of "output" (some 'o') path? "PNG output path").must ]

/-- The grammar of `help`, whose arguments are read in another way. -/
def helpGrammar : Grammar where
  command := some "help"
  about := "Print this message or the help of the given subcommand(s)"
  flags := []
  positionals := [⟨"[COMMAND]...", "Print help for the subcommand(s)"⟩]
  help := false

/-- The grammars of all commands. -/
def commandGrammars : List Grammar := [convertGrammar, encodeGrammar, previewGrammar, helpGrammar]

def mainGrammar : Grammar where
  about := "Convert images into packed palette bitmaps for embedded displays"
  flags := [configFlag]
  commands := commandGrammars.filterMap fun g => g.command.map fun name => ⟨name, g.about⟩
  version := true

def grammarOf (command : Option String) : Grammar :=
  (commandGrammars.find? fun g => g.command == command).getD mainGrammar

/-! ## Reading commands -/

namespace Matches

/-- The value of a flag as a function reads it. -/
def get? (m : Matches) (name : String) (read : String → Option α) : Option α :=
  (m.value? name).bind read

end Matches

/-- The arguments of `convert`; padding cannot be both asked for and refused. -/
def ConvertArguments.ofMatches? (m : Matches) : Option ConvertArguments :=
  match m.positionals, m.get? "output-image" path?, m.get? "output-palette" path? with
  | [input], some image, some palette =>
    if m.has "pad-palette" && m.has "no-pad-palette" then none
    else some
      { input := ⟨input⟩, image, palette
        width := m.get? "width" side?
        height := m.get? "height" side?
        bits := m.get? "bit-depth" byte?
        count := m.get? "quantize" size?
        mode := m.get? "resize-mode" (choice? ResizeMode.ofName)
        padColor := m.value? "pad-color"
        format := m.get? "palette-format" (choice? PaletteFormat.ofName)
        order := m.get? "pixel-order" (choice? PixelOrder.ofName)
        cutoff := (m.get? "alpha-cutoff" byte?).map UInt8.ofNat
        pad := if m.has "pad-palette" then some true
          else if m.has "no-pad-palette" then some false else none
        iterations := m.get? "refine-iterations" size?
        encoder := m.get? "encoder-command" path? }
  | _, _, _ => none

def EncodeArguments.ofMatches? (m : Matches) : Option EncodeArguments :=
  match m.positionals, m.get? "bit-depth" byte? with
  | [input, image, palette], some bits =>
    some ⟨bits, (m.get? "quantize" size?).getD 0, ⟨input⟩, ⟨image⟩, ⟨palette⟩⟩
  | _, _ => none

def PreviewArguments.ofMatches? (m : Matches) : Option PreviewArguments :=
  match m.get? "image" path?, m.get? "palette" path?, m.get? "output" path? with
  | some image, some palette, some output =>
    some
      { image, palette, output
        width := m.get? "width" side?
        height := m.get? "height" side?
        bits := m.get? "bit-depth" byte?
        format := m.get? "palette-format" (choice? PaletteFormat.ofName)
        order := m.get? "pixel-order" (choice? PixelOrder.ofName) }
  | _, _, _ => none

/-- A command line: the configuration file that is named, and what is to be done. -/
structure Line where
  config : Option Path
  command : Command
  deriving DecidableEq, Repr

def Command.paths : Command → List Path
  | .status => []
  | .convert a => [a.input, a.image, a.palette]
  | .encode a => [a.input, a.image, a.palette]
  | .preview a => [a.image, a.palette, a.output]

def Line.paths (l : Line) : List Path := l.config.toList ++ l.command.paths

def readCommand (g : Grammar) (ofMatches? : Matches → Option α) (args : List String) :
    Except Refusal (Option Path × α) :=
  match g.read args with
  | .error r => .error r
  | .ok (m, _) =>
    match ofMatches? m with
    | some a => .ok (m.get? "config" path?, a)
    | none => .error .usage

/-- Reads what help is asked for: for the program, or for one command. -/
def readHelp : List String → Refusal
  | [] => .help none
  | [name] => if mainGrammar.hasCommand name then .help (some name) else .usage
  | _ => .usage

def readNamed (name : String) (args : List String) : Except Refusal (Option Path × Command) :=
  match name with
  | "convert" =>
    (readCommand convertGrammar ConvertArguments.ofMatches? args).map fun (c, a) =>
      (c, .convert a)
  | "encode" =>
    (readCommand encodeGrammar EncodeArguments.ofMatches? args).map fun (c, a) =>
      (c, .encode a)
  | "preview" =>
    (readCommand previewGrammar PreviewArguments.ofMatches? args).map fun (c, a) =>
      (c, .preview a)
  | _ => .error (readHelp args)

def Line.read (args : List String) : Except Refusal Line :=
  match mainGrammar.read args with
  | .error r => .error r
  | .ok (m, []) => .ok ⟨m.get? "config" path?, .status⟩
  | .ok (m, name :: rest) =>
    match readNamed name rest with
    | .error r => .error r
    | .ok (config, command) => .ok ⟨config.or (m.get? "config" path?), command⟩

end CommandLine
end PaletteBitmap
