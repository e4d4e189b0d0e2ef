import PaletteBitmap.CommandLine.Help
import PaletteBitmap.Config.Reader
import PaletteBitmap.Conversion.Pipeline
import PaletteBitmap.Preview

/-!
# The commands at work

Each command reads the configuration, lets the command line override it, does its work and says
what it has done.  A failure is reported in one line.
-/

namespace PaletteBitmap
namespace CommandLine

/-- What a run of the program comes to. -/
structure Reply where
  /-- The exit status: 0 if all went well, 1 after a failure, 2 for a wrong command line. -/
  exit : Nat := 0
  output : String := ""
  complaint : Option String := none
  deriving DecidableEq, Repr

namespace Reply

def lines (ls : List String) : Reply := { output := String.join (ls.map (· ++ "\n")) }

def failure (message : String) : Reply := { exit := 1, complaint := some ("Error: " ++ message) }

end Reply

/-- The environment variable that names a configuration file. -/
def configVariable : String := "BGPACK_CONFIG"

/-! ## Commands -/

/-- A configuration with the choices of a command line in place of its own. -/
def ConvertArguments.override (a : ConvertArguments) (c : Config) : Config :=
  { c with
    resizeMode := (a.mode.map ResizeMode.name).getD c.resizeMode
    padColor := a.padColor.getD c.padColor
    paletteFormat := (a.format.map PaletteFormat.name).getD c.paletteFormat
    pixelOrder := (a.order.map PixelOrder.name).getD c.pixelOrder
    cutoff := a.cutoff.getD c.cutoff
    padPalette := a.pad.getD c.padPalette
    iterations := a.iterations.getD c.iterations
    encoder := { c.encoder with program := a.encoder.or c.encoder.program } }

def ConvertArguments.params (a : ConvertArguments) (c : Config) : ConversionParams where
  size := some (a.width.getD c.width, a.height.getD c.height)
  bits := a.bits.getD c.bits
  count := a.count.getD c.count
  paths := ⟨a.input, a.image, a.palette⟩

def EncodeArguments.params (a : EncodeArguments) : ConversionParams where
  size := none
  bits := a.bits
  count := a.count
  paths := ⟨a.input, a.image, a.palette⟩

def convertedLine (source : Path) (r : ConversionReport) : String :=
  s!"Converted {source.text} -> {r.outputs.image.text} ({r.imageBytes} bytes), " ++
    s!"{r.outputs.palette.text} ({r.entries} entries, {r.paletteBytes} bytes)"

def runConvert (run : Runner) (w : Workspace) (c : Config) (a : ConvertArguments) :
    Reply × Workspace :=
  match Pipeline.ofConfig (a.override c) with
  | .error e => (.failure e.message, w)
  | .ok p =>
    match p.run run w (a.params c) with
    | (.error e, w') => (.failure e.message, w')
    | (.ok report, w') => (.lines [convertedLine a.input report], w')

/-- Encodes an image at its own size, never by an external encoder. -/
def runEncode (run : Runner) (w : Workspace) (c : Config) (a : EncodeArguments) :
    Reply × Workspace :=
  match c.options with
  | .error e => (.failure e.message, w)
  | .ok options =>
    match (Pipeline.mk options .builtIn).run run w a.params with
    | (.error e, w') => (.failure e.message, w')
    | (.ok _, w') => ({}, w')

def runPreview (w : Workspace) (c : Config) (a : PreviewArguments) : Reply × Workspace :=
  match c.options with
  | .error e => (.failure e.message, w)
  | .ok options =>
    let bits := a.bits.getD c.bits
    match BitDepth.ofBits? bits with
    | none => (.failure (ConvertError.invalidBitDepth bits).message, w)
    | some depth =>
      let request : PreviewRequest :=
        { image := a.image, palette := a.palette, width := a.width.getD c.width,
          height := a.height.getD c.height, depth := depth,
          format := a.format.getD options.format, order := a.order.getD options.order,
          output := a.output }
      match request.render w with
      | (.error e, w') => (.failure e.message, w')
      | (.ok (), w') => (.lines ["Wrote " ++ a.output.text], w')

/-- The lines that show where the configuration comes from and what it says. -/
def statusLines (c : Config) (o : ConversionOptions) (origin : Config.Origin) : List String :=
  let note := match origin with
    | .builtIn => s!" ({configVariable} not set)"
    | .file _ => ""
  [ s!"{programName} v{programVersion}",
    "Packed palette bitmaps for embedded displays",
    "",
    "Configuration:",
    s!"  Source         = {origin.text}{note}",
    s!"  Size           = {c.width}x{c.height}",
    s!"  Bit depth      = {c.bits}",
    s!"  Quantize       = {c.count}",
    s!"  Resize mode    = {o.mode.name}",
    s!"  Pad color      = {o.padColor.text}",
    s!"  Refine passes  = {o.iterations}",
    s!"  Pixel order    = {o.order.name}",
    s!"  Palette format = {o.format.name}",
    s!"  Alpha cutoff   = {o.cutoff}",
    s!"  Pad palette    = {o.pad}",
    "  Encoder        = " ++ ((c.encoder.program.map Path.text).getD "built-in"),
    "",
    "Commands:",
    s!"  {programName} convert INPUT --output-image IMG --output-palette PAL",
    s!"  {programName} encode -b B [-q Q] INPUT IMG PAL",
    s!"  {programName} preview --image IMG --palette PAL --output PNG",
    "",
    s!"Run '{programName} help <command>' for all options." ]

def runStatus (c : Config) (origin : Config.Origin) : Reply :=
  match c.options with
  | .error e => .failure e.message
  | .ok o => .lines (statusLines c o origin)

/-! ## The program -/

/-- The reply to a command line that asks for nothing to be done. -/
def refuse : Refusal → Reply
  | .usage => { exit := 2 }
  | .version => .lines [s!"{programName} {programVersion}"]
  | .help command => .lines (grammarOf command).page

/-- Runs the program with arguments, where `environment` is the configuration file that the
environment names. -/
def run (runner : Runner) (w : Workspace) (environment : Option Path) (args : List String) :
    Reply × Workspace :=
  match Line.read args with
  | .error r => (refuse r, w)
  | .ok line =>
    match Config.load w line.config environment with
    | .error e => (.failure e.message, w)
    | .ok (c, origin) =>
      match line.command with
      | .status => (runStatus c origin, w)
      | .convert a => runConvert runner w c a
      | .encode a => runEncode runner w c a
      | .preview a => runPreview w c a

end CommandLine
end PaletteBitmap
