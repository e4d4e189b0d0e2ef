import PaletteBitmap.Config.Basic
import PaletteBitmap.Yaml.Value

/-!
# Reading configurations

A configuration file is a YAML table; each of its keys may be left out.  The file is named by
the caller or by the environment; with neither, all is as built in.
-/

namespace PaletteBitmap
namespace Config

open Yaml (Document Keys Problem)

/-! ## Keys -/

def encoderKeys : Keys EncoderCommand :=
  [ Keys.key "command" Document.optionalText? fun e v => { e with program := v.map Path.mk },
    Keys.key "args" Document.texts? fun e v => { e with args := v } ]

def keys : Keys Config :=
  [ Keys.key "width" (Document.nat? UInt32.size) fun c v => { c with width := v },
    Keys.key "height" (Document.nat? UInt32.size) fun c v => { c with height := v },
    Keys.key "bit_depth" (Document.nat? UInt8.size) fun c v => { c with bits := v },
    Keys.key "quantize" (Document.nat? UInt64.size) fun c v => { c with count := v },
    Keys.key "resize_mode" Document.text? fun c v => { c with resizeMode := v },
    Keys.key "pad_color" Document.text? fun c v => { c with padColor := v },
    Keys.key "refine_iterations" (Document.nat? UInt64.size) fun c v => { c with iterations := v },
    Keys.key "pixel_order" Document.text? fun c v => { c with pixelOrder := v },
    Keys.key "palette_format" Document.text? fun c v => { c with paletteFormat := v },
    Keys.key "alpha_cutoff" (Document.nat? UInt8.size) fun c v =>
      { c with cutoff := UInt8.ofNat v },
    Keys.key "pad_palette" Document.bool? fun c v => { c with padPalette := v },
    ("encoder", fun d c v =>
      (encoderKeys.takeTable d {} v).map fun e => { c with encoder := e }) ]

/-! ## Texts and files -/

/-- Reads a configuration; a blank text leaves everything as built in. -/
def ofText (text : String) : Except ConfigError Config :=
  if (Text.trim text.toList).isEmpty then .ok {}
  else
    match Document.ofText? text with
    | none => .error (.parse Problem.malformed.message)
    | some d =>
      match keys.takeTable d {} d.root with
      | .error p => .error (.parse p.message)
      | .ok c => .ok c

def ofFile (w : Workspace) (p : Path) : Except ConfigError Config :=
  match w.readText p with
  | .error e => .error (.read p e)
  | .ok text => ofText text

/-! ## Sources -/

/-- Where a configuration comes from. -/
inductive Origin where
  | builtIn
  | file (path : Path)
  deriving DecidableEq, Repr

def Origin.text : Origin → String
  | builtIn => "built-in defaults"
  | file path => path.text

/-- The file to read: the one the caller names, else the one the environment names, where an
empty name is none. -/
def path? (explicit environment : Option Path) : Option Path :=
  explicit.or (environment.filter fun p => p.text ≠ "")

/-- Reads the configuration to be used.  A file that is named has to be readable. -/
def load (w : Workspace) (explicit environment : Option Path) :
    Except ConfigError (Config × Origin) :=
  match path? explicit environment with
  | none => .ok ({}, .builtIn)
  | some p =>
    match ofFile w p with
    | .error e => .error e
    | .ok c => .ok (c, .file p)

end Config
end PaletteBitmap
