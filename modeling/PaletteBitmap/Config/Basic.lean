import PaletteBitmap.Color.Hex
import PaletteBitmap.Conversion.Options
import PaletteBitmap.File.Error

/-!
# Configurations

What a conversion is done with when nothing else is asked for.  Choices made by name and the
color of the border are kept as texts; `Config.options` reads them and names the key whose text
means nothing.
-/

namespace PaletteBitmap

inductive ConfigError where
  | read (path : Path) (cause : FileError)
  | parse (reason : String)
  /-- The text of a key stands for nothing. -/
  | invalidValue (key reason : String)
  deriving DecidableEq, Repr

def ConfigError.message : ConfigError → String
  | .read path cause => "Failed to read config " ++ path.text ++ ": " ++ cause.message
  | .parse reason => "Failed to parse config: " ++ reason
  | .invalidValue key reason => "Invalid value for '" ++ key ++ "': " ++ reason

/-- An encoder that is a program of its own. -/
structure EncoderCommand where
  program : Option Path := none
  /-- The arguments before those of every encoder. -/
  args : List String := []
  deriving DecidableEq, Repr, Inhabited

/-- The defaults of conversions. -/
structure Config where
  width : Nat := 320
  height : Nat := 240
  bits : Nat := 4
  count : Nat := 16
  resizeMode : String := "stretch"
  padColor : String := "#00000000"
  iterations : Nat := 4
  pixelOrder : String := "low-first"
  paletteFormat : String := "rgba8888"
  cutoff : UInt8 := 128
  padPalette : Bool := false
  encoder : EncoderCommand := {}
  deriving DecidableEq, Repr, Inhabited

namespace Config

def choice (key : String) (message : ε → String) : Except ε α → Except ConfigError α
  | .ok a => .ok a
  | .error e => .error (.invalidValue key (message e))

def options (c : Config) : Except ConfigError ConversionOptions := do
  let mode ← choice "resize_mode" UnknownName.message (ResizeMode.ofName c.resizeMode)
  let padColor ← choice "pad_color" Color.HexError.message (Rgba.ofText c.padColor)
  let order ← choice "pixel_order" UnknownName.message (PixelOrder.ofName c.pixelOrder)
  let format ← choice "palette_format" UnknownName.message
    (PaletteFormat.ofName c.paletteFormat)
  return { mode, padColor, iterations := c.iterations, order, format, cutoff := c.cutoff,
           pad := c.padPalette }

/-- The options of the defaults are the defaults of the options. -/
theorem options_default : ({} : Config).options.toOption = some {} := by decide +kernel

end Config

end PaletteBitmap
