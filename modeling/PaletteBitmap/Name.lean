/-!
# Names of choices

Some settings are chosen by name.  A name that is not known is refused with a message that
lists the ones that are.
-/

namespace PaletteBitmap

/-- A name that stands for none of the choices of its kind. -/
inductive UnknownName where
  | paletteFormat (name : String)
  | pixelOrder (name : String)
  | resizeMode (name : String)
  deriving DecidableEq, Repr

def UnknownName.message : UnknownName → String
  | .paletteFormat name =>
    "unknown palette format '" ++ name ++ "' (expected rgba8888 or psx16)"
  | .pixelOrder name =>
    "unknown pixel order '" ++ name ++ "' (expected 'low-first' or 'high-first')"
  | .resizeMode name =>
    "unknown resize mode '" ++ name ++ "' (expected 'stretch', 'fit' or 'crop')"

end PaletteBitmap
