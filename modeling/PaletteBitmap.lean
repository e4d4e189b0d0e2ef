import PaletteBitmap.Bitmap.Depth
import PaletteBitmap.Bitmap.Indexed
import PaletteBitmap.Bitmap.Packed
import PaletteBitmap.Bitmap.Repack
import PaletteBitmap.Color.Hex
import PaletteBitmap.Color.Light
import PaletteBitmap.Color.Perceptual
import PaletteBitmap.Color.Rgba
import PaletteBitmap.CommandLine.Arguments
import PaletteBitmap.CommandLine.Grammar
import PaletteBitmap.CommandLine.Help
import PaletteBitmap.CommandLine.Run
import PaletteBitmap.Config.Basic
import PaletteBitmap.Config.Reader
import PaletteBitmap.Conversion.Error
import PaletteBitmap.Conversion.External
import PaletteBitmap.Conversion.Options
import PaletteBitmap.Conversion.Output
import PaletteBitmap.Conversion.Pair
import PaletteBitmap.Conversion.Pipeline
import PaletteBitmap.Conversion.Request
import PaletteBitmap.Encoder
import PaletteBitmap.File.Error
import PaletteBitmap.File.Path
import PaletteBitmap.File.Tree
import PaletteBitmap.File.Workspace
import PaletteBitmap.Histogram
import PaletteBitmap.Main
import PaletteBitmap.Name
import PaletteBitmap.Nearest
import PaletteBitmap.Palette.Basic
import PaletteBitmap.Palette.Layout
import PaletteBitmap.Png.Basic
import PaletteBitmap.Png.Checksum
import PaletteBitmap.Png.Chunk
import PaletteBitmap.Png.Filter
import PaletteBitmap.Png.Inflate
import PaletteBitmap.Png.Picture
import PaletteBitmap.Png.PrefixCode
import PaletteBitmap.Png.Reader
import PaletteBitmap.Png.Writer
import PaletteBitmap.Preview
import PaletteBitmap.Proofs.FirstUse
import PaletteBitmap.Proofs.Means
import PaletteBitmap.Proofs.MedianCut
import PaletteBitmap.Proofs.Refinement
import PaletteBitmap.Quantize.Basic
import PaletteBitmap.Quantize.ColorBox
import PaletteBitmap.Quantize.ColorSum
import PaletteBitmap.Quantize.Refine
import PaletteBitmap.Raster.Basic
import PaletteBitmap.Raster.Lanczos
import PaletteBitmap.Raster.Resample
import PaletteBitmap.Shell.Reader
import PaletteBitmap.Shell.Run
import PaletteBitmap.Shell.Script
import PaletteBitmap.Shell.State
import PaletteBitmap.Shell.Tools
import PaletteBitmap.Text.Blank
import PaletteBitmap.Text.Lossy
import PaletteBitmap.Yaml.Block
import PaletteBitmap.Yaml.Cursor
import PaletteBitmap.Yaml.Node
import PaletteBitmap.Yaml.Scalar
import PaletteBitmap.Yaml.Tag
import PaletteBitmap.Yaml.Token
import PaletteBitmap.Yaml.Value
import PaletteBitmap.Proofs.Quantization
import PaletteBitmap.Proofs.Packing
import PaletteBitmap.Proofs.BitLayout
import PaletteBitmap.Proofs.PaletteFile
import PaletteBitmap.Proofs.Lossless
import PaletteBitmap.Proofs.Staging
import PaletteBitmap.Proofs.Commit
import PaletteBitmap.Proofs.Delivery
import PaletteBitmap.Proofs.Entries
import PaletteBitmap.Proofs.Conversion
import PaletteBitmap.Proofs.SourceKept
import PaletteBitmap.Proofs.Numbering
import PaletteBitmap.Proofs.Gamut
import PaletteBitmap.Proofs.PairCheck
import PaletteBitmap.Proofs.Guards
import PaletteBitmap.Proofs.GuardedCut
import PaletteBitmap.Proofs.GuardedRun
import PaletteBitmap.Proofs.Failures
import PaletteBitmap.Proofs.SingleFile
import PaletteBitmap.Proofs.PreviewCheck
import PaletteBitmap.Proofs.PreviewPicture
import PaletteBitmap.Proofs.LayoutChoice
import PaletteBitmap.Proofs.ArgumentList
import PaletteBitmap.Proofs.LocationPath
import PaletteBitmap.Proofs.Delegation
import PaletteBitmap.Proofs.Reordering
import PaletteBitmap.Proofs.Repacking
import PaletteBitmap.Proofs.Search
import PaletteBitmap.Proofs.Boxes
import PaletteBitmap.Proofs.Partition
import PaletteBitmap.Proofs.Reseeding
import PaletteBitmap.Proofs.Settling
import PaletteBitmap.Proofs.Tally
import PaletteBitmap.Proofs.PaletteRoundTrip
import PaletteBitmap.Proofs.IndexedPacking
import PaletteBitmap.Proofs.NearestPoint
import PaletteBitmap.Proofs.PaletteMatching
import PaletteBitmap.Proofs.Framing
import PaletteBitmap.Proofs.OwnSize
import PaletteBitmap.Proofs.Separation
import PaletteBitmap.Proofs.Trimming
import PaletteBitmap.Proofs.ColorGrammar
import PaletteBitmap.Proofs.ColorRoundTrip
import PaletteBitmap.Proofs.NamedEntries
import PaletteBitmap.Proofs.MedianSplit
import PaletteBitmap.Proofs.RasterShape
import PaletteBitmap.Proofs.WordCut
import PaletteBitmap.Proofs.WordRun
import PaletteBitmap.Proofs.WordResults
