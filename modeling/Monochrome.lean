import Monochrome.Bytes
import Monochrome.Text.Utf8
import Monochrome.Text.Blank
import Monochrome.Scalar
import Monochrome.Decimal.Numeral
import Monochrome.Object.Document
import Monochrome.Fault
import Monochrome.Object.Access
import Monochrome.Filter.Basic
import Monochrome.Filter.AsciiHex
import Monochrome.Filter.Ascii85
import Monochrome.Filter.RunLength
import Monochrome.Filter.Predictor
import Monochrome.Filter.Bits
import Monochrome.Filter.Lzw
import Monochrome.Filter.PrefixCode
import Monochrome.Filter.Deflate.Basic
import Monochrome.Filter.Deflate.Reading
import Monochrome.Filter.Deflate.Writing
import Monochrome.Filter.Chain
import Monochrome.Content.Operator
import Monochrome.Content.Operation
import Monochrome.Content.Lexeme
import Monochrome.Object.Grammar
import Monochrome.Object.Printer
import Monochrome.Content.Grammar
import Monochrome.Content.InlineImage
import Monochrome.Content.Basic
import Monochrome.Calculator.Notation
import Monochrome.Calculator.Run
import Monochrome.Color
import Monochrome.NumericFunction.Basic
import Monochrome.NumericFunction.Grid
import Monochrome.NumericFunction.Evaluate
import Monochrome.NumericFunction.Gray
import Monochrome.NumericFunction.Storage
import Monochrome.ColorSpace.Basic
import Monochrome.ColorSpace.Convert
import Monochrome.ColorSpace.Gray
import Monochrome.ColorSpace.Storage
import Monochrome.Change
import Monochrome.Resources.Basic
import Monochrome.Resources.ColorSpaces
import Monochrome.Resources.Page
import Monochrome.Image.Raster
import Monochrome.Image.Encoder
import Monochrome.Image.Samples
import Monochrome.Image.Object
import Monochrome.Image.Inline
import Monochrome.ContentStream
import Monochrome.Shading
import Monochrome.Pattern
import Monochrome.XObject
import Monochrome.Resources.Paint
import Monochrome.GraphicsState
import Monochrome.Options
import Monochrome.Options.Reading
import Monochrome.Trail
import Monochrome.Names
import Monochrome.Conversion.Basic
import Monochrome.Conversion.Image
import Monochrome.Conversion.Paint
import Monochrome.Conversion.Stream
import Monochrome.Pages
import Monochrome.Conversion.Document
import Monochrome.Detection.Stream
import Monochrome.Detection.Document
import Monochrome.Proofs.Outcome
import Monochrome.Proofs.Change
import Monochrome.Proofs.Keeping
import Monochrome.Proofs.Limits
import Monochrome.Proofs.Circle
import Monochrome.Proofs.Nesting
import Monochrome.Proofs.Calculator.Procedures
import Monochrome.Proofs.Calculator.Ending
import Monochrome.Proofs.Text.Utf8
import Monochrome.Proofs.Content.Passing
import Monochrome.Proofs.Content.Printing
import Monochrome.Proofs.Content.Plain
import Monochrome.Proofs.Content.ImageRoundTrip
import Monochrome.Proofs.Content.RoundTrip
import Monochrome.Proofs.Object.Resolving
import Monochrome.Proofs.Object.Parts
import Monochrome.Proofs.Object.Settling
import Monochrome.Proofs.Object.Agreeing
import Monochrome.Proofs.Object.Roles
import Monochrome.Proofs.Resources.Replacing
import Monochrome.Proofs.Conversion.Keeping
import Monochrome.Proofs.Conversion.Nesting
import Monochrome.Proofs.Conversion.Remembering
import Monochrome.Proofs.Conversion.DeviceColors
import Monochrome.Proofs.Conversion.Following
import Monochrome.Proofs.Conversion.Replay
import Monochrome.Proofs.Conversion.PatternSpaces
import Monochrome.Proofs.Conversion.Outermost
import Monochrome.Proofs.Conversion.Repeating
import Monochrome.Proofs.Color
import Monochrome.Proofs.Binary.Patterns
import Monochrome.Proofs.Binary.Integers
import Monochrome.Proofs.Binary.Single
import Monochrome.Proofs.ColorSpace.Gray
import Monochrome.Proofs.Detection.Products
import Monochrome.Proofs.Detection.Judging
import Monochrome.Proofs.Detection.Afresh
import Monochrome.Proofs.Detection.Nesting
import Monochrome.Proofs.Detection.Converted
import Monochrome.Proofs.Detection.Left
import Monochrome.Proofs.Detection.Outermost
import Monochrome.Proofs.NumericFunction.Ending
import Monochrome.Proofs.NumericFunction.ReadingBack
import Monochrome.Proofs.NumericFunction.Samples
import Monochrome.Proofs.ColorSpace.GrayAgain
import Monochrome.Proofs.ColorSpace.Ending
import Monochrome.Proofs.ColorSpace.Agreeing
import Monochrome.Proofs.Conversion.InPlace
import Monochrome.Proofs.Conversion.Selecting
import Monochrome.Proofs.Conversion.Forgetting
import Monochrome.Proofs.Conversion.PageByPage
import Monochrome.Proofs.Conversion.PaintedImages
import Monochrome.Proofs.Conversion.Origin
import Monochrome.Proofs.Conversion.Preserving
import Monochrome.Proofs.Image.Agreeing
import Monochrome.Proofs.Conversion.Staying
import Monochrome.Proofs.Conversion.GrayContent
import Monochrome.Proofs.Conversion.Told
import Monochrome.Proofs.Conversion.Attaching
import Monochrome.Proofs.Conversion.Growing
import Monochrome.Proofs.Filter.Bits
import Monochrome.Proofs.Filter.AsciiHex
import Monochrome.Proofs.Filter.Ascii85
import Monochrome.Proofs.Filter.RunLength
import Monochrome.Proofs.Filter.PrefixCode
import Monochrome.Proofs.Filter.Deflate.Copies
import Monochrome.Proofs.Filter.Deflate.Codes
import Monochrome.Proofs.Filter.Deflate.RoundTrip
import Monochrome.Proofs.Filter.Lzw
import Monochrome.Proofs.Image.Encoding
import Monochrome.Proofs.Image.ReadingBack
import Monochrome.Proofs.Image.InlineReadingBack
import Monochrome.Proofs.Filter.StoredContent
import Monochrome.Proofs.Conversion.PageTree
import Monochrome.Proofs.Conversion.PageResources
import Monochrome.Proofs.Conversion.PageContent
import Monochrome.Proofs.Conversion.PageOrder
import Monochrome.Proofs.Conversion.Rewriting
import Monochrome.Proofs.Framing
import Monochrome.Proofs.Object.Sparing
import Monochrome.Proofs.Object.Gaining
import Monochrome.Proofs.Conversion.Using
import Monochrome.Proofs.Conversion.Naming
import Monochrome.Proofs.Conversion.Sparing
import Monochrome.Proofs.Calculator.Notation
import Monochrome.Proofs.NumericFunction.Storing
import Monochrome.Proofs.ColorSpace.Storing
import Monochrome.Proofs.ColorSpace.ThreeComponents
import Monochrome.Proofs.Binary.Order
import Monochrome.Proofs.Detection.Tolerance
import Monochrome.Proofs.ColorSpace.Palettes
import Monochrome.Proofs.Image.Palettes
import Monochrome.Proofs.Conversion.Palettes
import Monochrome.Proofs.Resources.Cells
import Monochrome.Proofs.Conversion.FailedPages
import Monochrome.Proofs.Shading
import Monochrome.Proofs.Image.InlineLength
import Monochrome.Proofs.Content.Positions
import Monochrome.Proofs.Content.Parts
import Monochrome.Proofs.Filter.Wrapping
import Monochrome.Proofs.Filter.Predictor
import Monochrome.Proofs.Image.Unpacking
import Monochrome.Proofs.Image.Pixels
import Monochrome.Proofs.Binary.Nearest
import Monochrome.Proofs.Decimal.Shortest
import Monochrome.Proofs.Calculator.ReadingBack
import Monochrome.Proofs.Calculator.Below
import Monochrome.Proofs.Calculator.StackOperators
import Monochrome.Proofs.NumericFunction.Luminance
import Monochrome.Proofs.NumericFunction.Interpolation
import Monochrome.Proofs.ColorSpace.OneInk
import Monochrome.Proofs.GraphicsState.Restoring
import Monochrome.Proofs.GraphicsState.Fitting
import Monochrome.Proofs.Object.Closed
import Monochrome.Proofs.Resources.Moving
import Monochrome.Proofs.Conversion.Passages
import Monochrome.Proofs.Conversion.Adding
import Monochrome.Proofs.Conversion.Walking
import Monochrome.Proofs.Conversion.Counting
import Monochrome.Proofs.Content.Lexing
