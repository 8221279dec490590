import Monochrome.Object.Basic

/-!
# Faults

Every way in which reading, converting or judging a document can fail, by cause, with the
wording of all of them in one place.
-/

namespace Monochrome

/-- The resource categories that hold what can be colored. -/
inductive ResourceKind
  | colorSpace
  | pattern
  | shading
  | xobject
deriving DecidableEq, Repr

/-- The key of a category in a resource dictionary. -/
def ResourceKind.key : ResourceKind → String
  | .colorSpace => "ColorSpace"
  | .pattern => "Pattern"
  | .shading => "Shading"
  | .xobject => "XObject"

/-- What a name was looked up as. -/
inductive Definition
  | resource (kind : ResourceKind)
  | colorSpace
  | colorSpaceFamily
deriving DecidableEq, Repr

/-- The sort of value that was expected where another one was found. -/
inductive Expected
  | directObject
  | name
  | number
  | numberArray
  | filterName
  | decodeParameters
  | function
  | functionArray
  | colorSpace
  | profileComponents
  | paletteEnd
  | palette
  | colorantNames
  | patternSpace
  | underlyingSpace
  | plainColor
  | fittingColor
  | plainSpace
  | resourceDictionary
  | resourceCategory
  | pattern
  | knownPattern
  | patternShading
  | shading
  | shadingSpace
  | xobject
deriving DecidableEq, Repr

/-- The reasons for which the operands of an operator are refused. -/
inductive OperandFault
  | count (expected found : Nat)
  | notANumber
  | notAName
  | noPatternName
  | noXObjectName
  | noInlineImage
deriving DecidableEq, Repr

/-- The reasons for which a content stream cannot be read. -/
inductive ContentFault
  | unreadable
  | unreadableDictionary
  | malformedDictionary
  | keyWithoutValue
  | keyNotAName
  | noImageData
  | noImageEnd
deriving DecidableEq, Repr

/-- The codings that are not carried out. -/
inductive CodecFault
  | filter (name : String)
  | notLast (name : String)
deriving DecidableEq, Repr

/-- The parameters with which data cannot be decoded or encoded. -/
inductive ParameterFault
  | predictorOnWriting (filter : String) (predictor : Int64)
  | differenceBits (bits : Nat)
  | unknownPredictor (predictor : Int64)
  | photographicComponents (count : Nat)
deriving DecidableEq, Repr

/-- The reasons for which a color cannot be computed. -/
inductive ColorFault
  | profileWithoutCount
  | shortArray (family : String)
  | componentCount (found expected : Nat)
  | outsidePalette (index : Nat)
  | imageComponents (found expected : Nat)
deriving DecidableEq, Repr

/-- The reasons for which an image cannot be decoded or encoded. -/
inductive ImageFault
  | shortData (length width height : Nat)
  | sampleBits (bits : Int)
  | noDimension (key : String)
  | rasterSize
  | inflate
  | lzw
  | photographic
deriving DecidableEq, Repr

/-- The reasons for which a function cannot be read or evaluated. -/
inductive FunctionFault
  | noType
  | noRange
  | unknownType (type : Int64)
  | inputCount (expected found : Nat)
  | noInputs
  | shortEncode
  | noParts
  | shortSamples
  | shortGrid
  | noProgram
  | unknownOperator (token : String)
  | unterminated
  | underflow
  | notANumber
  | notAnInteger
  | notABoolean
  | notAProcedure
  | divisionByZero
  | operandTypes (operator : String)
  | outOfRange (operator : String)
  | nesting
deriving DecidableEq, Repr

/-- The reasons for which an object is not found in a document. -/
inductive LookupFault
  | noObject (target : ObjectId)
  | noKey (key : String)
  | wrongType (expected found : String)
  | referenceChain
deriving DecidableEq, Repr

/-- The ways in which reading, converting or judging a document can fail. -/
inductive Fault
  | content (cause : ContentFault)
  | undefined (definition : Definition) (name : String)
  | mismatch (expected : Expected)
  | operands (operator : String) (cause : OperandFault)
  | unsupportedSpace (components : Nat)
  | parameters (cause : ParameterFault)
  | codec (cause : CodecFault)
  | cyclic (target : ObjectId)
  | nesting (limit : Nat)
  | color (cause : ColorFault)
  | image (cause : ImageFault)
  | function (cause : FunctionFault)
  | lookup (cause : LookupFault)
  /-- Color spaces or functions that contain themselves. -/
  | endless
deriving DecidableEq, Repr

/-- The category of a definition as messages name it. -/
def Definition.text : Definition → String
  | .resource kind => kind.key
  | .colorSpace => "colorspace"
  | .colorSpaceFamily => "colorspace family"

/-- The description of an expected value. -/
def Expected.text : Expected → String
  | .directObject => "direct object"
  | .name => "name"
  | .number => "number"
  | .numberArray => "number array"
  | .filterName => "filter name"
  | .decodeParameters => "decode parameters"
  | .function => "function"
  | .functionArray => "function array"
  | .colorSpace => "colorspace"
  | .profileComponents => "ICC component count"
  | .paletteEnd => "integer hival"
  | .palette => "indexed lookup table"
  | .colorantNames => "colorant names"
  | .patternSpace => "pattern colorspace"
  | .underlyingSpace => "pattern colorspace with underlying space"
  | .plainColor => "plain color"
  | .fittingColor => "color with one value per colorspace component"
  | .plainSpace => "plain colorspace"
  | .resourceDictionary => "resource dictionary"
  | .resourceCategory => "resource category dictionary"
  | .pattern => "pattern"
  | .knownPattern => "tiling pattern stream or shading pattern dictionary"
  | .patternShading => "shading pattern with /Shading"
  | .shading => "shading dictionary"
  | .shadingSpace => "shading with /ColorSpace"
  | .xobject => "XObject stream"

/-- The wording of a refusal of operands. -/
def OperandFault.text : OperandFault → String
  | .count expected found => s!"expected {expected} operands, got {found}"
  | .notANumber => "expected a number"
  | .notAName => "expected a name"
  | .noPatternName => "missing pattern name"
  | .noXObjectName => "missing XObject name"
  | .noInlineImage => "expected one inline image"

/-- The wording of a failure to read content. -/
def ContentFault.text : ContentFault → String
  | .unreadable => "couldn't parse input: invalid content stream"
  | .unreadableDictionary =>
    "inline image dictionary: couldn't parse input: invalid content stream"
  | .malformedDictionary => "malformed inline image dictionary"
  | .keyWithoutValue => "inline image key without value"
  | .keyNotAName => "inline image key is not a name"
  | .noImageData => "inline image without ID"
  | .noImageEnd => "inline image without EI"

/-- The wording of a coding that is not carried out. -/
def CodecFault.text : CodecFault → String
  | .filter name => name
  | .notLast name => s!"{name} followed by further filters"

/-- The wording of parameters that are not supported. -/
def ParameterFault.text : ParameterFault → String
  | .predictorOnWriting filter predictor => s!"{filter} with predictor {predictor.toInt}"
  | .differenceBits bits => s!"TIFF predictor with {bits} bits per component"
  | .unknownPredictor predictor => s!"unknown predictor {predictor.toInt}"
  | .photographicComponents count => s!"DCT encoder with {count} components for a gray image"

/-- The wording of a color that cannot be computed. -/
def ColorFault.text : ColorFault → String
  | .profileWithoutCount => "ICC profile without /N"
  | .shortArray family => s!"/{family} colorspace array too short"
  | .componentCount found expected =>
    s!"{found} components for a colorspace with {expected}"
  | .outsidePalette index => s!"index {index} outside of the lookup table"
  | .imageComponents found expected =>
    s!"{found} image components for a colorspace with {expected}"

/-- The wording of an image that cannot be decoded or encoded; nothing is said about
photographic data. -/
def ImageFault.text : ImageFault → String
  | .shortData length width height =>
    s!": image data too short: {length} bytes for {width}x{height} pixels"
  | .sampleBits bits => s!": unsupported /BitsPerComponent {bits}"
  | .noDimension key => s!": image without valid /{key}"
  | .rasterSize => ": gray raster does not match its size"
  | .inflate => ": FlateDecode failed"
  | .lzw => ": LZWDecode failed"
  | .photographic => ""

/-- The wording of a function that cannot be read or evaluated. -/
def FunctionFault.text : FunctionFault → String
  | .noType => "missing /FunctionType"
  | .noRange => "sampled function without /Range"
  | .unknownType type => s!"unsupported function type {type.toInt}"
  | .inputCount expected found => s!"function takes {expected} inputs, got {found}"
  | .noInputs => "function without inputs"
  | .shortEncode => "stitching /Encode too short"
  | .noParts => "stitching function without subfunctions"
  | .shortSamples => "sampled function data too short"
  | .shortGrid => "sampled function /Size or /Encode too short"
  | .noProgram => "calculator program must start with '\x7b'"
  | .unknownOperator token => "unknown calculator operator \x60" ++ token ++ "\x60"
  | .unterminated => "unterminated calculator procedure"
  | .underflow => "calculator stack underflow"
  | .notANumber => "expected number"
  | .notAnInteger => "expected integer"
  | .notABoolean => "expected boolean"
  | .notAProcedure => "expected procedure"
  | .divisionByZero => "division by zero"
  | .operandTypes operator => "\x60" ++ operator ++ "\x60"
  | .outOfRange operator => "\x60" ++ operator ++ "\x60 out of range"
  | .nesting => "calculator procedures nested without end"

/-- The wording of an object that is not found. -/
def LookupFault.text : LookupFault → String
  | .noObject target => s!"object ID {target.number} {target.generation} not found"
  | .noKey key => s!"missing required dictionary key \"{key}\""
  | .wrongType expected found =>
    s!"object has wrong type; expected type {expected} but found type {found}"
  | .referenceChain =>
    "dereferencing object reached limit, may indicate a reference cycle"

/-- The message of a fault. -/
def Fault.message : Fault → String
  | .content cause => s!"content stream syntax error: {cause.text}"
  | .undefined definition name => s!"undefined {definition.text} resource /{name}"
  | .mismatch expected => s!"type mismatch: expected {expected.text}"
  | .operands operator cause =>
    "malformed operands for \x60" ++ operator ++ "\x60: " ++ cause.text
  | .unsupportedSpace components =>
    s!"unsupported colorspace for grayscale conversion: N = {components}"
  | .parameters cause => s!"unsupported encoding parameters: {cause.text}"
  | .codec cause => s!"unimplemented codec: {cause.text}"
  | .cyclic target => s!"cyclic reference to object {target.number} {target.generation} R"
  | .nesting limit => s!"nesting of forms / patterns deeper than {limit} levels"
  | .color cause => s!"color conversion error: {cause.text}"
  | .image cause => s!"image error{cause.text}"
  | .function cause => s!"function error: {cause.text}"
  | .lookup cause => s!"PDF error: {cause.text}"
  | .endless => "definition nested without end"

end Monochrome
