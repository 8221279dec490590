import Monochrome.Filter.Bits

/-!
# LZW data

The data is a string of codes of nine to twelve bits.  A code below 256 stands for a byte, 256
empties the phrase table, 257 ends the data, and the codes from 258 on stand for phrases: each
code after the first adds the phrase before it with the first byte of its own.  Codes grow
when the next phrase needs one more bit, or, with early change, one phrase sooner.  Data may
start without the code that empties the table, for the table is empty then.  The writer always
starts with that code, and goes on with the longest phrase that it can use.
-/

namespace Monochrome
namespace Lzw

/-- The code that empties the phrase table. -/
def clearCode : Nat := 256

/-- The code that ends the data. -/
def endCode : Nat := 257

/-- The code of the first phrase. -/
def firstPhrase : Nat := 258

/-- The number of codes that twelve bits can tell apart. -/
def codeLimit : Nat := 4096

/-- The width of the next code when the given code will be the next to be defined. -/
def nextWidth (early : Bool) (width next : Nat) : Nat :=
  if width < 12 && 2 ^ width ≤ next + early.toNat then width + 1 else width

/-- What the reader knows between two codes. -/
structure Reader where
  width : Nat
  /-- The phrases defined so far, in the order of their codes. -/
  phrases : Array Bytes
  /-- The phrase of the code before. -/
  last : Bytes

/-- The reader after a clear code. -/
def Reader.initial : Reader :=
  ⟨9, #[], []⟩

/-- The phrase of a code that is no control code. -/
def phrase? (phrases : Array Bytes) (code : Nat) : Option Bytes :=
  if code < clearCode then some [code.toUInt8]
  else if firstPhrase ≤ code then phrases[code - firstPhrase]?
  else none

/-- The phrase that a code stands for, and the reader after it.  The code that is being defined
stands for the last phrase with its own first byte. -/
def Reader.step? (reader : Reader) (early : Bool) (code : Nat) : Option (Bytes × Reader) :=
  match reader.last with
  | [] =>
    if code < clearCode then
      some ([code.toUInt8], { reader with last := [code.toUInt8] })
    else none
  | first :: _ =>
    let next := firstPhrase + reader.phrases.size
    let phrase? :=
      if code = next && next < codeLimit then some (reader.last ++ [first])
      else phrase? reader.phrases code
    match phrase? with
    | none => none
    | some phrase =>
      if next < codeLimit then
        some (phrase,
          { width := nextWidth early reader.width (next + 1)
            phrases := reader.phrases.push (reader.last ++ phrase.take 1)
            last := phrase })
      else some (phrase, { reader with last := phrase })

/-- Reads codes until the end code.  The phrases read so far are kept in reverse.  Every code
takes bits, so the number of bytes bounds the number of codes. -/
def decodeFrom (early : Bool) : Nat → Reader → List Bytes → Bits → Option Bytes
  | 0, _, _, _ => none
  | fuel + 1, reader, output, bits =>
    match Bits.takeHigh? reader.width bits with
    | none => none
    | some (code, rest) =>
      if code = endCode then some output.reverse.flatten
      else if code = clearCode then decodeFrom early fuel Reader.initial output rest
      else
        match reader.step? early code with
        | none => none
        | some (phrase, next) => decodeFrom early fuel next (phrase :: output) rest

/-- The bytes that LZW data stands for. -/
def decode (early : Bool) (data : Bytes) : Option Bytes :=
  decodeFrom early (data.length + 1) Reader.initial [] (Bits.ofBytesHigh data)

/-- A phrase that the writer has defined: the code that it extends and the byte that it adds. -/
structure Phrase where
  parent : Nat
  added : UInt8
  /-- Whether the writer will use its code. -/
  usable : Bool

/-- Of the phrases that extend the same one, only the one after this many others takes a code
that is never used. -/
def fanOut : Nat := 16

/-- What the writer knows between two bytes: the phrases defined so far, newest first. -/
structure Writer where
  width : Nat
  phrases : List Phrase

/-- The writer after a clear code. -/
def Writer.initial : Writer :=
  ⟨9, []⟩

/-- The phrase that extends another one by a byte; the phrases before it tell whether it is
usable. -/
def Phrase.extending (phrases : List Phrase) (code : Nat) (byte : UInt8) : Phrase :=
  ⟨code, byte, phrases.countP (·.parent = code) != fanOut⟩

/-- The code of the usable phrase that extends another one by a byte. -/
def extension? (code : Nat) (byte : UInt8) : List Phrase → Option Nat
  | [] => none
  | phrase :: older =>
    if phrase.parent = code && phrase.added = byte && phrase.usable then
      some (firstPhrase + older.length)
    else extension? code byte older

/-- Writes the codes of the longest phrases, then the end code.  The given code is that of the
phrase read so far. -/
def encodeFrom (early : Bool) (writer : Writer) (code : Nat) : Bytes → Bits
  | [] =>
    let next := firstPhrase + writer.phrases.length
    Bits.highFirst writer.width code ++
      Bits.highFirst (nextWidth early writer.width next) endCode
  | byte :: rest =>
    match extension? code byte writer.phrases with
    | some longer => encodeFrom early writer longer rest
    | none =>
      let next := firstPhrase + writer.phrases.length
      let width := nextWidth early writer.width next
      let written := Bits.highFirst writer.width code
      if codeLimit ≤ next then
        written ++ Bits.highFirst width clearCode ++
          encodeFrom early Writer.initial byte.toNat rest
      else
        written ++
          encodeFrom early ⟨width, .extending writer.phrases code byte :: writer.phrases⟩
            byte.toNat rest

/-- The LZW data of bytes. -/
def encode (early : Bool) (bytes : Bytes) : Bytes :=
  Bits.toBytesHigh <|
    Bits.highFirst 9 clearCode ++
      match bytes with
      | [] => Bits.highFirst 9 endCode
      | byte :: rest => encodeFrom early Writer.initial byte.toNat rest

end Lzw
end Monochrome
