import SheetFill.Package.Deflate
import SheetFill.Text.Digits

/-!
# Archives

A package is an archive of named entries. At its end stands a directory, which says for every entry where its data are and
whether they are compressed. Numbers are little-endian.

Archives are written without compression. What is no archive is refused.
-/

namespace SheetFill.Package

/-- A named entry of an archive. -/
structure Entry where
  name : String
  data : List UInt8

namespace Archive

/-! ## Numbers -/

/-- The number of little-endian bytes. -/
def ofBytes : List UInt8 → Nat
  | [] => 0
  | b :: rest => b.toNat + 256 * ofBytes rest

/-- A number as `width` little-endian bytes. -/
def toBytes : (width value : Nat) → List UInt8
  | 0, _ => []
  | width + 1, value => UInt8.ofNat value :: toBytes width (value / 256)

/-- The number of `width` bytes at an offset. -/
def numberAt (bytes : List UInt8) (offset width : Nat) : Nat :=
  ofBytes ((bytes.drop offset).take width)

/-- The marks in front of a local header, of a line of the directory, and of the end of the directory. -/
def localMark : List UInt8 := [0x50, 0x4B, 3, 4]
def directoryMark : List UInt8 := [0x50, 0x4B, 1, 2]
def endMark : List UInt8 := [0x50, 0x4B, 5, 6]

/-! ## Reading -/

/-- The archive from the last end mark on; `found` is what was found before. -/
def fromEnd? : List UInt8 → Option (List UInt8) → Option (List UInt8)
  | [], found => found
  | b :: rest, found =>
    fromEnd? rest
      (if b = 0x50 ∧ (b :: rest).take 4 = endMark then some (b :: rest) else found)

/-- A line of the directory. -/
structure Line where
  name : String
  compressed : Bool
  size : Nat
  offset : Nat

/-- The text of bytes, if they are one. -/
def text? (bytes : List UInt8) : Option String :=
  String.fromUTF8? ⟨bytes.toArray⟩

/-- The first line of the directory, and what follows it. -/
def readLine (bytes : List UInt8) : Option (Line × List UInt8) :=
  if bytes.take 4 = directoryMark ∧ 46 ≤ bytes.length then
    let name := numberAt bytes 28 2
    let method := numberAt bytes 10 2
    if method = 0 ∨ method = 8 then
      (text? ((bytes.drop 46).take name)).map fun n =>
        (⟨n, method = 8, numberAt bytes 20 4, numberAt bytes 42 4⟩,
          bytes.drop (46 + name + numberAt bytes 30 2 + numberAt bytes 32 2))
    else none
  else none

/-- The next lines of the directory. -/
def readLines : Nat → List UInt8 → Option (List Line)
  | 0, _ => some []
  | n + 1, bytes => do
    let (line, rest) ← readLine bytes
    let lines ← readLines n rest
    some (line :: lines)

/-- The entry of a line. -/
def readEntry (bytes : List UInt8) (line : Line) : Option Entry :=
  let header := bytes.drop line.offset
  if header.take 4 = localMark then
    let data := header.drop (30 + numberAt header 26 2 + numberAt header 28 2)
    if data.length < line.size then none
    else if line.compressed then
      (Deflate.inflate? (data.take line.size)).map fun d => ⟨line.name, d.toList⟩
    else some ⟨line.name, data.take line.size⟩
  else none

/-- The entries of an archive. -/
def read? (bytes : List UInt8) : Option (List Entry) := do
  let tail ← fromEnd? bytes none
  if tail.length < 22 then none
  else do
    let lines ← readLines (numberAt tail 10 2) (bytes.drop (numberAt tail 16 4))
    lines.mapM (readEntry bytes)

/-- The data of the first entry with a name, the case of letters not counting. -/
def data? (entries : List Entry) (name : String) : Option (List UInt8) :=
  (entries.find? fun e => e.name.toList.map Char.toLower = name.toList.map Char.toLower).map
    (·.data)

/-! ## Writing -/

/-- The remainder of a byte in the checksum's field. -/
def checksumStep : Nat → UInt32 → UInt32
  | 0, c => c
  | n + 1, c => checksumStep n (if c % 2 = 1 then (c >>> 1) ^^^ 0xEDB88320 else c >>> 1)

/-- The remainder with one more byte. -/
def checksumByte (c : UInt32) (b : UInt8) : UInt32 :=
  checksumStep 8 ((c ^^^ b.toUInt32) &&& 0xFF) ^^^ (c >>> 8)

/-- The checksum of data. -/
def checksum (data : List UInt8) : UInt32 :=
  data.foldl checksumByte 0xFFFFFFFF ^^^ 0xFFFFFFFF

/-- What a local header and a line of the directory have in common. -/
def commonHeader (e : Entry) : List UInt8 :=
  toBytes 2 20 ++ toBytes 2 0x800 ++ toBytes 2 0 ++ toBytes 2 0 ++ toBytes 2 0x21 ++
    toBytes 4 (checksum e.data).toNat ++ toBytes 4 e.data.length ++ toBytes 4 e.data.length ++
    toBytes 2 e.name.utf8ByteSize ++ toBytes 2 0

/-- The bytes of a text. -/
def ofText (s : String) : List UInt8 :=
  s.toUTF8.toList

/-- An entry with its local header. -/
def localRecord (e : Entry) : List UInt8 :=
  localMark ++ commonHeader e ++ ofText e.name ++ e.data

/-- The line of the directory for an entry at an offset. -/
def directoryRecord (e : Entry) (offset : Nat) : List UInt8 :=
  directoryMark ++ toBytes 2 20 ++ commonHeader e ++ toBytes 2 0 ++ toBytes 2 0 ++ toBytes 2 0 ++
    toBytes 4 0 ++ toBytes 4 offset ++ ofText e.name

/-- The directory of entries that start at an offset. -/
def directory : List Entry → Nat → List UInt8
  | [], _ => []
  | e :: rest, offset =>
    directoryRecord e offset ++ directory rest (offset + (localRecord e).length)

/-- The bytes of an archive. -/
def write (entries : List Entry) : List UInt8 :=
  let body := entries.flatMap localRecord
  let lines := directory entries 0
  body ++ lines ++ endMark ++ toBytes 2 0 ++ toBytes 2 0 ++ toBytes 2 entries.length ++
    toBytes 2 entries.length ++ toBytes 4 lines.length ++ toBytes 4 body.length ++ toBytes 2 0

end Archive

end SheetFill.Package
