/-!
# Compressed data

Entries of an archive may be compressed by the method called deflate: blocks of stored bytes, or of codes for bytes and for
copies of what came before. Codes are canonical: the lengths of all codes determine them.

Data that ends early or holds a code that does not exist is refused.
-/

namespace SheetFill.Package.Deflate

/-- The bytes that are left, and the bits of the byte that is being read. -/
structure Bits where
  rest : List UInt8
  held : Nat := 0
  count : Nat := 0

/-- The next bit. -/
def Bits.bit (b : Bits) : Option (Nat × Bits) :=
  match b.count, b.rest with
  | n + 1, rest => some (b.held % 2, ⟨rest, b.held / 2, n⟩)
  | 0, byte :: rest => some (byte.toNat % 2, ⟨rest, byte.toNat / 2, 7⟩)
  | 0, [] => none

/-- The number of the next bits, the lowest first. -/
def Bits.number (b : Bits) : Nat → Option (Nat × Bits)
  | 0 => some (0, b)
  | n + 1 => do
    let (low, b) ← b.bit
    let (high, b) ← b.number n
    some (low + 2 * high, b)

/-- Canonical codes: how many there are of each length, and their symbols in order. -/
structure Codes where
  counts : List Nat
  symbols : Array Nat

/-- The codes that lengths determine; a symbol of length zero has no code. -/
def Codes.ofLengths (lengths : List Nat) : Codes :=
  let withLength (n : Nat) := (lengths.zipIdx.filter (·.1 == n)).map Prod.snd
  let symbols := (List.range 15).map fun i => withLength (i + 1)
  ⟨symbols.map List.length, symbols.flatten.toArray⟩

/-- The symbol of the next code. `code` is what was read of it, `first` the first code of its length, and `index` the
position of that code's symbol. -/
def Codes.symbolFrom (symbols : Array Nat) :
    List Nat → (code first index : Nat) → Bits → Option (Nat × Bits)
  | [], _, _, _, _ => none
  | count :: rest, code, first, index, b => do
    let (bit, b) ← b.bit
    let code := code + bit
    if code < first + count then (symbols[index + (code - first)]?).map fun s => (s, b)
    else symbolFrom symbols rest (2 * code) (2 * (first + count)) (index + count) b

/-- The symbol of the next code. -/
def Codes.symbol (codes : Codes) (b : Bits) : Option (Nat × Bits) :=
  symbolFrom codes.symbols codes.counts 0 0 0 b

/-- The lengths of copies: the least one and the number of further bits. -/
def lengthTable : Array (Nat × Nat) :=
  #[(3, 0), (4, 0), (5, 0), (6, 0), (7, 0), (8, 0), (9, 0), (10, 0), (11, 1), (13, 1), (15, 1),
    (17, 1), (19, 2), (23, 2), (27, 2), (31, 2), (35, 3), (43, 3), (51, 3), (59, 3), (67, 4),
    (83, 4), (99, 4), (115, 4), (131, 5), (163, 5), (195, 5), (227, 5), (258, 0)]

/-- The distances of copies: the least one and the number of further bits. -/
def distanceTable : Array (Nat × Nat) :=
  #[(1, 0), (2, 0), (3, 0), (4, 0), (5, 1), (7, 1), (9, 2), (13, 2), (17, 3), (25, 3), (33, 4),
    (49, 4), (65, 5), (97, 5), (129, 6), (193, 6), (257, 7), (385, 7), (513, 8), (769, 8),
    (1025, 9), (1537, 9), (2049, 10), (3073, 10), (4097, 11), (6145, 11), (8193, 12),
    (12289, 12), (16385, 13), (24577, 13)]

/-- A number from a table, by its symbol and further bits. -/
def fromTable (table : Array (Nat × Nat)) (symbol : Nat) (b : Bits) : Option (Nat × Bits) := do
  let (least, more) ← table[symbol]?
  let (n, b) ← b.number more
  some (least + n, b)

/-- Copies `n` bytes from `distance` bytes back, one after the other. -/
def copy (distance : Nat) : Nat → Array UInt8 → Option (Array UInt8)
  | 0, out => some out
  | n + 1, out =>
    if distance = 0 ∨ out.size < distance then none
    else
      match out[out.size - distance]? with
      | some byte => copy distance n (out.push byte)
      | none => none

/-- The bytes of a block of codes; every symbol takes at least one bit. -/
def codedBlock (literals distances : Codes) :
    Nat → Bits → Array UInt8 → Option (Bits × Array UInt8)
  | 0, _, _ => none
  | fuel + 1, b, out => do
    let (symbol, b) ← literals.symbol b
    if symbol < 256 then codedBlock literals distances fuel b (out.push (UInt8.ofNat symbol))
    else if symbol = 256 then some (b, out)
    else do
      let (n, b) ← fromTable lengthTable (symbol - 257) b
      let (d, b) ← distances.symbol b
      let (distance, b) ← fromTable distanceTable d b
      let out ← copy distance n out
      codedBlock literals distances fuel b out

/-- The codes of a block that brings none. -/
def fixedLengths : List Nat :=
  List.replicate 144 8 ++ List.replicate 112 9 ++ List.replicate 24 7 ++ List.replicate 8 8

/-- The order in which the lengths of the codes for lengths are given. -/
def lengthOrder : List Nat :=
  [16, 17, 18, 0, 8, 7, 9, 6, 10, 5, 11, 4, 12, 3, 13, 2, 14, 1, 15]

/-- The next `n` numbers of three bits. -/
def triples : Nat → Bits → Option (List Nat × Bits)
  | 0, b => some ([], b)
  | n + 1, b => do
    let (x, b) ← b.number 3
    let (more, b) ← triples n b
    some (x :: more, b)

/-- Lengths of codes, written by codes of their own, up to a total number; the last one comes first. -/
def codeLengths (codes : Codes) (total : Nat) : Nat → Bits → List Nat → Option (List Nat × Bits)
  | 0, _, _ => none
  | fuel + 1, b, lengths =>
    if total < lengths.length then none
    else if lengths.length = total then some (lengths.reverse, b)
    else do
      let (symbol, b) ← codes.symbol b
      if symbol < 16 then codeLengths codes total fuel b (symbol :: lengths)
      else if symbol = 16 then do
        let last ← lengths.head?
        let (n, b) ← b.number 2
        codeLengths codes total fuel b (List.replicate (3 + n) last ++ lengths)
      else do
        let (n, b) ← b.number (if symbol = 17 then 3 else 7)
        let least := if symbol = 17 then 3 else 11
        codeLengths codes total fuel b (List.replicate (least + n) 0 ++ lengths)

/-- The codes that a block brings, for bytes and lengths and for distances. -/
def dynamicCodes (b : Bits) : Option (Codes × Codes × Bits) := do
  let (l, b) ← b.number 5
  let (d, b) ← b.number 5
  let (n, b) ← b.number 4
  let (given, b) ← triples (n + 4) b
  let ofOrder (symbol : Nat) := ((lengthOrder.zip given).lookup symbol).getD 0
  let codes := Codes.ofLengths ((List.range 19).map ofOrder)
  let (lengths, b) ← codeLengths codes (l + 257 + d + 1) 400 b []
  some (Codes.ofLengths (lengths.take (l + 257)), Codes.ofLengths (lengths.drop (l + 257)), b)

/-- The bytes of a block that is not compressed; it starts at the next whole byte. -/
def storedBlock (b : Bits) (out : Array UInt8) : Option (Bits × Array UInt8) :=
  match b.rest with
  | low :: high :: _ :: _ :: rest =>
    let n := low.toNat + 256 * high.toNat
    if n ≤ rest.length then some (⟨rest.drop n, 0, 0⟩, out ++ (rest.take n).toArray) else none
  | _ => none

/-- The bytes of blocks up to the last one; every block takes at least one bit. -/
def blocks : Nat → Bits → Array UInt8 → Option (Array UInt8)
  | 0, _, _ => none
  | fuel + 1, b, out => do
    let (last, b) ← b.bit
    let (kind, b) ← b.number 2
    let symbols := 8 * b.rest.length + 8
    let (b, out) ←
      match kind with
      | 0 => storedBlock b out
      | 1 =>
        codedBlock (.ofLengths fixedLengths) (.ofLengths (List.replicate 30 5)) symbols b out
      | 2 => do
        let (literals, distances, b) ← dynamicCodes b
        codedBlock literals distances symbols b out
      | _ => none
    if last = 1 then some out else blocks fuel b out

/-- The data that were compressed. -/
def inflate? (compressed : List UInt8) : Option (Array UInt8) :=
  blocks (8 * compressed.length + 1) ⟨compressed, 0, 0⟩ #[]

end SheetFill.Package.Deflate
