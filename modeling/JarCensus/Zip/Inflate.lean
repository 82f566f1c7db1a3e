import JarCensus.Bytes

/-!
# Compressed data

Compressed data is a row of blocks, the last of which is marked. A block is stored as
it is, or coded with a fixed or a transmitted pair of prefix codes: one for bytes and
lengths of repeats, one for the distances of repeats. A repeat that reaches back
beyond the start of the data reads zeros.
-/

namespace JarCensus.Zip.Inflate

/-- Why compressed data has no plain form. -/
inductive Fault where
  /-- The data breaks a rule of the format. -/
  | corrupt
  /-- The data ends before its last block does. -/
  | incomplete
  deriving DecidableEq, Repr

/-- The bits that are left, each byte from its lowest bit on. -/
structure Bits where
  /-- The bits left of the byte that was begun. -/
  begun : Nat
  /-- The number of bits left of the byte that was begun. -/
  count : Nat
  /-- The bytes that were not begun. -/
  rest : Bytes

/-- A step that takes bits. -/
abbrev Reader := StateT Bits (Except Fault)

/-- Takes one bit. -/
def bit : Reader Nat := fun bits =>
  match bits.count with
  | left + 1 => .ok (bits.begun % 2, { bits with begun := bits.begun / 2, count := left })
  | 0 =>
    match bits.rest with
    | byte :: rest => .ok (byte.toNat % 2, ⟨byte.toNat / 2, 7, rest⟩)
    | [] => .error .incomplete

/-- Takes a number of the given count of bits, lowest first. -/
def number : Nat → Reader Nat
  | 0 => pure 0
  | count + 1 => do
    let low ← bit
    let high ← number count
    return low + 2 * high

/-- Drops what is left of the byte that was begun. -/
def alignToByte : Reader Unit := modify fun bits => ⟨0, 0, bits.rest⟩

/-- A prefix code in which codes of one length are consecutive. -/
structure Code where
  /-- The number of codes of each length, from one bit on. -/
  counts : List Nat
  /-- The symbols in the order of their codes. -/
  symbols : Array Nat
  deriving Repr

namespace Code

/-- The symbols whose code has the given length. -/
def symbolsOfLength (lengths : List Nat) (length : Nat) : List Nat :=
  (lengths.zipIdx.filter (·.1 == length)).map (·.2)

/-- The code of the given lengths, where zero means that a symbol has none. -/
def assigned (lengths : List Nat) : Code :=
  let longest := lengths.foldl max 1
  let groups := (List.range longest).map fun n => symbolsOfLength lengths (n + 1)
  ⟨groups.map (·.length), groups.flatten.toArray⟩

/-- The sum of the shares of all codes, where a code of length zero has the share
`2 * unit`. -/
def share : List Nat → Nat → Nat
  | [], _ => 0
  | count :: rest, unit => count * unit + share rest (unit / 2)

/-- Whether every row of bits that is long enough starts with one code and no other. -/
def isComplete (code : Code) : Bool :=
  let unit := Nat.pow 2 (code.counts.length - 1)
  share code.counts unit == 2 * unit

/-- Whether the code has no symbol, or a single one that takes one bit. -/
def isMeagre (code : Code) : Bool := code.counts == [0] || code.counts == [1]

/-- The code of the given lengths if it is complete or, where that is permitted, meagre. -/
def ofLengths (permitsMeagre : Bool) (lengths : List Nat) : Except Fault Code :=
  let code := assigned lengths
  if code.isComplete || permitsMeagre && code.isMeagre then .ok code else .error .corrupt

/-- Takes one more bit of a code for each remaining length, until it is a whole code.
`value` is the code so far, `first` the first code of its length and `index` the place
of that code among the symbols. -/
def symbolFrom (code : Code) : List Nat → Nat → Nat → Nat → Reader Nat
  | [], _, _, _ => throw .corrupt
  | count :: rest, value, first, index => do
    let value := 2 * value + (← bit)
    let first := 2 * first
    if value < first + count then
      match code.symbols[index + (value - first)]? with
      | some symbol => return symbol
      | none => throw .corrupt
    else symbolFrom code rest value (first + count) (index + count)

/-- Takes one symbol. Bits that start no code break the format as soon as there are as
many of them as in the longest code. -/
def symbol (code : Code) : Reader Nat := symbolFrom code code.counts 0 0 0

end Code

/-- The least length and the number of extra bits of each length symbol. -/
def lengthTable : Array (Nat × Nat) :=
  #[(3, 0), (4, 0), (5, 0), (6, 0), (7, 0), (8, 0), (9, 0), (10, 0), (11, 1), (13, 1),
    (15, 1), (17, 1), (19, 2), (23, 2), (27, 2), (31, 2), (35, 3), (43, 3), (51, 3),
    (59, 3), (67, 4), (83, 4), (99, 4), (115, 4), (131, 5), (163, 5), (195, 5), (227, 5),
    (258, 0)]

/-- The least distance and the number of extra bits of each distance symbol. -/
def distanceTable : Array (Nat × Nat) :=
  #[(1, 0), (2, 0), (3, 0), (4, 0), (5, 1), (7, 1), (9, 2), (13, 2), (17, 3), (25, 3),
    (33, 4), (49, 4), (65, 5), (97, 5), (129, 6), (193, 6), (257, 7), (385, 7), (513, 8),
    (769, 8), (1025, 9), (1537, 9), (2049, 10), (3073, 10), (4097, 11), (6145, 11),
    (8193, 12), (12289, 12), (16385, 13), (24577, 13)]

/-- Takes the value of a symbol of a table. -/
def tabled (table : Array (Nat × Nat)) (symbol : Nat) : Reader Nat :=
  match table[symbol]? with
  | some (least, extra) => do return least + (← number extra)
  | none => throw .corrupt

/-- The data with a repeat of the given length at the given distance. -/
def repeatBack (distance : Nat) : Nat → Array UInt8 → Array UInt8
  | 0, out => out
  | length + 1, out =>
    let byte := if distance ≤ out.size then out.getD (out.size - distance) 0 else 0
    repeatBack distance length (out.push byte)

/-- Takes symbols until the end of the block, at most as many as the fuel says. -/
def codedBlock (bytesAndLengths distances : Code) : Nat → Array UInt8 → Reader (Array UInt8)
  | 0, _ => throw .incomplete
  | fuel + 1, out => do
    let symbol ← bytesAndLengths.symbol
    if symbol < 256 then codedBlock bytesAndLengths distances fuel (out.push (UInt8.ofNat symbol))
    else if symbol = 256 then return out
    else
      let length ← tabled lengthTable (symbol - 257)
      let distance ← tabled distanceTable (← distances.symbol)
      codedBlock bytesAndLengths distances fuel (repeatBack distance length out)

/-- Takes a stored block. -/
def storedBlock (out : Array UInt8) : Reader (Array UInt8) := do
  alignToByte
  let length ← number 16
  let complement ← number 16
  if length + complement ≠ 0xFFFF then throw .corrupt
  let bits ← get
  match Bytes.split? length bits.rest with
  | some (front, back) =>
    set { bits with rest := back }
    return out ++ front.toArray
  | none => throw .incomplete

/-- The code of bytes and lengths that needs no transmission. -/
def fixedLengths : List Nat :=
  List.replicate 144 8 ++ List.replicate 112 9 ++ List.replicate 24 7 ++ List.replicate 8 8

/-- The code of distances that needs no transmission. -/
def fixedDistances : List Nat := List.replicate 32 5

/-- The order in which the lengths of the code of code lengths are transmitted. -/
def lengthOrder : List Nat :=
  [16, 17, 18, 0, 8, 7, 9, 6, 10, 5, 11, 4, 12, 3, 13, 2, 14, 1, 15]

/-- Takes the given count of numbers of three bits. -/
def shortNumbers : Nat → Reader (List Nat)
  | 0 => pure []
  | count + 1 => do
    let first ← number 3
    return first :: (← shortNumbers count)

/-- Takes code lengths until there are as many as wanted. A repeat that passes the
wanted count breaks the format. -/
def codeLengths (code : Code) (wanted : Nat) : Nat → Array Nat → Reader (Array Nat)
  | 0, _ => throw .corrupt
  | fuel + 1, lengths => do
    if lengths.size = wanted then return lengths
    else if wanted < lengths.size then throw .corrupt
    else
      let symbol ← code.symbol
      match symbol with
      | 16 =>
        match lengths.back? with
        | none => throw .corrupt
        | some last =>
          let count ← number 2
          codeLengths code wanted fuel (lengths ++ Array.replicate (3 + count) last)
      | 17 =>
        let count ← number 3
        codeLengths code wanted fuel (lengths ++ Array.replicate (3 + count) 0)
      | 18 =>
        let count ← number 7
        codeLengths code wanted fuel (lengths ++ Array.replicate (11 + count) 0)
      | length => codeLengths code wanted fuel (lengths.push length)

/-- Takes a transmitted pair of codes. -/
def transmittedCodes : Reader (Code × Code) := do
  let literals := 257 + (← number 5)
  let distances := 1 + (← number 5)
  let sent := 4 + (← number 4)
  if 286 < literals ∨ 30 < distances then throw .corrupt
  let short ← shortNumbers sent
  let lengthOf := fun symbol => (((lengthOrder.zip short).find? (·.1 == symbol)).map (·.2)).getD 0
  let code ← Code.ofLengths false ((List.range 19).map lengthOf)
  let wanted := literals + distances
  let lengths := (← codeLengths code wanted (wanted + 1) #[]).toList
  return (← Code.ofLengths true (lengths.take literals),
    ← Code.ofLengths true (lengths.drop literals))

/-- Takes blocks until the last one, at most as many as the fuel says. Every block has
fewer symbols than the fuel says too. -/
def blocks (symbols : Nat) : Nat → Array UInt8 → Reader (Array UInt8)
  | 0, _ => throw .incomplete
  | fuel + 1, out => do
    let isLast ← bit
    let kind ← number 2
    let out ← match kind with
      | 0 => storedBlock out
      | 1 => do
        codedBlock (.assigned fixedLengths) (.assigned fixedDistances) symbols out
      | 2 => do
        let (bytesAndLengths, distances) ← transmittedCodes
        codedBlock bytesAndLengths distances symbols out
      | _ => throw .corrupt
    if isLast = 1 then return out else blocks symbols fuel out

/-- The plain form of compressed data. Every block and every symbol takes a bit at
least, so neither are there more of them than bits. Bytes after the last block are
ignored. -/
def inflate (bytes : Bytes) : Except Fault Bytes :=
  let bits := 8 * bytes.length + 1
  (((blocks bits bits #[]).run ⟨0, 0, bytes⟩).map (·.1.toList))

end JarCensus.Zip.Inflate
