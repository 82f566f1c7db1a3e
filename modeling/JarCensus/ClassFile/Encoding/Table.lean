import JarCensus.ClassFile.Annotations

/-!
# Encoded annotation tables

What annotation tables consist of, which bytes stand for them, how deep their values
stand, and which names they list, apart from any reader.
-/

namespace JarCensus.ClassFile

/-- An element value. -/
inductive ElementValue where
  /-- A tag with words that nothing interprets. -/
  | words (tag : UInt8) (content : Bytes)
  /-- An annotation with the type in a slot and pairs of a name and a value. -/
  | nested (type : UInt16) (pairs : List (UInt16 × ElementValue))
  /-- A list of values. -/
  | array (values : List ElementValue)
  deriving Repr

namespace ElementValue

mutual

/-- The bytes of an element value. -/
def encode : ElementValue → Bytes
  | words tag content => tag :: content
  | nested type pairs =>
    64 :: Bytes.ofWord16 type ++ Bytes.ofWord16 (.ofNat pairs.length) ++ encodePairs pairs
  | array values => 91 :: Bytes.ofWord16 (.ofNat values.length) ++ encodeValues values

/-- The bytes of pairs, one after the other. -/
def encodePairs : List (UInt16 × ElementValue) → Bytes
  | [] => []
  | pair :: rest => encodePair pair ++ encodePairs rest

/-- The bytes of a pair. -/
def encodePair : UInt16 × ElementValue → Bytes
  | (name, value) => Bytes.ofWord16 name ++ encode value

/-- The bytes of values, one after the other. -/
def encodeValues : List ElementValue → Bytes
  | [] => []
  | value :: rest => encode value ++ encodeValues rest

end

mutual

/-- Whether the tags are known and the counts fit their words. -/
def WellFormed : ElementValue → Prop
  | words tag content =>
    ∃ count, ElementForm.ofTag? tag = some (.words count) ∧ content.length = 2 * count
  | nested _ pairs => pairs.length < 65536 ∧ PairsWellFormed pairs
  | array values => values.length < 65536 ∧ ValuesWellFormed values

/-- Whether the values of pairs are well formed. -/
def PairsWellFormed : List (UInt16 × ElementValue) → Prop
  | [] => True
  | pair :: rest => PairWellFormed pair ∧ PairsWellFormed rest

/-- Whether the value of a pair is well formed. -/
def PairWellFormed : UInt16 × ElementValue → Prop
  | (_, value) => WellFormed value

/-- Whether values are well formed. -/
def ValuesWellFormed : List ElementValue → Prop
  | [] => True
  | value :: rest => WellFormed value ∧ ValuesWellFormed rest

end

mutual

/-- How many levels of values stand below a value. -/
def height : ElementValue → Nat
  | words .. => 0
  | nested _ pairs => heightOfPairs pairs
  | array values => heightOfValues values

/-- One more than the height of the highest value of pairs, or zero without pairs. -/
def heightOfPairs : List (UInt16 × ElementValue) → Nat
  | [] => 0
  | pair :: rest => max (heightOfPair pair + 1) (heightOfPairs rest)

/-- The height of the value of a pair. -/
def heightOfPair : UInt16 × ElementValue → Nat
  | (_, value) => height value

/-- One more than the height of the highest value, or zero without values. -/
def heightOfValues : List ElementValue → Nat
  | [] => 0
  | value :: rest => max (height value + 1) (heightOfValues rest)

end

end ElementValue

/-- An annotation of a table. -/
structure TableEntry where
  /-- The slot of the descriptor of its type. -/
  type : UInt16
  /-- The pairs of an element name and a value. -/
  pairs : List (UInt16 × ElementValue)
  deriving Repr

namespace TableEntry

/-- The bytes of an annotation. -/
def encode (entry : TableEntry) : Bytes :=
  Bytes.ofWord16 entry.type ++ Bytes.ofWord16 (.ofNat entry.pairs.length) ++
    ElementValue.encodePairs entry.pairs

/-- Whether the tags are known and the counts fit their words. -/
def WellFormed (entry : TableEntry) : Prop :=
  entry.pairs.length < 65536 ∧ ElementValue.PairsWellFormed entry.pairs

/-- Whether no value stands deeper than a level, the values of the annotation itself
standing at level zero. -/
def FitsDepth (limit : Nat) (entry : TableEntry) : Prop :=
  ElementValue.heightOfPairs entry.pairs ≤ limit + 1

end TableEntry

/-- The bytes of an annotation table. -/
def encodeTable (table : List TableEntry) : Bytes :=
  Bytes.ofWord16 (.ofNat table.length) ++ table.flatMap TableEntry.encode

/-- Whether a table has known tags and counts that fit, and its types are texts of the
pool. -/
def TableWellFormed (pool : ConstantPool) (table : List TableEntry) : Prop :=
  table.length < 65536 ∧
    ∀ entry ∈ table, entry.WellFormed ∧ ∃ text, pool.utf8 entry.type = .ok text

/-- The type names of a table. -/
def tableNames (pool : ConstantPool) (table : List TableEntry) : List String :=
  table.filterMap fun entry => (pool.utf8 entry.type).toOption.map nameOfDescriptor

end JarCensus.ClassFile
