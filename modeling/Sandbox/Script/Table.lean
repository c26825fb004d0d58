import Sandbox.Script.Value

/-!
# Tables

A table has an array part for the keys 1 to n and a node part for all other keys. The node part has a
power of two nodes, or none; a key stands at its main position or in the chain that begins there.
When no node is free, both parts get new sizes: the array part becomes the largest power of two more
than half of whose slots are in use, and all other keys go to nodes.

The length of a table is a border: an index that holds a value, or zero, in front of an index that
holds none. `Table.length` finds one of them by a rule that looks at the array part first, and
remembers where it was in `limit`.
-/

namespace Sandbox.Script

/-- A node of a table. A node whose value is nil is not in use, but its key keeps its place. -/
structure Node where
  key : Value := .nil
  value : Value := .nil
  /-- The next node of the chain. -/
  next : Option Nat := none
  deriving DecidableEq, Inhabited

/-- A table. -/
structure Table where
  /-- The values of the keys 1, 2, … -/
  array : Array Value := #[]
  /-- Where a border of the array part was last seen. -/
  limit : Nat := 0
  nodes : Array Node := #[]
  /-- The nodes from this one on have been handed out. -/
  free : Nat := 0
  metatable : Option Nat := none
  deriving DecidableEq, Inhabited

namespace Table

/-! ## Main positions -/

/-- The smallest exponent of a power of two that is not below the number. -/
def ceilLog2 (n : Nat) : Nat := if n ≤ 1 then 0 else Nat.log2 (n - 1) + 1

/-- The number is a power of two. -/
def isPowerOfTwo (n : Nat) : Bool := n &&& (n - 1) == 0

/-- The position of a number among the nodes; the modulus is odd. -/
def modulo (size n : Nat) : Nat := n % ((size - 1) ||| 1)

/-- A number that stands for the bytes of a string. -/
def hashBytes (s : ByteArray) : UInt32 :=
  s.foldl (fun h b => h ^^^ ((h <<< 5) + (h >>> 2) + b.toUInt32)) s.size.toUInt32

/-- A number that stands for a float: its mantissa of 31 bits and its exponent, added. -/
def hashFloat (x : Binary64) : Nat :=
  if !x.isFinite then 0
  else if x.isZero then 0
  else
    let m := x.significand
    let length := Nat.log2 m + 1
    let mantissa : Int := (((m * 2 ^ 31) >>> length : Nat) : Int)
    let mantissa := if x.isNegative then -mantissa else mantissa
    let sum := ((x.exponent + (length : Int) + mantissa) % 2 ^ 32).toNat
    if sum < 2 ^ 31 then sum else 2 ^ 32 - 1 - sum

/-- The main position of a key among `size` nodes. -/
def mainPosition (size : Nat) : Value → Nat
  | .nil => 0
  | .bool b => (if b then 1 else 0) % size
  | .int n => modulo size n.toUInt64.toNat
  | .float x => modulo size (hashFloat x)
  | .text s => (hashBytes s).toNat % size
  | .table id => modulo size (id * 8 + 1)
  | .function id => modulo size (id * 8 + 2)
  | .thread id => modulo size (id * 8 + 3)
  | .userdata id => modulo size (id * 8 + 4)
  | .pointer => modulo size 5
  | .fault id => modulo size (id * 8 + 6)

/-! ## Looking up -/

/-- The node of a chain that holds a key. -/
def findInChain (nodes : Array Node) (key : Value) : Nat → Nat → Option Nat
  | 0, _ => none
  | fuel + 1, position =>
    match nodes[position]? with
    | none => none
    | some node =>
      if node.key.sameKey key then some position
      else match node.next with
        | some next => findInChain nodes key fuel next
        | none => none

/-- The node that holds a key. -/
def findNode (t : Table) (key : Value) : Option Nat :=
  if t.nodes.isEmpty then none
  else findInChain t.nodes key t.nodes.size (mainPosition t.nodes.size key)

/-- The slot of the array part for an integer key. -/
def slot? (t : Table) (n : Int64) : Option Nat :=
  let k := n.toInt
  if 1 ≤ k && k ≤ t.array.size then some (k.toNat - 1) else none

/-- The value of a key in the form in which tables keep it. -/
def getKey (t : Table) (key : Value) : Value :=
  let inNodes := match t.findNode key with
    | some i => (t.nodes.getD i {}).value
    | none => .nil
  match key with
  | .nil => .nil
  | .int n =>
    match t.slot? n with
    | some i => t.array.getD i .nil
    | none => inNodes
  | _ => inNodes

/-- The value of a key, or nil. -/
def get (t : Table) (key : Value) : Value := t.getKey key.asKey

/-- The value of an index. -/
def getIndex (t : Table) (n : Nat) : Value :=
  if 1 ≤ n && n ≤ t.array.size then t.array.getD (n - 1) .nil
  else t.getKey (.int (.ofNat n))

/-- The value of a text key. -/
def getText (t : Table) (key : String) : Value := t.getKey (.ofString key)

/-- A look at an index of the array part behind the limit moves the limit there. -/
def touch (t : Table) (key : Value) : Table :=
  if t.limit = t.array.size then t
  else match key.asKey with
    | .int n =>
      match t.slot? n with
      | some i => if t.limit ≤ i then { t with limit := i + 1 } else t
      | none => t
    | _ => t

/-! ## Sizes -/

/-- The exponent of the power of two in whose range an index falls, if it may go to the array part. -/
def sizeClass? (key : Value) : Option Nat :=
  match key with
  | .int n => if 1 ≤ n.toInt && n.toInt ≤ 2 ^ 27 then some (ceilLog2 n.toInt.toNat) else none
  | _ => none

/-- Counts a key in its class. -/
def countKey (counts : Array Nat) (key : Value) : Array Nat :=
  match sizeClass? key with
  | some c => counts.modify c (· + 1)
  | none => counts

/-- The keys that are in use. -/
def usedKeys (t : Table) : List Value :=
  let indices := (List.range t.array.size).filter fun i => !(t.array.getD i .nil).isNil
  indices.map (fun i => .int (.ofNat (i + 1))) ++
    (t.nodes.toList.filter fun n => !n.value.isNil).map (·.key)

/-- Considers a power of two as the size of the array part: with the best size so far and the number of
keys that go there, the number of index keys in smaller classes, and whether larger sizes may do. -/
def considerSize (counts : Array Nat) (total : Nat) (acc : (Nat × Nat) × Nat × Bool) (c : Nat) :
    (Nat × Nat) × Nat × Bool :=
  let (best, seen, going) := acc
  if going && total > (1 <<< c) / 2 then
    let seen := seen + counts.getD c 0
    (if seen > (1 <<< c) / 2 then (1 <<< c, seen) else best, seen, true)
  else (best, seen, false)

/-- The best size of the array part, and the number of keys that go there, for the number of index
keys in each class. -/
def bestSize (counts : Array Nat) (total : Nat) : Nat × Nat :=
  ((List.range 28).foldl (considerSize counts total) ((0, 0), 0, true)).1

/-- Nodes without keys, at least as many as asked for. -/
def freshNodes (count : Nat) : Array Node :=
  if count = 0 then #[] else Array.replicate (1 <<< ceilLog2 count) {}

/-- A table with room for some indices and some other keys. -/
def withSizes (arraySize nodeCount : Nat) : Table :=
  let nodes := freshNodes nodeCount
  { array := Array.replicate arraySize .nil, limit := arraySize, nodes, free := nodes.size }

/-! ## Setting -/

/-- The last node before `position` that never had a key. -/
def freeNode (nodes : Array Node) : Nat → Option Nat
  | 0 => none
  | position + 1 =>
    if (nodes.getD position {}).key.isNil then some position else freeNode nodes position

/-- The node of a chain in front of `target`. -/
def predecessor (nodes : Array Node) (target : Nat) : Nat → Nat → Nat
  | 0, position => position
  | fuel + 1, position =>
    match (nodes.getD position {}).next with
    | some next => if next = target then position else predecessor nodes target fuel next
    | none => position

/-- Puts a new key into a node. If its main position is taken, it goes to a free node, unless the key
there is away from its own main position and has to move. The answer is `none` where no node is
free. -/
def placeKey (t : Table) (key value : Value) : Option Table :=
  let nodes := t.nodes
  let size := nodes.size
  let home := mainPosition size key
  let there := nodes.getD home {}
  if size ≠ 0 && there.value.isNil then
    some { t with nodes := nodes.set! home { there with key, value } }
  else match freeNode nodes t.free with
    | none => none
    | some f =>
      let t := { t with free := f }
      let other := mainPosition size there.key
      if other ≠ home then
        let before := predecessor nodes home size other
        let nodes := nodes.modify before fun n => { n with next := some f }
        let nodes := nodes.set! f there
        some { t with nodes := nodes.set! home { key, value } }
      else
        let nodes := nodes.set! f { key, value, next := there.next }
        some { t with nodes := nodes.set! home { there with next := some f } }

/-- Sets a key that has a slot or a node. -/
def setExisting (t : Table) (key value : Value) : Option Table :=
  let inNodes := (t.findNode key).map fun i =>
    { t with nodes := t.nodes.modify i fun n => { n with value } }
  match key with
  | .int n =>
    match t.slot? n with
    | some i => some { t with array := t.array.set! i value }
    | none => inNodes
  | _ => inNodes

/-- Sets a key in a table that has room for it. -/
def setWithRoom (t : Table) (key value : Value) : Table :=
  match t.setExisting key value with
  | some t => t
  | none => if value.isNil then t else (t.placeKey key value).getD t

/-- The entries that do not stay in their slots when the array part gets a new size: those of the slots
behind it and those of all nodes. -/
def entriesBehind (t : Table) (arraySize : Nat) : List (Value × Value) :=
  let inArray := (List.range (t.array.size - arraySize)).filterMap fun i =>
    let v := t.array.getD (arraySize + i) .nil
    if v.isNil then none else some (Value.int (.ofNat (arraySize + i + 1)), v)
  inArray ++ t.nodes.toList.filterMap fun n => if n.value.isNil then none else some (n.key, n.value)

/-- Gives both parts new sizes. -/
def resize (t : Table) (arraySize nodeCount : Nat) : Table :=
  let kept := (t.array.extract 0 arraySize) ++ Array.replicate (arraySize - t.array.size) .nil
  let nodes := freshNodes nodeCount
  let start : Table :=
    { array := kept, limit := arraySize, nodes, free := nodes.size, metatable := t.metatable }
  (t.entriesBehind arraySize).foldl (fun acc e => acc.setWithRoom e.1 e.2) start

/-- Makes room for one more key. -/
def grow (t : Table) (key : Value) : Table :=
  let keys := key :: t.usedKeys
  let counts := keys.foldl countKey (Array.replicate 28 0)
  let (arraySize, inArray) := bestSize counts (counts.foldl (· + ·) 0)
  t.resize arraySize (keys.length - inArray)

/-- Sets a key in the form in which tables keep it. -/
def setKey (t : Table) (key value : Value) : Table :=
  match t.setExisting key value with
  | some t => t
  | none =>
    if value.isNil then t
    else match t.placeKey key value with
      | some t => t
      | none => (t.grow key).setWithRoom key value

/-- Sets a key, which is neither nil nor a not-a-number. -/
def set (t : Table) (key value : Value) : Table := t.setKey key.asKey value

/-- Sets an index. -/
def setIndex (t : Table) (n : Nat) (value : Value) : Table := t.setKey (.int (.ofNat n)) value

/-- Sets a text key. -/
def setText (t : Table) (key : String) (value : Value) : Table := t.setKey (.ofString key) value

/-- Makes room for indices up to a size. -/
def reserve (t : Table) (arraySize : Nat) : Table :=
  if arraySize ≤ t.array.size then t else t.resize arraySize (t.nodes.size)

/-! ## Length -/

/-- The index holds no value. -/
def isAbsent (t : Table) (n : Nat) : Bool := (t.getIndex n).isNil

/-- A border between an index that is present and one that is absent. -/
def bisect (absent : Nat → Bool) : Nat → Nat → Nat → Nat
  | 0, low, _ => low
  | fuel + 1, low, high =>
    if high - low ≤ 1 then low
    else
      let middle := (low + high) / 2
      if absent middle then bisect absent fuel low middle else bisect absent fuel middle high

/-- The largest index. -/
def maxIndex : Nat := 2 ^ 63 - 1

/-- A border from a present index on: doubles the index while it is present and bisects then. -/
def unboundBorder (t : Table) : Nat → Nat → Nat
  | 0, index => index
  | fuel + 1, index =>
    if index > maxIndex / 2 then
      if t.isAbsent maxIndex then bisect t.isAbsent 64 index maxIndex else maxIndex
    else if t.isAbsent (index * 2) then bisect t.isAbsent 64 index (index * 2)
    else unboundBorder t fuel (index * 2)

/-- A slot of the array part holds no value. -/
def slotIsEmpty (t : Table) (n : Nat) : Bool := (t.array.getD (n - 1) .nil).isNil

/-- A border that is found in the array part becomes the new limit if it lies in the upper half of an
array part whose size is a power of two. -/
def remember (t : Table) (border : Nat) : Table :=
  if isPowerOfTwo t.array.size && border > t.array.size / 2 then { t with limit := border } else t

/-- A border behind an array part that is full or empty. -/
def borderInNodes (t : Table) : Nat :=
  let size := t.array.size
  if t.nodes.isEmpty || t.isAbsent (size + 1) then size
  else t.unboundBorder 64 (if size = 0 then 1 else size)

/-- The length of a table, and the table that remembers where it was found. -/
def length (t : Table) : Nat × Table :=
  let limit := t.limit
  let size := t.array.size
  if limit > 0 && t.slotIsEmpty limit then
    let border :=
      if limit ≥ 2 && !t.slotIsEmpty (limit - 1) then limit - 1
      else bisect t.slotIsEmpty 64 0 limit
    (border, t.remember border)
  else if limit ≠ size then
    if t.slotIsEmpty (limit + 1) then (limit, t)
    else if t.slotIsEmpty size then
      let border := bisect t.slotIsEmpty 64 limit size
      (border, { t with limit := border })
    else (t.borderInNodes, t)
  else (t.borderInNodes, t)

/-! ## Traversal -/

/-- The entries in the order of a traversal: the array part and then the nodes. -/
def entries (t : Table) : List (Value × Value) :=
  let inArray := (List.range t.array.size).filterMap fun i =>
    let v := t.array.getD i .nil
    if v.isNil then none else some (Value.int (.ofNat (i + 1)), v)
  inArray ++ t.nodes.toList.filterMap fun n => if n.value.isNil then none else some (n.key, n.value)

/-- The first entry from a place of the traversal on. -/
def entryFrom (t : Table) (place : Nat) : Option (Value × Value) :=
  let size := t.array.size
  let rec nodesFrom : Nat → Nat → Option (Value × Value)
    | 0, _ => none
    | fuel + 1, i =>
      match t.nodes[i]? with
      | none => none
      | some n => if n.value.isNil then nodesFrom fuel (i + 1) else some (n.key, n.value)
  let rec slotsFrom : Nat → Nat → Option (Value × Value)
    | 0, i => nodesFrom (t.nodes.size + 1) (i - size)
    | fuel + 1, i =>
      let v := t.array.getD i .nil
      if v.isNil then slotsFrom fuel (i + 1) else some (.int (.ofNat (i + 1)), v)
  slotsFrom (size - place) (max place 0)

/-- The place of a key in the traversal. -/
def placeOf? (t : Table) (key : Value) : Option Nat :=
  let inNodes := (t.findNode key).map fun i => t.array.size + i + 1
  match key with
  | .nil => some 0
  | .int n =>
    match t.slot? n with
    | some i => some (i + 1)
    | none => inNodes
  | _ => inNodes

/-- The entry behind a key in the traversal, where nil stands for the start. The answer is `none`
where the key is not in the table. -/
def next? (t : Table) (key : Value) : Option (Option (Value × Value)) :=
  (t.placeOf? key.asKey).map t.entryFrom

end Table
end Sandbox.Script
