import RouteInventory.Value.Basic

/-!
# The order in which a set lists its items

A set of numbers, or of tuples and sets of numbers, keeps each item in a slot, which follows from the
item and from the slots taken before, and lists its items from slot to slot. The table of slots grows
as it fills, so that an order shows how many items the set was made for. The slots of other items follow
from nothing that is in them: a set with such an item lists its items as they came.
-/

namespace RouteInventory

/-- A table of slots, each of them free or taken by an item with its key. -/
structure SlotTable (α : Type) where
  slots : List (Option (Nat × α))

namespace SlotTable

variable {α : Type}

def empty (size : Nat) : SlotTable α := ⟨List.replicate size none⟩

def size (t : SlotTable α) : Nat := t.slots.length

/-- The items with their keys, from slot to slot. -/
def items (t : SlotTable α) : List (Nat × α) := t.slots.filterMap id

def isFree (t : SlotTable α) (slot : Nat) : Bool := (t.slots[slot]?.getD none).isNone

/-- The first free slot from a slot on, among ten neighbours if the table has so many, or else from
another one on, for which more of the key is taken. -/
def freeSlot (t : SlotTable α) : (fuel : Nat) → (slot key : Nat) → Nat
  | 0, slot, _ => slot
  | fuel + 1, slot, key =>
    let neighbours := if slot + 9 < t.size then 10 else 1
    match (List.range' slot neighbours).find? t.isFree with
    | some free => free
    | none => t.freeSlot fuel ((slot * 5 + 1 + key / 32) % t.size) (key / 32)

/-- A table with one more item. Once nothing of the key is left, every slot is reached. -/
def put (t : SlotTable α) (item : Nat × α) : SlotTable α :=
  ⟨t.slots.set (t.freeSlot (t.size + 14) (item.1 % t.size) item.1) (some item)⟩

/-- The least power of two that is greater than a number, from eight on. -/
def sizeAbove (n : Nat) : Nat := if n < 8 then 8 else Nat.pow 2 (n.log2 + 1)

/-- The items in a table with more than a number of slots. -/
def resize (t : SlotTable α) (n : Nat) : SlotTable α := t.items.foldl put (empty (sizeAbove n))

/-- A table with one more item, which grows when three fifths of it are taken. -/
def add (t : SlotTable α) (item : Nat × α) : SlotTable α :=
  let t := t.put item
  let taken := t.items.length
  if taken * 5 < (t.size - 1) * 3 then t
  else t.resize (taken * if taken > 50000 then 2 else 4)

/-- A table made for a number of items. -/
def madeFor (expected : Nat) : SlotTable α :=
  empty (if expected * 5 < 21 then 8 else sizeAbove (expected * 2))

theorem size_put (t : SlotTable α) (item : Nat × α) : (t.put item).size = t.size := by
  simp [put, size]

theorem items_empty (size : Nat) : (empty size : SlotTable α).items = [] := by
  simp [empty, items]

end SlotTable

namespace Value

/-- What the slot of a number follows from: the remainder of its amount by 2^61 - 1 with its sign, where
-2 stands for -1 too. -/
def numberKey? (x : Value) : Option UInt64 :=
  let amount? : Option (Bool × Nat) := match x with
    | float (.infinite negative) => some (negative, 314159)
    | x => x.ratio?.map fun (num, den) =>
      (decide (num < 0), num.natAbs * Nat.pow 2 ((61 - den.log2 % 61) % 61) % (Nat.pow 2 61 - 1))
  amount?.map fun (negative, amount) =>
    if negative && amount != 0 then -(max amount 2).toUInt64 else amount.toUInt64

/-- A key other than the greatest one, which is none. -/
def usableKey (key instead : UInt64) : UInt64 := if key + 1 = 0 then instead else key

/-- The key of a sequence: the keys of its items are mixed in one after the other, then their number. -/
def sequenceKey (keys : List UInt64) : UInt64 :=
  let mix (mixed key : UInt64) : UInt64 :=
    let sum := mixed + key * 14029467366897019727
    (sum <<< 31 ||| sum >>> 33) * 11400714785074694791
  let start : UInt64 := 2870177450012600261
  usableKey (keys.foldl mix start + (keys.length.toUInt64 ^^^ start ^^^ 3527539)) 1546275796

/-- The key of a set: the keys of its items are mixed in an order that does not matter. -/
def setKey (keys : List UInt64) : UInt64 :=
  let spread (key : UInt64) : UInt64 := (key ^^^ (89869747 : UInt64) ^^^ key <<< 16) * 3644798167
  let mixed := keys.foldl (fun mixed key => mixed ^^^ spread key)
    ((keys.length.toUInt64 + 1) * 1927868237)
  usableKey ((mixed ^^^ mixed >>> 11 ^^^ mixed >>> 25) * 69069 + 907133923) 590923713

mutual

/-- What the slot of an item follows from. -/
def slotKey? : Value → Option UInt64
  | tuple items => (slotKeys? items).map sequenceKey
  | set _ items => (slotKeys? items).map setKey
  | record _ fields => (fieldSlotKeys? fields).map sequenceKey
  | x => x.numberKey?

def slotKeys? : List Value → Option (List UInt64)
  | [] => some []
  | x :: rest => do return (← slotKey? x) :: (← slotKeys? rest)

def fieldSlotKeys? : List (String × Value) → Option (List UInt64)
  | [] => some []
  | (_, x) :: rest => do return (← slotKey? x) :: (← fieldSlotKeys? rest)

end

/-- Different items in the order in which a set lists them that is made for a number of items. -/
def listed (expected : Nat) (items : List Value) : List Value :=
  match items.mapM fun x => x.slotKey?.map (·.toNat, x) with
  | some keyed => (keyed.foldl SlotTable.add (SlotTable.madeFor expected)).items.map (·.2)
  | none => items

/-- The set of the given items, the first of equal ones kept. -/
def setOf (frozen : Bool) (items : List Value) : Value :=
  set frozen (listed 0
    (items.foldl (fun known x => if known.any x.same then known else known ++ [x]) []))

/-- The set of the keys of a mapping. -/
def setOfKeys (keys : List Value) : Value := set false (listed keys.length keys)

end Value

end RouteInventory
