import DataShapes.Value.Basic

/-!
# Equality of values

Two values are equal when they denote the same thing.  Numbers are compared exactly across their
kinds, and the truth values count as zero and one; a list is never equal to a tuple; dictionaries
are compared without regard to order.

Main definitions:
* `Value.equal`, `Descriptor.equal`: the two equalities;
* `Value.lookup`: the entry of a dictionary under a key;
* `Value.dictOf`: the dictionary that a list of entries builds, in which an equal key keeps the
  first position and takes the last value.
-/

namespace DataShapes

/-- The numeric content of a value. -/
inductive Numeric where
  | whole (n : Int)
  | binary (d : Double)

namespace Numeric

/-- Equality of numbers. -/
def equal : Numeric → Numeric → Bool
  | .whole a, .whole b => a == b
  | .whole a, .binary b => b.equalsInt a
  | .binary a, .whole b => a.equalsInt b
  | .binary a, .binary b => a.same b

end Numeric

namespace Value

/-- The number that a value denotes. -/
def numeric? : Value → Option Numeric
  | .bool b => some (.whole (if b then 1 else 0))
  | .int n => some (.whole n)
  | .float d => some (.binary d)
  | _ => none

/-- Two values denote the same number. -/
def sameNumber (a b : Value) : Bool :=
  match a.numeric?, b.numeric? with
  | some x, some y => x.equal y
  | _, _ => false

end Value

mutual

/-- Equality of values. -/
def Value.equal : Value → Value → Bool
  | .null, .null => true
  | .str a, .str b => a == b
  | .list xs, .list ys => Value.equalLists xs ys
  | .tuple xs, .tuple ys => Value.equalLists xs ys
  | .dict es, .dict fs => Value.within es fs && fs.all (Value.occursIn es)
  | .descriptor a, .descriptor b => Descriptor.equal a b
  | .shape a, .shape b => a.catalog == b.catalog && a.name == b.name
  | .foreign k a, .foreign l b => k == l && a == b
  | a, b => Value.sameNumber a b
termination_by structural a => a

/-- Equality of lists, item by item. -/
def Value.equalLists : List Value → List Value → Bool
  | [], [] => true
  | x :: xs, y :: ys => Value.equal x y && Value.equalLists xs ys
  | _, _ => false
termination_by structural xs => xs

/-- Equality of entries, keys and values. -/
def Value.equalEntry : Value × Value → Value × Value → Bool
  | (k, v), f => Value.equal k f.1 && Value.equal v f.2
termination_by structural e => e

/-- Every entry of the first dictionary is an entry of the second. -/
def Value.within : List (Value × Value) → List (Value × Value) → Bool
  | [], _ => true
  | e :: es, fs => fs.any (Value.equalEntry e) && Value.within es fs
termination_by structural es => es

/-- The entry is one of the dictionary. -/
def Value.occursIn : List (Value × Value) → Value × Value → Bool
  | [], _ => false
  | e :: es, f => Value.equalEntry e f || Value.occursIn es f
termination_by structural es => es

/-- Equality of descriptors, part by part. -/
def Descriptor.equal : Descriptor → Descriptor → Bool
  | .scalar a, .scalar b => a == b
  | .array a, .array b => Descriptor.equal a b
  | .map a, .map b => Descriptor.equal a b
  | .union as, .union bs => Descriptor.equalLists as bs
  | .named a, .named b => a == b
  | .raw a, .raw b => Value.equal a b
  | _, _ => false
termination_by structural a => a

/-- Equality of lists of descriptors. -/
def Descriptor.equalLists : List Descriptor → List Descriptor → Bool
  | [], [] => true
  | x :: xs, y :: ys => Descriptor.equal x y && Descriptor.equalLists xs ys
  | _, _ => false
termination_by structural as => as

end

instance : BEq Value := ⟨Value.equal⟩
instance : BEq Descriptor := ⟨Descriptor.equal⟩

namespace Value

/-- The value under a key. -/
def lookup (entries : List (Value × Value)) (key : Value) : Option Value :=
  (entries.find? fun e => e.1 == key).map Prod.snd

/-- The value under a text key. -/
def get? : Value → String → Option Value
  | .dict entries, key => lookup entries (.str key)
  | _, _ => none

/-- Write one entry: in place when an equal key is present, at the end otherwise. -/
def putEntry : List (Value × Value) → Value → Value → List (Value × Value)
  | [], key, value => [(key, value)]
  | (k, v) :: es, key, value =>
    if k == key then (k, value) :: es else (k, v) :: putEntry es key value

/-- The entries of the dictionary that a list of entries builds. -/
def dictOf (entries : List (Value × Value)) : List (Value × Value) :=
  entries.foldl (fun es e => putEntry es e.1 e.2) []

/-- A dictionary under text keys. -/
def record (entries : List (String × Value)) : Value :=
  .dict (entries.map fun e => (.str e.1, e.2))

end Value

end DataShapes
