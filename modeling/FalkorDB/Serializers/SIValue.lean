/-
FalkorDB/Serializers/SIValue.lean

The values the v14 decoder builds, and the format it reads them in.

`value.h`, which declares `SIValue`, the `SIType` constants and the
constructors `SI_LongVal` … `SI_Vector32f`, is not among the sources.  The
constants are a parameter `SITypeCodes`; it carries the two facts the decoder
relies on: the labels of one C `switch` are distinct constants, and the
`ASSERT(t & T_VECTOR)` of `_RdbLoadVector` holds for `T_VECTOR32F`.  An
`SIType` is an enum, taken 32 bits wide.

An `SIValue` is modelled with the types `_RdbLoadSIValue` handles.  Doubles and
floats are their IEEE bits, so equality is equality of bits; a string is the
bytes before its NUL; a point is the latitude and longitude `SI_Point` is
given.  `SIValue.WellFormed` is what a value of C is on top of its shape: its
strings hold no NUL (they are C strings), and its arrays and vectors keep their
lengths in `uint32_t`.

The format itself is written down by `encSIValue`, following the comments of
`decode_graph_entities.c` and not the decoder: the type, then the value; an
array as its length then its elements, a vector as its dimension then its
floats, a point as latitude then longitude, a string as its bytes and the NUL.
-/
import Mathlib.Algebra.Group.Nat.Basic
import Mathlib.Data.List.Nodup
import FalkorDB.Serializers.Rdb

namespace FalkorDB

/-- The `SIType` constants `_RdbLoadSIValue` switches on, and the mask `T_VECTOR` of
`_RdbLoadVector`'s `ASSERT`. -/
structure SITypeCodes where
  int64 : UInt32
  double : UInt32
  string : UInt32
  bool : UInt32
  array : UInt32
  point : UInt32
  vector32f : UInt32
  null : UInt32
  vector : UInt32
  /-- The case labels of one `switch` are distinct constants (C11 6.8.4.2). -/
  labels_nodup : [int64, double, string, bool, array, point, vector32f, null].Nodup
  /-- `T_VECTOR32F` is one of the vector types. -/
  vector32f_and_vector : vector32f &&& vector ≠ 0

/-- The labels differ pairwise, each from those the `switch` tests before it. -/
theorem SITypeCodes.switch_ne (codes : SITypeCodes) :
    (codes.null ≠ codes.vector32f ∧ codes.null ≠ codes.point ∧ codes.null ≠ codes.array ∧
      codes.null ≠ codes.bool ∧ codes.null ≠ codes.string ∧ codes.null ≠ codes.double ∧
      codes.null ≠ codes.int64) ∧
    (codes.vector32f ≠ codes.point ∧ codes.vector32f ≠ codes.array ∧
      codes.vector32f ≠ codes.bool ∧ codes.vector32f ≠ codes.string ∧
      codes.vector32f ≠ codes.double ∧ codes.vector32f ≠ codes.int64) ∧
    (codes.point ≠ codes.array ∧ codes.point ≠ codes.bool ∧ codes.point ≠ codes.string ∧
      codes.point ≠ codes.double ∧ codes.point ≠ codes.int64) ∧
    (codes.array ≠ codes.bool ∧ codes.array ≠ codes.string ∧ codes.array ≠ codes.double ∧
      codes.array ≠ codes.int64) ∧
    (codes.bool ≠ codes.string ∧ codes.bool ≠ codes.double ∧ codes.bool ≠ codes.int64) ∧
    (codes.string ≠ codes.double ∧ codes.string ≠ codes.int64) ∧ codes.double ≠ codes.int64 := by
  simpa [not_or] using List.nodup_reverse.mpr codes.labels_nodup

/-- An `SIValue` of one of the types the v14 decoder handles. -/
inductive SIValue where
  | int64 (n : BitVec 64)
  | double (bits : UInt64)
  | string (s : List UInt8)
  | bool (b : Bool)
  | array (elems : List SIValue)
  | point (lat lon : UInt64)
  | vector32f (elems : List UInt32)
  | null
deriving Repr

/-- `SI_BoolVal(int b)`: the truth value of a C `int`. -/
def siBoolVal (b : BitVec 32) : SIValue := .bool (b != 0)

/-- The C string at the start of a buffer: the bytes before its first NUL.  A buffer
with no NUL holds no C string (every use of it reads past its end): `none`. -/
def cString (buf : List UInt8) : Option (List UInt8) :=
  if 0 ∈ buf then some (buf.takeWhile (· != 0)) else none

/-- A string written with its NUL comes back up to its first NUL. -/
theorem cString_append_nul (s : List UInt8) : cString (s ++ [0]) = some (s.takeWhile (· != 0)) := by
  simpa [cString, List.takeWhile_append] using
    fun h => ((List.takeWhile_prefix _).eq_of_length h).symm

/-- A string without NUL is all before its NUL. -/
theorem takeWhile_ne_zero {s : List UInt8} (h : 0 ∉ s) : s.takeWhile (· != 0) = s :=
  List.takeWhile_eq_self_iff.mpr fun _ hx => bne_iff_ne.mpr (ne_of_mem_of_not_mem hx h)

mutual
/-- A value as C can hold it: strings without NUL, array and vector lengths below 2^32. -/
def SIValue.WellFormed : SIValue → Prop
  | .string s => 0 ∉ s
  | .array elems => elems.length < 2 ^ 32 ∧ SIValue.AllWellFormed elems
  | .vector32f elems => elems.length < 2 ^ 32
  | _ => True
/-- Every value of a list is well formed. -/
def SIValue.AllWellFormed : List SIValue → Prop
  | [] => True
  | v :: vs => v.WellFormed ∧ SIValue.AllWellFormed vs
end

mutual
/-- Well-formedness is decided along the value. -/
def SIValue.decWellFormed : (v : SIValue) → Decidable v.WellFormed
  | .int64 _ | .double _ | .bool _ | .point _ _ | .null => isTrue trivial
  | .string s => inferInstanceAs (Decidable (0 ∉ s))
  | .array elems =>
    have := SIValue.decAllWellFormed elems
    inferInstanceAs (Decidable (elems.length < 2 ^ 32 ∧ SIValue.AllWellFormed elems))
  | .vector32f elems => inferInstanceAs (Decidable (elems.length < 2 ^ 32))
/-- Well-formedness of every value of a list is decided value by value. -/
def SIValue.decAllWellFormed : (vs : List SIValue) → Decidable (SIValue.AllWellFormed vs)
  | [] => isTrue trivial
  | v :: vs =>
    have := SIValue.decWellFormed v
    have := SIValue.decAllWellFormed vs
    inferInstanceAs (Decidable (v.WellFormed ∧ SIValue.AllWellFormed vs))
end

instance : DecidablePred SIValue.WellFormed := SIValue.decWellFormed

instance : DecidablePred SIValue.AllWellFormed := SIValue.decAllWellFormed

example : (SIValue.array [.int64 3, .string [104, 105], .vector32f [7]]).WellFormed := by
  decide

theorem SIValue.allWellFormed_iff {vs : List SIValue} :
    SIValue.AllWellFormed vs ↔ ∀ v ∈ vs, v.WellFormed := by
  induction vs with
  | nil => simp [SIValue.AllWellFormed]
  | cons v vs ih => simp [SIValue.AllWellFormed, ih]

/-! ### The v14 format -/

section Format

variable (codes : SITypeCodes)

/-- A type, as `RedisModule_SaveUnsigned` writes it. -/
def rdbTag (t : UInt32) : RdbItem := .unsigned t.toUInt64

mutual
/-- The format of one value, after the comments of `decode_graph_entities.c`. -/
def encSIValue : SIValue → List RdbItem
  | .int64 n => [rdbTag codes.int64, rdbSigned n]
  | .double bits => [rdbTag codes.double, .double bits]
  | .string s => [rdbTag codes.string, .string (s ++ [0])]
  | .bool b => [rdbTag codes.bool, rdbSigned (if b then 1 else 0)]
  | .array elems => rdbTag codes.array :: .unsigned elems.length.toUInt64 :: encSIValues elems
  | .point lat lon => [rdbTag codes.point, .double lat, .double lon]
  | .vector32f elems =>
    rdbTag codes.vector32f :: .unsigned elems.length.toUInt64 :: elems.map .float
  | .null => [rdbTag codes.null]
/-- The elements of an array, one after the other. -/
def encSIValues : List SIValue → List RdbItem
  | [] => []
  | v :: vs => encSIValue v ++ encSIValues vs
end

/-- One attribute of an entity: its id, then its value. -/
def encAttribute (attr : UInt16 × SIValue) : List RdbItem :=
  .unsigned attr.1.toUInt64 :: encSIValue codes attr.2

/-- The attributes of an entity: their number, then each attribute. -/
def encEntity (attrs : List (UInt16 × SIValue)) : List RdbItem :=
  .unsigned attrs.length.toUInt64 :: attrs.flatMap (encAttribute codes)

theorem encSIValues_eq_flatMap (vs : List SIValue) :
    encSIValues codes vs = vs.flatMap (encSIValue codes) := by
  induction vs with
  | nil => rfl
  | cons v vs ih => simp [encSIValues, ih]

/-- Each element's encoding lies inside the array's. -/
theorem length_encSIValue_le {v : SIValue} {vs : List SIValue} (h : v ∈ vs) :
    (encSIValue codes v).length ≤ (encSIValues codes vs).length := by
  rw [encSIValues_eq_flatMap, List.flatMap_def]
  exact (List.infix_of_mem_flatten (List.mem_map_of_mem _ h)).length_le

end Format

/-- A tag reads back as the type it was written from. -/
@[simp] theorem rdbTag_toUInt32 (t : UInt32) : (t.toUInt64).toUInt32 = t :=
  UInt32.toNat.inj (UInt32.toNat_ofNat_of_lt t.toNat_lt_size)

/-- A length read back as a `uint32_t` after `RedisModule_SaveUnsigned`: modulo 2^32. -/
theorem toUInt64_toUInt32_toNat (n : Nat) : n.toUInt64.toUInt32.toNat = n % 2 ^ 32 := by
  simp only [UInt64.toUInt32, Nat.toUInt32, UInt32.toNat, UInt32.ofNat, UInt64.toNat,
    Nat.toUInt64, UInt64.ofNat, BitVec.toNat_ofNat]
  omega

/-- An attribute id survives `RedisModule_SaveUnsigned` and an `Attribute_ID` read. -/
@[simp] theorem toUInt64_toUInt16 (id : UInt16) : id.toUInt64.toUInt16 = id :=
  UInt16.toNat.inj (UInt16.toNat_ofNat_of_lt id.toNat_lt_size)

end FalkorDB
