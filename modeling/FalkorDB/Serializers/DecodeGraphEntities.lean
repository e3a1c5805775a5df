/-
FalkorDB/Serializers/DecodeGraphEntities.lean

The value and entity loaders of
`src/serializers/decoders/current/v14/decode_graph_entities.c`, and the law
that they invert the format of `encSIValue`:

    rdbLoadSIValue codes (encSIValue codes v ++ r) = some (v, r)

for every well-formed value `v`, nested to any depth, and every rest `r`; and
`_RdbLoadEntity` on a count below 2^31 and that many encoded attributes hands
exactly those attributes to `AttributeSet_AddNoClone`.  Outside the well-formed
values the arms of the `switch` say what the code does instead: a string comes
back up to its first NUL, and an array or a vector of 2^32 elements or more is
cut to its first `length % 2^32`, the others left in the stream.

Recursion.  `_RdbLoadSIValue` and `_RdbLoadSIArray` call each other.  The model
passes a bound down the nesting (`rdbLoadSIValueFuel`), and each level of
`_RdbLoadSIArray` receives the loader of the level below, as in C it receives
the function itself.  Every level first loads its type, so the length of the
payload bounds the nesting: `rdbLoadSIValue` runs with that bound, and
`rdbLoadSIValueFuel_eq` shows that no larger bound changes its answer.

Undefined behaviour.  The counter of `_RdbLoadEntity`'s loop is an `int`
compared with a `uint64_t` count: past `INT_MAX` turns it overflows.  That
happens exactly when the count is at least 2^31, and the model answers `none`
for such a count.  The variable-length arrays `vals[n]` and `ids[n]` are taken
to fit on the stack, an empty one included (an extension of GCC and Clang).
`AttributeSet_AddNoClone` and the width of `Attribute_ID` come from
`attribute_set.h`, not among the sources: the first is a parameter, and ids
are taken 16 bits wide.
-/
import FalkorDB.Serializers.SIValue

namespace FalkorDB

section Decoder

variable (codes : SITypeCodes)

/-- `_RdbLoadPoint`: latitude, then longitude. -/
def rdbLoadPoint (items : List RdbItem) : Option (SIValue × List RdbItem) := do
  let (lat, items) ← rdbLoadDouble items
  let (lon, items) ← rdbLoadDouble items
  return (.point lat lon, items)

/-- `_RdbLoadSIArray`, given `_RdbLoadSIValue`: a `uint` length, then that many values,
each appended to the array (`SIArray_Append` clones it, and the original is freed). -/
def rdbLoadSIArray (loadValue : List RdbItem → Option (SIValue × List RdbItem))
    (items : List RdbItem) : Option (SIValue × List RdbItem) := do
  let (arrayLen, items) ← rdbLoadUnsigned items
  let (elems, items) ← rdbLoadMany loadValue arrayLen.toUInt32.toNat items
  return (.array elems, items)

/-- `_RdbLoadVector(rdb, t)`: after `ASSERT(t & T_VECTOR)`, a `uint32_t` dimension,
then that many floats. -/
def rdbLoadVector (t : UInt32) (items : List RdbItem) : Option (SIValue × List RdbItem) :=
  if t &&& codes.vector = 0 then none else do
  let (dim, items) ← rdbLoadUnsigned items
  let (values, items) ← rdbLoadMany rdbLoadFloat dim.toUInt32.toNat items
  return (.vector32f values, items)

/-- `_RdbLoadSIValue`, with a bound on the nesting of arrays.  The `switch` is a
chain of tests in the order of its labels; `T_NULL` and the default build null. -/
def rdbLoadSIValueFuel : Nat → List RdbItem → Option (SIValue × List RdbItem)
  | 0, _ => none
  | fuel + 1, items => do
    let (t, items) ← rdbLoadUnsigned items
    let t := t.toUInt32
    if t = codes.int64 then
      let (n, items) ← rdbLoadSigned items
      return (.int64 n, items)
    else if t = codes.double then
      let (d, items) ← rdbLoadDouble items
      return (.double d, items)
    else if t = codes.string then
      let (buf, items) ← rdbLoadStringBuffer items
      let s ← cString buf
      return (.string s, items)
    else if t = codes.bool then
      let (n, items) ← rdbLoadSigned items
      return (siBoolVal (n.truncate 32), items)
    else if t = codes.array then rdbLoadSIArray (rdbLoadSIValueFuel fuel) items
    else if t = codes.point then rdbLoadPoint items
    else if t = codes.vector32f then rdbLoadVector codes t items
    else return (.null, items)

/-- `_RdbLoadSIValue`: the nesting is bounded by the length of the payload. -/
def rdbLoadSIValue (items : List RdbItem) : Option (SIValue × List RdbItem) :=
  rdbLoadSIValueFuel codes items.length items

/-- One turn of `_RdbLoadEntity`'s loop: `ids[i]`, an `Attribute_ID`, then `vals[i]`. -/
def rdbLoadAttribute (items : List RdbItem) : Option ((UInt16 × SIValue) × List RdbItem) := do
  let (id, items) ← rdbLoadUnsigned items
  let (v, items) ← rdbLoadSIValue codes items
  return ((id.toUInt16, v), items)

/-- `_RdbLoadEntity`: a `uint64_t` count `n`, then `n` attributes, all handed to
`AttributeSet_AddNoClone(e->attributes, ids, vals, n, false)`. -/
def rdbLoadEntity {α : Type} (addNoClone : α → List UInt16 → List SIValue → Nat → Bool → α)
    (attributes : α) (items : List RdbItem) : Option (α × List RdbItem) := do
  let (n, items) ← rdbLoadUnsigned items
  if n.toNat < 2 ^ 31 then
    let (attrs, items) ← rdbLoadMany (rdbLoadAttribute codes) n.toNat items
    return (addNoClone attributes (attrs.map Prod.fst) (attrs.map Prod.snd) n.toNat false, items)
  else none

end Decoder

/-! ### The bound never decides the answer -/

section Fuel

variable {codes : SITypeCodes}

theorem rdbLoadPoint_consumes : Consumes rdbLoadPoint := fun _ _ _ h =>
  rdbLoad_consumes.bind_le h fun _ _ _ _ h =>
    rdbLoad_consumes.bind_le h fun _ _ _ _ h => length_le_of_some h

theorem rdbLoadSIArray_consumes {loadValue : List RdbItem → Option (SIValue × List RdbItem)}
    (hl : Consumes loadValue) : Consumes (rdbLoadSIArray loadValue) := fun _ _ _ h =>
  rdbLoad_consumes.bind_le h fun _ _ _ _ h =>
    (rdbLoadMany_consumes hl _).bind_le h fun _ _ _ _ h => length_le_of_some h

theorem rdbLoadVector_consumes (t : UInt32) : Consumes (rdbLoadVector codes t) := by
  intro _ _ _ h
  unfold rdbLoadVector at h
  split at h
  · cases h
  · exact rdbLoad_consumes.bind_le h fun _ _ _ _ h =>
      (rdbLoadMany_consumes rdbLoad_consumes _).bind_le h fun _ _ _ _ h => length_le_of_some h

theorem rdbLoadSIValueFuel_consumes : ∀ fuel, Consumes (rdbLoadSIValueFuel codes fuel)
  | 0 => fun _ _ _ h => by cases h
  | fuel + 1 => fun _ _ _ h => rdbLoad_consumes.bind_le h fun _ _ _ _ h => by
    dsimp only at h
    rcases ite_eq_iff.mp h with ⟨-, h⟩ | ⟨-, h⟩
    · exact rdbLoad_consumes.bind_le h fun _ _ _ _ h => length_le_of_some h
    rcases ite_eq_iff.mp h with ⟨-, h⟩ | ⟨-, h⟩
    · exact rdbLoad_consumes.bind_le h fun _ _ _ _ h => length_le_of_some h
    rcases ite_eq_iff.mp h with ⟨-, h⟩ | ⟨-, h⟩
    · exact rdbLoad_consumes.bind_le h fun _ _ _ _ h => by
        obtain ⟨_, -, h⟩ := Option.bind_eq_some.mp h
        exact length_le_of_some h
    rcases ite_eq_iff.mp h with ⟨-, h⟩ | ⟨-, h⟩
    · exact rdbLoad_consumes.bind_le h fun _ _ _ _ h => length_le_of_some h
    rcases ite_eq_iff.mp h with ⟨-, h⟩ | ⟨-, h⟩
    · exact rdbLoadSIArray_consumes (rdbLoadSIValueFuel_consumes fuel) h
    rcases ite_eq_iff.mp h with ⟨-, h⟩ | ⟨-, h⟩
    · exact rdbLoadPoint_consumes h
    rcases ite_eq_iff.mp h with ⟨-, h⟩ | ⟨-, h⟩
    · exact rdbLoadVector_consumes _ h
    · exact length_le_of_some h

/-- Element loaders that agree on every stream no longer than the array's give the
same array. -/
theorem rdbLoadSIArray_congr
    {loadValue loadValue' : List RdbItem → Option (SIValue × List RdbItem)} {items : List RdbItem}
    (h : ∀ s : List RdbItem, s.length ≤ items.length → loadValue s = loadValue' s)
    (hl : Consumes loadValue') :
    rdbLoadSIArray loadValue items = rdbLoadSIArray loadValue' items := by
  unfold rdbLoadSIArray
  cases hu : rdbLoadUnsigned items with
  | none => rfl
  | some p =>
    obtain ⟨n, rest⟩ := p
    simp only [Option.bind_eq_bind, Option.some_bind]
    rw [rdbLoadMany_congr (fun s hs => h s (hs.trans (rdbLoad_consumes hu))) hl _ rest le_rfl]

theorem rdbLoadSIValueFuel_add {fuel : Nat} {items : List RdbItem} (h : items.length ≤ fuel)
    (k : Nat) :
    rdbLoadSIValueFuel codes (fuel + k) items = rdbLoadSIValueFuel codes fuel items := by
  induction fuel generalizing items with
  | zero => cases List.length_eq_zero.mp (Nat.le_zero.mp h); cases k <;> rfl
  | succ fuel ih =>
    rw [Nat.add_right_comm]
    simp only [rdbLoadSIValueFuel]
    cases hu : rdbLoadUnsigned items with
    | none => rfl
    | some p =>
      obtain ⟨t, rest⟩ := p
      have hrest : rest.length ≤ fuel := by have := rdbLoad_length hu; omega
      simp only [Option.bind_eq_bind, Option.some_bind]
      rw [rdbLoadSIArray_congr (fun s hs => ih (hs.trans hrest)) (rdbLoadSIValueFuel_consumes fuel)]

/-- With any bound at least the payload's length the loader answers as `rdbLoadSIValue`:
the bound never cuts the recursion of C short. -/
theorem rdbLoadSIValueFuel_eq {fuel : Nat} {items : List RdbItem} (h : items.length ≤ fuel) :
    rdbLoadSIValueFuel codes fuel items = rdbLoadSIValue codes items := by
  obtain ⟨k, rfl⟩ := Nat.exists_eq_add_of_le h
  exact rdbLoadSIValueFuel_add le_rfl k

end Fuel

/-! ### The decoder inverts the format -/

section RoundTrip

variable {codes : SITypeCodes}

/-- The `T_STRING` arm: the string comes back up to its first NUL. -/
theorem rdbLoadSIValueFuel_encSIValue_string (fuel : Nat) (s : List UInt8) (r : List RdbItem) :
    rdbLoadSIValueFuel codes (fuel + 1) (encSIValue codes (.string s) ++ r) =
      some (.string (s.takeWhile (· != 0)), r) := by
  simp [rdbLoadSIValueFuel, encSIValue, rdbTag, codes.switch_ne, cString_append_nul]

/-- The `T_ARRAY` arm: `_RdbLoadSIArray` reads the length as a `uint`, so it reads the
first `length % 2^32` elements and leaves the others in the stream. -/
theorem rdbLoadSIValueFuel_encSIValue_array {fuel : Nat} {elems : List SIValue}
    (helems : ∀ x ∈ elems, ∀ r,
      rdbLoadSIValueFuel codes fuel (encSIValue codes x ++ r) = some (x, r))
    (r : List RdbItem) :
    rdbLoadSIValueFuel codes (fuel + 1) (encSIValue codes (.array elems) ++ r) =
      some (.array (elems.take (elems.length % 2 ^ 32)),
        (elems.drop (elems.length % 2 ^ 32)).flatMap (encSIValue codes) ++ r) := by
  simp only [rdbLoadSIValueFuel, encSIValue, rdbTag, List.cons_append, rdbLoadUnsigned_unsigned,
    Option.pure_def, Option.bind_eq_bind, Option.some_bind, rdbTag_toUInt32, codes.switch_ne,
    if_false, if_true, rdbLoadSIArray, toUInt64_toUInt32_toNat, encSIValues_eq_flatMap,
    rdbLoadMany_flatMap_take helems (Nat.mod_le _ _)]

/-- The `T_VECTOR32F` arm: the dimension is read as a `uint32_t`, so the first
`length % 2^32` floats are read and the others left in the stream. -/
theorem rdbLoadSIValueFuel_encSIValue_vector32f (fuel : Nat) (elems : List UInt32)
    (r : List RdbItem) :
    rdbLoadSIValueFuel codes (fuel + 1) (encSIValue codes (.vector32f elems) ++ r) =
      some (.vector32f (elems.take (elems.length % 2 ^ 32)),
        (elems.drop (elems.length % 2 ^ 32)).map .float ++ r) := by
  simp only [rdbLoadSIValueFuel, encSIValue, rdbTag, List.cons_append, rdbLoadUnsigned_unsigned,
    Option.pure_def, Option.bind_eq_bind, Option.some_bind, rdbTag_toUInt32, codes.switch_ne,
    if_false, if_true, rdbLoadVector, codes.vector32f_and_vector, toUInt64_toUInt32_toNat,
    rdbLoadMany_float elems (Nat.mod_le _ _)]

/-- With a bound no shorter than the encoding, the loader reads back a well-formed value
and leaves the rest; arrays by induction on the bound, their elements through the loop. -/
theorem rdbLoadSIValueFuel_encSIValue {fuel : Nat} {v : SIValue} (hv : v.WellFormed)
    (hfuel : (encSIValue codes v).length ≤ fuel) (r : List RdbItem) :
    rdbLoadSIValueFuel codes fuel (encSIValue codes v ++ r) = some (v, r) := by
  induction fuel generalizing v r with
  | zero => cases v <;> simp [encSIValue] at hfuel
  | succ fuel ih =>
    cases v with
    | string s => rw [rdbLoadSIValueFuel_encSIValue_string, takeWhile_ne_zero hv]
    | array elems =>
      obtain ⟨hlen, hall⟩ := hv
      have helems : ∀ x ∈ elems, ∀ r,
          rdbLoadSIValueFuel codes fuel (encSIValue codes x ++ r) = some (x, r) := fun x hx r => by
        refine ih (SIValue.allWellFormed_iff.mp hall x hx) ?_ r
        have := length_encSIValue_le codes hx
        simp only [encSIValue, List.length_cons] at hfuel
        omega
      rw [rdbLoadSIValueFuel_encSIValue_array helems, Nat.mod_eq_of_lt hlen, List.take_length,
        List.drop_length]
      rfl
    | vector32f elems =>
      rw [rdbLoadSIValueFuel_encSIValue_vector32f, Nat.mod_eq_of_lt hv, List.take_length,
        List.drop_length]
      rfl
    | bool b => cases b <;> simp [rdbLoadSIValueFuel, encSIValue, rdbTag, codes.switch_ne, siBoolVal]
    | point lat lon => simp [rdbLoadSIValueFuel, encSIValue, rdbTag, codes.switch_ne, rdbLoadPoint]
    | int64 | double | null => simp [rdbLoadSIValueFuel, encSIValue, rdbTag, codes.switch_ne]

theorem rdbLoadSIValue_encSIValue {v : SIValue} (hv : v.WellFormed) (r : List RdbItem) :
    rdbLoadSIValue codes (encSIValue codes v ++ r) = some (v, r) :=
  rdbLoadSIValueFuel_encSIValue hv (by simp) r

/-- An array of 2^32 elements or more comes back cut to its first `length % 2^32`
elements, the others left unread: the bound of `SIValue.WellFormed` is the code's. -/
theorem rdbLoadSIValue_encSIValue_array {elems : List SIValue}
    (h : SIValue.AllWellFormed elems) (r : List RdbItem) :
    rdbLoadSIValue codes (encSIValue codes (.array elems) ++ r) =
      some (.array (elems.take (elems.length % 2 ^ 32)),
        (elems.drop (elems.length % 2 ^ 32)).flatMap (encSIValue codes) ++ r) :=
  rdbLoadSIValueFuel_encSIValue_array (fun x hx r' => rdbLoadSIValueFuel_encSIValue
    (SIValue.allWellFormed_iff.mp h x hx) (by
      have := length_encSIValue_le codes hx
      simp only [List.append_eq, List.length_append, List.length_cons]
      omega) r') r

/-- An array of 2^32 nulls, with the codes of `value.h`'s order: its length goes out
as the `uint64_t` 2^32 and comes back as the `uint32_t` 0, so the array comes back
empty and all its elements are left unread. -/
theorem rdbLoadSIValue_encSIValue_array_wraps :
    let codes : SITypeCodes :=
      ⟨8192, 16384, 2048, 4096, 8, 131072, 262144, 32768, 786432, by decide, by decide⟩
    SIValue.AllWellFormed (List.replicate (2 ^ 32) .null) ∧
    rdbLoadSIValue codes (encSIValue codes (.array (List.replicate (2 ^ 32) .null)) ++ []) =
      some (.array [], (List.replicate (2 ^ 32) SIValue.null).flatMap (encSIValue codes) ++ []) := by
  intro codes
  have hwf : SIValue.AllWellFormed (List.replicate (2 ^ 32) .null) :=
    SIValue.allWellFormed_iff.mpr fun v hv => by rw [List.eq_of_mem_replicate hv]; trivial
  have h := @rdbLoadSIValue_encSIValue_array codes _ hwf []
  rw [List.length_replicate, Nat.mod_self, List.take_zero, List.drop_zero] at h
  exact ⟨hwf, h⟩

theorem rdbLoadAttribute_encAttribute {attr : UInt16 × SIValue} (hv : attr.2.WellFormed)
    (r : List RdbItem) :
    rdbLoadAttribute codes (encAttribute codes attr ++ r) = some (attr, r) := by
  simp [rdbLoadAttribute, encAttribute, rdbLoadSIValue_encSIValue hv]

theorem rdbLoadEntity_encEntity {α : Type}
    (addNoClone : α → List UInt16 → List SIValue → Nat → Bool → α) (attributes : α)
    {attrs : List (UInt16 × SIValue)} (hn : attrs.length < 2 ^ 31)
    (hattrs : ∀ attr ∈ attrs, attr.2.WellFormed) (r : List RdbItem) :
    rdbLoadEntity codes addNoClone attributes (encEntity codes attrs ++ r) =
      some (addNoClone attributes (attrs.map Prod.fst) (attrs.map Prod.snd) attrs.length false,
        r) := by
  have hlen : attrs.length.toUInt64.toNat = attrs.length :=
    UInt64.toNat_ofNat_of_lt (by unfold UInt64.size; omega)
  simp only [rdbLoadEntity, encEntity, List.cons_append, rdbLoadUnsigned_unsigned, Option.pure_def,
    Option.bind_eq_bind, Option.some_bind, hlen, hn, if_true,
    rdbLoadMany_flatMap fun attr h r => rdbLoadAttribute_encAttribute (hattrs attr h) r]

/-- `_RdbLoadSIValue` inverts the format for values nested to any depth, and
`_RdbLoadEntity` hands exactly the encoded attributes to `AttributeSet_AddNoClone`;
both read exactly their encoding. -/
theorem rdbLoadV14_inverts_format (codes : SITypeCodes) :
    (∀ v : SIValue, v.WellFormed → ∀ r : List RdbItem,
      rdbLoadSIValue codes (encSIValue codes v ++ r) = some (v, r)) ∧
    (∀ {α : Type} (addNoClone : α → List UInt16 → List SIValue → Nat → Bool → α)
      (attributes : α) (attrs : List (UInt16 × SIValue)),
      attrs.length < 2 ^ 31 → (∀ attr ∈ attrs, attr.2.WellFormed) → ∀ r : List RdbItem,
      rdbLoadEntity codes addNoClone attributes (encEntity codes attrs ++ r) =
        some (addNoClone attributes (attrs.map Prod.fst) (attrs.map Prod.snd) attrs.length
          false, r)) :=
  ⟨fun _ hv r => rdbLoadSIValue_encSIValue hv r,
    fun addNoClone attributes _ hn hattrs r =>
      rdbLoadEntity_encEntity addNoClone attributes hn hattrs r⟩

theorem rdbLoadV14_inverts_format_nested :
    let codes : SITypeCodes :=
      ⟨8192, 16384, 2048, 4096, 8, 131072, 262144, 32768, 786432, by decide, by decide⟩
    let v := SIValue.array [.int64 7, .array [.string [104, 105], .null], .vector32f [0, 1]]
    rdbLoadSIValue codes (encSIValue codes v ++ [.unsigned 9]) = some (v, [.unsigned 9]) ∧
    rdbLoadEntity codes (fun _ ids vals _ _ => (ids, vals)) ([], [])
        (encEntity codes [(3, v), (5, .bool true)] ++ []) =
      some (([3, 5], [v, .bool true]), []) :=
  ⟨(rdbLoadV14_inverts_format _).1 _ (by decide) _,
    (rdbLoadV14_inverts_format _).2 _ _ [(3, _), (5, _)] (by decide) (by decide) _⟩

end RoundTrip

end FalkorDB
