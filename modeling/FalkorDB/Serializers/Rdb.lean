/-
FalkorDB/Serializers/Rdb.lean

The RDB payload of a module type, as the decoders of `src/serializers/decoders`
read it through `RedisModule_LoadUnsigned`, `LoadSigned`, `LoadDouble`,
`LoadFloat` and `LoadStringBuffer`.

None of these functions is among the sources.  Redis writes every value of a
module type behind an opcode that names its kind, and a load that finds another
opcode, or the end of the payload, is a load error that stops the server.  The
payload is therefore a list of typed items; a load takes the first item when it
has the kind asked for and answers `none` otherwise.  `RedisModule_SaveSigned`
and `LoadSigned` go through the unsigned opcode with the bits unchanged, so a
signed value is an `unsigned` item (`rdbSigned`) and either load reads it.
Doubles and floats travel as their IEEE bits and a string buffer as its bytes.

The decoders repeat one load in a counted `for` loop (array elements, vector
entries, entity attributes); `rdbLoadMany` is that loop, and `rdbLoadMany_flatMap`
its one law: a loop over the concatenated encodings of `xs` gives back `xs`
whenever each turn inverts the encoding of one element.
-/
import Mathlib.Data.List.Infix

namespace FalkorDB

/-- One value of a module type's RDB payload, with the kind its opcode names. -/
inductive RdbItem where
  | unsigned (n : UInt64)
  | double (bits : UInt64)
  | float (bits : UInt32)
  | string (bytes : List UInt8)
deriving DecidableEq, Repr

/-- A `RedisModule_Load*` call: the first item, read by `get` when it has the kind
asked for; a load error (`none`) otherwise. -/
def rdbLoad {α : Type} (get : RdbItem → Option α) : List RdbItem → Option (α × List RdbItem)
  | [] => none
  | item :: items => (get item).map (·, items)

/-- `RedisModule_LoadUnsigned`. -/
def rdbLoadUnsigned : List RdbItem → Option (UInt64 × List RdbItem) :=
  rdbLoad fun | .unsigned n => some n | _ => none

/-- `RedisModule_SaveSigned`: the bits of an `int64_t`, saved as an unsigned. -/
def rdbSigned (n : BitVec 64) : RdbItem := .unsigned ⟨n⟩

/-- `RedisModule_LoadSigned`: `RedisModule_LoadUnsigned`, the bits read back as
an `int64_t`. -/
def rdbLoadSigned : List RdbItem → Option (BitVec 64 × List RdbItem) :=
  rdbLoad fun | .unsigned n => some n.toBitVec | _ => none

/-- `RedisModule_LoadDouble`. -/
def rdbLoadDouble : List RdbItem → Option (UInt64 × List RdbItem) :=
  rdbLoad fun | .double bits => some bits | _ => none

/-- `RedisModule_LoadFloat`. -/
def rdbLoadFloat : List RdbItem → Option (UInt32 × List RdbItem) :=
  rdbLoad fun | .float bits => some bits | _ => none

/-- `RedisModule_LoadStringBuffer(rdb, NULL)`: the buffer, its length dropped. -/
def rdbLoadStringBuffer : List RdbItem → Option (List UInt8 × List RdbItem) :=
  rdbLoad fun | .string bytes => some bytes | _ => none

@[simp] theorem rdbLoadUnsigned_unsigned (n : UInt64) (items : List RdbItem) :
    rdbLoadUnsigned (.unsigned n :: items) = some (n, items) := rfl

@[simp] theorem rdbLoadSigned_signed (n : BitVec 64) (items : List RdbItem) :
    rdbLoadSigned (rdbSigned n :: items) = some (n, items) := rfl

@[simp] theorem rdbLoadDouble_double (bits : UInt64) (items : List RdbItem) :
    rdbLoadDouble (.double bits :: items) = some (bits, items) := rfl

@[simp] theorem rdbLoadFloat_float (bits : UInt32) (items : List RdbItem) :
    rdbLoadFloat (.float bits :: items) = some (bits, items) := rfl

@[simp] theorem rdbLoadStringBuffer_string (bytes : List UInt8) (items : List RdbItem) :
    rdbLoadStringBuffer (.string bytes :: items) = some (bytes, items) := rfl

/-- Every load consumes exactly one item. -/
theorem rdbLoad_length {α : Type} {get : RdbItem → Option α} {items rest : List RdbItem} {x : α}
    (h : rdbLoad get items = some (x, rest)) : rest.length + 1 = items.length := by
  cases items with
  | nil => cases h
  | cons item items =>
    obtain ⟨y, -, ⟨⟩⟩ := Option.map_eq_some'.mp h
    rfl

/-- A load leaves a suffix of what it was given, never more items. -/
def Consumes {α : Type} (load : List RdbItem → Option (α × List RdbItem)) : Prop :=
  ∀ ⦃items : List RdbItem⦄ ⦃x : α⦄ ⦃rest : List RdbItem⦄,
    load items = some (x, rest) → rest.length ≤ items.length

theorem rdbLoad_consumes {α : Type} {get : RdbItem → Option α} : Consumes (rdbLoad get) :=
  fun _ _ _ h => by have := rdbLoad_length h; omega

/-- A step that returns what it was given leaves it all. -/
theorem length_le_of_some {α : Type} {x y : α} {items rest : List RdbItem}
    (h : some (x, items) = some (y, rest)) : rest.length ≤ items.length := by
  cases h
  exact le_rfl

/-- What follows a consuming load leaves no more than the load left. -/
theorem Consumes.bind_le {α β : Type} {l : List RdbItem → Option (α × List RdbItem)}
    (hl : Consumes l) {f : α × List RdbItem → Option (β × List RdbItem)}
    {items rest : List RdbItem} {y : β} (h : (l items).bind f = some (y, rest))
    (hf : ∀ a mid y rest, f (a, mid) = some (y, rest) → rest.length ≤ mid.length) :
    rest.length ≤ items.length := by
  obtain ⟨⟨a, mid⟩, h₁, h₂⟩ := Option.bind_eq_some.mp h
  exact (hf a mid y rest h₂).trans (hl h₁)

/-- A counted loop of C that makes the same load `n` times, in order. -/
def rdbLoadMany {α : Type} (load : List RdbItem → Option (α × List RdbItem)) :
    Nat → List RdbItem → Option (List α × List RdbItem)
  | 0, items => some ([], items)
  | n + 1, items => do
    let (x, items) ← load items
    let (xs, items) ← rdbLoadMany load n items
    return (x :: xs, items)

section Many

variable {α : Type} {load : List RdbItem → Option (α × List RdbItem)}

/-- Told to read `k` of the encoded elements of `xs`, the loop reads the first `k` and leaves
the others, when each turn inverts the encoding of one element, whatever follows it. -/
theorem rdbLoadMany_flatMap_take {enc : α → List RdbItem} {xs : List α}
    (h : ∀ x ∈ xs, ∀ r, load (enc x ++ r) = some (x, r)) {k : Nat} (hk : k ≤ xs.length)
    (r : List RdbItem) :
    rdbLoadMany load k (xs.flatMap enc ++ r) = some (xs.take k, (xs.drop k).flatMap enc ++ r) := by
  induction xs generalizing k with
  | nil => obtain rfl : k = 0 := Nat.le_zero.mp hk; rfl
  | cons x xs ih =>
    cases k with
    | zero => rfl
    | succ k =>
      simp [rdbLoadMany, List.append_assoc, h x (List.mem_cons_self x xs),
        ih (fun y hy => h y (List.mem_cons_of_mem x hy)) (Nat.le_of_succ_le_succ hk)]

/-- The loop over all the encoded elements of `xs` gives back `xs`. -/
theorem rdbLoadMany_flatMap {enc : α → List RdbItem} {xs : List α}
    (h : ∀ x ∈ xs, ∀ r, load (enc x ++ r) = some (x, r)) (r : List RdbItem) :
    rdbLoadMany load xs.length (xs.flatMap enc ++ r) = some (xs, r) := by
  simpa using rdbLoadMany_flatMap_take h le_rfl r

/-- The entries of a vector, read by `RedisModule_LoadFloat` one by one. -/
theorem rdbLoadMany_float (xs : List UInt32) {k : Nat} (hk : k ≤ xs.length) (r : List RdbItem) :
    rdbLoadMany rdbLoadFloat k (xs.map .float ++ r) = some (xs.take k, (xs.drop k).map .float ++ r) := by
  simp only [List.map_eq_flatMap]
  exact rdbLoadMany_flatMap_take (fun x _ r => rdbLoadFloat_float x r) hk r

theorem rdbLoadMany_consumes (hl : Consumes load) : ∀ n, Consumes (rdbLoadMany load n)
  | 0 => fun _ _ _ h => length_le_of_some h
  | n + 1 => fun _ _ _ h => hl.bind_le h fun _ _ _ _ h =>
    (rdbLoadMany_consumes hl n).bind_le h fun _ _ _ _ h => length_le_of_some h

/-- Two loads that agree on every stream up to some length give the same loop on such a
stream, when the second consumes. -/
theorem rdbLoadMany_congr {load' : List RdbItem → Option (α × List RdbItem)} {m : Nat}
    (h : ∀ s : List RdbItem, s.length ≤ m → load s = load' s) (hl : Consumes load') :
    ∀ n (items : List RdbItem), items.length ≤ m →
      rdbLoadMany load n items = rdbLoadMany load' n items
  | 0, _, _ => rfl
  | n + 1, items, hi => by
    simp only [rdbLoadMany, h items hi]
    cases hx : load' items with
    | none => rfl
    | some p =>
      obtain ⟨x, rest⟩ := p
      simp only [Option.bind_eq_bind, Option.some_bind]
      rw [rdbLoadMany_congr h hl n rest ((hl hx).trans hi)]

end Many

/-- A counted loop of C whose turns update a state, such as the graph being loaded. -/
def rdbLoadIter {σ : Type} (step : σ → List RdbItem → Option (σ × List RdbItem)) :
    Nat → σ → List RdbItem → Option (σ × List RdbItem)
  | 0, g, items => some (g, items)
  | n + 1, g, items => do
    let (g, items) ← step g items
    rdbLoadIter step n g items

/-- The loop over the concatenated encodings of `xs` makes the state changes of `xs` in
order when each turn makes the change of one element and reads exactly its encoding. -/
theorem rdbLoadIter_flatMap {α σ : Type} {step : σ → List RdbItem → Option (σ × List RdbItem)}
    {enc : α → List RdbItem} {f : σ → α → Option σ} {xs : List α}
    (h : ∀ x ∈ xs, ∀ g r, step g (enc x ++ r) = (f g x).map (·, r)) (g : σ) (r : List RdbItem) :
    rdbLoadIter step xs.length g (xs.flatMap enc ++ r) = (xs.foldlM f g).map (·, r) := by
  induction xs generalizing g with
  | nil => rfl
  | cons x xs ih =>
    simp only [List.length_cons, List.flatMap_cons, List.append_assoc, rdbLoadIter,
      h x (List.mem_cons_self x xs), List.foldlM_cons, Option.bind_eq_bind]
    cases f g x with
    | none => rfl
    | some g' => exact ih (fun y hy => h y (List.mem_cons_of_mem x hy)) g'

end FalkorDB
