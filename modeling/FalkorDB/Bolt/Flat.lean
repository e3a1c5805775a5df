/-
FalkorDB/Bolt/Flat.lean

The flat view of a chunked buffer.  Every chunk is `BUFFER_CHUNK_SIZE` bytes
long, so the chunk array lays its bytes out on one line, chunk after chunk,
and the cursor `(c, o)` stands at linear position `c · BUFFER_CHUNK_SIZE + o`
of that line.  Each memory access of `Buffer.lean` becomes an operation on the
line: reading `n` bytes at a cursor is a slice `(drop p).take n`, and a
`memcpy` into a chunk is an `overwrite` of the line.  The specifications of
the buffer functions are all stated on this view.

The one place where the view is not enough is the chunk boundary itself: the
`memcpy`s and pointer reads of the C code stay inside one chunk, and the
lemmas below carry that as the side condition `off + n ≤ BUFFER_CHUNK_SIZE`.
-/
import FalkorDB.Bolt.Buffer
import Mathlib.Algebra.Order.Group.Nat

namespace FalkorDB

variable {K : ℕ+}

/-! ### Overwriting a byte array -/

section Overwrite

variable {xs ys d e : List UInt8} {p : Nat}

theorem length_overwrite (h : p + d.length ≤ xs.length) :
    (overwrite xs p d).length = xs.length := by
  simp only [overwrite, List.length_append, List.length_take, List.length_drop]
  omega

theorem overwrite_append_left (h : p + d.length ≤ xs.length) :
    overwrite (xs ++ ys) p d = overwrite xs p d ++ ys := by
  simp only [overwrite, List.take_append_of_le_length (by omega : p ≤ xs.length),
    List.drop_append_of_le_length h, List.append_assoc]

theorem overwrite_append_right (h : xs.length ≤ p) :
    overwrite (xs ++ ys) p d = xs ++ overwrite ys (p - xs.length) d := by
  obtain ⟨q, rfl⟩ := Nat.exists_eq_add_of_le h
  simp only [overwrite, Nat.add_sub_cancel_left, List.take_append, Nat.add_assoc,
    List.drop_append, List.append_assoc]

/-- Two adjacent writes are one write of the concatenation. -/
theorem overwrite_overwrite (h : p ≤ xs.length) :
    overwrite (overwrite xs p d) (p + d.length) e = overwrite xs p (d ++ e) := by
  have ht : (xs.take p ++ d).length = p + d.length := by simp [h]
  have e : overwrite xs p d = (xs.take p ++ d) ++ xs.drop (p + d.length) := rfl
  rw [e, overwrite_append_right ht.le, ht, Nat.sub_self]
  simp [overwrite, Nat.add_assoc]

theorem take_overwrite (h : p ≤ xs.length) : (overwrite xs p d).take p = xs.take p := by
  rw [overwrite, List.append_assoc, List.take_append_of_le_length (by simp [h]), List.take_take,
    min_self]

/-- The written bytes read back. -/
theorem slice_overwrite (h : p ≤ xs.length) :
    ((overwrite xs p d).drop p).take d.length = d := by
  rw [overwrite, List.append_assoc, List.drop_append_of_le_length (by simp [h]),
    List.drop_eq_nil_of_le (by simp)]
  simp

/-- A write of `A` followed, after padding the line with `P`, by a write of `B`
just past it, is one write of `A ++ B` into the padded line: the shape of every
loop that fills a chunk and moves on. -/
theorem overwrite_then {P : List UInt8} (h : p + d.length ≤ xs.length) :
    overwrite (overwrite xs p d ++ P) (p + d.length) e = overwrite (xs ++ P) p (d ++ e) := by
  rw [← overwrite_append_left h, overwrite_overwrite (by simp; omega)]

/-- Up to the end of the written bytes, the line is its old prefix and the data. -/
theorem take_overwrite_add (h : p ≤ xs.length) :
    (overwrite xs p d).take (p + d.length) = xs.take p ++ d := by
  have ht : (xs.take p ++ d).length = p + d.length := by simp [h]
  rw [overwrite, ← ht, List.take_left]

theorem take_overwrite_of_le {q : Nat} (hq : q ≤ p) (h : p ≤ xs.length) :
    (overwrite xs p d).take q = xs.take q := by
  rw [← Nat.min_eq_left hq, ← List.take_take, take_overwrite h, List.take_take]

/-- A write that ends before `n` commutes with cutting the line at `n`. -/
theorem take_overwrite_of_add_le {n : Nat} (hn : p + d.length ≤ n) (h : p ≤ xs.length) :
    (overwrite xs p d).take n = overwrite (xs.take n) p d := by
  have ht : (xs.take p ++ d).length = p + d.length := by simp [h]
  rw [overwrite, List.take_append_eq_append_take, List.take_of_length_le (by omega), ht, overwrite,
    List.take_take, Nat.min_eq_left (by omega), List.drop_take]

/-- Overwriting the last bytes of a prefix replaces them. -/
theorem overwrite_take_add :
    overwrite (xs.take (p + d.length)) p d = xs.take p ++ d := by
  rw [overwrite, List.take_take, Nat.min_eq_left (Nat.le_add_right _ _),
    List.drop_eq_nil_of_le (by simp), List.append_nil]

/-- A write over a run of bytes of its own length replaces that run. -/
theorem overwrite_middle {pre slot post : List UInt8} (h : d.length = slot.length) :
    overwrite (pre ++ slot ++ post) pre.length d = pre ++ d ++ post := by
  simp [overwrite, h, List.take_append_eq_append_take, List.drop_append_eq_append_drop]

@[simp] theorem overwrite_nil : overwrite xs p [] = xs := by
  simp [overwrite]

theorem slice_add (xs : List UInt8) (p a b : Nat) :
    (xs.drop p).take (a + b) = (xs.drop p).take a ++ (xs.drop (p + a)).take b := by
  rw [List.take_add, List.drop_drop]

/-- Bytes outside the written range are unchanged. -/
theorem getElem?_overwrite {i : Nat} (h : i < p ∨ p + d.length ≤ i) (hp : p ≤ xs.length) :
    (overwrite xs p d)[i]? = xs[i]? := by
  have ht : (xs.take p).length = p := by simp [hp]
  rcases h with h | h
  · rw [overwrite, List.append_assoc, List.getElem?_append_left (by omega),
      List.getElem?_take_of_lt h]
  · rw [overwrite, List.getElem?_append_right (by simp [ht]; omega), List.getElem?_drop]
    simp only [List.length_append, ht]
    congr 1
    omega

end Overwrite

/-! ### The flat view -/

/-- The bytes of a chunk array, chunk after chunk. -/
def flat (chunks : List (Chunk K)) : List UInt8 := (chunks.map Chunk.bytes).flatten

@[simp] theorem flat_nil : flat ([] : List (Chunk K)) = [] := rfl

@[simp] theorem flat_cons (ch : Chunk K) (cs : List (Chunk K)) :
    flat (ch :: cs) = ch.bytes ++ flat cs := rfl

@[simp] theorem flat_append (cs ds : List (Chunk K)) : flat (cs ++ ds) = flat cs ++ flat ds := by
  simp [flat]

@[simp] theorem Chunk.fresh_bytes : (Chunk.fresh K).bytes = List.replicate K 0 := rfl

@[simp] theorem length_flat (cs : List (Chunk K)) : (flat cs).length = cs.length * K := by
  induction cs with
  | nil => simp
  | cons ch cs ih => simp [ih, ch.length_eq, Nat.succ_mul, Nat.add_comm]

theorem length_flat_mono {cs cs' : List (Chunk K)} (h : cs.length ≤ cs'.length) :
    (flat cs).length ≤ (flat cs').length := by
  simpa using Nat.mul_le_mul_right (K : Nat) h

theorem length_flat_le_of_lt {cs : List (Chunk K)} {c : Nat} (h : c < cs.length) :
    c * K + K ≤ (flat cs).length := by
  rw [length_flat, ← Nat.succ_mul]
  exact Nat.mul_le_mul_right _ h

/-! ### Memory accesses on the flat view -/

/-- Reading inside chunk `c` reads a slice of the line. -/
theorem readAt_eq {cs : List (Chunk K)} {c off n : Nat} (hc : c < cs.length)
    (h : off + n ≤ K) :
    readAt cs c off n = some (((flat cs).drop (c * K + off)).take n) := by
  induction cs generalizing c with
  | nil => simp at hc
  | cons ch cs ih =>
    cases c with
    | zero =>
      have hl := ch.length_eq
      simp only [readAt, List.getElem?_cons_zero, Option.bind_eq_bind, Option.some_bind,
        Chunk.read, h, if_true, flat_cons, Nat.zero_mul, Nat.zero_add]
      rw [List.drop_append_of_le_length (by omega), List.take_append_of_le_length (by simp; omega)]
    | succ c =>
      have hl := ch.length_eq
      have e : (c + 1) * K + off = ch.bytes.length + (c * K + off) := by
        rw [hl, Nat.succ_mul]; omega
      simpa [readAt, e, List.drop_append] using ih (by simpa using hc)

/-- Reading past the end of chunk `c` is undefined behaviour. -/
theorem readAt_eq_none {cs : List (Chunk K)} {c off n : Nat} (h : K < off + n) :
    readAt cs c off n = none := by
  simp only [readAt, Option.bind_eq_bind]
  cases cs[c]? <;> simp [Chunk.read, Nat.not_le.mpr h]

/-- The chunk array after a `memcpy` into chunk `c`, on the flat view. -/
theorem flat_set_write {cs : List (Chunk K)} {c off : Nat} {ch : Chunk K} {d : List UInt8}
    (hch : cs[c]? = some ch) (h : off + d.length ≤ K) (h' : (overwrite ch.bytes off d).length = K) :
    flat (cs.set c ⟨overwrite ch.bytes off d, h'⟩) = overwrite (flat cs) (c * K + off) d := by
  induction cs generalizing c with
  | nil => simp at hch
  | cons ch₀ cs ih =>
    cases c with
    | zero =>
      obtain rfl : ch₀ = ch := by simpa using hch
      simp only [List.set_cons_zero, flat_cons, Nat.zero_mul, Nat.zero_add]
      rw [overwrite_append_left (by simpa [Chunk.length_eq] using h)]
    | succ c =>
      have hl := ch₀.length_eq
      simp only [List.set_cons_succ, flat_cons, ih (by simpa using hch)]
      rw [overwrite_append_right (by rw [hl, Nat.succ_mul]; omega), hl]
      congr 2
      rw [Nat.succ_mul]; omega

/-- A `memcpy` inside chunk `c` overwrites the line there and keeps the chunk
count. -/
theorem writeAt_spec {cs : List (Chunk K)} {c off : Nat} {d : List UInt8} (hc : c < cs.length)
    (h : off + d.length ≤ K) :
    ∃ cs', writeAt cs c off d = some cs' ∧ cs'.length = cs.length ∧
      flat cs' = overwrite (flat cs) (c * K + off) d := by
  obtain ⟨ch, hch⟩ : ∃ ch, cs[c]? = some ch := ⟨cs[c], List.getElem?_eq_getElem hc⟩
  refine ⟨_, ?_, List.length_set .., flat_set_write hch h ?_⟩
  · simp [writeAt, hch, Chunk.write, h]
  · simp only [overwrite, List.length_append, List.length_take, List.length_drop, ch.length_eq]
    omega

/-- A `memcpy` that runs past the end of chunk `c` is undefined behaviour. -/
theorem writeAt_eq_none {cs : List (Chunk K)} {c off : Nat} {d : List UInt8}
    (h : K < off + d.length) : writeAt cs c off d = none := by
  simp only [writeAt, Option.bind_eq_bind]
  cases cs[c]? <;> simp [Chunk.write, Nat.not_le.mpr h]

/-- What a `memcpy` into chunk `c` that did not trap did. -/
theorem writeAt_inv {cs cs' : List (Chunk K)} {c off : Nat} {d : List UInt8}
    (h : writeAt cs c off d = some cs') :
    c < cs.length ∧ off + d.length ≤ K ∧ cs'.length = cs.length ∧
      flat cs' = overwrite (flat cs) (c * K + off) d := by
  have hc : c < cs.length := by
    by_contra hc
    simp [writeAt, List.getElem?_eq_none (Nat.le_of_not_lt hc)] at h
  have hd : off + d.length ≤ K := by
    by_contra hd
    rw [writeAt_eq_none (Nat.lt_of_not_le hd)] at h
    cases h
  obtain ⟨cs'', h', hlen, hflat⟩ := writeAt_spec hc hd
  obtain rfl : cs'' = cs' := Option.some.inj (h' ▸ h)
  exact ⟨hc, hd, hlen, hflat⟩

theorem growTo_of_lt {cs : List (Chunk K)} {c : Nat} (h : c < cs.length) : growTo cs c = cs := by
  simp [growTo, Nat.ne_of_gt h]

theorem length_growTo {cs : List (Chunk K)} {c : Nat} (h : c ≤ cs.length) :
    (growTo cs c).length = max cs.length (c + 1) := by
  unfold growTo
  split <;> simp <;> omega

/-- Growing appends fresh chunks only. -/
theorem flat_growTo (cs : List (Chunk K)) (c : Nat) :
    flat (growTo cs c) = flat cs ++ List.replicate (((growTo cs c).length - cs.length) * K) 0 := by
  unfold growTo
  split <;> simp

/-- Two rounds of growth append the fresh chunks of both. -/
theorem pad_append {m n l : Nat} (h₁ : m ≤ n) (h₂ : n ≤ l) :
    List.replicate ((n - m) * K) (0 : UInt8) ++ List.replicate ((l - n) * K) 0 =
      List.replicate ((l - m) * K) 0 := by
  rw [List.append_replicate_replicate, ← Nat.add_mul]
  congr 2
  omega

/-! ### Cursor arithmetic -/

/-- A cursor strictly inside the first `n` chunks lies in one of them. -/
theorem chunk_lt_of_pos_lt {i : BufferIndex K} {n : Nat} (h : i.pos < n * K) : i.chunk < n :=
  Nat.lt_of_mul_lt_mul_right (a := K) (Nat.lt_of_le_of_lt (Nat.le_add_right _ _) h)

theorem pos_bufferIndexAdd (i : BufferIndex K) (n : Nat) :
    (bufferIndexAdd i n).pos = i.pos + n := by
  unfold bufferIndexAdd BufferIndex.pos
  split
  · have := Nat.div_add_mod (i.offset + n) K
    simp only [Nat.add_mul]
    rw [Nat.mul_comm] at this
    omega
  · simp only
    omega

theorem bufferIndexAdd_of_le {i : BufferIndex K} {n : Nat} (h : i.offset + n ≤ K) :
    bufferIndexAdd i n = ⟨i.chunk, i.offset + n, h⟩ := by
  simp [bufferIndexAdd, Nat.not_lt.mpr h]

theorem bufferIndexAdd_start {c n : Nat} (h : n ≤ K) :
    bufferIndexAdd (BufferIndex.start c) n = ⟨c, n, h⟩ := by
  simp [bufferIndexAdd, BufferIndex.start, Nat.not_lt.mpr h]

/-- Below a difference of 2^16 the distance is exact; above it wraps. -/
theorem bufferIndexDiff_eq {a b : BufferIndex K} (h : b.pos ≤ a.pos) :
    bufferIndexDiff a b = (a.pos - b.pos) % 65536 := by
  unfold bufferIndexDiff BufferIndex.pos at *
  rw [Int.sub_mul]
  omega

end FalkorDB
