/-
FalkorDB/Bolt/BufferRead.lean

`buffer_read`: the chunked copy between two buffers.

The loop copies, at each turn, as much as fits in what is left of both the
source and the destination chunk, and moves the cursor that reached the end of
its chunk to the start of the next one (the destination grows on demand).  A
cursor parked at offset `BUFFER_CHUNK_SIZE` makes the loop take a turn that
copies nothing and only moves that cursor, so the size alone does not
decrease; `bufferReadLoop` terminates on the measure `3 · size + exhausted
cursors`, which every turn lowers.

`bufferReadLoop_spec` says what the loop computes, for every size and every
offset of both cursors: the destination line, padded with the chunks the loop
appended, is overwritten at the destination cursor with the `size` bytes of
the source line at the source cursor.

`buffer_read` guards the loop with `ASSERT(buffer_index_diff(&buf->buf->write,
buf) >= size)`.  The distance there is truncated to 16 bits, so the assertion
fails whenever the source holds a multiple of 65536 bytes, plus fewer than
`size`, past the cursor (`bufferRead_assert_wraps`).
-/
import FalkorDB.Bolt.BufferWrite

namespace FalkorDB

variable {K : ℕ+}

theorem length_slice {xs : List UInt8} {p n : Nat} (h : p + n ≤ xs.length) :
    ((xs.drop p).take n).length = n := by
  simp; omega

theorem bufferReadLoop_zero (src cs : List (Chunk K)) (buf dst : BufferIndex K) :
    bufferReadLoop src cs buf dst 0 = some (buf, cs, dst) := by
  rw [bufferReadLoop]; simp

/-- **The copy loop of `buffer_read`.**  With `size` bytes of the source line at
the source cursor, and the destination cursor in an allocated chunk, the loop
terminates having copied exactly those bytes to the destination cursor; both
cursors advance by `size`, and the destination grows only to hold its
cursor's final chunk. -/
theorem bufferReadLoop_spec {src cs : List (Chunk K)} {buf dst : BufferIndex K} {size : Nat}
    (hsrc : buf.pos + size ≤ (flat src).length) (hd : dst.chunk < cs.length) :
    ∃ buf' cs' dst', bufferReadLoop src cs buf dst size = some (buf', cs', dst') ∧
      buf'.pos = buf.pos + size ∧ dst'.pos = dst.pos + size ∧
      dst.chunk ≤ dst'.chunk ∧ dst'.chunk < cs'.length ∧
      cs'.length = max cs.length (dst'.chunk + 1) ∧
      flat cs' = overwrite (flat cs ++ List.replicate ((cs'.length - cs.length) * K) 0) dst.pos
        (((flat src).drop buf.pos).take size) := by
  induction cs, buf, dst, size using bufferReadLoop.induct src with
  | case1 cs buf dst =>
    exact ⟨buf, cs, dst, bufferReadLoop_zero .., rfl, rfl, le_rfl, hd, by omega, by simp⟩
  | case2 cs buf dst size hs ihs ihd =>
    dsimp only at ihs ihd
    have hb := buf.offset_le
    have hdo := dst.offset_le
    have hbc : buf.chunk < src.length :=
      chunk_lt_of_pos_lt (by rw [length_flat] at hsrc; omega)
    have hdst := length_flat_le_of_lt hd
    have hbp : buf.pos = buf.chunk * K + buf.offset := rfl
    have hdp : dst.pos = dst.chunk * K + dst.offset := rfl
    rw [bufferReadLoop, dif_neg hs]
    simp only [List.getElem?_eq_getElem hbc, List.getElem?_eq_getElem hd, Option.bind_eq_bind,
      Option.some_bind]
    split_ifs with hf h
    · -- the rest fits in both chunks
      clear ihs ihd
      have hA := length_slice hsrc
      obtain ⟨cs₁, hw, hlen₁, hflat₁⟩ :=
        writeAt_spec hd (show dst.offset + (((flat src).drop buf.pos).take size).length ≤ K by
          rw [hA]; omega)
      rw [readAt_eq hbc (by omega), Option.some_bind, ← hbp, hw, Option.some_bind]
      have hadd : (bufferIndexAdd dst size).chunk = dst.chunk := by
        rw [bufferIndexAdd_of_le (by omega)]
      refine ⟨_, cs₁, _, rfl, pos_bufferIndexAdd _ _, pos_bufferIndexAdd _ _, ?_⟩
      rw [hadd, hlen₁]
      exact ⟨le_rfl, hd, by omega, by simpa [hlen₁, ← hdp] using hflat₁⟩
    · -- the source chunk ends first: copy its rest, move the source cursor on
      have hge : K - buf.offset ≤ size := by omega
      specialize ihs hf h
      clear ihd hf
      have hA := length_slice (show buf.pos + (K - buf.offset) ≤ (flat src).length by omega)
      obtain ⟨cs₁, hw, hlen₁, hflat₁⟩ := writeAt_spec hd
        (show dst.offset + (((flat src).drop buf.pos).take (K - buf.offset)).length ≤ K by
          rw [hA]; omega)
      rw [readAt_eq hbc (by omega), Option.some_bind, ← hbp, hw, Option.some_bind]
      have hnext : (BufferIndex.start (buf.chunk + 1) : BufferIndex K).pos =
          buf.pos + (K - buf.offset) := by
        rw [BufferIndex.pos_start, Nat.succ_mul]; omega
      obtain ⟨buf', cs', dst', hrun, hpos, hdpos, hmono, hc', hlen', hflat'⟩ :=
        ihs cs₁ (by rw [hnext]; omega) (by rw [hlen₁]; exact hd)
      clear ihs
      simp only [BufferIndex.pos_mk] at hdpos hflat'
      rw [hlen₁] at hlen'
      refine ⟨buf', cs', dst', hrun, by rw [hpos, hnext]; omega, by rw [hdpos, hdp]; omega, hmono,
        hc', hlen', ?_⟩
      rw [hflat', hflat₁, hlen₁, ← hdp, show dst.chunk * K + (dst.offset + (K - buf.offset)) =
        dst.pos + (((flat src).drop buf.pos).take (K - buf.offset)).length by rw [hA]; omega,
        overwrite_then (by rw [hA]; omega), hnext, ← slice_add, Nat.add_sub_cancel' hge]
    · -- the destination chunk ends first (or both): fill it, move on to the next one
      have hge : K - dst.offset ≤ size := by omega
      specialize ihd hf h
      clear ihs hf
      have hA := length_slice (show buf.pos + (K - dst.offset) ≤ (flat src).length by omega)
      obtain ⟨cs₁, hw, hlen₁, hflat₁⟩ := writeAt_spec hd
        (show dst.offset + (((flat src).drop buf.pos).take (K - dst.offset)).length ≤ K by
          rw [hA]; omega)
      rw [readAt_eq hbc (by omega), Option.some_bind, ← hbp, hw, Option.some_bind]
      have hnext : (BufferIndex.start (dst.chunk + 1) : BufferIndex K).pos =
          dst.pos + (((flat src).drop buf.pos).take (K - dst.offset)).length := by
        rw [BufferIndex.pos_start, Nat.succ_mul, hA]; omega
      have hlen₂ : (growTo cs₁ (dst.chunk + 1)).length = max cs.length (dst.chunk + 2) := by
        rw [length_growTo (by omega), hlen₁]
      obtain ⟨buf', cs', dst', hrun, hpos, hdpos, hmono, hc', hlen', hflat'⟩ :=
        ihd cs₁ (by simp only [BufferIndex.pos_mk]; omega) (by rw [hlen₂, BufferIndex.start_chunk]; omega)
      clear ihd
      simp only [BufferIndex.pos_mk, BufferIndex.start_chunk] at hpos hflat' hmono
      rw [hlen₂] at hlen'
      refine ⟨buf', cs', dst', hrun, by rw [hpos, hbp]; omega, by rw [hdpos, hnext, hA]; omega,
        by omega, hc', by rw [hlen']; omega, ?_⟩
      rw [hflat', flat_growTo, hflat₁, List.append_assoc, pad_append (by omega) (by omega), hlen₁,
        ← hdp, hnext, overwrite_then (by rw [hA]; omega),
        show buf.chunk * K + (buf.offset + (K - dst.offset)) = buf.pos + (K - dst.offset) by omega,
        ← slice_add, Nat.add_sub_cancel' hge]

/-! ### The guard -/

/-- Past its `ASSERT`, `buffer_read` is its loop. -/
theorem bufferRead_eq_loop {src : Buffer K} {buf : BufferIndex K} {cs : List (Chunk K)}
    {dst : BufferIndex K} {size : Nat} (h : size ≤ bufferIndexDiff src.write buf) :
    bufferRead src buf cs dst size = bufferReadLoop src.chunks cs buf dst size := by
  simp [bufferRead, h]

/-- `buffer_read` as the code runs it: whenever fewer than 65536 bytes lie
between the source cursor and the source's write cursor, the guard holds and
the copy is the loop's. -/
theorem bufferRead_spec {src : Buffer K} {buf : BufferIndex K} {cs : List (Chunk K)}
    {dst : BufferIndex K} {size : Nat} (hsize : buf.pos + size ≤ src.write.pos)
    (hwrap : src.write.pos < buf.pos + 65536) (hsrc : src.write.pos ≤ (flat src.chunks).length)
    (hd : dst.chunk < cs.length) :
    ∃ buf' cs' dst', bufferRead src buf cs dst size = some (buf', cs', dst') ∧
      buf'.pos = buf.pos + size ∧ dst'.pos = dst.pos + size ∧
      dst'.chunk < cs'.length ∧ cs'.length = max cs.length (dst'.chunk + 1) ∧
      flat cs' = overwrite (flat cs ++ List.replicate ((cs'.length - cs.length) * K) 0) dst.pos
        (((flat src.chunks).drop buf.pos).take size) := by
  have hdiff : size ≤ bufferIndexDiff src.write buf := by
    rw [bufferIndexDiff_eq (by omega)]; omega
  obtain ⟨buf', cs', dst', hrun, hpos, hdpos, -, hc', hlen', hflat'⟩ :=
    bufferReadLoop_spec (show buf.pos + size ≤ (flat src.chunks).length by omega) hd
  exact ⟨buf', cs', dst', by rw [bufferRead_eq_loop hdiff, hrun], hpos, hdpos, hc', hlen', hflat'⟩

/-- Three bytes copied from the end of a source chunk into the next one, to a
destination cursor two bytes before the end of its only chunk: both copies cross
a chunk end, and the destination grows. -/
theorem bufferRead_spec_across :
    let src : Buffer 4 := ⟨[Chunk.fresh 4, Chunk.fresh 4], BufferIndex.start 0, ⟨1, 2, by decide⟩⟩
    let buf : BufferIndex 4 := ⟨0, 3, by decide⟩
    let dst : BufferIndex 4 := ⟨0, 2, by decide⟩
    buf.pos + 3 ≤ src.write.pos ∧ src.write.pos < buf.pos + 65536 ∧
    src.write.pos ≤ (flat src.chunks).length ∧ dst.chunk < [Chunk.fresh 4].length ∧
    ∃ buf' cs' dst', bufferRead src buf [Chunk.fresh 4] dst 3 = some (buf', cs', dst') ∧
      buf'.pos = buf.pos + 3 ∧ dst'.pos = dst.pos + 3 ∧
      dst'.chunk < cs'.length ∧ cs'.length = max [Chunk.fresh 4].length (dst'.chunk + 1) ∧
      flat cs' = overwrite (flat [Chunk.fresh 4] ++
          List.replicate ((cs'.length - [Chunk.fresh 4].length) * (4 : ℕ+)) 0) dst.pos
        (((flat src.chunks).drop buf.pos).take 3) :=
  ⟨by decide, by decide, by decide, by decide,
    bufferRead_spec (by decide) (by decide) (by decide) (by decide)⟩

/-- **The 16-bit guard of `buffer_read`.**  Write 65536 bytes into a new buffer
and copy one byte from its start, to anywhere: the source holds 65536 bytes
past the cursor, but `buffer_index_diff` reports their distance as `0`, and
`ASSERT(0 >= 1)` traps. -/
theorem bufferRead_assert_wraps (K : ℕ+) (cs : List (Chunk K)) (dst : BufferIndex K) :
    ∃ cs₁ w₁, bufferWrite [Chunk.fresh K] (BufferIndex.start 0) (List.replicate 65536 0) =
        some (cs₁, w₁) ∧ w₁.pos = 65536 ∧
      bufferRead ⟨cs₁, BufferIndex.start 0, w₁⟩ (BufferIndex.start 0) cs dst 1 = none := by
  obtain ⟨cs₁, w₁, h₁, hpos, -⟩ := bufferWrite_spec (List.replicate 65536 0)
    (show (BufferIndex.start 0 : BufferIndex K).chunk < [Chunk.fresh K].length by simp)
  have hpos' : w₁.pos = 65536 := by
    rwa [List.length_replicate, BufferIndex.pos_start, Nat.zero_mul, Nat.zero_add] at hpos
  refine ⟨cs₁, w₁, h₁, hpos', ?_⟩
  have hdiff : bufferIndexDiff w₁ (BufferIndex.start 0) = 0 := by
    rw [bufferIndexDiff_eq (by rw [hpos', BufferIndex.pos_start]; omega), hpos',
      BufferIndex.pos_start, Nat.zero_mul]
  simp only [bufferRead, hdiff, ge_iff_le, Nat.le_zero, one_ne_zero, if_false]

end FalkorDB
