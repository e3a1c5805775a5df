/-
FalkorDB/Bolt/BufferWrite.lean

`buffer_write` and the scalar reads, on the flat view.

`bufferWrite_spec` is the one specification every later proof cites: from a
cursor inside an allocated chunk, the write always succeeds, overwrites the
line at the cursor's position with the data (growing the line by fresh chunks
first, as many as the cursor moves past the last one), and leaves the cursor
exactly `|data|` further on, inside an allocated chunk.  The proof follows the
loop of the C code: one induction step per chunk filled.

Writes compose: one `buffer_write` of `a ++ b` is a `buffer_write` of `a` and
then one of `b`, to the same chunk array and the same cursor
(`bufferWrite_append`).  A chunk array is its line cut into chunks, and a
cursor that a write of some bytes leaves behind stands past at least one byte
of its chunk, so the position alone fixes it.

The scalar reads are the other half of the story.  `buffer_index_read` hands
out a pointer into a single chunk, so a read that does not fit in what is left
of the cursor's chunk runs off the end of the allocation
(`bufferIndexRead_eq_none_of_straddle`).  Writes roll over chunk boundaries,
reads do not: a value written across a boundary cannot be read back
(`bufferReadUint16_straddle`).
-/
import FalkorDB.Bolt.Flat

namespace FalkorDB

variable {K : ℕ+}

/-! ### The write loop -/

theorem bufferIndexAdd_fill (buf : BufferIndex K) :
    (bufferIndexAdd buf (K - buf.offset)).chunk = buf.chunk := by
  rw [bufferIndexAdd_of_le (by have := buf.offset_le; omega)]

theorem pos_le_length_flat {cs : List (Chunk K)} {buf : BufferIndex K} (hc : buf.chunk < cs.length) :
    buf.pos ≤ (flat cs).length := by
  have := length_flat_le_of_lt hc
  have := buf.offset_le
  unfold BufferIndex.pos
  omega

/-- **`buffer_write`, on the flat view.**  From a cursor in an allocated chunk the
write succeeds; the chunk array grows just enough to hold the cursor's final
chunk, and the line, padded with the fresh chunks, is overwritten at the
cursor's position. -/
theorem bufferWrite_spec {cs : List (Chunk K)} {buf : BufferIndex K} (data : List UInt8)
    (hc : buf.chunk < cs.length) :
    ∃ cs' buf', bufferWrite cs buf data = some (cs', buf') ∧ buf'.pos = buf.pos + data.length ∧
      buf.chunk ≤ buf'.chunk ∧ buf'.chunk < cs'.length ∧
      cs'.length = max cs.length (buf'.chunk + 1) ∧
      flat cs' = overwrite (flat cs ++ List.replicate ((cs'.length - cs.length) * K) 0)
        buf.pos data := by
  induction cs, buf, data using bufferWrite.induct with
  | case1 cs buf data h first ih =>
    -- fill the rest of the chunk, step to the start of the next one
    have hK := buf.offset_le
    have htake : (data.take (K - buf.offset)).length = K - buf.offset := by simp; omega
    have hfit : buf.offset + (data.take (K - buf.offset)).length ≤ K := by omega
    have hnext : (BufferIndex.start (buf.chunk + 1) : BufferIndex K).pos =
        buf.pos + (data.take (K - buf.offset)).length := by
      rw [BufferIndex.pos_start, htake, Nat.succ_mul]; unfold BufferIndex.pos; omega
    obtain ⟨cs₁, hw, hlen₁, hflat₁⟩ := writeAt_spec hc hfit
    have hlen₂ := length_growTo (show buf.chunk + 1 ≤ cs₁.length by omega)
    have hgrow : buf.chunk + 1 < (growTo cs₁ (buf.chunk + 1)).length := by omega
    have ih' := ih cs₁
    simp only [first, bufferIndexAdd_fill, BufferIndex.start_chunk] at ih'
    obtain ⟨cs', buf', hrun, hpos, hmono, hc', hlen', hflat'⟩ := ih' hgrow
    clear ih ih'
    refine ⟨cs', buf', ?_, ?_, ?_, hc', ?_, ?_⟩
    · rw [bufferWrite, dif_pos h]
      simpa only [Option.bind_eq_bind, hw, Option.some_bind, bufferIndexAdd_fill,
        BufferIndex.start_chunk] using hrun
    · rw [hpos, hnext, htake, List.length_drop]; omega
    · omega
    · rw [hlen', hlen₂, hlen₁]; omega
    · have hfill : buf.pos + (data.take (K - buf.offset)).length ≤ (flat cs).length := by
        rw [← hnext, BufferIndex.pos_start, length_flat, ← hlen₁]
        exact Nat.mul_le_mul_right _ (by omega)
      rw [hflat', hnext, flat_growTo, hflat₁, List.append_assoc, pad_append (by omega) (by omega),
        hlen₁, show buf.chunk * K + buf.offset = buf.pos from rfl, overwrite_then hfill,
        List.take_append_drop]
  | case2 cs buf data h =>
    -- the data fits in the cursor's chunk
    have hfit := Nat.le_of_not_lt h
    obtain ⟨cs₁, hw, hlen₁, hflat₁⟩ := writeAt_spec hc hfit
    refine ⟨cs₁, ⟨buf.chunk, buf.offset + data.length, hfit⟩, ?_, (Nat.add_assoc ..).symm, le_rfl,
      by rwa [hlen₁], by rw [hlen₁]; dsimp only; omega, ?_⟩
    · rw [bufferWrite, dif_neg h]
      simp [hw, bufferIndexAdd_of_le hfit]
    · simpa [hlen₁] using hflat₁

/-- **Bulk write.**  From a cursor in an allocated chunk, `buffer_write` of `d`
terminates; afterwards the bytes at `pos … pos + |d| - 1` are `d`, every other
byte is unchanged, the cursor has advanced by exactly `|d|` (as
`buffer_index_diff` reports for `|d| ≤ 65535`) into an allocated chunk, and a
chunk was appended only to hold the cursor's final chunk.  The scalar writes
are `buffer_write` of the scalar's bytes, so the same holds of them. -/
theorem bufferWrite_correct {cs : List (Chunk K)} {buf : BufferIndex K} {data : List UInt8}
    (hc : buf.chunk < cs.length) :
    ∃ cs' buf', bufferWrite cs buf data = some (cs', buf') ∧
      ((flat cs').drop buf.pos).take data.length = data ∧
      (∀ i < (flat cs).length, (i < buf.pos ∨ buf.pos + data.length ≤ i) →
        (flat cs')[i]? = (flat cs)[i]?) ∧
      buf'.pos = buf.pos + data.length ∧
      (data.length ≤ 65535 → bufferIndexDiff buf' buf = data.length) ∧
      buf'.chunk < cs'.length ∧ cs'.length = max cs.length (buf'.chunk + 1) := by
  obtain ⟨cs', buf', hrun, hpos, -, hc', hlen, hflat⟩ := bufferWrite_spec data hc
  have hp : buf.pos ≤ (flat cs ++ List.replicate ((cs'.length - cs.length) * K) 0).length := by
    rw [List.length_append]; have := pos_le_length_flat hc; omega
  refine ⟨cs', buf', hrun, ?_, fun i hi hout => ?_, hpos, fun hd => ?_, hc', hlen⟩
  · rw [hflat]; exact slice_overwrite hp
  · rw [hflat, getElem?_overwrite hout hp, List.getElem?_append_left hi]
  · rw [bufferIndexDiff_eq (by omega), hpos, Nat.add_sub_cancel_left]
    exact Nat.mod_eq_of_lt (by omega)

/-- Six bytes written from the end of the only chunk of a buffer of 4-byte
chunks: the write crosses two chunk ends and grows the array to three chunks,
and the chunk's own bytes stay. -/
theorem bufferWrite_correct_fresh :
    let cs : List (Chunk 4) := [⟨[9, 9, 9, 9], rfl⟩]
    let buf : BufferIndex 4 := ⟨0, 4, le_rfl⟩
    buf.chunk < cs.length ∧
    ∃ cs' buf', bufferWrite cs buf [1, 2, 3, 4, 5, 6] = some (cs', buf') ∧
      ((flat cs').drop buf.pos).take 6 = [1, 2, 3, 4, 5, 6] ∧
      (∀ i < (flat cs).length, (i < buf.pos ∨ buf.pos + 6 ≤ i) → (flat cs')[i]? = (flat cs)[i]?) ∧
      buf'.pos = buf.pos + 6 ∧ bufferIndexDiff buf' buf = 6 ∧
      buf'.chunk < cs'.length ∧ cs'.length = 3 := by
  intro cs buf
  have hc : buf.chunk < cs.length := by decide
  obtain ⟨cs', buf', hrun, hslice, hframe, hpos, hdiff, hc', hlen⟩ :=
    @bufferWrite_correct _ _ _ [1, 2, 3, 4, 5, 6] hc
  have h10 : buf'.chunk * 4 + buf'.offset = 10 := hpos
  have hoff : buf'.offset ≤ 4 := buf'.offset_le
  have hlen' : cs'.length = max 1 (buf'.chunk + 1) := hlen
  exact ⟨hc, cs', buf', hrun, hslice, hframe, hpos, hdiff (by decide), hc', by omega⟩

/-! ### Writes, seen on a prefix of the line -/

section Prefix

variable {cs cs' : List (Chunk K)} {buf buf' : BufferIndex K} {data : List UInt8}

/-- What a `buffer_write` that returned did. -/
theorem bufferWrite_inv (hc : buf.chunk < cs.length) (h : bufferWrite cs buf data = some (cs', buf')) :
    buf'.pos = buf.pos + data.length ∧ buf'.chunk < cs'.length ∧ cs.length ≤ cs'.length ∧
      flat cs' = overwrite (flat cs ++ List.replicate ((cs'.length - cs.length) * K) 0)
        buf.pos data := by
  obtain ⟨cs'', buf'', h', hpos, -, hc', hlen, hflat⟩ := bufferWrite_spec data hc
  obtain ⟨rfl, rfl⟩ := Prod.mk.inj (Option.some.inj (h'.symm.trans h))
  exact ⟨hpos, hc', by omega, hflat⟩

/-- Up to the end of the data, the line is its old prefix and the data. -/
theorem take_bufferWrite (hc : buf.chunk < cs.length) (h : bufferWrite cs buf data = some (cs', buf')) :
    (flat cs').take (buf.pos + data.length) = (flat cs).take buf.pos ++ data := by
  obtain ⟨-, -, -, hflat⟩ := bufferWrite_inv hc h
  have hp := pos_le_length_flat hc
  rw [hflat, take_overwrite_add (by rw [List.length_append]; omega), List.take_append_of_le_length hp]

/-- Before the cursor nothing changes. -/
theorem take_bufferWrite_of_le {q : Nat} (hc : buf.chunk < cs.length)
    (h : bufferWrite cs buf data = some (cs', buf')) (hq : q ≤ buf.pos) :
    (flat cs').take q = (flat cs).take q := by
  obtain ⟨-, -, -, hflat⟩ := bufferWrite_inv hc h
  have hp := pos_le_length_flat hc
  rw [hflat, take_overwrite_of_le hq (by rw [List.length_append]; omega), List.take_append_of_le_length (by omega)]

/-- A write inside the first `n` bytes overwrites them there. -/
theorem take_bufferWrite_inside {n : Nat} (hc : buf.chunk < cs.length)
    (h : bufferWrite cs buf data = some (cs', buf')) (hn : buf.pos + data.length ≤ n)
    (hn' : n ≤ (flat cs).length) :
    (flat cs').take n = overwrite ((flat cs).take n) buf.pos data := by
  obtain ⟨-, -, -, hflat⟩ := bufferWrite_inv hc h
  rw [hflat, take_overwrite_of_add_le hn (by rw [List.length_append]; omega), List.take_append_of_le_length hn']

end Prefix

/-! ### Writes compose -/

section Compose

variable {cs cs' : List (Chunk K)} {buf buf' : BufferIndex K} {data : List UInt8}

/-- A chunk array is its line, cut into chunks. -/
theorem flat_inj {cs cs' : List (Chunk K)} (hl : cs.length = cs'.length) (h : flat cs = flat cs') :
    cs = cs' := by
  induction cs generalizing cs' with
  | nil => exact (List.length_eq_zero.mp hl.symm).symm
  | cons ch cs ih =>
    obtain _ | ⟨ch', cs'⟩ := cs'
    · cases hl
    obtain ⟨hb, hr⟩ := List.append_inj h (by rw [ch.length_eq, ch'.length_eq])
    obtain rfl : ch = ch' := by cases ch; cases ch'; cases hb; rfl
    rw [ih (Nat.succ.inj hl) hr]

/-- A cursor past at least one byte of its chunk is fixed by its position. -/
theorem BufferIndex.eq_of_pos_eq {i j : BufferIndex K} (h : i.pos = j.pos) (hi : 0 < i.offset)
    (hj : 0 < j.offset) : i = j := by
  have hik := i.offset_le
  have hjk := j.offset_le
  unfold BufferIndex.pos at h
  -- two chunks apart, the positions are at least a chunk apart
  have hc : i.chunk = j.chunk := by
    by_contra hne
    rcases Nat.lt_or_gt_of_ne hne with hlt | hlt <;>
    · have := Nat.mul_le_mul_right (K : Nat) hlt
      rw [Nat.succ_mul] at this
      omega
  obtain ⟨c, o, _⟩ := i
  obtain ⟨c', o', _⟩ := j
  simp only at hc h ⊢
  subst hc
  simp only [BufferIndex.mk.injEq, true_and]
  omega

/-- Writing nothing changes nothing. -/
theorem bufferWrite_nil (hc : buf.chunk < cs.length) : bufferWrite cs buf [] = some (cs, buf) := by
  obtain ⟨cs', hw, hlen, hflat⟩ := writeAt_spec hc (d := []) (by simpa using buf.offset_le)
  rw [flat_inj hlen (by rw [hflat, overwrite_nil])] at hw
  have hadd : bufferIndexAdd buf 0 = buf := by
    rw [bufferIndexAdd_of_le (by simpa using buf.offset_le)]
    rfl
  simp [bufferWrite, hw, hadd, Nat.not_lt.mpr buf.offset_le]

/-- A write of some bytes leaves the cursor past at least one byte of its chunk:
the loop moves on to the next chunk only with bytes left to write. -/
theorem offset_pos_of_bufferWrite (h : bufferWrite cs buf data = some (cs', buf'))
    (hd : data ≠ []) : 0 < buf'.offset := by
  induction cs, buf, data using bufferWrite.induct with
  | case1 cs buf data hgt first ih =>
    rw [bufferWrite, dif_pos hgt] at h
    obtain ⟨cs₁, -, h⟩ := Option.bind_eq_some.mp h
    refine ih cs₁ h ?_
    have := buf.offset_le
    simp only [ne_eq, List.drop_eq_nil_iff, not_le]
    omega
  | case2 cs buf data hle =>
    rw [bufferWrite, dif_neg hle] at h
    obtain ⟨cs₁, -, h⟩ := Option.bind_eq_some.mp h
    obtain ⟨-, rfl⟩ := Prod.mk.inj (Option.some.inj h)
    rw [bufferIndexAdd_of_le (Nat.le_of_not_lt hle)]
    exact Nat.add_pos_right _ (List.length_pos.mpr hd)

/-- **Writes compose.**  From a cursor in an allocated chunk, one `buffer_write`
of `a ++ b` is a `buffer_write` of `a` followed by one of `b` where it left the
cursor: the same chunk array, the same cursor. -/
theorem bufferWrite_append (hc : buf.chunk < cs.length) (a b : List UInt8) :
    bufferWrite cs buf (a ++ b) = (bufferWrite cs buf a).bind fun r => bufferWrite r.1 r.2 b := by
  obtain ⟨cs₁, w₁, h₁, hpos₁, -, hc₁, hlen₁, hflat₁⟩ := bufferWrite_spec a hc
  rw [h₁, Option.some_bind]
  rcases List.eq_nil_or_concat b with rfl | ⟨b', x, rfl⟩
  · rw [List.append_nil, h₁, bufferWrite_nil hc₁]
  rw [List.concat_eq_append]
  have hb : b' ++ [x] ≠ [] := by simp
  obtain ⟨cs₂, w₂, h₂, hpos₂, hmono₂, hc₂, hlen₂, hflat₂⟩ := bufferWrite_spec (b' ++ [x]) hc₁
  obtain ⟨cs', w', h', hpos', -, -, hlen', hflat'⟩ := bufferWrite_spec (a ++ (b' ++ [x])) hc
  have hw : w' = w₂ := BufferIndex.eq_of_pos_eq (by rw [hpos', hpos₂, hpos₁, List.length_append,
    Nat.add_assoc]) (offset_pos_of_bufferWrite h' (by simp)) (offset_pos_of_bufferWrite h₂ hb)
  subst hw
  have hle : cs.length ≤ cs₁.length := by omega
  have hfits : buf.pos + a.length ≤
      (flat cs ++ List.replicate ((cs₁.length - cs.length) * K) 0).length := by
    have := pos_le_length_flat hc₁
    rw [length_flat, hpos₁] at this
    rwa [List.length_append, List.length_replicate, length_flat, ← Nat.add_mul,
      Nat.add_sub_cancel' hle]
  have hl : cs'.length = cs₂.length := by omega
  have hcs : cs' = cs₂ := flat_inj hl (by
    rw [hflat', hflat₂, hflat₁, hpos₁, overwrite_then hfits, List.append_assoc,
      pad_append hle (by omega), hl])
  rw [h', h₂, hcs]

end Compose

/-- Three bytes and then two, from the start of a new buffer of 4-byte chunks: the
second write crosses into a second chunk. -/
theorem bufferWrite_append_fresh :
    (BufferIndex.start 0 : BufferIndex 4).chunk < [Chunk.fresh 4].length ∧
    bufferWrite [Chunk.fresh 4] (BufferIndex.start 0) ([1, 2, 3] ++ [4, 5]) =
      (bufferWrite [Chunk.fresh 4] (BufferIndex.start 0) [1, 2, 3]).bind
        fun r => bufferWrite r.1 r.2 [4, 5] :=
  ⟨by decide, bufferWrite_append (by decide) _ _⟩

/-! ### Scalar reads -/

@[simp] theorem length_hostBytes (w v : Nat) : (hostBytes w v).length = w := by
  induction w generalizing v with
  | zero => rfl
  | succ w ih => simp [hostBytes, ih]

/-- The buffer `buffer_new` returns. -/
def Buffer.fresh (K : ℕ+) : Buffer K :=
  ⟨[Chunk.fresh K], BufferIndex.start 0, BufferIndex.start 0⟩

theorem bufferNew_eq : (bufferNew : Option (Buffer K)) = some (Buffer.fresh K) := by
  simp [bufferNew, bufferIndex, Buffer.fresh, BufferIndex.start]

theorem bufferIndex_spec {cs : List (Chunk K)} {p : Nat} (h : p < K * cs.length) :
    ∃ i, bufferIndex cs p = some i ∧ i.pos = p ∧ i.chunk = p / K ∧ i.offset = p % K := by
  refine ⟨⟨p / K, p % K, (Nat.mod_lt _ K.pos).le⟩, by simp [bufferIndex, h], ?_, rfl, rfl⟩
  simp only [BufferIndex.pos]
  rw [Nat.mul_comm]
  exact Nat.div_add_mod p K

theorem bufferIndex_zero {cs : List (Chunk K)} (h : 0 < cs.length) :
    bufferIndex cs 0 = some (BufferIndex.start 0) := by
  simp [bufferIndex, BufferIndex.start, h]

/-- `buffer_index_read` exposes bytes of one chunk only: a read that does not fit
in what is left of the cursor's chunk runs past its allocation. -/
theorem bufferIndexRead_eq_none_of_straddle {buf : Buffer K} {index : BufferIndex K}
    {size : Nat} (h : K < index.offset + size) : bufferIndexRead buf index size = none := by
  simp [bufferIndexRead, readAt_eq_none h]

/-- **Typed reads do not roll over.**  Write `K - 1` bytes and then a `uint16`
from the start of a new buffer: the value is stored at positions `K - 1` and
`K`, across the end of the first chunk.  A cursor placed there by
`buffer_index` reads it with `buffer_read_uint16`, which dereferences two bytes
at `chunks[0] + K - 1`, past the end of the first chunk. -/
theorem bufferReadUint16_straddle (K : ℕ+) (v : UInt16) :
    ∃ b cs₁ w₁ cs₂ w₂ r, (bufferNew : Option (Buffer K)) = some b ∧
      bufferWrite b.chunks b.write (List.replicate (K - 1) 0) = some (cs₁, w₁) ∧
      bufferWriteUint16 cs₁ w₁ v = some (cs₂, w₂) ∧
      bufferIndex cs₂ (K - 1) = some r ∧
      ((flat cs₂).drop (K - 1)).take 2 = hostBytes 2 v.toNat ∧
      bufferReadUint16 ⟨cs₂, b.read, w₂⟩ r = none := by
  obtain ⟨cs₁, w₁, h₁, hpos₁, -, hc₁, hlen₁, hflat₁⟩ :=
    bufferWrite_spec (List.replicate (K - 1) 0)
      (show (BufferIndex.start 0 : BufferIndex K).chunk < [Chunk.fresh K].length by simp)
  obtain ⟨cs₂, w₂, h₂, hpos₂, -, hc₂, hlen₂, hflat₂⟩ :=
    bufferWrite_spec (hostBytes 2 v.toNat) hc₁
  have hK := K.pos
  have hr₀ : (K : Nat) - 1 < K * cs₂.length :=
    calc (K : Nat) - 1 < K * 1 := by omega
      _ ≤ K * cs₂.length := Nat.mul_le_mul_left _ (by omega)
  obtain ⟨r, hr, -, -, hro⟩ := bufferIndex_spec hr₀
  refine ⟨_, cs₁, w₁, cs₂, w₂, r, bufferNew_eq, h₁, h₂, hr, ?_, ?_⟩
  · have hp : (K : Nat) - 1 ≤ (flat cs₁ ++ List.replicate ((cs₂.length - cs₁.length) * K) 0).length := by
      simp only [List.length_append, length_flat]
      have : 1 ≤ cs₁.length := by omega
      have := Nat.le_mul_of_pos_left (K : Nat) this
      omega
    simpa [hflat₂, hpos₁] using slice_overwrite (d := hostBytes 2 v.toNat) hp
  · rw [Nat.mod_eq_of_lt (by omega)] at hro
    simp [bufferReadUint16, bufferIndexRead_eq_none_of_straddle (by omega : (K : Nat) < r.offset + 2)]

end FalkorDB
