/-
FalkorDB/Bolt/Socket.lean

The socket side of the buffer: `buffer_socket_read` and `buffer_socket_write`.

`buffer_socket_read` reads into what is left of the write cursor's chunk.  As
long as the cursor then stands at the end of its chunk (`buffer_index_add`
leaves it there, un-rolled), the loop appends a chunk, steps to the start of
the next chunk and reads a whole chunk into it.  A socket read is the list of
its answers (`SocketRead`), so the results of one call are a prefix `used` of
that list, all of them data.  `bufferSocketRead_true` says what the call did
when it returns `true`: the bytes of `used` are written, one after the other,
at the old write cursor, and the chunk array has grown by one chunk for each
turn of the loop.  Conversely the call does return `true` when the answers are
data that fill the chunks until one falls short (`bufferSocketRead_fill`), or
when the first is short and not empty (`bufferSocketRead_short`).

That last fact is the whole of the growth: the loop appends its chunk whether
or not the next chunk is already allocated, so a buffer whose write cursor is
rewound and refilled across a chunk end grows at every refill
(`bufferSocketRead_rewind_grows`).

`buffer_socket_write` hands the line from the start of the buffer up to its
cursor to the socket (`bufferSocketWrite_eq`).
-/
import FalkorDB.Bolt.BufferWrite

namespace FalkorDB

variable {K : ℕ+}

/-! ### The read loop -/

theorem bufferSocketReadLoop_ready (cs : List (Chunk K)) {w : BufferIndex K}
    (rs : List SocketRead) (h : w.offset ≠ K) :
    bufferSocketReadLoop cs w rs = some (true, cs, w, rs) := by
  rw [bufferSocketReadLoop, if_neg h]

theorem bufferSocketReadLoop_data (cs : List (Chunk K)) {w : BufferIndex K}
    (bytes : List UInt8) (rs : List SocketRead) (h : w.offset = K) :
    bufferSocketReadLoop cs w (.data bytes :: rs) =
      (writeAt (cs ++ [Chunk.fresh K]) (w.chunk + 1) 0 bytes).bind fun cs₁ =>
        bufferSocketReadLoop cs₁ (bufferIndexAdd (BufferIndex.start (w.chunk + 1)) bytes.length) rs := by
  rw [bufferSocketReadLoop, if_pos h]
  rfl

/-- **The `while` loop of `buffer_socket_read`.**  When it ends well, it has
consumed a prefix `used` of the socket's answers, all data; it has written their
bytes one after the other at the cursor, appending one chunk per turn; and the
cursor has moved past them to an offset inside an allocated chunk. -/
theorem bufferSocketReadLoop_true {cs cs' : List (Chunk K)} {w w' : BufferIndex K}
    {rs rest : List SocketRead} (hw : w.chunk < cs.length)
    (h : bufferSocketReadLoop cs w rs = some (true, cs', w', rest)) :
    ∃ used : List (List UInt8), rs = used.map SocketRead.data ++ rest ∧
      w'.pos = w.pos + used.flatten.length ∧ w'.offset < K ∧ w'.chunk < cs'.length ∧
      cs'.length = cs.length + used.length ∧
      flat cs' = overwrite (flat cs ++ List.replicate ((cs'.length - cs.length) * K) 0) w.pos
        used.flatten := by
  induction cs, w, rs using bufferSocketReadLoop.induct with
  | case1 cs w hK =>
    rw [bufferSocketReadLoop, if_pos hK] at h
    cases h
  | case2 cs w hK rs =>
    rw [bufferSocketReadLoop, if_pos hK] at h
    simp at h
  | case3 cs w hK next bytes rs ih =>
    rw [bufferSocketReadLoop_data _ _ _ hK] at h
    obtain ⟨cs₁, hw₁, h⟩ := Option.bind_eq_some.mp h
    obtain ⟨-, hb, hlen₁, hflat₁⟩ := writeAt_inv hw₁
    simp only [List.length_append, List.length_singleton, flat_append, flat_cons, flat_nil,
      Chunk.fresh_bytes, List.append_nil, Nat.add_zero, Nat.zero_add] at hb hlen₁ hflat₁ ih
    have hadd : bufferIndexAdd next bytes.length = ⟨w.chunk + 1, bytes.length, hb⟩ :=
      bufferIndexAdd_start hb
    obtain ⟨used, hrs, hpos, hoff, hc, hlen, hflat⟩ :=
      ih cs₁ (by rw [hadd, hlen₁]; simp only; omega) h
    clear ih h
    have hwpos : (w.chunk + 1) * K = w.pos := by
      rw [Nat.succ_mul]; exact congrArg (w.chunk * K + ·) hK.symm
    have hwpos' : w.pos = w.chunk * K + K := congrArg (w.chunk * K + ·) hK
    have hlenw := length_flat_le_of_lt hw
    rw [length_flat] at hlenw
    simp only [hadd, BufferIndex.pos_mk, hwpos] at hpos hflat
    refine ⟨bytes :: used, by rw [hrs]; rfl, by rw [hpos]; simp; omega, hoff, hc,
      by rw [hlen, hlen₁]; simp; omega, ?_⟩
    rw [hflat, hflat₁, hwpos, overwrite_then (by simp; omega),
      List.append_assoc, hlen₁,
      show List.replicate K (0 : UInt8) = List.replicate ((cs.length + 1 - cs.length) * K) 0 by simp,
      pad_append (by omega) (by omega), List.flatten_cons]
  | case4 cs w rs hK =>
    rw [bufferSocketReadLoop_ready _ _ hK] at h
    obtain ⟨rfl, rfl, rfl⟩ : cs = cs' ∧ w = w' ∧ rs = rest := by simpa using h
    exact ⟨[], rfl, by simp, lt_of_le_of_ne w.offset_le hK, hw, rfl, by simp⟩

/-! ### `buffer_socket_read` -/

/-- **What `buffer_socket_read` did when it returns `true`.**  The socket's
answers it consumed are all data; their bytes stand, one after the other, at
the old write cursor; the cursor has moved past them to an offset inside an
allocated chunk; and the array has one chunk more for every answer past the
first. -/
theorem bufferSocketRead_true {buf buf' : Buffer K} {rs rest : List SocketRead}
    (hw : buf.write.chunk < buf.chunks.length)
    (h : bufferSocketRead buf rs = some (true, buf', rest)) :
    ∃ used : List (List UInt8), rs = used.map SocketRead.data ++ rest ∧ buf'.read = buf.read ∧
      buf'.write.pos = buf.write.pos + used.flatten.length ∧ buf'.write.offset < K ∧
      buf'.write.chunk < buf'.chunks.length ∧
      buf'.chunks.length + 1 = buf.chunks.length + used.length ∧
      flat buf'.chunks = overwrite
        (flat buf.chunks ++ List.replicate ((buf'.chunks.length - buf.chunks.length) * K) 0)
        buf.write.pos used.flatten := by
  obtain - | ⟨bytes | -, rs⟩ := rs
  · cases h
  swap
  · simp [bufferSocketRead, List.getElem?_eq_getElem hw] at h
  simp only [bufferSocketRead, List.getElem?_eq_getElem hw, Option.bind_eq_bind, Option.some_bind] at h
  split_ifs at h with h0
  · simp at h
  obtain ⟨cs₁, hw₁, h⟩ := Option.bind_eq_some.mp h
  obtain ⟨⟨ok, cs', w', rest'⟩, hloop, h⟩ := Option.bind_eq_some.mp h
  obtain ⟨rfl, rfl, rfl⟩ : ok = true ∧ { buf with chunks := cs', write := w' } = buf' ∧
      rest' = rest := by simpa using h
  obtain ⟨-, hb, hlen₁, hflat₁⟩ := writeAt_inv hw₁
  have hadd : bufferIndexAdd buf.write bytes.length = ⟨buf.write.chunk, _, hb⟩ :=
    bufferIndexAdd_of_le hb
  obtain ⟨used, hrs, hpos, hoff, hc, hlen, hflat⟩ :=
    bufferSocketReadLoop_true (by rw [hadd, hlen₁]; exact hw) hloop
  have hlenw := length_flat_le_of_lt hw
  have hbp : buf.write.pos = buf.write.chunk * K + buf.write.offset := rfl
  simp only [hadd, BufferIndex.pos_mk] at hpos hflat
  refine ⟨bytes :: used, by rw [hrs]; rfl, rfl, by simp [hpos]; omega, hoff, hc,
    by simp [hlen, hlen₁]; omega, ?_⟩
  simp only [hlen₁] at hflat
  rw [hflat, hflat₁, show buf.write.chunk * K + (buf.write.offset + bytes.length) =
    buf.write.chunk * K + buf.write.offset + bytes.length by omega,
    overwrite_then (by omega), List.flatten_cons]
  rfl

/-- The loop reads whole chunks for as long as the socket fills them, and stops
with `true` at the first answer that falls short of a chunk. -/
theorem bufferSocketReadLoop_fill {fulls : List (List UInt8)} (hfull : ∀ b ∈ fulls, b.length = K)
    {last : List UInt8} (hlast : last.length < K) (rest : List SocketRead)
    {cs : List (Chunk K)} {w : BufferIndex K} (hw : w.chunk < cs.length) (hK : w.offset = K) :
    ∃ cs' w', bufferSocketReadLoop cs w ((fulls ++ [last]).map .data ++ rest) =
      some (true, cs', w', rest) := by
  induction fulls generalizing cs w with
  | nil =>
    have hnext : w.chunk + 1 < (cs ++ [Chunk.fresh K]).length := by simp; omega
    obtain ⟨cs₁, hw₁, -⟩ := writeAt_spec hnext (show 0 + last.length ≤ K by omega)
    rw [List.nil_append, List.map_singleton, List.singleton_append, bufferSocketReadLoop_data _ _ _ hK,
      hw₁, Option.some_bind, bufferIndexAdd_start hlast.le]
    exact ⟨cs₁, _, bufferSocketReadLoop_ready _ _ hlast.ne⟩
  | cons b fulls ih =>
    have hb := hfull b (List.mem_cons_self _ _)
    have hnext : w.chunk + 1 < (cs ++ [Chunk.fresh K]).length := by simp; omega
    obtain ⟨cs₁, hw₁, hlen₁, -⟩ := writeAt_spec hnext (show 0 + b.length ≤ K by omega)
    rw [List.cons_append, List.map_cons, List.cons_append, bufferSocketReadLoop_data _ _ _ hK,
      hw₁, Option.some_bind, bufferIndexAdd_start hb.le]
    exact ih (fun b' h => hfull b' (List.mem_cons_of_mem _ h)) (hlen₁ ▸ hnext) hb

/-- **A fill returns `true`.**  When the socket's answers are data that fill what
is left of the write cursor's chunk, then whole chunks, then fall short of a
chunk, `buffer_socket_read` takes exactly those answers and returns `true`. -/
theorem bufferSocketRead_fill {buf : Buffer K} (hw : buf.write.chunk < buf.chunks.length)
    (first : List UInt8) (fulls : List (List UInt8)) (last : List UInt8)
    (hfirst : buf.write.offset + first.length = K) (hfull : ∀ b ∈ fulls, b.length = K)
    (hlast : last.length < K) (rest : List SocketRead) :
    ∃ buf', bufferSocketRead buf ((first :: fulls ++ [last]).map .data ++ rest) =
      some (true, buf', rest) := by
  obtain ⟨cs₁, hw₁, hlen₁, -⟩ := writeAt_spec hw hfirst.le
  have hread : ¬(first.length = 0 ∧ buf.write.offset < K) := by omega
  have hadd := bufferIndexAdd_of_le hfirst.le
  obtain ⟨cs', w', hloop⟩ := bufferSocketReadLoop_fill hfull hlast rest
    (show (bufferIndexAdd buf.write first.length).chunk < cs₁.length by rw [hadd, hlen₁]; exact hw)
    (by rw [hadd]; exact hfirst)
  refine ⟨{ buf with chunks := cs', write := w' }, ?_⟩
  simp only [bufferSocketRead, List.map_cons, List.cons_append, List.getElem?_eq_getElem hw,
    Option.bind_eq_bind, Option.some_bind, hread, if_false, hw₁, hloop]
  rfl

/-- A first answer that is not empty and leaves room in the chunk ends the fill
at once, with `true`. -/
theorem bufferSocketRead_short {buf : Buffer K} (hw : buf.write.chunk < buf.chunks.length)
    {bytes : List UInt8} (hne : bytes ≠ []) (hroom : buf.write.offset + bytes.length < K)
    (rest : List SocketRead) :
    ∃ buf', bufferSocketRead buf (.data bytes :: rest) = some (true, buf', rest) := by
  obtain ⟨cs₁, hw₁, -⟩ := writeAt_spec hw hroom.le
  have hread : ¬(bytes.length = 0 ∧ buf.write.offset < K) := fun h =>
    hne (List.length_eq_zero.mp h.1)
  refine ⟨{ buf with chunks := cs₁, write := bufferIndexAdd buf.write bytes.length }, ?_⟩
  simp only [bufferSocketRead, List.getElem?_eq_getElem hw, Option.bind_eq_bind, Option.some_bind,
    hread, if_false, hw₁, bufferSocketReadLoop_ready _ _
      (show (bufferIndexAdd buf.write bytes.length).offset ≠ K by
        rw [bufferIndexAdd_of_le hroom.le]; exact hroom.ne)]
  rfl

/-- **Socket fill.**  From a write cursor inside an allocated chunk, with room
left in it: if `buffer_socket_read` returns `true`, the bytes from the old
write position on are the concatenation of what the socket returned, the bytes
before it are unchanged, and the cursor stands past them, inside an allocated
chunk with room left.  An error or an end of file on the first read returns
`false` and leaves the buffer as it was. -/
theorem bufferSocketRead_correct {buf : Buffer K} (hw : buf.write.chunk < buf.chunks.length)
    (ho : buf.write.offset < K) :
    (∀ rs buf' rest, bufferSocketRead buf rs = some (true, buf', rest) →
      ∃ used : List (List UInt8), rs = used.map SocketRead.data ++ rest ∧
        ((flat buf'.chunks).drop buf.write.pos).take used.flatten.length = used.flatten ∧
        (flat buf'.chunks).take buf.write.pos = (flat buf.chunks).take buf.write.pos ∧
        buf'.write.pos = buf.write.pos + used.flatten.length ∧
        buf'.write.offset < K ∧ buf'.write.chunk < buf'.chunks.length) ∧
    ∀ rest, bufferSocketRead buf (.error :: rest) = some (false, buf, rest) ∧
      bufferSocketRead buf (.data [] :: rest) = some (false, buf, rest) := by
  have hlenw := length_flat_le_of_lt hw
  have hp : buf.write.pos ≤ (flat buf.chunks).length := by
    unfold BufferIndex.pos; omega
  refine ⟨fun rs buf' rest h => ?_, fun rest => by simp [bufferSocketRead, hw, ho]⟩
  obtain ⟨used, hrs, -, hpos, hoff, hc, -, hflat⟩ := bufferSocketRead_true hw h
  refine ⟨used, hrs, ?_, ?_, hpos, hoff, hc⟩
  · rw [hflat, slice_overwrite (by rw [List.length_append]; omega)]
  · rw [hflat, take_overwrite (by rw [List.length_append]; omega), List.take_append_of_le_length hp]

/-- A new buffer of 4-byte chunks, filled with a whole chunk and then two bytes
more: the six bytes stand at the start of the line, and the cursor at offset 2
of the second chunk. -/
theorem bufferSocketRead_correct_fresh :
    (Buffer.fresh 4).write.chunk < (Buffer.fresh 4).chunks.length ∧
    (Buffer.fresh 4).write.offset < 4 ∧
    (∃ buf', bufferSocketRead (Buffer.fresh 4) [.data [1, 2, 3, 4], .data [5, 6]] =
        some (true, buf', []) ∧
      (flat buf'.chunks).take 6 = [1, 2, 3, 4, 5, 6] ∧ buf'.write.pos = 6 ∧
      buf'.write.offset < 4 ∧ buf'.write.chunk < buf'.chunks.length) ∧
    ∀ rest, bufferSocketRead (Buffer.fresh 4) (.error :: rest) = some (false, Buffer.fresh 4, rest) ∧
      bufferSocketRead (Buffer.fresh 4) (.data [] :: rest) = some (false, Buffer.fresh 4, rest) := by
  have hw : (Buffer.fresh 4).write.chunk < (Buffer.fresh 4).chunks.length := by decide
  obtain ⟨buf', h⟩ := bufferSocketRead_fill hw [1, 2, 3, 4] [] [5, 6] (by decide) (by simp)
    (by decide) []
  obtain ⟨hfill, hstop⟩ := bufferSocketRead_correct hw (by decide)
  obtain ⟨used, hrs, hslice, -, hpos, hoff, hc⟩ := hfill _ _ _ h
  obtain _ | ⟨u₁, _ | ⟨u₂, _ | ⟨u₃, us⟩⟩⟩ := used <;> simp at hrs
  obtain ⟨rfl, rfl⟩ := hrs
  exact ⟨hw, by decide, ⟨buf', h, hslice, hpos, hoff, hc⟩, hstop⟩

/-! ### Growth -/

/-- Reading one whole chunk and then the end of file, from the start of an
allocated chunk `c`: the cursor moves to the start of chunk `c + 1`, and a chunk
is appended whether chunk `c + 1` is allocated or not. -/
theorem bufferSocketRead_full_chunk {buf : Buffer K} {c : Nat}
    (hw : buf.write = BufferIndex.start c) (hc : c < buf.chunks.length) {bytes : List UInt8}
    (hb : bytes.length = K) :
    ∃ cs, bufferSocketRead buf [.data bytes, .data []] =
        some (true, { buf with chunks := cs, write := BufferIndex.start (c + 1) }, []) ∧
      cs.length = buf.chunks.length + 1 := by
  obtain ⟨cs₁, hw₁, hlen₁, -⟩ := writeAt_spec hc (show 0 + bytes.length ≤ K by omega)
  obtain ⟨cs₂, hw₂, hlen₂, -⟩ := writeAt_spec
    (show c + 1 < (cs₁ ++ [Chunk.fresh K]).length by simp; omega)
    (show 0 + ([] : List UInt8).length ≤ K by simp)
  have hK : bytes.length ≤ K := hb.le
  have hfull : (⟨c, bytes.length, hK⟩ : BufferIndex K).offset = K := hb
  refine ⟨cs₂, ?_, by simp [hlen₂, hlen₁]⟩
  have hread : ¬(bytes.length = 0 ∧ (0 : Nat) < K) := by simp [hb]
  simp only [bufferSocketRead, hw, BufferIndex.start_chunk, BufferIndex.start_offset,
    List.getElem?_eq_getElem hc, Option.bind_eq_bind, Option.some_bind, hread, if_false, hw₁,
    bufferIndexAdd_start hK, bufferSocketReadLoop_data _ _ _ hfull, hw₂, List.length_nil,
    bufferIndexAdd_start (Nat.zero_le K)]
  rw [bufferSocketReadLoop_ready _ _ (by simp [K.ne_zero.symm])]
  rfl

/-- **A rewound buffer grows at every refill.**  Fill a new buffer with one
chunk from the socket, rewind its write cursor to position `0` as
`bolt_client_send` rewinds the write buffer, and fill it again: no cursor ever
stands past chunk `1` (the write cursor visits `(0, K)` and `(1, 0)` on each
fill, the read cursor stays at `(0, 0)`), yet the buffer ends with three
chunks. -/
theorem bufferSocketRead_rewind_grows (K : ℕ+) :
    ∃ b₁ w b₂, bufferNew = some (Buffer.fresh K) ∧
      bufferSocketRead (Buffer.fresh K) [.data (List.replicate K 0), .data []] =
        some (true, b₁, []) ∧
      bufferIndex b₁.chunks 0 = some w ∧
      bufferSocketRead { b₁ with write := w } [.data (List.replicate K 0), .data []] =
        some (true, b₂, []) ∧
      b₁.read = BufferIndex.start 0 ∧ b₁.write = BufferIndex.start 1 ∧
      w = BufferIndex.start 0 ∧
      b₂.read = BufferIndex.start 0 ∧ b₂.write = BufferIndex.start 1 ∧ b₂.chunks.length = 3 := by
  obtain ⟨cs₁, h₁, hlen₁⟩ := bufferSocketRead_full_chunk
    (show (Buffer.fresh K).write = BufferIndex.start 0 from rfl) (by simp [Buffer.fresh])
    (List.length_replicate _ _)
  have hw : bufferIndex cs₁ 0 = some (BufferIndex.start 0) := by
    simp [bufferIndex, hlen₁, Buffer.fresh, BufferIndex.start]
  obtain ⟨cs₂, h₂, hlen₂⟩ := bufferSocketRead_full_chunk
    (show ({ Buffer.fresh K with chunks := cs₁, write := BufferIndex.start 0 } : Buffer K).write =
      BufferIndex.start 0 from rfl) (by simp [hlen₁, Buffer.fresh]) (List.length_replicate _ _)
  refine ⟨_, _, _, bufferNew_eq, h₁, hw, h₂, rfl, rfl, rfl, rfl, rfl, ?_⟩
  simp [hlen₂, hlen₁, Buffer.fresh]

/-! ### `buffer_socket_write` -/

theorem socketWriteChunks_eq {cs : List (Chunk K)} {n : Nat} (h : n ≤ cs.length) :
    socketWriteChunks cs n = some ((flat cs).take (n * K)) := by
  induction n with
  | zero => simp [socketWriteChunks]
  | succ n ih =>
    rw [socketWriteChunks, ih (by omega), Option.bind_eq_bind, Option.some_bind,
      readAt_eq (by omega) (by simp), Nat.add_zero, Option.some_bind, Nat.succ_mul, List.take_add]
    rfl

/-- `buffer_socket_write` sends the line from the start of the buffer up to its
cursor. -/
theorem bufferSocketWrite_eq {cs : List (Chunk K)} {buf : BufferIndex K}
    (h : buf.chunk < cs.length) : bufferSocketWrite cs buf = some ((flat cs).take buf.pos) := by
  rw [bufferSocketWrite, socketWriteChunks_eq h.le, Option.bind_eq_bind, Option.some_bind,
    readAt_eq h (by simpa using buf.offset_le), Nat.add_zero, Option.some_bind, BufferIndex.pos,
    List.take_add]
  rfl

end FalkorDB
