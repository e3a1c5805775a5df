/-
FalkorDB/Bolt/Buffer.lean

The chunked buffer of `src/bolt/buffer.c`: its data model and every function of
the file, as the C code computes them.

Memory.  A buffer is an array of chunks of `BUFFER_CHUNK_SIZE` bytes each.  The
header `buffer.h`, which declares that constant and the two records, is not
among the sources, so the chunk size is a parameter `K : ℕ+` of the whole
development.  A chunk carries its size as a field.  A C access that falls
outside a chunk, or indexes the chunk array out of range, is undefined
behaviour; the model answers `none` there, and also where an `ASSERT` fails
(a trap, as the spec describes development builds; each `ASSERT` is an `if`
whose other branch is `none`).  The bytes of a fresh
chunk are uninitialised in C; the model fills them with zeros, and no result
of the development reads them.

Cursors.  A `buffer_index_t` is a (chunk, offset) pair.  Its `buf` pointer is
left out: each function takes the chunk array it points into.  Every code path
keeps `offset ≤ BUFFER_CHUNK_SIZE` (`buffer_index_add` rolls over only past the
end of a chunk, never at it), so the bound is a field of the record.  Cursor
arithmetic is `uint32_t` in C and `Nat` here, which agree below 2^32 bytes; the
one truncation the code relies on, the 16-bit result of `buffer_index_diff`, is
explicit.

Platform.  Multi-byte scalars are stored in host order, taken little-endian.
The typed reads dereference the cursor as a `uint16_t *`, `uint32_t *` or
`uint64_t *` at whatever offset it has, which C leaves undefined when the
offset is not a multiple of the width; the model assumes, as the code does, a
host where such misaligned loads read the bytes there (x86-64, AArch64), so a
typed read is the bytes at the cursor in host order.
-/
import Mathlib.Data.PNat.Defs

namespace FalkorDB

variable {K : ℕ+}

/-! ### Chunks -/

/-- `memcpy(xs + p, d, |d|)` on a byte array: `d` in place of the bytes at
`p … p + |d| - 1`. -/
def overwrite (xs : List UInt8) (p : Nat) (d : List UInt8) : List UInt8 :=
  xs.take p ++ d ++ xs.drop (p + d.length)

/-- One chunk: `BUFFER_CHUNK_SIZE` bytes of `rm_malloc`'d memory. -/
structure Chunk (K : ℕ+) where
  bytes : List UInt8
  length_eq : bytes.length = K
deriving DecidableEq

/-- `rm_malloc(BUFFER_CHUNK_SIZE)`. -/
def Chunk.fresh (K : ℕ+) : Chunk K :=
  ⟨List.replicate K 0, List.length_replicate _ _⟩

/-- The `n` bytes at `chunk + off`; `none` when they run past the chunk. -/
def Chunk.read (ch : Chunk K) (off n : Nat) : Option (List UInt8) :=
  if off + n ≤ K then some ((ch.bytes.drop off).take n) else none

/-- `memcpy(chunk + off, data, |data|)`; `none` when it runs past the chunk. -/
def Chunk.write (ch : Chunk K) (off : Nat) (data : List UInt8) : Option (Chunk K) :=
  if h : off + data.length ≤ K then
    some ⟨overwrite ch.bytes off data, by
      simp only [overwrite, List.length_append, List.length_take, List.length_drop,
        ch.length_eq]
      omega⟩
  else none

/-- The `n` bytes at `chunks[c] + off`. -/
def readAt (chunks : List (Chunk K)) (c off n : Nat) : Option (List UInt8) := do
  let ch ← chunks[c]?
  ch.read off n

/-- `memcpy(chunks[c] + off, data, |data|)`. -/
def writeAt (chunks : List (Chunk K)) (c off : Nat) (data : List UInt8) :
    Option (List (Chunk K)) := do
  let ch ← chunks[c]?
  let ch' ← ch.write off data
  pure (chunks.set c ch')

/-- Append a fresh chunk when the cursor's chunk `c` is one past the last:
`if(array_len(chunks) == c) array_append(chunks, rm_malloc(BUFFER_CHUNK_SIZE))`. -/
def growTo (chunks : List (Chunk K)) (c : Nat) : List (Chunk K) :=
  if chunks.length = c then chunks ++ [Chunk.fresh K] else chunks

/-! ### Cursors -/

/-- `buffer_index_t`: a chunk and an offset into it. -/
structure BufferIndex (K : ℕ+) where
  chunk : Nat
  offset : Nat
  offset_le : offset ≤ K
deriving DecidableEq

/-- The linear position of a cursor, `chunk · BUFFER_CHUNK_SIZE + offset`. -/
def BufferIndex.pos (i : BufferIndex K) : Nat := i.chunk * K + i.offset

/-- The cursor at the start of chunk `c`. -/
def BufferIndex.start (c : Nat) : BufferIndex K := ⟨c, 0, Nat.zero_le _⟩

/-- `buffer_index`: the cursor `offset` bytes from the start of the buffer. -/
def bufferIndex (chunks : List (Chunk K)) (offset : Nat) : Option (BufferIndex K) :=
  if offset < K * chunks.length then some ⟨offset / K, offset % K, (Nat.mod_lt _ K.pos).le⟩
  else none

/-- `buffer_index_add`: advance by `offset`, rolling over only past the end of a
chunk. -/
def bufferIndexAdd (index : BufferIndex K) (offset : Nat) : BufferIndex K :=
  if h : index.offset + offset > K then
    ⟨index.chunk + (index.offset + offset) / K, (index.offset + offset) % K,
      (Nat.mod_lt _ K.pos).le⟩
  else
    ⟨index.chunk, index.offset + offset, by omega⟩

/-- `buffer_index_diff`: the distance `a − b` in bytes, truncated to `uint16_t`. -/
def bufferIndexDiff (a b : BufferIndex K) : Nat :=
  ((((a.chunk : Int) - b.chunk) * K + ((a.offset : Int) - b.offset)) % 65536).toNat

@[simp] theorem BufferIndex.start_chunk (c : Nat) : (BufferIndex.start c : BufferIndex K).chunk = c :=
  rfl

@[simp] theorem BufferIndex.start_offset (c : Nat) :
    (BufferIndex.start c : BufferIndex K).offset = 0 := rfl

@[simp] theorem BufferIndex.pos_mk (c o : Nat) (h : o ≤ K) :
    (⟨c, o, h⟩ : BufferIndex K).pos = c * K + o := rfl

@[simp] theorem BufferIndex.pos_start (c : Nat) :
    (BufferIndex.start c : BufferIndex K).pos = c * K := by
  simp [BufferIndex.pos]

/-! ### Buffers -/

/-- `buffer_t`: the chunk array and the read and write cursors. -/
structure Buffer (K : ℕ+) where
  chunks : List (Chunk K)
  read : BufferIndex K
  write : BufferIndex K

/-- `buffer_new`: one chunk, both cursors at its start. -/
def bufferNew : Option (Buffer K) := do
  let chunks := [Chunk.fresh K]
  let read ← bufferIndex chunks 0
  let write ← bufferIndex chunks 0
  pure ⟨chunks, read, write⟩

/-! ### Scalars in host order -/

/-- The `w` bytes of `v` in memory, least significant first. -/
def hostBytes : Nat → Nat → List UInt8
  | 0, _ => []
  | w + 1, v => UInt8.ofNat v :: hostBytes w (v / 256)

/-- The value of bytes read from memory, least significant first. -/
def hostValue : List UInt8 → Nat
  | [] => 0
  | b :: bs => b.toNat + 256 * hostValue bs

/-- `htons`, on a little-endian host: swap the two bytes. -/
def htons (n : UInt16) : UInt16 :=
  UInt16.ofNat (n.toNat % 256 * 256 + n.toNat / 256)

/-! ### Reads -/

/-- `buffer_index_read`: the `size` bytes the returned pointer exposes, and the
advanced cursor. -/
def bufferIndexRead (buf : Buffer K) (index : BufferIndex K) (size : Nat) :
    Option (List UInt8 × BufferIndex K) :=
  if bufferIndexDiff buf.write index ≥ size then do
    let data ← readAt buf.chunks index.chunk index.offset size
    pure (data, bufferIndexAdd index size)
  else none

/-- `buffer_read_uint8`. -/
def bufferReadUint8 (buf : Buffer K) (index : BufferIndex K) :
    Option (UInt8 × BufferIndex K) := do
  let (data, index) ← bufferIndexRead buf index 1
  pure (UInt8.ofNat (hostValue data), index)

/-- `buffer_read_uint16`. -/
def bufferReadUint16 (buf : Buffer K) (index : BufferIndex K) :
    Option (UInt16 × BufferIndex K) := do
  let (data, index) ← bufferIndexRead buf index 2
  pure (UInt16.ofNat (hostValue data), index)

/-- `buffer_read_uint32`. -/
def bufferReadUint32 (buf : Buffer K) (index : BufferIndex K) :
    Option (UInt32 × BufferIndex K) := do
  let (data, index) ← bufferIndexRead buf index 4
  pure (UInt32.ofNat (hostValue data), index)

/-- `buffer_read_uint64`. -/
def bufferReadUint64 (buf : Buffer K) (index : BufferIndex K) :
    Option (UInt64 × BufferIndex K) := do
  let (data, index) ← bufferIndexRead buf index 8
  pure (UInt64.ofNat (hostValue data), index)

/-- The weight of a cursor for the copy loop of `buffer_read`: `1` when it stands
at the end of its chunk, where the loop moves it on without copying. -/
def BufferIndex.exhausted (i : BufferIndex K) : Nat := if i.offset = K then 1 else 0

/-- The loop of `buffer_read`: copy `size` bytes from `buf` (into `src`) to `dst`
(into `chunks`), chunk by chunk, growing the destination on demand. -/
def bufferReadLoop (src chunks : List (Chunk K)) (buf dst : BufferIndex K) (size : Nat) :
    Option (BufferIndex K × List (Chunk K) × BufferIndex K) :=
  if hs : size = 0 then some (buf, chunks, dst) else do
    let _ ← src[buf.chunk]?
    let _ ← chunks[dst.chunk]?
    let dstAvailableSize := K - dst.offset
    let srcAvailableSize := K - buf.offset
    if hf : size < srcAvailableSize ∧ size < dstAvailableSize then do
      let data ← readAt src buf.chunk buf.offset size
      let chunks ← writeAt chunks dst.chunk dst.offset data
      pure (bufferIndexAdd buf size, chunks, bufferIndexAdd dst size)
    else if h : srcAvailableSize < dstAvailableSize then do
      let data ← readAt src buf.chunk buf.offset srcAvailableSize
      let chunks ← writeAt chunks dst.chunk dst.offset data
      bufferReadLoop src chunks (BufferIndex.start (buf.chunk + 1))
        ⟨dst.chunk, dst.offset + srcAvailableSize, by omega⟩ (size - srcAvailableSize)
    else do
      let data ← readAt src buf.chunk buf.offset dstAvailableSize
      let chunks ← writeAt chunks dst.chunk dst.offset data
      bufferReadLoop src (growTo chunks (dst.chunk + 1))
        ⟨buf.chunk, buf.offset + dstAvailableSize, by have := buf.offset_le; omega⟩
        (BufferIndex.start (dst.chunk + 1)) (size - dstAvailableSize)
termination_by 3 * size + buf.exhausted + dst.exhausted
decreasing_by
  all_goals
    simp_wf
    simp only [srcAvailableSize, dstAvailableSize] at hf h
    have := buf.offset_le
    have := dst.offset_le
    have := K.pos
    simp only [BufferIndex.exhausted, BufferIndex.start]
    split_ifs <;> omega

/-- `buffer_read`: copy `size` bytes from the cursor `buf` of `src` to the cursor
`dst` into the chunk array `chunks` of another buffer. -/
def bufferRead (src : Buffer K) (buf : BufferIndex K) (chunks : List (Chunk K))
    (dst : BufferIndex K) (size : Nat) :
    Option (BufferIndex K × List (Chunk K) × BufferIndex K) :=
  if bufferIndexDiff src.write buf ≥ size then bufferReadLoop src.chunks chunks buf dst size
  else none

/-! ### Writes -/

/-- `buffer_write`: while the data does not fit in the cursor's chunk, fill the
chunk and move to the start of the next one, allocating it when the cursor
moves past the last chunk; then copy the rest. -/
def bufferWrite (chunks : List (Chunk K)) (buf : BufferIndex K) (data : List UInt8) :
    Option (List (Chunk K) × BufferIndex K) :=
  if h : buf.offset + data.length > K then do
    let firstChunkSize := K - buf.offset
    let chunks ← writeAt chunks buf.chunk buf.offset (data.take firstChunkSize)
    let filled := bufferIndexAdd buf firstChunkSize
    let next : BufferIndex K := BufferIndex.start (filled.chunk + 1)
    bufferWrite (growTo chunks next.chunk) next (data.drop firstChunkSize)
  else do
    let chunks ← writeAt chunks buf.chunk buf.offset data
    pure (chunks, bufferIndexAdd buf data.length)
termination_by (data.length, buf.offset)
decreasing_by
  simp_wf
  simp only [Prod.lex_def, BufferIndex.start]
  have := buf.offset_le
  have := K.pos
  omega

/-- `buffer_write_uint8`. -/
def bufferWriteUint8 (chunks : List (Chunk K)) (buf : BufferIndex K) (value : UInt8) :
    Option (List (Chunk K) × BufferIndex K) :=
  bufferWrite chunks buf (hostBytes 1 value.toNat)

/-- `buffer_write_uint16`. -/
def bufferWriteUint16 (chunks : List (Chunk K)) (buf : BufferIndex K) (value : UInt16) :
    Option (List (Chunk K) × BufferIndex K) :=
  bufferWrite chunks buf (hostBytes 2 value.toNat)

/-- `buffer_write_uint32`. -/
def bufferWriteUint32 (chunks : List (Chunk K)) (buf : BufferIndex K) (value : UInt32) :
    Option (List (Chunk K) × BufferIndex K) :=
  bufferWrite chunks buf (hostBytes 4 value.toNat)

/-- `buffer_write_uint64`. -/
def bufferWriteUint64 (chunks : List (Chunk K)) (buf : BufferIndex K) (value : UInt64) :
    Option (List (Chunk K) × BufferIndex K) :=
  bufferWrite chunks buf (hostBytes 8 value.toNat)

/-! ### Sockets -/

/-- What one `socket_read` call does: store some bytes (their number is its
return value, `0` at end of file), or fail with a negative result. -/
inductive SocketRead
  | data (bytes : List UInt8)
  | error
deriving DecidableEq

/-- The `while` loop of `buffer_socket_read`: as long as the write cursor stands
at the end of its chunk, append a chunk, step to the start of the next one and
read a whole chunk into it.  The socket answers from `results`; `none` when it
is asked more often than `results` says. -/
def bufferSocketReadLoop (chunks : List (Chunk K)) (write : BufferIndex K)
    (results : List SocketRead) :
    Option (Bool × List (Chunk K) × BufferIndex K × List SocketRead) :=
  if write.offset = K then
    let write : BufferIndex K := BufferIndex.start (write.chunk + 1)
    let chunks := chunks ++ [Chunk.fresh K]
    match results with
    | [] => none
    | .error :: rest => some (false, chunks, write, rest)
    | .data bytes :: rest => do
      let chunks ← writeAt chunks write.chunk 0 bytes
      bufferSocketReadLoop chunks (bufferIndexAdd write bytes.length) rest
  else some (true, chunks, write, results)
termination_by results.length

/-- `buffer_socket_read`: read what the socket has into the buffer at its write
cursor; `false` on an error, or on end of file before anything was read. -/
def bufferSocketRead (buf : Buffer K) :
    List SocketRead → Option (Bool × Buffer K × List SocketRead)
  | [] => none
  | .error :: rest => do
    let _ ← buf.chunks[buf.write.chunk]?
    pure (false, buf, rest)
  | .data bytes :: rest => do
    let _ ← buf.chunks[buf.write.chunk]?
    if bytes.length = 0 ∧ buf.write.offset < K then pure (false, buf, rest) else do
    let chunks ← writeAt buf.chunks buf.write.chunk buf.write.offset bytes
    let (ok, chunks, write, rest) ←
      bufferSocketReadLoop chunks (bufferIndexAdd buf.write bytes.length) rest
    pure (ok, { buf with chunks, write }, rest)

/-- The `for` loop of `buffer_socket_write`: chunks `0 … n-1`, whole. -/
def socketWriteChunks (chunks : List (Chunk K)) : Nat → Option (List UInt8)
  | 0 => some []
  | n + 1 => do
    let front ← socketWriteChunks chunks n
    let ch ← readAt chunks n 0 K
    pure (front ++ ch)

/-- `buffer_socket_write`: the bytes handed to `socket_write_all`, from the start
of the buffer up to the cursor.  The socket takes every byte (the blocking
`socket_write_all` of the spec); its `bool` is always `true` and no caller reads
it. -/
def bufferSocketWrite (chunks : List (Chunk K)) (buf : BufferIndex K) :
    Option (List UInt8) := do
  let front ← socketWriteChunks chunks buf.chunk
  let last ← readAt chunks buf.chunk 0 buf.offset
  pure (front ++ last)

end FalkorDB
