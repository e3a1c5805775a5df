/-
FalkorDB/Bolt/Receive.lean

The read side of the client: what the socket delivers into `read_buf`, and
what the reads at its read cursor then see.

* `buffer_socket_read` followed by `buffer_read` from the read cursor copies,
  for any size up to what has arrived, the bytes of the line in the order they
  arrived: the unread bytes that were already there, then the socket's
  (`bufferSocketRead_bufferRead`).
* `buffer_read_uint32` reads the four bytes at the cursor in host order, and
  `ntohl` reverses them, so `bolt_check_handshake` compares the bytes in the
  order they arrived with `60 60 B0 17`; `bolt_read_supported_version` then
  takes the version from bytes 6 and 7 of the preamble, the minor and major
  version of the first proposal (`boltHandshake_preamble`).
* what `buffer_write_uintN` stores at the write cursor, `buffer_read_uintN`
  reads back from a cursor at the same position, the value itself, for the four
  widths (`bufferReadUint_bufferWriteUint`); what `buffer_write` stores,
  `buffer_read` copies back, across chunk ends (`bufferRead_bufferWrite`).

The typed reads need the bytes inside the read cursor's chunk, and every read
fewer than 65536 bytes unread: `buffer_index_read` does not roll over
(`bufferIndexRead_eq_none_of_straddle`) and `buffer_index_diff` is 16 bits
wide.
-/
import FalkorDB.Bolt.BufferRead
import FalkorDB.Bolt.Socket
import FalkorDB.Bolt.Client

namespace FalkorDB

variable {K : ℕ+}

/-! ### Reads inside one chunk -/

/-- `buffer_index_read` inside the cursor's chunk, with the bytes there: the
slice of the line at the cursor, and the cursor moved past it. -/
theorem bufferIndexRead_eq {buf : Buffer K} {i : BufferIndex K} {n : Nat}
    (hc : i.chunk < buf.chunks.length) (hoff : i.offset + n ≤ K) (hw : i.pos + n ≤ buf.write.pos)
    (hwrap : buf.write.pos < i.pos + 65536) :
    bufferIndexRead buf i n = some (((flat buf.chunks).drop i.pos).take n, bufferIndexAdd i n) := by
  have hdiff : n ≤ bufferIndexDiff buf.write i := by
    rw [bufferIndexDiff_eq (by omega)]
    omega
  rw [bufferIndexRead, if_pos hdiff, readAt_eq hc hoff]
  rfl

/-- `buffer_index_read` does not look at the buffer's own read cursor. -/
theorem bufferIndexRead_setRead (buf : Buffer K) (r i : BufferIndex K) (n : Nat) :
    bufferIndexRead { buf with read := r } i n = bufferIndexRead buf i n := rfl

/-! ### Host order -/

theorem hostValue_lt (bs : List UInt8) : hostValue bs < 256 ^ bs.length := by
  induction bs with
  | nil => decide
  | cons b bs ih =>
    have := b.toNat_lt_size
    rw [hostValue, List.length_cons, Nat.pow_succ]
    change b.toNat < 256 at this
    omega

/-- Bytes read as a host-order value and stored back are the bytes. -/
theorem hostBytes_hostValue (bs : List UInt8) : hostBytes bs.length (hostValue bs) = bs := by
  induction bs with
  | nil => rfl
  | cons b bs ih =>
    have hb : b.toNat < 256 := b.toNat_lt_size
    rw [List.length_cons, hostBytes, hostValue,
      show (b.toNat + 256 * hostValue bs) / 256 = hostValue bs by omega, ih]
    congr 1
    exact UInt8.toNat.inj (show (b.toNat + 256 * hostValue bs) % 256 = b.toNat by omega)

theorem hostValue_inj {bs bs' : List UInt8} (hl : bs.length = bs'.length)
    (h : hostValue bs = hostValue bs') : bs = bs' := by
  rw [← hostBytes_hostValue bs, ← hostBytes_hostValue bs', h, hl]

/-- `ntohl` of four bytes read in host order is the value of the bytes reversed. -/
theorem ntohl_hostValue {bs : List UInt8} (hl : bs.length = 4) :
    ntohl (UInt32.ofNat (hostValue bs)) = UInt32.ofNat (hostValue bs.reverse) := by
  have hlt : hostValue bs < UInt32.size := by
    simpa [hl] using hostValue_lt bs
  rw [ntohl, UInt32.toNat_ofNat_of_lt hlt, ← hl, hostBytes_hostValue]

/-- The comparison of `bolt_check_handshake` holds exactly for the bytes
`60 60 B0 17`, in the order they were stored. -/
theorem ntohl_eq_magic {bs : List UInt8} (hl : bs.length = 4) :
    (ntohl (UInt32.ofNat (hostValue bs)) == 0x6060B017) = decide (bs = [0x60, 0x60, 0xB0, 0x17]) := by
  have hmagic : (0x6060B017 : UInt32) = UInt32.ofNat (hostValue [0x17, 0xB0, 0x60, 0x60]) := rfl
  have hlt : ∀ cs : List UInt8, cs.length = 4 → hostValue cs < UInt32.size := fun cs h => by
    simpa [h] using hostValue_lt cs
  rw [ntohl_hostValue hl, hmagic, Bool.eq_iff_iff, beq_iff_eq, decide_eq_true_iff]
  constructor
  · intro h
    have := congrArg UInt32.toNat h
    rw [UInt32.toNat_ofNat_of_lt (hlt _ (by simp [hl])),
      UInt32.toNat_ofNat_of_lt (hlt [0x17, 0xB0, 0x60, 0x60] rfl)] at this
    exact List.reverse_eq_iff.mp (hostValue_inj (by simp [hl]) this)
  · rintro rfl
    rfl

/-! ### Reads of what was written -/

theorem slice_take {xs : List UInt8} {p n m : Nat} (h : p + n ≤ m) :
    ((xs.take m).drop p).take n = (xs.drop p).take n := by
  rw [List.drop_take, List.take_take, Nat.min_eq_left (by omega)]

/-- The bytes of a write, on the line where it started. -/
theorem slice_bufferWrite {cs cs' : List (Chunk K)} {buf buf' : BufferIndex K} {data : List UInt8}
    (hc : buf.chunk < cs.length) (h : bufferWrite cs buf data = some (cs', buf')) :
    ((flat cs').drop buf.pos).take data.length = data := by
  rw [← slice_take le_rfl, take_bufferWrite hc h,
    List.drop_left' (List.length_take_of_le (pos_le_length_flat hc)), List.take_length]

/-- Bytes stored in host order and read back: the value modulo the width. -/
theorem hostValue_hostBytes (w v : Nat) : hostValue (hostBytes w v) = v % 256 ^ w := by
  induction w generalizing v with
  | zero => simp [hostBytes, hostValue, Nat.mod_one]
  | succ w ih =>
    rw [hostBytes, hostValue, ih, Nat.pow_succ', Nat.mod_mul]
    rfl

/-- What a write stores at the write cursor, a read from the same position sees,
when the bytes lie inside the read cursor's chunk. -/
theorem bufferIndexRead_hostBytes {b : Buffer K} (hw : b.write.chunk < b.chunks.length)
    {i : BufferIndex K} (hi : i.pos = b.write.pos) (r : BufferIndex K) {width : Nat} (v : Nat)
    (hwidth : 0 < width) (hwidth' : width < 65536) (hoff : i.offset + width ≤ K) :
    ∃ cs w, bufferWrite b.chunks b.write (hostBytes width v) = some (cs, w) ∧
      bufferIndexRead ⟨cs, r, w⟩ i width = some (hostBytes width v, bufferIndexAdd i width) := by
  obtain ⟨cs, w, h, -⟩ := bufferWrite_spec (hostBytes width v) hw
  obtain ⟨hpos, hc, -, -⟩ := bufferWrite_inv hw h
  rw [length_hostBytes] at hpos
  have hflat : w.pos ≤ cs.length * K := by simpa using pos_le_length_flat hc
  refine ⟨cs, w, h, ?_⟩
  have hic : i.chunk < (⟨cs, r, w⟩ : Buffer K).chunks.length :=
    chunk_lt_of_pos_lt (show i.pos < cs.length * K by omega)
  rw [bufferIndexRead_eq hic hoff (show i.pos + width ≤ w.pos by omega)
    (show w.pos < i.pos + 65536 by omega)]
  have hslice := slice_bufferWrite hw h
  rw [length_hostBytes, ← hi] at hslice
  simp only [hslice]

/-- **Scalars read back.**  A `uint8_t`, `uint16_t`, `uint32_t` or `uint64_t`
stored with `buffer_write_uintN` at a buffer's write cursor is read back by
`buffer_read_uintN` from any cursor at the same position whose chunk holds all
of its bytes, whatever the read cursor of the buffer: the value itself, and the
cursor moved past it. -/
theorem bufferReadUint_bufferWriteUint {b : Buffer K} (hw : b.write.chunk < b.chunks.length)
    {i : BufferIndex K} (hi : i.pos = b.write.pos) (r : BufferIndex K) :
    (∀ v : UInt8, i.offset + 1 ≤ K → ∃ cs w, bufferWriteUint8 b.chunks b.write v = some (cs, w) ∧
      bufferReadUint8 ⟨cs, r, w⟩ i = some (v, bufferIndexAdd i 1)) ∧
    (∀ v : UInt16, i.offset + 2 ≤ K → ∃ cs w, bufferWriteUint16 b.chunks b.write v = some (cs, w) ∧
      bufferReadUint16 ⟨cs, r, w⟩ i = some (v, bufferIndexAdd i 2)) ∧
    (∀ v : UInt32, i.offset + 4 ≤ K → ∃ cs w, bufferWriteUint32 b.chunks b.write v = some (cs, w) ∧
      bufferReadUint32 ⟨cs, r, w⟩ i = some (v, bufferIndexAdd i 4)) ∧
    (∀ v : UInt64, i.offset + 8 ≤ K → ∃ cs w, bufferWriteUint64 b.chunks b.write v = some (cs, w) ∧
      bufferReadUint64 ⟨cs, r, w⟩ i = some (v, bufferIndexAdd i 8)) := by
  refine ⟨fun v hoff => ?_, fun v hoff => ?_, fun v hoff => ?_, fun v hoff => ?_⟩
  · obtain ⟨cs, w, h, h'⟩ := bufferIndexRead_hostBytes hw hi r v.toNat (by decide) (by decide) hoff
    have hv : UInt8.ofNat (v.toNat % 256 ^ 1) = v := UInt8.toNat.inj
      (show v.toNat % 256 % 256 = v.toNat by have := v.toNat_lt_size; unfold UInt8.size at this; omega)
    exact ⟨cs, w, h, by simp only [bufferReadUint8, h', Option.bind_eq_bind, Option.some_bind,
      Option.pure_def, hostValue_hostBytes, hv]⟩
  · obtain ⟨cs, w, h, h'⟩ := bufferIndexRead_hostBytes hw hi r v.toNat (by decide) (by decide) hoff
    have hv : UInt16.ofNat (v.toNat % 256 ^ 2) = v := UInt16.toNat.inj
      (show v.toNat % 65536 % 65536 = v.toNat by
        have := v.toNat_lt_size; unfold UInt16.size at this; omega)
    exact ⟨cs, w, h, by simp only [bufferReadUint16, h', Option.bind_eq_bind, Option.some_bind,
      Option.pure_def, hostValue_hostBytes, hv]⟩
  · obtain ⟨cs, w, h, h'⟩ := bufferIndexRead_hostBytes hw hi r v.toNat (by decide) (by decide) hoff
    have hv : UInt32.ofNat (v.toNat % 256 ^ 4) = v := UInt32.toNat.inj
      (show v.toNat % 4294967296 % 4294967296 = v.toNat by
        have := v.toNat_lt_size; unfold UInt32.size at this; omega)
    exact ⟨cs, w, h, by simp only [bufferReadUint32, h', Option.bind_eq_bind, Option.some_bind,
      Option.pure_def, hostValue_hostBytes, hv]⟩
  · obtain ⟨cs, w, h, h'⟩ := bufferIndexRead_hostBytes hw hi r v.toNat (by decide) (by decide) hoff
    have hv : UInt64.ofNat (v.toNat % 256 ^ 8) = v := UInt64.toNat.inj
      (show v.toNat % 18446744073709551616 % 18446744073709551616 = v.toNat by
        have := v.toNat_lt_size; unfold UInt64.size at this; omega)
    exact ⟨cs, w, h, by simp only [bufferReadUint64, h', Option.bind_eq_bind, Option.some_bind,
      Option.pure_def, hostValue_hostBytes, hv]⟩

/-- A new buffer of 8-byte chunks, each scalar written at its start and read back
from there. -/
theorem bufferReadUint_bufferWriteUint_fresh :
    (Buffer.fresh 8).write.chunk < (Buffer.fresh 8).chunks.length ∧
    (BufferIndex.start 0 : BufferIndex 8).pos = (Buffer.fresh 8).write.pos ∧
    (∀ v : UInt8, (BufferIndex.start 0 : BufferIndex 8).offset + 1 ≤ (8 : ℕ+) →
      ∃ cs w, bufferWriteUint8 (Buffer.fresh 8).chunks (Buffer.fresh 8).write v = some (cs, w) ∧
        bufferReadUint8 ⟨cs, BufferIndex.start 0, w⟩ (BufferIndex.start 0) =
          some (v, bufferIndexAdd (BufferIndex.start 0) 1)) ∧
    (∀ v : UInt16, (BufferIndex.start 0 : BufferIndex 8).offset + 2 ≤ (8 : ℕ+) →
      ∃ cs w, bufferWriteUint16 (Buffer.fresh 8).chunks (Buffer.fresh 8).write v = some (cs, w) ∧
        bufferReadUint16 ⟨cs, BufferIndex.start 0, w⟩ (BufferIndex.start 0) =
          some (v, bufferIndexAdd (BufferIndex.start 0) 2)) ∧
    (∀ v : UInt32, (BufferIndex.start 0 : BufferIndex 8).offset + 4 ≤ (8 : ℕ+) →
      ∃ cs w, bufferWriteUint32 (Buffer.fresh 8).chunks (Buffer.fresh 8).write v = some (cs, w) ∧
        bufferReadUint32 ⟨cs, BufferIndex.start 0, w⟩ (BufferIndex.start 0) =
          some (v, bufferIndexAdd (BufferIndex.start 0) 4)) ∧
    (∀ v : UInt64, (BufferIndex.start 0 : BufferIndex 8).offset + 8 ≤ (8 : ℕ+) →
      ∃ cs w, bufferWriteUint64 (Buffer.fresh 8).chunks (Buffer.fresh 8).write v = some (cs, w) ∧
        bufferReadUint64 ⟨cs, BufferIndex.start 0, w⟩ (BufferIndex.start 0) =
          some (v, bufferIndexAdd (BufferIndex.start 0) 8)) :=
  ⟨by decide, rfl, bufferReadUint_bufferWriteUint (b := Buffer.fresh 8) (i := BufferIndex.start 0)
    (by decide) rfl _⟩

/-- **What `buffer_write` wrote, `buffer_read` copies back.**  Write fewer than
65536 bytes at a buffer's write cursor, in an allocated chunk; a `buffer_read`
of as many bytes from any cursor at the position the write started, whatever the
buffer's read cursor, copies exactly those bytes to the destination cursor,
across any chunk ends of either buffer, keeps what the destination held before
it, and moves both cursors past the copy. -/
theorem bufferRead_bufferWrite {b : Buffer K} (hw : b.write.chunk < b.chunks.length)
    {data : List UInt8} (hn : data.length < 65536) {i : BufferIndex K} (hi : i.pos = b.write.pos)
    (r : BufferIndex K) {cs : List (Chunk K)} {dst : BufferIndex K} (hd : dst.chunk < cs.length) :
    ∃ cs₁ w₁ i' cs' dst', bufferWrite b.chunks b.write data = some (cs₁, w₁) ∧
      bufferRead ⟨cs₁, r, w₁⟩ i cs dst data.length = some (i', cs', dst') ∧
      i'.pos = i.pos + data.length ∧ dst'.pos = dst.pos + data.length ∧
      (flat cs').take dst.pos = (flat cs).take dst.pos ∧
      ((flat cs').drop dst.pos).take data.length = data := by
  obtain ⟨cs₁, w₁, h, -⟩ := bufferWrite_spec data hw
  obtain ⟨hpos, hc₁, -, -⟩ := bufferWrite_inv hw h
  have hsrc := pos_le_length_flat hc₁
  have hdst := pos_le_length_flat hd
  -- the 16-bit guard holds: exactly the written bytes lie past the cursor
  have hdiff : data.length ≤ bufferIndexDiff (⟨cs₁, r, w₁⟩ : Buffer K).write i := by
    show data.length ≤ bufferIndexDiff w₁ i
    rw [bufferIndexDiff_eq (by omega)]; omega
  obtain ⟨i', cs', dst', hrun, hipos, hdpos, -, -, -, hflat'⟩ :=
    bufferReadLoop_spec (show i.pos + data.length ≤ (flat cs₁).length by omega) hd
  have hslice : ((flat cs₁).drop i.pos).take data.length = data := hi ▸ slice_bufferWrite hw h
  refine ⟨cs₁, w₁, i', cs', dst', h, by rw [bufferRead_eq_loop hdiff, hrun], hipos, hdpos, ?_, ?_⟩
  · rw [hflat', take_overwrite (by rw [List.length_append]; omega),
      List.take_append_of_le_length hdst]
  · rw [hflat', hslice]
    exact slice_overwrite (by rw [List.length_append]; omega)

/-- Three bytes written from the end of the first chunk of a buffer of 4-byte
chunks, and copied back into a one-chunk buffer from its third byte: both copies
cross a chunk end. -/
theorem bufferRead_bufferWrite_across :
    let b : Buffer 4 := ⟨[Chunk.fresh 4], BufferIndex.start 0, ⟨0, 3, by decide⟩⟩
    b.write.chunk < b.chunks.length ∧ [7, 8, 9].length < 65536 ∧
    (⟨0, 3, by decide⟩ : BufferIndex 4).pos = b.write.pos ∧
    (⟨0, 2, by decide⟩ : BufferIndex 4).chunk < [Chunk.fresh 4].length ∧
    ∃ cs₁ w₁ i' cs' dst', bufferWrite b.chunks b.write [7, 8, 9] = some (cs₁, w₁) ∧
      bufferRead ⟨cs₁, BufferIndex.start 0, w₁⟩ ⟨0, 3, by decide⟩ [Chunk.fresh 4] ⟨0, 2, by decide⟩
          [7, 8, 9].length = some (i', cs', dst') ∧
      i'.pos = (⟨0, 3, by decide⟩ : BufferIndex 4).pos + [7, 8, 9].length ∧
      dst'.pos = (⟨0, 2, by decide⟩ : BufferIndex 4).pos + [7, 8, 9].length ∧
      (flat cs').take (⟨0, 2, by decide⟩ : BufferIndex 4).pos =
        (flat [Chunk.fresh 4]).take (⟨0, 2, by decide⟩ : BufferIndex 4).pos ∧
      ((flat cs').drop (⟨0, 2, by decide⟩ : BufferIndex 4).pos).take [7, 8, 9].length =
        [7, 8, 9] :=
  ⟨by decide, by decide, rfl, by decide, bufferRead_bufferWrite (by decide) (by decide) rfl _ (by decide)⟩

/-! ### The handshake -/

/-- **The handshake.**  With the twenty bytes `pre` of a client's preamble at the
read cursor, inside its chunk, and fewer than 65536 bytes unread:
`bolt_check_handshake` accepts exactly when the first four are `60 60 B0 17` in
the order they arrived, and `bolt_read_supported_version` then returns the
version in bytes 6 (minor) and 7 (major) of the preamble, the first proposal.
The two calls move the read cursor past the twenty bytes and change nothing
else. -/
theorem boltHandshake_preamble {c : BoltClient K} {pre : List UInt8}
    (hc : c.readBuf.read.chunk < c.readBuf.chunks.length) (hoff : c.readBuf.read.offset + 20 ≤ K)
    (hw : c.readBuf.read.pos + 20 ≤ c.readBuf.write.pos)
    (hwrap : c.readBuf.write.pos < c.readBuf.read.pos + 65536)
    (hpre : ((flat c.readBuf.chunks).drop c.readBuf.read.pos).take 20 = pre) :
    ∃ read₁ read₂ version,
      boltCheckHandshake c = some (decide (pre.take 4 = [0x60, 0x60, 0xB0, 0x17]),
        { c with readBuf := { c.readBuf with read := read₁ } }) ∧
      boltReadSupportedVersion { c with readBuf := { c.readBuf with read := read₁ } } =
        some (version, { c with readBuf := { c.readBuf with read := read₂ } }) ∧
      pre[6]? = some version.minor ∧ pre[7]? = some version.major ∧
      read₂.pos = c.readBuf.read.pos + 20 := by
  set r := c.readBuf.read
  have hlen : pre.length = 20 := by
    rw [← hpre]
    exact length_slice (by have := length_flat_le_of_lt hc; unfold BufferIndex.pos at *; omega)
  -- `buffer_read_uint32` at the cursor
  have hr₁ : bufferIndexAdd r 4 = ⟨r.chunk, r.offset + 4, by omega⟩ := bufferIndexAdd_of_le (by omega)
  have h₁ : bufferIndexRead c.readBuf r 4 = some (pre.take 4, ⟨r.chunk, r.offset + 4, by omega⟩) := by
    rw [bufferIndexRead_eq hc (by omega) (by omega) (by omega), hr₁, ← hpre, List.take_take]
    rfl
  -- the sixteen bytes after it, of which the first four are dereferenced
  set r₁ : BufferIndex K := ⟨r.chunk, r.offset + 4, by omega⟩
  have hpos₁ : r₁.pos = r.pos + 4 := by
    simp only [r₁, BufferIndex.pos_mk]
    unfold BufferIndex.pos
    omega
  have hdiff : bufferIndexDiff c.readBuf.write r₁ ≥ 16 := by
    rw [bufferIndexDiff_eq (by omega)]
    omega
  have h₂ : readAt c.readBuf.chunks r₁.chunk r₁.offset 4 = some ((pre.drop 4).take 4) := by
    rw [readAt_eq hc (show r.offset + 4 + 4 ≤ K by omega), ← hpre, List.drop_take, List.drop_drop,
      List.take_take]
    exact congrArg some (congrArg₂ List.take (by omega) (congrArg₂ List.drop hpos₁ rfl))
  have hlt : ∀ i, i < 20 → ∃ x, pre[i]? = some x := fun i hi =>
    ⟨pre[i], List.getElem?_eq_getElem (by omega)⟩
  obtain ⟨minor, hminor⟩ := hlt 6 (by omega)
  obtain ⟨major, hmajor⟩ := hlt 7 (by omega)
  refine ⟨r₁, bufferIndexAdd r₁ 16, ⟨major, minor⟩, ?_, ?_, hminor, hmajor, ?_⟩
  · simp only [boltCheckHandshake, bufferReadUint32, h₁, Option.bind_eq_bind, Option.some_bind,
      Option.pure_def, ntohl_eq_magic (show (pre.take 4).length = 4 by simp [hlen])]
  · simp only [boltReadSupportedVersion, hdiff, if_true, h₂, Option.bind_eq_bind, Option.some_bind,
      Option.pure_def, List.getElem?_take, Nat.reduceLT, if_true, List.getElem?_drop, hminor, hmajor]
  · rw [pos_bufferIndexAdd, hpos₁]

/-- A client on 20-byte chunks whose read buffer holds a preamble that proposes
version 5.4 first. -/
theorem boltHandshake_preamble_v54 :
    let c : BoltClient 20 := ⟨false, .negotiation, false,
      ⟨[⟨[0x60, 0x60, 0xB0, 0x17, 0, 0, 4, 5, 0, 0, 0, 4, 0, 0, 0, 0, 0, 0, 0, 0], rfl⟩],
        BufferIndex.start 0, ⟨0, 20, le_rfl⟩⟩, Buffer.fresh 20, BufferIndex.start 0⟩
    ∃ read₁ read₂ version,
      boltCheckHandshake c = some (true, { c with readBuf := { c.readBuf with read := read₁ } }) ∧
      boltReadSupportedVersion { c with readBuf := { c.readBuf with read := read₁ } } =
        some (version, { c with readBuf := { c.readBuf with read := read₂ } }) ∧
      version.minor = 4 ∧ version.major = 5 ∧ read₂.pos = 20 := by
  intro c
  obtain ⟨read₁, read₂, version, h₁, h₂, hminor, hmajor, hpos⟩ :=
    boltHandshake_preamble (show c.readBuf.read.chunk < c.readBuf.chunks.length by decide)
      (by decide) (by decide) (by decide) rfl
  exact ⟨read₁, read₂, version, h₁, h₂, Option.some.inj (hminor.symm.trans (by decide)),
    Option.some.inj (hmajor.symm.trans (by decide)), hpos⟩

/-! ### Socket, then `buffer_read` -/

theorem slice_overwrite_of_length {xs d : List UInt8} {p n : Nat} (h : p ≤ xs.length)
    (hn : d.length = n) : ((overwrite xs p d).drop p).take n = d :=
  hn ▸ slice_overwrite h

/-- **Receive path.**  From a write cursor in an allocated chunk: when
`buffer_socket_read` returns `true`, having consumed the socket's answers
`used`, a `buffer_read` from the read cursor of up to everything that has
arrived, fewer than 65536 bytes, copies the bytes in the order they arrived (the
ones that were before the old write cursor, then those of `used`) to the
destination cursor, keeps what the destination held before it, and moves both
cursors past the copy. -/
theorem bufferSocketRead_bufferRead {buf : Buffer K} (hw : buf.write.chunk < buf.chunks.length)
    {cs : List (Chunk K)} {dst : BufferIndex K} (hd : dst.chunk < cs.length) :
    ∀ rs buf' rest, bufferSocketRead buf rs = some (true, buf', rest) →
      ∃ used : List (List UInt8), rs = used.map SocketRead.data ++ rest ∧
        buf'.write.pos = buf.write.pos + used.flatten.length ∧
        ∀ size, buf.read.pos + size ≤ buf'.write.pos → buf'.write.pos < buf.read.pos + 65536 →
          ∃ read' cs' dst', bufferRead buf' buf'.read cs dst size = some (read', cs', dst') ∧
            read'.pos = buf.read.pos + size ∧ dst'.pos = dst.pos + size ∧
            (flat cs').take dst.pos = (flat cs).take dst.pos ∧
            ((flat cs').drop dst.pos).take size =
              (((flat buf.chunks).take buf.write.pos ++ used.flatten).drop buf.read.pos).take size := by
  intro rs buf' rest h
  obtain ⟨used, hrs, hread, hpos, -, hc', -, hflat⟩ := bufferSocketRead_true hw h
  refine ⟨used, hrs, hpos, fun size hsize hwrap => ?_⟩
  have hsrc := pos_le_length_flat hc'
  -- past the 16-bit guard, `buffer_read` is its copy loop
  have hdiff : size ≤ bufferIndexDiff buf'.write buf.read := by
    rw [bufferIndexDiff_eq (by omega)]; omega
  obtain ⟨read', cs', dst', hrun, hrpos, hdpos, -, -, -, hflat'⟩ :=
    bufferReadLoop_spec (show buf.read.pos + size ≤ (flat buf'.chunks).length by omega) hd
  have hdst : dst.pos ≤ (flat cs).length := pos_le_length_flat hd
  have hwl : buf.write.pos ≤ (flat buf.chunks).length := pos_le_length_flat hw
  -- the bytes up to the new write cursor: the old ones, then the socket's
  have harrived : (flat buf'.chunks).take (buf.write.pos + used.flatten.length) =
      (flat buf.chunks).take buf.write.pos ++ used.flatten := by
    rw [hflat, take_overwrite_add (by rw [List.length_append]; omega),
      List.take_append_of_le_length hwl]
  have hslice : ((flat buf'.chunks).drop buf.read.pos).take size =
      (((flat buf.chunks).take buf.write.pos ++ used.flatten).drop buf.read.pos).take size := by
    rw [← harrived, slice_take (by omega)]
  have hlen : (((flat buf'.chunks).drop buf.read.pos).take size).length = size :=
    length_slice (by omega)
  refine ⟨read', cs', dst', by rw [hread, bufferRead_eq_loop hdiff, hrun], hrpos, hdpos, ?_, ?_⟩
  · rw [hflat', take_overwrite (by rw [List.length_append]; omega),
      List.take_append_of_le_length hdst]
  · rw [hflat', ← hslice]
    exact slice_overwrite_of_length (by rw [List.length_append]; omega) hlen

/-- A new buffer of 4-byte chunks, filled with a whole chunk and then two bytes
more; the six bytes are copied, across the end of its first chunk, to the start
of another buffer. -/
theorem bufferSocketRead_bufferRead_fresh :
    (Buffer.fresh 4).write.chunk < (Buffer.fresh 4).chunks.length ∧
    (BufferIndex.start 0 : BufferIndex 4).chunk < [Chunk.fresh 4].length ∧
    ∃ buf', bufferSocketRead (Buffer.fresh 4) [.data [1, 2, 3, 4], .data [5, 6]] =
        some (true, buf', []) ∧
      ∃ read' cs' dst', bufferRead buf' buf'.read [Chunk.fresh 4] (BufferIndex.start 0) 6 =
          some (read', cs', dst') ∧
        read'.pos = 6 ∧ dst'.pos = 6 ∧ (flat cs').take 6 = [1, 2, 3, 4, 5, 6] := by
  have hw : (Buffer.fresh 4).write.chunk < (Buffer.fresh 4).chunks.length := by decide
  have hd : (BufferIndex.start 0 : BufferIndex 4).chunk < [Chunk.fresh 4].length := by decide
  obtain ⟨buf', h⟩ := bufferSocketRead_fill hw [1, 2, 3, 4] [] [5, 6] (by decide) (by simp)
    (by decide) []
  obtain ⟨used, hrs, hpos, hread⟩ := bufferSocketRead_bufferRead hw hd _ _ _ h
  obtain _ | ⟨u₁, _ | ⟨u₂, _ | ⟨u₃, us⟩⟩⟩ := used <;> simp at hrs
  obtain ⟨rfl, rfl⟩ := hrs
  obtain ⟨read', cs', dst', hrun, hr, hdst, -, hcopy⟩ :=
    hread 6 (by rw [hpos]; decide) (by rw [hpos]; decide)
  exact ⟨hw, hd, buf', h, read', cs', dst', hrun, hr, hdst, hcopy.trans (by decide)⟩

end FalkorDB
