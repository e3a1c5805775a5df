/-
FalkorDB/Bolt/Framing.lean

Raw Bolt framing over whole sessions.

A session of a raw client is a list of steps: compose a message (the codec's
`buffer_write`s of its pieces at `write_buf.write`, then
`bolt_client_end_message`), or `bolt_client_send`.  What the peer should
receive is `sessionSent boltChunk`: at each send, every message completed
since the previous send, each as one chunk (its length in network order and its
bytes) and the zero-length chunk that ends it.

`Between c pending` is what a raw client looks like between steps: the bytes
`pending` are composed and not yet sent, the length slot of the next message
follows them at `client->write`, and `write_buf.write` follows the slot.  A
message step extends `pending` by the message's chunk
(`composeMessage_between`); a send hands `pending` to the socket and starts
over (`boltClientSend_between`).  The framing theorem follows by induction
over the steps.  The length of a message reaches the slot through
`buffer_index_diff`, truncated to 16 bits, and back through a `uint16_t`
subtraction; the two wraps cancel for every length up to 65535
(`payloadLength_toNat`).
-/
import FalkorDB.Bolt.Client
import FalkorDB.Bolt.Socket

namespace FalkorDB

variable {K : ℕ+}

/-! ### Scalars on the wire -/

/-- The two bytes of `n` in network order. -/
def be16 (n : Nat) : List UInt8 := [UInt8.ofNat (n / 256), UInt8.ofNat n]

/-- A Bolt message in one chunk: its length in network order and its bytes,
then the zero-length chunk that ends it. -/
def boltChunk (m : List UInt8) : List UInt8 := be16 m.length ++ m ++ [0, 0]

theorem uint8_ofNat_eq {a b : Nat} (h : a % 256 = b % 256) : UInt8.ofNat a = UInt8.ofNat b :=
  UInt8.toNat.inj h

/-- `buffer_write_uint16` of `htons(n)` lays `n` out in network order. -/
@[simp] theorem hostBytes_htons (n : UInt16) : hostBytes 2 (htons n).toNat = be16 n.toNat := by
  have hn : n.toNat < 65536 := n.toNat_lt_size
  have hv : (htons n).toNat = n.toNat % 256 * 256 + n.toNat / 256 :=
    UInt16.toNat_ofNat_of_lt (by show _ < 65536; omega)
  have hhi : (n.toNat % 256 * 256 + n.toNat / 256) / 256 = n.toNat % 256 := by omega
  simp only [hostBytes, hv, hhi, be16, List.cons.injEq, and_true]
  constructor <;> apply uint8_ofNat_eq <;> omega

@[simp] theorem hostBytes_uint8 (v : UInt8) : hostBytes 1 v.toNat = [v] := by
  simp only [hostBytes, List.cons.injEq, and_true]
  exact UInt8.toNat.inj (Nat.mod_eq_of_lt v.toNat_lt_size)

@[simp] theorem hostBytes_zero16 : hostBytes 2 (0 : UInt16).toNat = [0, 0] := rfl

@[simp] theorem length_be16 (n : Nat) : (be16 n).length = 2 := rfl

/-- The length that reaches the slot: the distance past it, modulo 2^16.  The
truncation of `buffer_index_diff` and the `uint16_t` subtraction cancel. -/
theorem payloadLength_toNat {c : BoltClient K} {n : Nat}
    (hpos : c.writeBuf.write.pos = c.write.pos + 2 + n) : c.payloadLength.toNat = n % 65536 := by
  have hdiff : bufferIndexDiff c.writeBuf.write c.write = (n + 2) % 65536 := by
    rw [bufferIndexDiff_eq (by omega), hpos]; congr 1; omega
  show (BitVec.ofNat 16 (bufferIndexDiff c.writeBuf.write c.write) - 2#16).toNat = n % 65536
  rw [BitVec.toNat_sub, BitVec.toNat_ofNat, hdiff]
  simp only [BitVec.toNat_ofNat]
  omega

/-! ### Sessions -/

/-- A step of a raw session. -/
inductive SessionStep
  | message (pieces : List (List UInt8))
  | send

/-- The codec's writes of a message's pieces at `write_buf.write`. -/
def writePieces (c : BoltClient K) : List (List UInt8) → Option (BoltClient K)
  | [] => some c
  | d :: ds => (c.append d).bind fun c => writePieces c ds

/-- One step, and the bytes it sends. -/
def sessionStep (codec : BoltCodec) (c : BoltClient K) :
    SessionStep → Option (BoltClient K × List UInt8)
  | .message pieces => do
    let c ← writePieces c pieces
    let c ← boltClientEndMessage c
    pure (c, [])
  | .send => boltClientSend codec c

/-- A run of steps, and all the bytes it sends. -/
def sessionRun (codec : BoltCodec) (c : BoltClient K) :
    List SessionStep → Option (BoltClient K × List UInt8)
  | [] => some (c, [])
  | step :: steps => do
    let (c, sent) ← sessionStep codec c step
    let (c, rest) ← sessionRun codec c steps
    pure (c, sent ++ rest)

/-- What a session sends when each message goes out as `frame m`, with
`pending` composed before it: at each send, the frames of the messages completed
since the previous one. -/
def sessionSent (frame : List UInt8 → List UInt8) (pending : List UInt8) :
    List SessionStep → List UInt8
  | [] => []
  | .message pieces :: steps => sessionSent frame (pending ++ frame pieces.flatten) steps
  | .send :: steps => pending ++ sessionSent frame [] steps

/-- A message in the frame `bolt_client_end_message` writes around it on a
WebSocket client: `0x82` and one length byte, `n + 2` truncated to eight bits,
before its chunk. -/
def wsFrame (m : List UInt8) : List UInt8 := [0x82, UInt8.ofNat (m.length + 4)] ++ boltChunk m

/-- How a message goes out, raw or on WebSocket. -/
def messageFrame : Bool → List UInt8 → List UInt8
  | false => boltChunk
  | true => wsFrame

/-- The width of the slot reserved for the next message: the length, and on
WebSocket the frame header before it. -/
def slotWidth : Bool → Nat
  | false => 2
  | true => 4

/-! ### Composing a message -/

theorem BoltClient.append_eq {c : BoltClient K} {d : List UInt8} {cs : List (Chunk K)}
    {w : BufferIndex K} (h : bufferWrite c.writeBuf.chunks c.writeBuf.write d = some (cs, w)) :
    c.append d = some { c with writeBuf := { c.writeBuf with chunks := cs, write := w } } := by
  simp [BoltClient.append, h]

/-- The codec's writes of a message are one write of its bytes. -/
theorem writePieces_spec {c : BoltClient K} (ds : List (List UInt8))
    (hc : c.writeBuf.write.chunk < c.writeBuf.chunks.length) :
    ∃ cs w, writePieces c ds = some { c with writeBuf := { c.writeBuf with chunks := cs, write := w } } ∧
      w.pos = c.writeBuf.write.pos + ds.flatten.length ∧ w.chunk < cs.length ∧
      c.writeBuf.chunks.length ≤ cs.length ∧
      (flat cs).take w.pos = (flat c.writeBuf.chunks).take c.writeBuf.write.pos ++ ds.flatten := by
  induction ds generalizing c with
  | nil => exact ⟨_, _, rfl, by simp, hc, le_rfl, by simp⟩
  | cons d ds ih =>
    obtain ⟨cs₁, w₁, h₁, -⟩ := bufferWrite_spec d hc
    obtain ⟨hpos₁, hc₁, hlen₁, -⟩ := bufferWrite_inv hc h₁
    have ht₁ := take_bufferWrite hc h₁
    obtain ⟨cs, w, h, hpos, hc', hlen, ht⟩ :=
      ih (c := { c with writeBuf := { c.writeBuf with chunks := cs₁, write := w₁ } }) hc₁
    refine ⟨cs, w, by rw [writePieces, BoltClient.append_eq h₁, Option.some_bind, h], ?_, hc',
      hlen₁.trans hlen, ?_⟩
    · simp only [hpos, hpos₁, List.flatten_cons, List.length_append]; omega
    · simp only at ht
      rw [ht, hpos₁, ht₁, List.flatten_cons, List.append_assoc]

/-- The bytes before a cursor in an allocated chunk are as many as its position. -/
theorem pos_eq_of_take_eq {cs : List (Chunk K)} {w : BufferIndex K} {bytes : List UInt8}
    (hc : w.chunk < cs.length) (h : (flat cs).take w.pos = bytes) : w.pos = bytes.length := by
  rw [← h, List.length_take, Nat.min_eq_left (pos_le_length_flat hc)]

/-- The block that closes a message, in `bolt_client_end_message` and in the
`RESET` path of `bolt_client_send`: with `pre`, a 2-byte slot at the cursor `w`
and the message `m` before the cursor `nw`, the slot gets `v = |m|` in network
order and `0x0000` follows `m`. -/
theorem backfill_spec {cs : List (Chunk K)} {w nw : BufferIndex K} {pre slot m : List UInt8}
    {v : UInt16} (hwrite : w.pos = pre.length) (hslot : slot.length = 2) (hv : v.toNat = m.length)
    (hwc : w.chunk < cs.length) (hnc : nw.chunk < cs.length)
    (hbytes : (flat cs).take nw.pos = pre ++ slot ++ m) :
    ∃ cs₁ w₁ cs₂ w₂ cs' w',
      bufferWrite cs w (hostBytes 2 (htons v).toNat) = some (cs₁, w₁) ∧
      bufferWrite cs₁ nw (hostBytes 1 (0 : UInt8).toNat) = some (cs₂, w₂) ∧
      bufferWrite cs₂ w₂ (hostBytes 1 (0 : UInt8).toNat) = some (cs', w') ∧
      w'.pos = pre.length + 4 + m.length ∧ w'.chunk < cs'.length ∧
      cs.length ≤ cs'.length ∧ (flat cs').take w'.pos = pre ++ boltChunk m := by
  have hle := pos_le_length_flat hnc
  have hnext := pos_eq_of_take_eq hnc hbytes
  simp only [List.length_append, hslot] at hnext
  obtain ⟨cs₁, w₁, h₁, -⟩ := bufferWrite_spec (hostBytes 2 (htons v).toNat) hwc
  obtain ⟨-, -, hlen₁, -⟩ := bufferWrite_inv hwc h₁
  have ht₁ := take_bufferWrite_inside hwc h₁ (n := nw.pos) (by simp; omega) hle
  have hnc₁ : nw.chunk < cs₁.length := by omega
  obtain ⟨cs₂, w₂, h₂, -⟩ := bufferWrite_spec (hostBytes 1 (0 : UInt8).toNat) hnc₁
  obtain ⟨hpos₂, hc₂, hlen₂, -⟩ := bufferWrite_inv hnc₁ h₂
  obtain ⟨cs₃, w₃, h₃, -⟩ := bufferWrite_spec (hostBytes 1 (0 : UInt8).toNat) hc₂
  obtain ⟨hpos₃, hc₃, hlen₃, -⟩ := bufferWrite_inv hc₂ h₃
  refine ⟨cs₁, w₁, cs₂, w₂, cs₃, w₃, h₁, h₂, h₃, by simp at hpos₂ hpos₃; omega, hc₃, by omega, ?_⟩
  rw [hpos₃, take_bufferWrite hc₂ h₃, hpos₂, take_bufferWrite hnc₁ h₂, ht₁, hbytes, hostBytes_htons,
    hv, hwrite, overwrite_middle (by simp [hslot]), hostBytes_uint8]
  simp [boltChunk]

/-- **`bolt_client_end_message` on a raw client.**  With `pre`, a 2-byte slot
and the message `m` before `write_buf.write`, the slot gets `|m|` in network
order, the terminator follows `m`, `client->write` moves past it and the next
slot is reserved. -/
theorem boltClientEndMessage_raw {c : BoltClient K} {pre slot m : List UInt8}
    (hws : c.ws = false) (hwrite : c.write.pos = pre.length) (hslot : slot.length = 2)
    (hm : m.length ≤ 65535) (hwc : c.write.chunk < c.writeBuf.chunks.length)
    (hnc : c.writeBuf.write.chunk < c.writeBuf.chunks.length)
    (hbytes : (flat c.writeBuf.chunks).take c.writeBuf.write.pos = pre ++ slot ++ m) :
    ∃ cs w w', boltClientEndMessage c =
        some { c with writeBuf := { c.writeBuf with chunks := cs, write := w }, write := w' } ∧
      w'.pos = pre.length + 4 + m.length ∧ w.pos = w'.pos + 2 ∧ w'.chunk < cs.length ∧
      w.chunk < cs.length ∧ (flat cs).take w'.pos = pre ++ boltChunk m := by
  have hnext := pos_eq_of_take_eq hnc hbytes
  simp only [List.length_append, hslot] at hnext
  have hv : c.payloadLength.toNat = m.length := by
    rw [payloadLength_toNat (n := m.length) (by omega)]; omega
  obtain ⟨cs₁, w₁, cs₂, w₂, cs₃, w₃, h₁, h₂, h₃, hpos₃, hc₃, -, ht₃⟩ :=
    backfill_spec hwrite hslot hv hwc hnc hbytes
  obtain ⟨cs₄, w₄, h₄, -⟩ := bufferWrite_spec (hostBytes 2 (0 : UInt16).toNat) hc₃
  obtain ⟨hpos₄, hc₄, hlen₄, -⟩ := bufferWrite_inv hc₃ h₄
  refine ⟨cs₄, w₄, w₃, ?_, hpos₃, by simpa using hpos₄, by omega, hc₄, ?_⟩
  · simp only [boltClientEndMessage, hws, Bool.false_eq_true, if_false, bufferWriteUint16,
      bufferWriteUint8, Option.bind_eq_bind, Option.pure_def, Option.some_bind, h₁, h₂, h₃, h₄]
  · rw [take_bufferWrite_of_le hc₃ h₄ le_rfl, ht₃]

/-- **`bolt_client_end_message` on a WebSocket client.**  With `pre`, a 4-byte
slot and the message `m` before `write_buf.write`, the slot gets the frame
header and `|m|` in network order, the terminator follows `m`, `client->write`
moves past it and the next 4-byte slot is reserved. -/
theorem boltClientEndMessage_ws {c : BoltClient K} {pre slot m : List UInt8}
    (hws : c.ws = true) (hwrite : c.write.pos = pre.length) (hslot : slot.length = 4)
    (hm : m.length ≤ 65535) (hwc : c.write.chunk < c.writeBuf.chunks.length)
    (hnc : c.writeBuf.write.chunk < c.writeBuf.chunks.length)
    (hbytes : (flat c.writeBuf.chunks).take c.writeBuf.write.pos = pre ++ slot ++ m) :
    ∃ cs w w', boltClientEndMessage c =
        some { c with writeBuf := { c.writeBuf with chunks := cs, write := w }, write := w' } ∧
      w'.pos = pre.length + 6 + m.length ∧ w.pos = w'.pos + 4 ∧ w'.chunk < cs.length ∧
      w.chunk < cs.length ∧ (flat cs).take w'.pos = pre ++ wsFrame m := by
  have hle := pos_le_length_flat hnc
  have hnext := pos_eq_of_take_eq hnc hbytes
  simp only [List.length_append, hslot] at hnext
  have hn := payloadLength_toNat (c := c) (n := m.length + 2) (by omega)
  have hsub : (c.payloadLength - 2).toNat = m.length := by
    show (c.payloadLength.toBitVec - 2#16).toNat = m.length
    rw [BitVec.toNat_sub]
    show (65536 - 2 + c.payloadLength.toNat) % 65536 = m.length
    omega
  have hbyte : hostBytes 1 (UInt8.ofNat (c.payloadLength.toNat + 2)).toNat =
      [UInt8.ofNat (m.length + 4)] := by
    rw [hostBytes_uint8]; congr 1; apply uint8_ofNat_eq; omega
  -- the frame header, one byte after the other at `client->write`, over the
  -- first two bytes of the slot
  obtain ⟨cs₁, w₁, h₁, -⟩ := bufferWrite_spec (hostBytes 1 (0x82 : UInt8).toNat) hwc
  obtain ⟨hpos₁, hc₁, hlen₁, -⟩ := bufferWrite_inv hwc h₁
  have ht₁ := take_bufferWrite_inside hwc h₁ (n := c.writeBuf.write.pos) (by simp; omega) hle
  obtain ⟨cs₂, w₂, h₂, -⟩ :=
    bufferWrite_spec (hostBytes 1 (UInt8.ofNat (c.payloadLength.toNat + 2)).toNat) hc₁
  obtain ⟨hpos₂, hc₂, hlen₂, -⟩ := bufferWrite_inv hc₁ h₂
  have ht₂ := take_bufferWrite_inside hc₁ h₂ (n := c.writeBuf.write.pos)
    (by simp at hpos₁ ⊢; omega) (hle.trans (length_flat_mono hlen₁))
  have hp₁ : w₁.pos = pre.length + [(0x82 : UInt8)].length := by
    rw [hpos₁, hostBytes_uint8, hwrite]
  have hp₂ : w₂.pos = (pre ++ [0x82, UInt8.ofNat (m.length + 4)]).length := by
    rw [hpos₂, hbyte, hp₁]; simp
  have hbytes₂ : (flat cs₂).take c.writeBuf.write.pos =
      pre ++ [0x82, UInt8.ofNat (m.length + 4)] ++ slot.drop 2 ++ m := by
    rw [ht₂, ht₁, hbytes, hp₁, hostBytes_uint8, hwrite, hbyte, overwrite_overwrite (by simp),
      ← List.take_append_drop 2 slot, List.append_assoc pre, List.append_assoc,
      ← List.append_assoc pre, overwrite_middle (by simp [hslot])]
    simp
  -- the length and the terminator, as on a raw client
  obtain ⟨cs₃, w₃, cs₄, w₄, cs₅, w₅, h₃, h₄, h₅, hpos₅, hc₅, -, ht₅⟩ :=
    backfill_spec hp₂ (by simp [hslot]) hsub hc₂ (show c.writeBuf.write.chunk < cs₂.length by omega)
      hbytes₂
  -- the next 4-byte slot
  obtain ⟨cs₆, w₆, h₆, -⟩ := bufferWrite_spec (hostBytes 2 (0 : UInt16).toNat) hc₅
  obtain ⟨hpos₆, hc₆, hlen₆, -⟩ := bufferWrite_inv hc₅ h₆
  obtain ⟨cs₇, w₇, h₇, -⟩ := bufferWrite_spec (hostBytes 2 (0 : UInt16).toNat) hc₆
  obtain ⟨hpos₇, hc₇, hlen₇, -⟩ := bufferWrite_inv hc₆ h₇
  refine ⟨cs₇, w₇, w₅, ?_, by simp at hpos₅; omega, by simp at hpos₆ hpos₇; omega, by omega, hc₇,
    ?_⟩
  · simp only [boltClientEndMessage, hws, if_true, bufferWriteUint16, bufferWriteUint8,
      Option.bind_eq_bind, Option.pure_def, Option.some_bind, h₁, h₂, h₃, h₄, h₅, h₆, h₇]
  · rw [take_bufferWrite_of_le hc₆ h₇ (by omega), take_bufferWrite_of_le hc₅ h₆ le_rfl, ht₅]
    simp [wsFrame]

/-- `bolt_client_end_message` in either mode: the slot, of the width the mode
reserves, and the message become the message's frame. -/
theorem boltClientEndMessage_spec {c : BoltClient K} {pre slot m : List UInt8}
    (hwrite : c.write.pos = pre.length) (hslot : slot.length = slotWidth c.ws)
    (hm : m.length ≤ 65535) (hwc : c.write.chunk < c.writeBuf.chunks.length)
    (hnc : c.writeBuf.write.chunk < c.writeBuf.chunks.length)
    (hbytes : (flat c.writeBuf.chunks).take c.writeBuf.write.pos = pre ++ slot ++ m) :
    ∃ cs w w', boltClientEndMessage c =
        some { c with writeBuf := { c.writeBuf with chunks := cs, write := w }, write := w' } ∧
      w'.pos = (pre ++ messageFrame c.ws m).length ∧ w.pos = w'.pos + slotWidth c.ws ∧
      w'.chunk < cs.length ∧ w.chunk < cs.length ∧
      (flat cs).take w'.pos = pre ++ messageFrame c.ws m := by
  rcases Bool.eq_false_or_eq_true c.ws with hws | hws
  · obtain ⟨cs, w, w', h, hpos', hpos, hc', hc'', ht⟩ :=
      boltClientEndMessage_ws hws hwrite (by simpa [hws, slotWidth] using hslot) hm hwc hnc hbytes
    refine ⟨cs, w, w', h, ?_, by simpa [hws, slotWidth] using hpos, hc', hc'', by simpa [hws, messageFrame]⟩
    simp [hpos', hws, messageFrame, wsFrame, boltChunk]; omega
  · obtain ⟨cs, w, w', h, hpos', hpos, hc', hc'', ht⟩ :=
      boltClientEndMessage_raw hws hwrite (by simpa [hws, slotWidth] using hslot) hm hwc hnc hbytes
    refine ⟨cs, w, w', h, ?_, by simpa [hws, slotWidth] using hpos, hc', hc'', by simpa [hws, messageFrame]⟩
    simp [hpos', hws, messageFrame, boltChunk]; omega

/-! ### Sessions between messages -/

/-- A client between steps of a session in mode `ws`, with `pending` composed
and not yet sent. -/
structure Between (ws : Bool) (c : BoltClient K) (pending : List UInt8) : Prop where
  ws_eq : c.ws = ws
  reset : c.reset = false
  write_pos : c.write.pos = pending.length
  next_pos : c.writeBuf.write.pos = pending.length + slotWidth ws
  write_chunk : c.write.chunk < c.writeBuf.chunks.length
  next_chunk : c.writeBuf.write.chunk < c.writeBuf.chunks.length
  pending_eq : (flat c.writeBuf.chunks).take pending.length = pending

/-- Composing a message appends its frame to what is pending. -/
theorem composeMessage_between {ws : Bool} {c : BoltClient K} {pending : List UInt8}
    (hc : Between ws c pending) (pieces : List (List UInt8)) (hm : pieces.flatten.length ≤ 65535) :
    ∃ c', (writePieces c pieces).bind boltClientEndMessage = some c' ∧
      Between ws c' (pending ++ messageFrame ws pieces.flatten) := by
  obtain ⟨cs₁, w₁, h₁, hpos₁, hc₁, hlen₁, ht₁⟩ := writePieces_spec pieces hc.next_chunk
  have hle := pos_le_length_flat hc.next_chunk
  have hslot : (flat cs₁).take w₁.pos = pending ++
      ((flat c.writeBuf.chunks).drop pending.length).take (slotWidth ws) ++ pieces.flatten := by
    rw [ht₁, hc.next_pos, List.take_add, hc.pending_eq]
  set c₁ : BoltClient K := { c with writeBuf := { c.writeBuf with chunks := cs₁, write := w₁ } }
  obtain ⟨cs, w, w', h, hpos', hpos, hc', hc'', ht⟩ :=
    boltClientEndMessage_spec (c := c₁) hc.write_pos
      (by have := hc.next_pos; simp only [List.length_take, List.length_drop, c₁, hc.ws_eq]; omega)
      hm (show c.write.chunk < cs₁.length by have := hc.write_chunk; omega) hc₁ hslot
  simp only [c₁, hc.ws_eq] at hpos' hpos ht
  refine ⟨{ c₁ with writeBuf := { c₁.writeBuf with chunks := cs, write := w }, write := w' },
    by rw [h₁, Option.some_bind, h], ⟨hc.ws_eq, hc.reset, hpos', ?_, hc', hc'', by rw [← hpos', ht]⟩⟩
  rw [hpos, hpos']

/-- `bolt_client_send` with no `RESET` pending, from any client whose saved
cursor is in an allocated chunk: it sends the buffer up to that cursor, rewinds
and reserves the slot of the next message. -/
theorem boltClientSend_rewinds (codec : BoltCodec) {c : BoltClient K} (hreset : c.reset = false)
    (hwc : c.write.chunk < c.writeBuf.chunks.length) :
    ∃ c', boltClientSend codec c = some (c', (flat c.writeBuf.chunks).take c.write.pos) ∧
      Between c.ws c' [] := by
  have h0 : 0 < c.writeBuf.chunks.length := by omega
  have hstart : (BufferIndex.start 0 : BufferIndex K).chunk < c.writeBuf.chunks.length := h0
  obtain ⟨cs, w, h, -⟩ := bufferWrite_spec (hostBytes 2 (0 : UInt16).toNat) hstart
  obtain ⟨hpos, hc', hlen, -⟩ := bufferWrite_inv hstart h
  cases hws : c.ws with
  | false =>
    refine ⟨{ c with writeBuf := { c.writeBuf with chunks := cs, write := w },
                     write := BufferIndex.start 0 }, ?_,
      ⟨hws, hreset, by simp, by simpa [slotWidth] using hpos, by simp; omega, hc', by simp⟩⟩
    simp only [boltClientSend, hreset, hws, Bool.false_eq_true, if_false, bufferSocketWrite_eq hwc,
      BoltClient.rewind, bufferIndex_zero h0, Option.bind_eq_bind, Option.pure_def,
      Option.some_bind, bufferWriteUint16, h]
  | true =>
    obtain ⟨cs', w', h', -⟩ := bufferWrite_spec (hostBytes 2 (0 : UInt16).toNat) hc'
    obtain ⟨hpos', hc'', hlen', -⟩ := bufferWrite_inv hc' h'
    refine ⟨{ c with writeBuf := { c.writeBuf with chunks := cs', write := w' },
                     write := BufferIndex.start 0 }, ?_,
      ⟨hws, hreset, by simp, by simp at hpos hpos'; simp [slotWidth]; omega, by simp; omega, hc'',
        by simp⟩⟩
    simp only [boltClientSend, hreset, hws, Bool.false_eq_true, if_false, if_true,
      bufferSocketWrite_eq hwc, BoltClient.rewind, bufferIndex_zero h0, Option.bind_eq_bind,
      Option.pure_def, Option.some_bind, bufferWriteUint16, h, h']

/-- A send hands what is pending to the socket and starts over. -/
theorem boltClientSend_between (codec : BoltCodec) {ws : Bool} {c : BoltClient K}
    {pending : List UInt8} (hc : Between ws c pending) :
    ∃ c', boltClientSend codec c = some (c', pending) ∧ Between ws c' [] := by
  obtain ⟨c', h, hc'⟩ := boltClientSend_rewinds codec hc.reset hc.write_chunk
  rw [hc.write_pos, hc.pending_eq, hc.ws_eq] at *
  exact ⟨c', h, hc'⟩

/-- A new client is raw and has nothing pending. -/
theorem boltClientNew_between : ∃ c : BoltClient K, boltClientNew = some c ∧ Between false c [] := by
  have hstart : (BufferIndex.start 0 : BufferIndex K).chunk < (Buffer.fresh K).chunks.length := by
    simp [Buffer.fresh]
  obtain ⟨cs, w, h, -⟩ := bufferWrite_spec (hostBytes 2 (htons 0).toNat) hstart
  obtain ⟨hpos, hc', hlen, -⟩ := bufferWrite_inv hstart h
  refine ⟨⟨false, .negotiation, false, Buffer.fresh K, { Buffer.fresh K with chunks := cs, write := w },
      BufferIndex.start 0⟩, ?_,
    ⟨rfl, rfl, by simp, by simpa [slotWidth] using hpos, by simp; omega, hc', by simp⟩⟩
  simp only [boltClientNew, bufferNew_eq, Option.bind_eq_bind, Option.some_bind, Option.pure_def,
    bufferIndex_zero (show 0 < (Buffer.fresh K).chunks.length by simp [Buffer.fresh]),
    bufferWriteUint16]
  rw [show (Buffer.fresh K).write = BufferIndex.start 0 from rfl, h]
  rfl

/-- Every run of steps from a client between messages runs without fault and
sends the frames of its messages, batch by batch. -/
theorem sessionRun_between (codec : BoltCodec) {ws : Bool} {c : BoltClient K}
    {pending : List UInt8} (hc : Between ws c pending) (steps : List SessionStep)
    (hm : ∀ pieces, .message pieces ∈ steps → pieces.flatten.length ≤ 65535) :
    ∃ c' pending', sessionRun codec c steps = some (c', sessionSent (messageFrame ws) pending steps) ∧
      Between ws c' pending' := by
  induction steps generalizing c pending with
  | nil => exact ⟨c, pending, rfl, hc⟩
  | cons step steps ih =>
    have hm' : ∀ pieces, .message pieces ∈ steps → pieces.flatten.length ≤ 65535 :=
      fun pieces h => hm pieces (List.mem_cons_of_mem _ h)
    cases step with
    | message pieces =>
      obtain ⟨c₁, h₁, hc₁⟩ := composeMessage_between hc pieces (hm pieces (List.mem_cons_self _ _))
      obtain ⟨c', pending', h, hc'⟩ := ih hc₁ hm'
      obtain ⟨c₂, hw, he⟩ := Option.bind_eq_some.mp h₁
      exact ⟨c', pending', by simp [sessionRun, sessionStep, hw, he, h, sessionSent], hc'⟩
    | send =>
      obtain ⟨c₁, h₁, hc₁⟩ := boltClientSend_between codec hc
      obtain ⟨c', pending', h, hc'⟩ := ih hc₁ hm'
      exact ⟨c', pending', by simp [sessionRun, sessionStep, h₁, h, sessionSent], hc'⟩

/-! ### Raw framing -/

/-- **Raw Bolt framing over whole sessions.**  From a client made by
`bolt_client_new`, every session of message compositions (each message at most
65535 bytes, written in any number of pieces) and sends runs without fault, and
the bytes it hands to the socket are, message after message in the order they
were completed, the chunk of every message completed before the last send:
its length in network order, its bytes and `0x0000`. -/
theorem boltClient_raw_framing (K : ℕ+) (codec : BoltCodec) (steps : List SessionStep)
    (hm : ∀ pieces, .message pieces ∈ steps → pieces.flatten.length ≤ 65535) :
    ∃ (c₀ c : BoltClient K) (sent : List UInt8), boltClientNew = some c₀ ∧
      sessionRun codec c₀ steps = some (c, sent) ∧ sent = sessionSent boltChunk [] steps := by
  obtain ⟨c₀, h₀, hc₀⟩ := boltClientNew_between (K := K)
  obtain ⟨c, -, h, -⟩ := sessionRun_between codec hc₀ steps hm
  exact ⟨c₀, c, _, h₀, h, rfl⟩

/-- Two messages around a send, on 4-byte chunks: the first message's chunk
ends past the first chunk of the buffer. -/
theorem boltClient_raw_framing_two_messages :
    (∀ pieces, .message pieces ∈
        ([.message [[1, 2, 3]], .send, .message [[4], [5, 6]]] : List SessionStep) →
      pieces.flatten.length ≤ 65535) ∧
    ∃ (c₀ c : BoltClient 4) (sent : List UInt8), boltClientNew = some c₀ ∧
      sessionRun ⟨fun _ _ => [], fun _ => []⟩ c₀
        [.message [[1, 2, 3]], .send, .message [[4], [5, 6]]] = some (c, sent) ∧
      sent = sessionSent boltChunk [] [.message [[1, 2, 3]], .send, .message [[4], [5, 6]]] := by
  have hm : ∀ pieces, .message pieces ∈
      ([.message [[1, 2, 3]], .send, .message [[4], [5, 6]]] : List SessionStep) →
      pieces.flatten.length ≤ 65535 := by
    intro pieces h
    simp only [List.mem_cons, SessionStep.message.injEq, List.mem_singleton,
      reduceCtorEq, false_or, List.not_mem_nil, or_false] at h
    rcases h with rfl | rfl <;> decide
  exact ⟨hm, boltClient_raw_framing 4 _ _ hm⟩

end FalkorDB
