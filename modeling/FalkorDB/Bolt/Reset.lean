/-
FalkorDB/Bolt/Reset.lean

The `RESET` path of `bolt_client_send`, against the normal composition path.

When a `RESET` arrives the client answers it at once: `bolt_client_send`
rewinds `client->write` to 0 and `write_buf.write` to 2, composes `IGNORED` (if
the session failed) and `SUCCESS {}`, and after each reply backfills the 2-byte
length slot, appends `0x0000`, sends and rewinds again (`BoltClient.flushReset`).
The same replies composed the normal way are `resetReplies`: each a message
closed by `bolt_client_end_message`, then one send.

`ResetPending c pending` is what a client looks like on the `RESET` path:
`client->write` at 0, a 2-byte slot, the reply `pending` up to
`write_buf.write`.  A reply followed by the flush sends the reply's chunk and
returns to an empty `ResetPending` (`flushReset_spec`); the whole path sends
`resetSent boltChunk` and moves the state as `boltClientSendResetState` says
(`boltClientSend_reset`).  The normal path sends `resetSent (messageFrame ws)`
and reserves a slot of `slotWidth ws` bytes (`sessionRun_resetReplies`).  The
two agree on a raw client (`boltClientSend_reset_raw`); on a WebSocket client
the `RESET` path writes no frame header and reserves 2 bytes where the normal
path reserves 4 (`boltClientSend_reset_ws`).
-/
import FalkorDB.Bolt.Framing

namespace FalkorDB

variable {K : ℕ+}

/-! ### The replies to a `RESET` -/

/-- The bytes of the replies to a `RESET`, each message in `frame`: `IGNORED`
if the session failed, then `SUCCESS` with an empty map. -/
def resetSent (frame : List UInt8 → List UInt8) (codec : BoltCodec) (state : BoltState) :
    List UInt8 :=
  (if state = .failed then frame (codec.replyStructure .ignored 0) else []) ++
    frame (codec.replyStructure .success 1 ++ codec.replyMap 0)

/-- The same replies on the normal path: `bolt_reply_structure(IGNORED, 0)` and
`bolt_client_end_message` if the session failed, then
`bolt_reply_structure(SUCCESS, 1)`, `bolt_reply_map(0)` and
`bolt_client_end_message`, then `bolt_client_send`. -/
def resetReplies (codec : BoltCodec) (state : BoltState) : List SessionStep :=
  (if state = .failed then [.message [codec.replyStructure .ignored 0]] else []) ++
    [.message [codec.replyStructure .success 1, codec.replyMap 0], .send]

/-- A client on the `RESET` path with the reply `pending` composed. -/
structure ResetPending (c : BoltClient K) (pending : List UInt8) : Prop where
  write_eq : c.write = BufferIndex.start 0
  room : 2 < K * c.writeBuf.chunks.length
  next_pos : c.writeBuf.write.pos = 2 + pending.length
  next_chunk : c.writeBuf.write.chunk < c.writeBuf.chunks.length
  pending_eq : ∃ slot : List UInt8, slot.length = 2 ∧
    (flat c.writeBuf.chunks).take c.writeBuf.write.pos = slot ++ pending

/-! ### The `RESET` path, step by step -/

/-- `buffer_index(…, &client->write, 0)` and
`buffer_index(…, &client->write_buf.write, 2)`: nothing composed yet. -/
theorem rewind_resetPending {c : BoltClient K} (hroom : 2 < K * c.writeBuf.chunks.length) :
    ∃ c', c.rewind 2 = some c' ∧ ResetPending c' [] ∧ c'.ws = c.ws ∧ c'.state = c.state := by
  obtain ⟨i, hi, hpos, hchunk, -⟩ := bufferIndex_spec hroom
  have h0 : 0 < c.writeBuf.chunks.length := Nat.pos_of_ne_zero (by rintro h; simp [h] at hroom)
  have hlen : 2 ≤ (flat c.writeBuf.chunks).length := by
    rw [length_flat, Nat.mul_comm]; exact hroom.le
  refine ⟨{ c with writeBuf := { c.writeBuf with write := i }, write := BufferIndex.start 0 },
    by simp [BoltClient.rewind, bufferIndex_zero h0, hi], ⟨rfl, hroom, hpos, ?_, ?_⟩, rfl, rfl⟩
  · exact hchunk ▸ Nat.div_lt_of_lt_mul hroom
  · exact ⟨(flat c.writeBuf.chunks).take 2, List.length_take_of_le hlen, by simp [hpos]⟩

/-- A write by the codec extends the reply. -/
theorem append_resetPending {c : BoltClient K} {pending : List UInt8} (hc : ResetPending c pending)
    (d : List UInt8) :
    ∃ c', c.append d = some c' ∧ ResetPending c' (pending ++ d) ∧ c'.ws = c.ws ∧
      c'.state = c.state := by
  obtain ⟨cs, w, h, hpos, hc', hlen, ht⟩ := writePieces_spec [d] hc.next_chunk
  obtain ⟨slot, hslot, hbytes⟩ := hc.pending_eq
  simp only [writePieces, Option.bind_eq_bind, Option.some_bind] at h
  refine ⟨{ c with writeBuf := { c.writeBuf with chunks := cs, write := w } }, by simpa using h,
    ⟨hc.write_eq, ?_, ?_, hc', slot, hslot, ?_⟩, rfl, rfl⟩
  · exact lt_of_lt_of_le hc.room (Nat.mul_le_mul_left _ hlen)
  · simp [hpos, hc.next_pos]; omega
  · simp [ht, hbytes]

/-- **The flush of the `RESET` path.**  A reply of at most 65535 bytes goes
out as one chunk, and the client is back to an empty reply. -/
theorem flushReset_spec {c : BoltClient K} {m : List UInt8} (hc : ResetPending c m)
    (hm : m.length ≤ 65535) :
    ∃ c', c.flushReset = some (c', boltChunk m) ∧ ResetPending c' [] ∧ c'.ws = c.ws ∧
      c'.state = c.state := by
  obtain ⟨slot, hslot, hbytes⟩ := hc.pending_eq
  have hwc : c.write.chunk < c.writeBuf.chunks.length := by
    have := hc.room
    rw [hc.write_eq]; exact Nat.pos_of_ne_zero (by rintro h; simp [h] at this)
  have hv : c.payloadLength.toNat = m.length := by
    rw [payloadLength_toNat (n := m.length) (by simp [hc.next_pos, hc.write_eq])]; omega
  obtain ⟨cs₁, w₁, cs₂, w₂, cs, w, h₁, h₂, h₃, -, hc', hlen, ht⟩ :=
    backfill_spec (show c.write.pos = ([] : List UInt8).length by simp [hc.write_eq]) hslot hv hwc
      hc.next_chunk (by rw [hbytes, List.nil_append])
  have hroom : 2 < K * cs.length := lt_of_lt_of_le hc.room (Nat.mul_le_mul_left _ hlen)
  obtain ⟨c', hr, hc'', hws, hst⟩ := rewind_resetPending
    (c := { c with writeBuf := { c.writeBuf with chunks := cs, write := w } }) hroom
  refine ⟨c', ?_, hc'', hws, hst⟩
  simp only [BoltClient.flushReset, bufferWriteUint16, bufferWriteUint8, Option.bind_eq_bind,
    Option.some_bind, h₁, h₂, h₃, bufferSocketWrite_eq hc', ht, List.nil_append, hr,
    Option.pure_def]

/-! ### The two paths -/

/-- **`bolt_client_send` with a `RESET` pending.**  From any client whose
buffer has room for the 2-byte slot, whatever it holds: the replies go out each
as a bare chunk, the state moves as `boltClientSendResetState` says, and the
client is left with `client->write` at 0 and `write_buf.write` at 2. -/
theorem boltClientSend_reset (codec : BoltCodec) {c : BoltClient K} (hreset : c.reset = true)
    (hroom : 2 < K * c.writeBuf.chunks.length)
    (hI : (codec.replyStructure .ignored 0).length ≤ 65535)
    (hS : (codec.replyStructure .success 1 ++ codec.replyMap 0).length ≤ 65535) :
    ∃ c', boltClientSend codec c = some (c', resetSent boltChunk codec c.state) ∧
      c'.ws = c.ws ∧ c'.reset = false ∧ c'.state = boltClientSendResetState c.state ∧
      ResetPending c' [] := by
  obtain ⟨c₁, hr, hc₁, hws₁, hst₁⟩ := rewind_resetPending hroom
  by_cases hf : c.state = .failed
  · -- `IGNORED`, flushed, then `SUCCESS {}`, flushed
    obtain ⟨c₂, h₂, hc₂, hws₂, -⟩ := append_resetPending hc₁ (codec.replyStructure .ignored 0)
    obtain ⟨c₃, h₃, hc₃, hws₃, -⟩ := flushReset_spec hc₂ (by simpa using hI)
    obtain ⟨c₄, h₄, hc₄, hws₄, -⟩ := append_resetPending hc₃ (codec.replyStructure .success 1)
    obtain ⟨c₅, h₅, hc₅, hws₅, -⟩ := append_resetPending hc₄ (codec.replyMap 0)
    obtain ⟨c₆, h₆, hc₆, hws₆, -⟩ := flushReset_spec hc₅ (by simpa using hS)
    refine ⟨{ c₆ with reset := false, state := .ready }, ?_, by simp [hws₆, hws₅, hws₄, hws₃,
      hws₂, hws₁], rfl, by simp [boltClientSendResetState, hf], hc₆.write_eq, hc₆.room,
      hc₆.next_pos, hc₆.next_chunk, hc₆.pending_eq⟩
    simp only [boltClientSend, hreset, if_true, hr, Option.some_bind, hst₁, hf, ne_eq,
      not_true_eq_false, if_false, boltReplyStructure, boltReplyMap, h₂, h₃, h₄, h₅, h₆,
      Option.bind_eq_bind, Option.pure_def, resetSent, List.nil_append]
  · -- `SUCCESS {}`, flushed
    obtain ⟨c₂, h₂, hc₂, hws₂, hst₂⟩ := append_resetPending hc₁ (codec.replyStructure .success 1)
    obtain ⟨c₃, h₃, hc₃, hws₃, hst₃⟩ := append_resetPending hc₂ (codec.replyMap 0)
    obtain ⟨c₄, h₄, hc₄, hws₄, hst₄⟩ := flushReset_spec hc₃ (by simpa using hS)
    refine ⟨{ c₄ with reset := false }, ?_, by simp [hws₄, hws₃, hws₂, hws₁], rfl,
      by simp [boltClientSendResetState, hf, hst₄, hst₃, hst₂, hst₁], hc₄.write_eq, hc₄.room,
      hc₄.next_pos, hc₄.next_chunk, hc₄.pending_eq⟩
    simp only [boltClientSend, hreset, if_true, hr, Option.some_bind, hst₁, hf, ne_eq,
      not_false_eq_true, boltReplyStructure, boltReplyMap, h₂, h₃, h₄, Option.bind_eq_bind,
      Option.pure_def, resetSent, if_false, List.nil_append]

/-- The normal path, from a client between messages with nothing pending:
the replies go out each in the mode's frame, and the next slot is reserved. -/
theorem sessionRun_resetReplies (codec : BoltCodec) {ws : Bool} {e : BoltClient K}
    (he : Between ws e []) (state : BoltState)
    (hI : (codec.replyStructure .ignored 0).length ≤ 65535)
    (hS : (codec.replyStructure .success 1 ++ codec.replyMap 0).length ≤ 65535) :
    ∃ e', sessionRun codec e (resetReplies codec state) =
        some (e', resetSent (messageFrame ws) codec state) ∧ Between ws e' [] := by
  -- `SUCCESS {}` and the send, after whatever is pending
  have hsuccess : ∀ {d : BoltClient K} {pending : List UInt8}, Between ws d pending → ∃ d',
      sessionRun codec d [.message [codec.replyStructure .success 1, codec.replyMap 0], .send] =
        some (d', pending ++ messageFrame ws (codec.replyStructure .success 1 ++ codec.replyMap 0)) ∧
      Between ws d' [] := by
    intro d pending hd
    obtain ⟨d₁, h₁, hd₁⟩ :=
      composeMessage_between hd [codec.replyStructure .success 1, codec.replyMap 0] (by simpa using hS)
    obtain ⟨d₂, h₂, hd₂⟩ := boltClientSend_between codec hd₁
    obtain ⟨d₃, h₃, h₄⟩ := Option.bind_eq_some.mp h₁
    refine ⟨d₂, ?_, hd₂⟩
    simp only [sessionRun, sessionStep, h₃, h₄, h₂, Option.bind_eq_bind, Option.some_bind,
      Option.pure_def, List.flatten_cons, List.flatten_nil, List.append_nil, List.nil_append]
  by_cases hf : state = .failed
  · obtain ⟨e₁, h₁, he₁⟩ := composeMessage_between he [codec.replyStructure .ignored 0]
      (by simpa using hI)
    obtain ⟨e₂, h₂, he₂⟩ := hsuccess he₁
    obtain ⟨e₃, h₃, h₄⟩ := Option.bind_eq_some.mp h₁
    refine ⟨e₂, ?_, he₂⟩
    simpa [resetReplies, resetSent, hf, sessionRun, sessionStep, h₃, h₄] using h₂
  · obtain ⟨e₂, h₂, he₂⟩ := hsuccess he
    refine ⟨e₂, ?_, he₂⟩
    simpa [resetReplies, resetSent, hf] using h₂

/-- On a raw client the two paths agree: the same bytes, and the same layout
(`client->write` at 0, `write_buf.write` at 2). -/
theorem boltClientSend_reset_raw (codec : BoltCodec) {c e : BoltClient K}
    (hreset : c.reset = true) (hroom : 2 < K * c.writeBuf.chunks.length)
    (hI : (codec.replyStructure .ignored 0).length ≤ 65535)
    (hS : (codec.replyStructure .success 1 ++ codec.replyMap 0).length ≤ 65535)
    (he : Between false e []) :
    ∃ c' e' sent, boltClientSend codec c = some (c', sent) ∧
      sessionRun codec e (resetReplies codec c.state) = some (e', sent) ∧
      c'.write.pos = e'.write.pos ∧ c'.writeBuf.write.pos = e'.writeBuf.write.pos := by
  obtain ⟨c', h, -, -, -, hc'⟩ := boltClientSend_reset codec hreset hroom hI hS
  obtain ⟨e', h', he'⟩ := sessionRun_resetReplies codec he c.state hI hS
  refine ⟨c', e', _, h, h', ?_, ?_⟩
  · simp [hc'.write_eq, he'.write_pos]
  · rw [hc'.next_pos, he'.next_pos]; rfl

/-- A new raw client on 4-byte chunks with a `RESET` pending, against the same
client composing the replies the normal way; the codec writes a structure as
`B1 70` and a map as `A0`. -/
theorem boltClientSend_reset_raw_new :
    ∃ (c₀ c' e' : BoltClient 4) (sent : List UInt8), boltClientNew = some c₀ ∧
      boltClientSend ⟨fun _ _ => [0xB1, 0x70], fun _ => [0xA0]⟩ { c₀ with reset := true } =
        some (c', sent) ∧
      sessionRun ⟨fun _ _ => [0xB1, 0x70], fun _ => [0xA0]⟩ c₀
        (resetReplies ⟨fun _ _ => [0xB1, 0x70], fun _ => [0xA0]⟩ c₀.state) = some (e', sent) ∧
      c'.write.pos = e'.write.pos ∧ c'.writeBuf.write.pos = e'.writeBuf.write.pos := by
  obtain ⟨c₀, h₀, hc₀⟩ := boltClientNew_between (K := 4)
  have hroom : 2 < (4 : ℕ+) * c₀.writeBuf.chunks.length := by
    have := hc₀.write_chunk
    show 2 < 4 * c₀.writeBuf.chunks.length
    omega
  obtain ⟨c', e', sent, h, h', hw, hn⟩ :=
    boltClientSend_reset_raw ⟨fun _ _ => [0xB1, 0x70], fun _ => [0xA0]⟩
      (c := { c₀ with reset := true }) rfl hroom (by decide) (by decide) hc₀
  exact ⟨c₀, c', e', sent, h₀, h, h', hw, hn⟩

/-- **The `RESET` path on a WebSocket client.**  It sends each reply as a bare
chunk, where the normal path sends the WebSocket frame around it, and leaves
`write_buf.write` at 2, where the normal path reserves the 4 bytes that
`bolt_client_end_message` fills: the next message's frame header then
overwrites the first two bytes of its payload. -/
theorem boltClientSend_reset_ws (codec : BoltCodec) {c e : BoltClient K}
    (hreset : c.reset = true) (hws : c.ws = true) (hroom : 2 < K * c.writeBuf.chunks.length)
    (hI : (codec.replyStructure .ignored 0).length ≤ 65535)
    (hS : (codec.replyStructure .success 1 ++ codec.replyMap 0).length ≤ 65535)
    (he : Between true e []) :
    ∃ c' sent e' sent', boltClientSend codec c = some (c', sent) ∧
      sessionRun codec e (resetReplies codec c.state) = some (e', sent') ∧
      sent = resetSent boltChunk codec c.state ∧ sent' = resetSent wsFrame codec c.state ∧
      sent ≠ sent' ∧ c'.ws = true ∧ c'.writeBuf.write.pos = 2 ∧ e'.writeBuf.write.pos = 4 := by
  obtain ⟨c', h, hws', -, -, hc'⟩ := boltClientSend_reset codec hreset hroom hI hS
  obtain ⟨e', h', he'⟩ := sessionRun_resetReplies codec he c.state hI hS
  refine ⟨c', _, e', _, h, h', rfl, rfl, ?_, hws'.trans hws, hc'.next_pos, he'.next_pos⟩
  intro heq
  have := congrArg List.length heq
  unfold resetSent at this
  split_ifs at this <;> simp only [messageFrame, wsFrame, List.length_append, List.length_cons,
    List.length_nil] at this <;> omega

/-- A new client on 4-byte chunks, switched to WebSocket, with a `RESET`
pending, against the same client after a plain send; the codec writes nothing. -/
theorem boltClientSend_reset_ws_new :
    ∃ (c₀ e c' e' : BoltClient 4) (sent sent' : List UInt8), boltClientNew = some c₀ ∧
      Between true e [] ∧
      boltClientSend ⟨fun _ _ => [], fun _ => []⟩ { c₀ with ws := true, reset := true } =
        some (c', sent) ∧
      sessionRun ⟨fun _ _ => [], fun _ => []⟩ e
        (resetReplies ⟨fun _ _ => [], fun _ => []⟩ c₀.state) = some (e', sent') ∧
      sent ≠ sent' ∧ c'.writeBuf.write.pos = 2 ∧ e'.writeBuf.write.pos = 4 := by
  obtain ⟨c₀, h₀, hc₀⟩ := boltClientNew_between (K := 4)
  obtain ⟨e, -, he⟩ := boltClientSend_rewinds ⟨fun _ _ => [], fun _ => []⟩
    (c := { c₀ with ws := true }) hc₀.reset hc₀.write_chunk
  have hroom : 2 < (4 : ℕ+) * c₀.writeBuf.chunks.length := by
    have := hc₀.write_chunk
    show 2 < 4 * c₀.writeBuf.chunks.length
    omega
  obtain ⟨c', sent, e', sent', h, h', -, -, hne, -, hpos, hpos'⟩ :=
    boltClientSend_reset_ws ⟨fun _ _ => [], fun _ => []⟩ (c := { c₀ with ws := true, reset := true })
      rfl rfl hroom (by decide) (by decide) he
  exact ⟨c₀, e, c', e', sent, sent', h₀, he, h, h', hne, hpos, hpos'⟩

end FalkorDB
