/-
FalkorDB/Bolt/Refinement.lean

The client functions of `bolt_client.c` refine the state machine of its tables.

The message handler (`bolt.c`, not among the sources) drives a client through
three kinds of call, in any order: a reply (`bolt_client_reply_for`, the codec's
writes of the reply's fields, `bolt_client_end_message`), a send
(`bolt_client_send` with no `RESET` pending), and a `RESET` answered
(`client->reset` set, then `bolt_client_send`).  Seen from the state, a reply is
the event `.reply request response`, a `RESET` is `.resetSend` and a send is no
event (`ServerCall.event`).  The law:

    (serverRun codec c calls).map (·.1.state)
      = boltRun c.state (calls.filterMap ServerCall.event)

for every codec, every client in either mode with no `RESET` pending and its
write cursors in allocated chunks (`BoltClient.Cursors`), and every list of
calls, on chunks of more than two bytes.  The client faults exactly when an
`ASSERT` of the tables fires, and otherwise ends in the state the tables give;
what is proved of `boltRun` holds of the client.

On a raw client the bytes follow as well (`serverRun_raw`): what it sends is
`serverSent`, each reply's chunk at the next send, and at each `RESET` the
replies for the state the tables have reached, so that a session the tables
have failed is answered `IGNORED` first.

Only the tables can make a call fail: every write of the buffer functions from
an allocated chunk succeeds (`bufferWrite_cursors`), and each call keeps
`Cursors`.  The bytes play no part in the states: a message over 65535 bytes
gets a wrong length and the `RESET` path on WebSocket a misplaced slot, with the
same states.
-/
import FalkorDB.Bolt.ResetSession

namespace FalkorDB

variable {K : ℕ+}

/-! ### Calls -/

/-- What the message handler asks of a client. -/
inductive ServerCall
  /-- `bolt_client_reply_for(client, request, response, size)`, the codec's writes
  of the reply's fields, then `bolt_client_end_message`. -/
  | reply (request response : BoltStructureType) (size : Nat) (fields : List (List UInt8))
  /-- `bolt_client_send` with no `RESET` pending. -/
  | send
  /-- A `RESET` arrived: `client->reset` set, then `bolt_client_send`. -/
  | reset

/-- The event of the state machine a call is, if any. -/
def ServerCall.event : ServerCall → Option BoltEvent
  | .reply request response _ _ => some (.reply request response)
  | .send => none
  | .reset => some .resetSend

/-- One call, and the bytes it sends. -/
def serverStep (codec : BoltCodec) (c : BoltClient K) :
    ServerCall → Option (BoltClient K × List UInt8)
  | .reply request response size fields => do
    let c ← boltClientReplyFor codec c request response size
    let c ← writePieces c fields
    let c ← boltClientEndMessage c
    pure (c, [])
  | .send => boltClientSend codec c
  | .reset => boltClientSend codec { c with reset := true }

/-- A run of calls, and all the bytes it sends. -/
def serverRun (codec : BoltCodec) (c : BoltClient K) :
    List ServerCall → Option (BoltClient K × List UInt8)
  | [] => some (c, [])
  | call :: calls => do
    let (c, sent) ← serverStep codec c call
    let (c, rest) ← serverRun codec c calls
    pure (c, sent ++ rest)

/-! ### Writes that cannot fail -/

/-- Both write cursors of the client in allocated chunks. -/
structure BoltClient.Cursors (c : BoltClient K) : Prop where
  write_chunk : c.write.chunk < c.writeBuf.chunks.length
  next_chunk : c.writeBuf.write.chunk < c.writeBuf.chunks.length

theorem Between.cursors {ws : Bool} {c : BoltClient K} {pending : List UInt8}
    (hc : Between ws c pending) : c.Cursors :=
  ⟨hc.write_chunk, hc.next_chunk⟩

theorem ResetPending.cursors {c : BoltClient K} {pending : List UInt8}
    (hc : ResetPending c pending) : c.Cursors := by
  have := hc.room
  exact ⟨by rw [hc.write_eq]; exact Nat.pos_of_ne_zero (by rintro h; simp [h] at this),
    hc.next_chunk⟩

/-- A write from an allocated chunk succeeds, ends in an allocated chunk and keeps
every chunk. -/
theorem bufferWrite_cursors {cs : List (Chunk K)} {buf : BufferIndex K} (hc : buf.chunk < cs.length)
    (data : List UInt8) :
    ∃ cs' buf', bufferWrite cs buf data = some (cs', buf') ∧ buf'.chunk < cs'.length ∧
      cs.length ≤ cs'.length := by
  obtain ⟨cs', buf', h, -, -, hc', hlen, -⟩ := bufferWrite_spec data hc
  exact ⟨cs', buf', h, hc', by omega⟩

theorem BoltClient.append_cursors {c : BoltClient K} (hc : c.Cursors) (d : List UInt8) :
    ∃ c', c.append d = some c' ∧ c'.Cursors ∧ c.SameSession c' := by
  obtain ⟨cs, w, h, hw, hlen⟩ := bufferWrite_cursors hc.next_chunk d
  exact ⟨_, BoltClient.append_eq h, ⟨hc.write_chunk.trans_le hlen, hw⟩, ⟨rfl, rfl, rfl⟩⟩

theorem writePieces_cursors {c : BoltClient K} (hc : c.Cursors) (ds : List (List UInt8)) :
    ∃ c', writePieces c ds = some c' ∧ c'.Cursors ∧ c.SameSession c' := by
  induction ds generalizing c with
  | nil => exact ⟨c, rfl, hc, ⟨rfl, rfl, rfl⟩⟩
  | cons d ds ih =>
    obtain ⟨c₁, h₁, hc₁, hs₁⟩ := BoltClient.append_cursors hc d
    obtain ⟨c₂, h₂, hc₂, hs₂⟩ := ih hc₁
    exact ⟨c₂, by simp only [writePieces, h₁, Option.some_bind, h₂], hc₂, hs₁.trans hs₂⟩

/-- `bolt_client_end_message` never fails: its writes start at the two cursors
and at where the last one ended. -/
theorem boltClientEndMessage_cursors {c : BoltClient K} (hc : c.Cursors) :
    ∃ c', boltClientEndMessage c = some c' ∧ c'.Cursors := by
  cases hws : c.ws
  · obtain ⟨cs₁, w₁, h₁, -, hl₁⟩ :=
      bufferWrite_cursors hc.write_chunk (hostBytes 2 (htons c.payloadLength).toNat)
    obtain ⟨cs₂, w₂, h₂, hw₂, hl₂⟩ :=
      bufferWrite_cursors (hc.next_chunk.trans_le hl₁) (hostBytes 1 (0 : UInt8).toNat)
    obtain ⟨cs₃, w₃, h₃, hw₃, hl₃⟩ := bufferWrite_cursors hw₂ (hostBytes 1 (0 : UInt8).toNat)
    obtain ⟨cs₄, w₄, h₄, hw₄, hl₄⟩ := bufferWrite_cursors hw₃ (hostBytes 2 (0 : UInt16).toNat)
    refine ⟨{ c with writeBuf := { c.writeBuf with chunks := cs₄, write := w₄ }, write := w₃ },
      ?_, hw₃.trans_le hl₄, hw₄⟩
    simp only [boltClientEndMessage, hws, Bool.false_eq_true, if_false, bufferWriteUint16,
      bufferWriteUint8, Option.bind_eq_bind, Option.pure_def, Option.some_bind, h₁, h₂, h₃, h₄]
  · obtain ⟨cs₁, w₁, h₁, hw₁, hl₁⟩ :=
      bufferWrite_cursors hc.write_chunk (hostBytes 1 (0x82 : UInt8).toNat)
    obtain ⟨cs₂, w₂, h₂, hw₂, hl₂⟩ :=
      bufferWrite_cursors hw₁ (hostBytes 1 (UInt8.ofNat (c.payloadLength.toNat + 2)).toNat)
    obtain ⟨cs₃, w₃, h₃, -, hl₃⟩ :=
      bufferWrite_cursors hw₂ (hostBytes 2 (htons (c.payloadLength - 2)).toNat)
    obtain ⟨cs₄, w₄, h₄, hw₄, hl₄⟩ := bufferWrite_cursors
      (show c.writeBuf.write.chunk < cs₃.length by have := hc.next_chunk; omega)
      (hostBytes 1 (0 : UInt8).toNat)
    obtain ⟨cs₅, w₅, h₅, hw₅, hl₅⟩ := bufferWrite_cursors hw₄ (hostBytes 1 (0 : UInt8).toNat)
    obtain ⟨cs₆, w₆, h₆, hw₆, hl₆⟩ := bufferWrite_cursors hw₅ (hostBytes 2 (0 : UInt16).toNat)
    obtain ⟨cs₇, w₇, h₇, hw₇, hl₇⟩ := bufferWrite_cursors hw₆ (hostBytes 2 (0 : UInt16).toNat)
    refine ⟨{ c with writeBuf := { c.writeBuf with chunks := cs₇, write := w₇ }, write := w₅ },
      ?_, show w₅.chunk < cs₇.length by omega, hw₇⟩
    simp only [boltClientEndMessage, hws, if_true, bufferWriteUint16, bufferWriteUint8,
      Option.bind_eq_bind, Option.pure_def, Option.some_bind, h₁, h₂, h₃, h₄, h₅, h₆, h₇]

/-- The flush of the `RESET` path never fails, whatever the reply's length. -/
theorem flushReset_cursors {c : BoltClient K} {m : List UInt8} (hc : ResetPending c m) :
    ∃ c' sent, c.flushReset = some (c', sent) ∧ ResetPending c' [] ∧ c'.ws = c.ws ∧
      c'.state = c.state := by
  obtain ⟨cs₁, w₁, h₁, -, hl₁⟩ :=
    bufferWrite_cursors hc.cursors.write_chunk (hostBytes 2 (htons c.payloadLength).toNat)
  obtain ⟨cs₂, w₂, h₂, hw₂, hl₂⟩ :=
    bufferWrite_cursors (hc.next_chunk.trans_le hl₁) (hostBytes 1 (0 : UInt8).toNat)
  obtain ⟨cs₃, w₃, h₃, hw₃, hl₃⟩ := bufferWrite_cursors hw₂ (hostBytes 1 (0 : UInt8).toNat)
  have hroom : 2 < K * cs₃.length :=
    lt_of_lt_of_le hc.room (Nat.mul_le_mul_left _ (hl₁.trans (hl₂.trans hl₃)))
  obtain ⟨c', hr, hc', hws, hst⟩ := rewind_resetPending
    (c := { c with writeBuf := { c.writeBuf with chunks := cs₃, write := w₃ } }) hroom
  refine ⟨c', (flat cs₃).take w₃.pos, ?_, hc', hws, hst⟩
  simp only [BoltClient.flushReset, bufferWriteUint16, bufferWriteUint8, Option.bind_eq_bind,
    Option.some_bind, h₁, h₂, h₃, bufferSocketWrite_eq hw₃, hr, Option.pure_def]

/-! ### One call -/

section Calls

variable (codec : BoltCodec) {c : BoltClient K}

/-- A reply whose request and response the tables accept: the client keeps its
cursors and takes the tables' state. -/
theorem serverStep_reply (hc : c.Cursors) {request response : BoltStructureType} {s : BoltState}
    (hs : boltChangeClientState c.state request response = some s) (size : Nat)
    (fields : List (List UInt8)) :
    ∃ c', serverStep codec c (.reply request response size fields) = some (c', []) ∧
      c'.Cursors ∧ c'.reset = c.reset ∧ c'.state = s := by
  obtain ⟨c₁, h₁, hc₁, hs₁⟩ := BoltClient.append_cursors hc (codec.replyStructure response size)
  obtain ⟨c₂, h₂, hc₂, hs₂⟩ := writePieces_cursors (c := { c₁ with state := s })
    ⟨hc₁.write_chunk, hc₁.next_chunk⟩ fields
  obtain ⟨c₃, h₃, hc₃⟩ := boltClientEndMessage_cursors hc₂
  have hs₃ := boltClientEndMessage_sameSession h₃
  refine ⟨c₃, ?_, hc₃, hs₃.reset.trans (hs₂.reset.trans hs₁.reset), hs₃.state.trans hs₂.state⟩
  simp only [serverStep, boltClientReplyFor, boltReplyStructure, h₁, hs₁.state, hs, h₂, h₃,
    Option.bind_eq_bind, Option.some_bind, Option.pure_def]

/-- A reply the tables refuse: an `ASSERT` fires in `bolt_client_reply_for`. -/
theorem serverStep_reply_none {request response : BoltStructureType}
    (hs : boltChangeClientState c.state request response = none) (size : Nat)
    (fields : List (List UInt8)) :
    serverStep codec c (.reply request response size fields) = none := by
  cases h : boltReplyStructure codec c response size with
  | none => simp [serverStep, boltClientReplyFor, h]
  | some c₁ =>
    have hst : c₁.state = c.state := (BoltClient.append_sameSession h).state
    simp [serverStep, boltClientReplyFor, h, hst, hs]

/-- A send keeps the state and the cursors. -/
theorem serverStep_send (hr : c.reset = false) (hc : c.Cursors) :
    ∃ c' sent, serverStep codec c .send = some (c', sent) ∧ c'.Cursors ∧ c'.reset = false ∧
      c'.state = c.state := by
  obtain ⟨c', h, hc'⟩ := boltClientSend_rewinds codec hr hc.write_chunk
  have hs := boltClientSend_sameSession codec hr h
  exact ⟨c', _, h, hc'.cursors, hs.reset.trans hr, hs.state⟩

/-- A `RESET` answered: the state moves as `boltClientSendResetState` says, and
the cursors stay in the buffer. -/
theorem serverStep_reset (hK : 2 < (K : Nat)) (hc : c.Cursors) :
    ∃ c' sent, serverStep codec c .reset = some (c', sent) ∧ c'.Cursors ∧ c'.reset = false ∧
      c'.state = boltClientSendResetState c.state := by
  have hroom : 2 < K * c.writeBuf.chunks.length :=
    lt_of_lt_of_le hK (Nat.le_mul_of_pos_right _ (by have := hc.write_chunk; omega))
  obtain ⟨c₁, hr, hc₁, -, hst₁⟩ := rewind_resetPending (c := { c with reset := true }) hroom
  by_cases hf : c.state = .failed
  · -- `IGNORED`, flushed, then `SUCCESS {}`, flushed
    obtain ⟨c₂, h₂, hc₂, -, -⟩ := append_resetPending hc₁ (codec.replyStructure .ignored 0)
    obtain ⟨c₃, sent₃, h₃, hc₃, -, -⟩ := flushReset_cursors hc₂
    obtain ⟨c₄, h₄, hc₄, -, -⟩ := append_resetPending hc₃ (codec.replyStructure .success 1)
    obtain ⟨c₅, h₅, hc₅, -, -⟩ := append_resetPending hc₄ (codec.replyMap 0)
    obtain ⟨c₆, sent₆, h₆, hc₆, -, -⟩ := flushReset_cursors hc₅
    refine ⟨{ c₆ with reset := false, state := .ready }, sent₃ ++ sent₆, ?_,
      ⟨hc₆.cursors.1, hc₆.cursors.2⟩, rfl, by simp [boltClientSendResetState, hf]⟩
    simp only [serverStep, boltClientSend, if_true, hr, Option.some_bind]
    simp only [Option.some_bind, hst₁, hf, ne_eq,
      not_true_eq_false, if_false, boltReplyStructure, boltReplyMap, h₂, h₃, h₄, h₅, h₆,
      Option.bind_eq_bind, Option.pure_def]
  · -- `SUCCESS {}`, flushed
    obtain ⟨c₂, h₂, hc₂, -, hst₂⟩ := append_resetPending hc₁ (codec.replyStructure .success 1)
    obtain ⟨c₃, h₃, hc₃, -, hst₃⟩ := append_resetPending hc₂ (codec.replyMap 0)
    obtain ⟨c₄, sent₄, h₄, hc₄, -, hst₄⟩ := flushReset_cursors hc₃
    refine ⟨{ c₄ with reset := false }, sent₄, ?_, ⟨hc₄.cursors.1, hc₄.cursors.2⟩, rfl,
      by simp [boltClientSendResetState, hf, hst₄, hst₃, hst₂, hst₁]⟩
    simp only [serverStep, boltClientSend, if_true, hr, Option.some_bind]
    simp only [Option.some_bind, hst₁, hf, ne_eq,
      not_false_eq_true, if_true, boltReplyStructure, boltReplyMap, h₂, h₃, h₄, Option.bind_eq_bind,
      Option.pure_def]

end Calls

/-! ### Runs -/

section Cons

variable {codec : BoltCodec} {c c' : BoltClient K} {call : ServerCall} {sent : List UInt8}

/-- After a first call, a run is the rest's, behind what the first call sent. -/
theorem serverRun_cons (h : serverStep codec c call = some (c', sent)) (calls : List ServerCall) :
    serverRun codec c (call :: calls) = (serverRun codec c' calls).map fun r => (r.1, sent ++ r.2) := by
  simp only [serverRun, h, Option.bind_eq_bind, Option.some_bind]
  cases serverRun codec c' calls <;> rfl

theorem serverRun_cons_state (h : serverStep codec c call = some (c', sent)) (calls : List ServerCall) :
    (serverRun codec c (call :: calls)).map (·.1.state) = (serverRun codec c' calls).map (·.1.state) := by
  rw [serverRun_cons h, Option.map_map]
  rfl

theorem serverRun_cons_sent (h : serverStep codec c call = some (c', sent)) (calls : List ServerCall) :
    (serverRun codec c (call :: calls)).map (·.2) = ((serverRun codec c' calls).map (·.2)).map (sent ++ ·) := by
  rw [serverRun_cons h, Option.map_map, Option.map_map]
  rfl

end Cons

/-- **The client refines the state machine.**  On chunks of more than two bytes,
from a client with no `RESET` pending and its write cursors in allocated chunks,
in either mode and with any codec, every run of replies, sends and `RESET`s
faults exactly when the tables' run of its events does, and otherwise ends in
the state that run ends in. -/
theorem serverRun_state (codec : BoltCodec) (hK : 2 < (K : Nat)) {c : BoltClient K}
    (hr : c.reset = false) (hc : c.Cursors) (calls : List ServerCall) :
    (serverRun codec c calls).map (·.1.state) = boltRun c.state (calls.filterMap ServerCall.event) := by
  induction calls generalizing c with
  | nil => rfl
  | cons call calls ih =>
    cases call with
    | reply request response size fields =>
      cases hs : boltChangeClientState c.state request response with
      | none =>
        simp [serverRun, serverStep_reply_none codec hs, ServerCall.event, boltRun, boltStep, hs]
      | some s =>
        obtain ⟨c', h, hc', hr', rfl⟩ := serverStep_reply codec hc hs size fields
        rw [serverRun_cons_state h, ih (hr'.trans hr) hc']
        simp [ServerCall.event, boltRun, boltStep, hs]
    | send =>
      obtain ⟨c', sent, h, hc', hr', hst⟩ := serverStep_send codec hr hc
      rw [serverRun_cons_state h, ih hr' hc', hst]
      rfl
    | reset =>
      obtain ⟨c', sent, h, hc', hr', hst⟩ := serverStep_reset codec hK hc
      rw [serverRun_cons_state h, ih hr' hc', hst]
      rfl

/-- A new client on 4-byte chunks: `HELLO` and `LOGON` answered `SUCCESS`, a `RUN`
answered `FAILURE`, a send, then a `RESET`. -/
theorem serverRun_state_new :
    ∃ c : BoltClient 4, boltClientNew = some c ∧ c.reset = false ∧ c.Cursors ∧
      (serverRun ⟨fun _ _ => [0xB1, 0x70], fun _ => [0xA0]⟩ c
          [.reply .hello .success 1 [[0xA0]], .reply .logon .success 1 [[0xA0]],
            .reply .run .failure 1 [[0xA0]], .send, .reset]).map (·.1.state) =
        boltRun c.state ([.reply .hello .success 1 [[0xA0]], .reply .logon .success 1 [[0xA0]],
            .reply .run .failure 1 [[0xA0]], .send, .reset].filterMap ServerCall.event) := by
  obtain ⟨c, h, hc⟩ := boltClientNew_between (K := 4)
  exact ⟨c, h, hc.reset, hc.cursors, serverRun_state _ (by decide) hc.reset hc.cursors _⟩

/-! ### The bytes of a raw client -/

/-- What a raw client should send for `calls`, from `state` with `pending`
composed: at each send the chunks of the replies composed since the last send or
`RESET` (a reply's structure header, then its fields), at each `RESET` the chunks
of its replies for the state the tables have reached, the pending ones dropped;
`none` when the tables refuse a reply. -/
def serverSent (codec : BoltCodec) :
    BoltState → List UInt8 → List ServerCall → Option (List UInt8)
  | _, _, [] => some []
  | state, pending, .reply request response size fields :: calls => do
    let state ← boltChangeClientState state request response
    serverSent codec state
      (pending ++ boltChunk (codec.replyStructure response size ++ fields.flatten)) calls
  | state, pending, .send :: calls => (serverSent codec state [] calls).map (pending ++ ·)
  | state, _, .reset :: calls =>
    (serverSent codec (boltClientSendResetState state) [] calls).map
      (resetSent boltChunk codec state ++ ·)

theorem Between.setState {ws : Bool} {c : BoltClient K} {pending : List UInt8}
    (hc : Between ws c pending) (s : BoltState) : Between ws { c with state := s } pending :=
  ⟨hc.ws_eq, hc.reset, hc.write_pos, hc.next_pos, hc.write_chunk, hc.next_chunk, hc.pending_eq⟩

/-- A reply the tables accept, on a raw client between messages: its chunk joins
what is pending, and the client takes the tables' state. -/
theorem serverStep_reply_between (codec : BoltCodec) {c : BoltClient K} {pending : List UInt8}
    (hc : Between false c pending) {request response : BoltStructureType} {s : BoltState}
    (hs : boltChangeClientState c.state request response = some s) (size : Nat)
    (fields : List (List UInt8))
    (hm : (codec.replyStructure response size ++ fields.flatten).length ≤ 65535) :
    ∃ c', serverStep codec c (.reply request response size fields) = some (c', []) ∧
      Between false c' (pending ++ boltChunk (codec.replyStructure response size ++ fields.flatten)) ∧
      c'.state = s := by
  obtain ⟨cs, w, h, -⟩ := bufferWrite_spec (codec.replyStructure response size) hc.next_chunk
  obtain ⟨c', h', hc'⟩ :=
    composeMessage_between (hc.setState s) (codec.replyStructure response size :: fields) (by simpa using hm)
  obtain ⟨c₁, h₁, h₂⟩ := Option.bind_eq_some.mp h'
  have hs' := ((writePieces_sameSession h₁).trans (boltClientEndMessage_sameSession h₂)).state
  simp only [writePieces, BoltClient.append_eq (c := { c with state := s }) h, Option.some_bind] at h₁
  refine ⟨c', ?_, by simpa [messageFrame] using hc', hs'⟩
  simp only [serverStep, boltClientReplyFor, boltReplyStructure, BoltClient.append_eq h, hs, h₁, h₂,
    Option.bind_eq_bind, Option.some_bind, Option.pure_def]

/-- **What a raw client sends.**  On chunks of more than two bytes, from a raw
client between messages, with a codec whose `IGNORED` and `SUCCESS {}` replies fit
in a chunk, every run of replies (each at most 65535 bytes), sends and `RESET`s
sends exactly `serverSent`: each reply's chunk at the next send, and at each
`RESET` the replies for the state the tables have brought the session to
(`IGNORED` first when it has failed); it faults exactly when the tables refuse
a reply. -/
theorem serverRun_raw (codec : BoltCodec) (hK : 2 < (K : Nat)) {c : BoltClient K}
    {pending : List UInt8} (hc : Between false c pending) (calls : List ServerCall)
    (hm : ∀ request response size fields, ServerCall.reply request response size fields ∈ calls →
      (codec.replyStructure response size ++ fields.flatten).length ≤ 65535)
    (hI : (codec.replyStructure .ignored 0).length ≤ 65535)
    (hS : (codec.replyStructure .success 1 ++ codec.replyMap 0).length ≤ 65535) :
    (serverRun codec c calls).map (·.2) = serverSent codec c.state pending calls := by
  induction calls generalizing c pending with
  | nil => rfl
  | cons call calls ih =>
    have hm' : ∀ request response size fields, ServerCall.reply request response size fields ∈ calls →
        (codec.replyStructure response size ++ fields.flatten).length ≤ 65535 :=
      fun request response size fields h => hm request response size fields (List.mem_cons_of_mem _ h)
    cases call with
    | reply request response size fields =>
      cases hs : boltChangeClientState c.state request response with
      | none => simp [serverRun, serverStep_reply_none codec hs, serverSent, hs]
      | some s =>
        obtain ⟨c', h, hc', rfl⟩ :=
          serverStep_reply_between codec hc hs size fields (hm _ _ _ _ (List.mem_cons_self _ _))
        rw [serverRun_cons_sent h, ih hc' hm']
        simp [serverSent, hs]
    | send =>
      obtain ⟨c', h, hc'⟩ := boltClientSend_between codec hc
      have hst := (boltClientSend_sameSession codec hc.reset h).state
      rw [serverRun_cons_sent (show serverStep codec c .send = _ from h), ih hc' hm', hst]
      rfl
    | reset =>
      obtain ⟨c', h, hc', hst⟩ := boltClientSend_reset_between codec hK hc hI hS
      rw [serverRun_cons_sent (show serverStep codec c .reset = _ from h), ih hc' hm', hst]
      rfl

/-- A new client on 4-byte chunks: `HELLO` and `LOGON` answered `SUCCESS`, a send,
a `RUN` answered `FAILURE` and dropped by a `RESET` (answered `IGNORED`, then
`SUCCESS {}`), then a `RUN` answered `SUCCESS` and a send; the codec writes a
structure as `B1 70` and a map as `A0`. -/
theorem serverRun_raw_failed_reset :
    let codec : BoltCodec := ⟨fun _ _ => [0xB1, 0x70], fun _ => [0xA0]⟩
    let calls : List ServerCall := [.reply .hello .success 1 [[0xA0]],
      .reply .logon .success 1 [[0xA0]], .send, .reply .run .failure 1 [[0xA0]], .reset,
      .reply .run .success 1 [[0xA0]], .send]
    ∃ c : BoltClient 4, boltClientNew = some c ∧ Between false c [] ∧
      (∀ request response size fields, ServerCall.reply request response size fields ∈ calls →
        (codec.replyStructure response size ++ fields.flatten).length ≤ 65535) ∧
      (serverRun codec c calls).map (·.2) = serverSent codec c.state [] calls := by
  intro codec calls
  obtain ⟨c, h, hc⟩ := boltClientNew_between (K := 4)
  have hm : ∀ request response size fields, ServerCall.reply request response size fields ∈ calls →
      (codec.replyStructure response size ++ fields.flatten).length ≤ 65535 := by
    intro request response size fields h
    simp only [calls, List.mem_cons, ServerCall.reply.injEq, reduceCtorEq, false_or, or_false,
      List.not_mem_nil] at h
    rcases h with ⟨rfl, rfl, rfl, rfl⟩ | ⟨rfl, rfl, rfl, rfl⟩ | ⟨rfl, rfl, rfl, rfl⟩ |
      ⟨rfl, rfl, rfl, rfl⟩ <;> decide
  exact ⟨c, h, hc, hm, serverRun_raw codec (by decide) hc calls hm (by decide) (by decide)⟩

end FalkorDB
