/-
FalkorDB/Bolt/Client.lean

The client of `bolt_client.c`: its record, and the functions that compose
replies into the write buffer and send them.

The write buffer holds the outgoing messages one after the other.  Two cursors
point into it: `write_buf.write`, the next free byte, where the reply codec
appends, and `client->write`, the length slot of the message being composed
(and, on WebSocket, its frame header before it).  `bolt_client_end_message`
backfills that slot, appends the `0x0000` terminator and reserves the slot of
the next message; `bolt_client_send` hands everything before the slot to the
socket and rewinds both cursors.  Its `RESET` path composes the replies to the
reset itself and sends each at once.

The PackStream codec (`bolt.c`) is not among the sources.  The session layer
calls two of its functions, `bolt_reply_structure` and `bolt_reply_map`, which
append their encoding at `write_buf.write`; the model takes the bytes they
append as a parameter, `BoltCodec`, and every result holds for every codec.
The socket takes every byte it is given (the blocking `socket_write_all`), so a
send returns the bytes it wrote.
-/
import FalkorDB.Bolt.State
import FalkorDB.Bolt.Buffer

namespace FalkorDB

variable {K : ℕ+}

/-- The bytes that `bolt_reply_structure(client, type, size)` and
`bolt_reply_map(client, size)` append at `write_buf.write`. -/
structure BoltCodec where
  replyStructure : BoltStructureType → Nat → List UInt8
  replyMap : Nat → List UInt8

/-- `bolt_client_t`, with the fields the modelled functions read or write. -/
structure BoltClient (K : ℕ+) where
  ws : Bool
  state : BoltState
  reset : Bool
  readBuf : Buffer K
  writeBuf : Buffer K
  write : BufferIndex K

/-- `bolt_version_t`. -/
structure BoltVersion where
  major : UInt8
  minor : UInt8
deriving DecidableEq, Repr

/-! ### Writing into the write buffer -/

/-- `buffer_write(&client->write_buf.write, bytes)`. -/
def BoltClient.append (c : BoltClient K) (bytes : List UInt8) : Option (BoltClient K) := do
  let (chunks, w) ← bufferWrite c.writeBuf.chunks c.writeBuf.write bytes
  pure { c with writeBuf := { c.writeBuf with chunks, write := w } }

/-- `buffer_index(&client->write_buf, &client->write, 0)` and
`buffer_index(&client->write_buf, &client->write_buf.write, offset)`. -/
def BoltClient.rewind (c : BoltClient K) (offset : Nat) : Option (BoltClient K) := do
  let write ← bufferIndex c.writeBuf.chunks 0
  let w ← bufferIndex c.writeBuf.chunks offset
  pure { c with writeBuf := { c.writeBuf with write := w }, write }

/-- `bolt_reply_structure`, through the codec. -/
def boltReplyStructure (codec : BoltCodec) (c : BoltClient K) (type : BoltStructureType)
    (size : Nat) : Option (BoltClient K) :=
  c.append (codec.replyStructure type size)

/-- `bolt_reply_map`, through the codec. -/
def boltReplyMap (codec : BoltCodec) (c : BoltClient K) (size : Nat) : Option (BoltClient K) :=
  c.append (codec.replyMap size)

/-- The length that goes into the slot at `client->write`:
`buffer_index_diff(&client->write_buf.write, &client->write) - 2` in `uint16_t`. -/
def BoltClient.payloadLength (c : BoltClient K) : UInt16 :=
  UInt16.ofNat (bufferIndexDiff c.writeBuf.write c.write) - 2

/-! ### The client functions -/

/-- `bolt_client_new`: a raw Bolt client in `NEGOTIATION`, with the length slot
of its first message reserved.  (`msg_buf`, made here too, is read by none of
the modelled functions.) -/
def boltClientNew : Option (BoltClient K) := do
  let readBuf ← bufferNew
  let writeBuf ← bufferNew
  let write ← bufferIndex writeBuf.chunks 0
  let (chunks, w) ← bufferWriteUint16 writeBuf.chunks writeBuf.write (htons 0)
  pure ⟨false, .negotiation, false, readBuf, { writeBuf with chunks, write := w }, write⟩

/-- `bolt_client_reply_for`: the structure header of the response, then the
state change. -/
def boltClientReplyFor (codec : BoltCodec) (c : BoltClient K)
    (request response : BoltStructureType) (size : Nat) : Option (BoltClient K) := do
  let c ← boltReplyStructure codec c response size
  let state ← boltChangeClientState c.state request response
  pure { c with state }

/-- `bolt_client_end_message`. -/
def boltClientEndMessage (c : BoltClient K) : Option (BoltClient K) := do
  let n := c.payloadLength
  let (n, chunks, write) ← if c.ws then do
      let (chunks, write) ← bufferWriteUint8 c.writeBuf.chunks c.write 0x82
      let (chunks, write) ← bufferWriteUint8 chunks write (UInt8.ofNat (n.toNat + 2))
      pure (n - 2, chunks, write)
    else pure (n, c.writeBuf.chunks, c.write)
  let (chunks, _) ← bufferWriteUint16 chunks write (htons n)
  let (chunks, w) ← bufferWriteUint8 chunks c.writeBuf.write 0x00
  let (chunks, w) ← bufferWriteUint8 chunks w 0x00
  let write := w
  let (chunks, w) ← bufferWriteUint16 chunks w 0x0000
  let (chunks, w) ← if c.ws then bufferWriteUint16 chunks w 0x0000 else pure (chunks, w)
  pure { c with writeBuf := { c.writeBuf with chunks, write := w }, write }

/-- The block the `RESET` path of `bolt_client_send` runs after each reply:
backfill the length slot at `client->write`, terminate the message, send the
buffer up to `write_buf.write`, and rewind to an empty buffer with a 2-byte
slot. -/
def BoltClient.flushReset (c : BoltClient K) : Option (BoltClient K × List UInt8) := do
  let n := c.payloadLength
  let (chunks, _) ← bufferWriteUint16 c.writeBuf.chunks c.write (htons n)
  let (chunks, w) ← bufferWriteUint8 chunks c.writeBuf.write 0x00
  let (chunks, w) ← bufferWriteUint8 chunks w 0x00
  let sent ← bufferSocketWrite chunks w
  let c ← BoltClient.rewind { c with writeBuf := { c.writeBuf with chunks, write := w } } 2
  pure (c, sent)

/-- `bolt_client_send`: the bytes it writes to the socket, and the client after. -/
def boltClientSend (codec : BoltCodec) (c : BoltClient K) : Option (BoltClient K × List UInt8) :=
  if c.reset then do
    let c ← c.rewind 2
    if c.state ≠ .failed then do
      let c ← boltReplyStructure codec c .success 1
      let c ← boltReplyMap codec c 0
      let (c, sent) ← c.flushReset
      pure ({ c with reset := false }, sent)
    else do
      let c ← boltReplyStructure codec c .ignored 0
      let (c, sent₁) ← c.flushReset
      let c ← boltReplyStructure codec c .success 1
      let c ← boltReplyMap codec c 0
      let (c, sent₂) ← c.flushReset
      pure ({ c with reset := false, state := .ready }, sent₁ ++ sent₂)
  else do
    let sent ← bufferSocketWrite c.writeBuf.chunks c.write
    let c ← c.rewind 0
    let (chunks, w) ← bufferWriteUint16 c.writeBuf.chunks c.writeBuf.write 0x0000
    let (chunks, w) ← if c.ws then bufferWriteUint16 chunks w 0x0000 else pure (chunks, w)
    pure ({ c with writeBuf := { c.writeBuf with chunks, write := w } }, sent)

/-- `ntohl`, on a little-endian host: reverse the four bytes. -/
def ntohl (n : UInt32) : UInt32 :=
  UInt32.ofNat (hostValue (hostBytes 4 n.toNat).reverse)

/-- `bolt_check_handshake`: read four bytes at the read cursor and compare them,
in network order, with the Bolt magic. -/
def boltCheckHandshake (c : BoltClient K) : Option (Bool × BoltClient K) := do
  let (v, read) ← bufferReadUint32 c.readBuf c.readBuf.read
  pure (ntohl v == 0x6060B017, { c with readBuf := { c.readBuf with read } })

/-- `bolt_read_supported_version`: `buffer_index_read` of the sixteen bytes of the
version proposals (its `ASSERT`, then the read cursor moved past them), of which
the code dereferences only `data[2]` (minor) and `data[3]` (major).  Those two
lie in the cursor's chunk exactly when its first four bytes do, so the model
reads those four and nothing past them. -/
def boltReadSupportedVersion (c : BoltClient K) : Option (BoltVersion × BoltClient K) :=
  let index := c.readBuf.read
  if bufferIndexDiff c.readBuf.write index ≥ 16 then do
    let data ← readAt c.readBuf.chunks index.chunk index.offset 4
    let minor ← data[2]?
    let major ← data[3]?
    pure (⟨major, minor⟩,
      { c with readBuf := { c.readBuf with read := bufferIndexAdd index 16 } })
  else none

end FalkorDB
