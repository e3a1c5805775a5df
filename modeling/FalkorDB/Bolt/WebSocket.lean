/-
FalkorDB/Bolt/WebSocket.lean

WebSocket outbound framing, as the peer reads it.

On a WebSocket client `bolt_client_end_message` puts each message in a frame:
`0x82` (FIN and the binary opcode) and one length byte, `n + 2` truncated to
eight bits, before the message's chunk (`wsFrame`); `sessionRun_between` gives
the bytes of a whole session.  The peer reads server frames by RFC 6455 §5.2
(`parseServerFrame`): the low seven bits of the second byte hold a payload
length up to 125, the values 126 and 127 announce a 16-bit or a 64-bit length
in the bytes that follow, and the high bit is MASK, which a server never sets.
One length byte is therefore right for frame payloads up to 125 bytes, that is
messages up to 121 bytes (`wsSession_frames_short`).  From 122 bytes on no
reading of a message's frame has the message's chunk as its payload
(`parseServerFrame_wsFrame_long`), so a session that sends such a message is
misread (`wsSession_frames_long`); one of 124 bytes already sets the MASK bit
(`wsSession_long_message`).
-/
import FalkorDB.Bolt.Framing

namespace FalkorDB

variable {K : ℕ+}

/-! ### Server frames, as RFC 6455 reads them -/

/-- The payload length of a frame and the bytes after its header: the
seven-bit field, or `126` and 16 bits, or `127` and 64 bits, each used only for
the lengths it must encode. -/
def frameLength (len7 : Nat) (rest : List UInt8) : Option (Nat × List UInt8) :=
  if len7 < 126 then some (len7, rest)
  else if len7 = 126 then
    match rest with
    | b₀ :: b₁ :: rest =>
      if 126 ≤ b₀.toNat * 256 + b₁.toNat then some (b₀.toNat * 256 + b₁.toNat, rest) else none
    | _ => none
  else if 8 ≤ rest.length ∧ 65536 ≤ hostValue (rest.take 8).reverse ∧
      hostValue (rest.take 8).reverse < 2 ^ 63 then
    some (hostValue (rest.take 8).reverse, rest.drop 8)
  else none

/-- One frame sent by a server, unfragmented and binary: `FIN` set, opcode
`0x2`, `MASK` clear.  Its payload, and the rest of the stream. -/
def parseServerFrame : List UInt8 → Option (List UInt8 × List UInt8)
  | b₀ :: b₁ :: rest =>
    if b₀ = 0x82 ∧ b₁.toNat < 128 then do
      let (len, rest) ← frameLength b₁.toNat rest
      if len ≤ rest.length then some (rest.take len, rest.drop len) else none
    else none
  | _ => none

theorem frameLength_length {len7 n : Nat} {rest rest' : List UInt8}
    (h : frameLength len7 rest = some (n, rest')) : rest'.length ≤ rest.length := by
  unfold frameLength at h
  split_ifs at h with h₁ h₂
  · cases h; rfl
  · split at h
    · split_ifs at h
      cases h
      simp only [List.length_cons]; omega
    · cases h
  · cases h; simp

/-- A frame takes at least its two header bytes off the stream. -/
theorem parseServerFrame_length {bytes payload rest : List UInt8}
    (h : parseServerFrame bytes = some (payload, rest)) : rest.length < bytes.length := by
  obtain _ | ⟨b₀, _ | ⟨b₁, bs⟩⟩ := bytes
  · cases h
  · cases h
  simp only [parseServerFrame, Option.bind_eq_bind] at h
  split_ifs at h
  obtain ⟨⟨len, rest'⟩, hl, h⟩ := Option.bind_eq_some.mp h
  split_ifs at h
  cases h
  have := frameLength_length hl
  simp only [List.length_drop, List.length_cons]
  omega

/-- A stream of server frames, to its end. -/
def parseServerFrames (bytes : List UInt8) : Option (List (List UInt8)) :=
  if bytes = [] then some [] else
  match _h : parseServerFrame bytes with
  | some (payload, rest) => (parseServerFrames rest).map (payload :: ·)
  | none => none
termination_by bytes.length
decreasing_by exact parseServerFrame_length _h

theorem parseServerFrames_of_some {bytes payload rest : List UInt8}
    (h : parseServerFrame bytes = some (payload, rest)) :
    parseServerFrames bytes = (parseServerFrames rest).map (payload :: ·) := by
  have hne : bytes ≠ [] := by rintro rfl; cases h
  rw [parseServerFrames, if_neg hne]
  split <;> simp_all

theorem parseServerFrames_of_none {bytes : List UInt8} (hne : bytes ≠ [])
    (h : parseServerFrame bytes = none) : parseServerFrames bytes = none := by
  rw [parseServerFrames, if_neg hne]
  split <;> simp_all

/-- What a frame's header announces is the length of its payload. -/
theorem parseServerFrame_payload {b₀ b₁ : UInt8} {bytes payload rest : List UInt8}
    (h : parseServerFrame (b₀ :: b₁ :: bytes) = some (payload, rest)) :
    b₁.toNat < 128 ∧ ∃ rest', frameLength b₁.toNat bytes = some (payload.length, rest') := by
  simp only [parseServerFrame, Option.bind_eq_bind] at h
  split_ifs at h with hb
  obtain ⟨⟨len, rest'⟩, hl, h⟩ := Option.bind_eq_some.mp h
  split_ifs at h with hlen
  cases h
  exact ⟨hb.2, rest', by rwa [List.length_take, Nat.min_eq_left hlen]⟩

/-! ### The frames of short messages -/

/-- Up to 121 bytes, a message's frame reads back as its chunk. -/
theorem parseServerFrame_wsFrame {m : List UInt8} (hm : m.length ≤ 121) (rest : List UInt8) :
    parseServerFrame (wsFrame m ++ rest) = some (boltChunk m, rest) := by
  have hb : (UInt8.ofNat (m.length + 4)).toNat = m.length + 4 := by
    show (m.length + 4) % 256 = _
    omega
  have hc : (boltChunk m).length = m.length + 4 := by simp [boltChunk]; omega
  simp only [wsFrame, boltChunk, List.cons_append, List.singleton_append, List.append_assoc,
    parseServerFrame, hb, frameLength]
  simp [show m.length + 4 < 128 by omega, show m.length + 4 < 126 by omega, be16,
    List.take_append_eq_append_take]

/-- The frames of messages up to 121 bytes each read back as their chunks. -/
theorem parseServerFrames_wsFrames {ms : List (List UInt8)} (hms : ∀ m ∈ ms, m.length ≤ 121) :
    parseServerFrames (ms.map wsFrame).flatten = some (ms.map boltChunk) := by
  induction ms with
  | nil => simp [parseServerFrames]
  | cons m ms ih =>
    rw [List.map_cons, List.flatten_cons, parseServerFrames_of_some
      (parseServerFrame_wsFrame (hms m (List.mem_cons_self _ _)) _),
      ih (fun m' h' => hms m' (List.mem_cons_of_mem _ h'))]
    rfl

/-! ### The frames of long messages -/

/-- From 122 bytes on, the length byte of a message's frame misstates its
payload: `(n + 4) mod 256` is the length itself only below 126, names the
16-bit form (which then reads `n`) at 126, sets the MASK bit or names the
64-bit form (which then reads at least 65536) above it, and wraps from 252 on.
No reading of the frame has the message's chunk as its payload. -/
theorem parseServerFrame_wsFrame_long {m : List UInt8} (hlo : 122 ≤ m.length)
    (hhi : m.length ≤ 65535) (rest : List UInt8) {payload rest' : List UInt8}
    (h : parseServerFrame (wsFrame m ++ rest) = some (payload, rest')) :
    payload ≠ boltChunk m := by
  rintro rfl
  have h' : parseServerFrame (0x82 :: UInt8.ofNat (m.length + 4) :: (boltChunk m ++ rest)) =
      some (boltChunk m, rest') := h
  obtain ⟨-, rest'', hl⟩ := parseServerFrame_payload h'
  have hb : (UInt8.ofNat (m.length + 4)).toNat = (m.length + 4) % 256 := rfl
  have hc : (boltChunk m).length = m.length + 4 := by simp [boltChunk]; omega
  rw [hb, hc] at hl
  unfold frameLength at hl
  split_ifs at hl with h₁ h₂ h₃
  · -- the seven-bit field: the length modulo 256
    simp only [Option.some.injEq, Prod.mk.injEq] at hl; omega
  · -- the 16-bit form reads the message's own length field
    have hhi' : (UInt8.ofNat (m.length / 256)).toNat = m.length / 256 % 256 := rfl
    have hlo' : (UInt8.ofNat m.length).toNat = m.length % 256 := rfl
    simp only [boltChunk, be16, List.cons_append, List.singleton_append, List.append_assoc,
      hhi', hlo'] at hl
    split_ifs at hl
    simp only [Option.some.injEq, Prod.mk.injEq] at hl; omega
  · -- the 64-bit form is used only from 65536 on
    simp only [Option.some.injEq, Prod.mk.injEq] at hl; omega

/-- The frames of messages up to 65535 bytes, one of them 122 bytes or more, do
not read back as their chunks: the frames before the long one do, and the long
one's does not. -/
theorem parseServerFrames_wsFrames_long {ms : List (List UInt8)}
    (hms : ∀ m ∈ ms, m.length ≤ 65535) (hlong : ∃ m ∈ ms, 122 ≤ m.length) :
    parseServerFrames (ms.map wsFrame).flatten ≠ some (ms.map boltChunk) := by
  induction ms with
  | nil => obtain ⟨m, hm, -⟩ := hlong; cases hm
  | cons m ms ih =>
    rw [List.map_cons, List.flatten_cons, List.map_cons]
    intro h
    cases hp : parseServerFrame (wsFrame m ++ (ms.map wsFrame).flatten) with
    | none => rw [parseServerFrames_of_none (by simp [wsFrame]) hp] at h; cases h
    | some pr =>
      obtain ⟨payload, rest⟩ := pr
      rw [parseServerFrames_of_some hp] at h
      obtain ⟨frames, hf, hcons⟩ := Option.map_eq_some'.mp h
      obtain ⟨rfl, rfl⟩ := List.cons.inj hcons
      by_cases hm : 122 ≤ m.length
      · exact parseServerFrame_wsFrame_long hm (hms m (List.mem_cons_self _ _)) _ hp rfl
      · -- a short first frame reads back, so the long message is further on
        rw [parseServerFrame_wsFrame (by omega)] at hp
        obtain ⟨-, rfl⟩ := Prod.mk.inj (Option.some.inj hp)
        obtain ⟨m', hm', hl⟩ := hlong
        refine ih (fun m'' h'' => hms m'' (List.mem_cons_of_mem _ h'')) ⟨m', ?_, hl⟩ hf
        rcases List.mem_cons.mp hm' with rfl | hm'
        · omega
        · exact hm'

/-! ### Messages of a session -/

/-- The messages a session hands to the socket, in order: at each send, those
completed since the previous one (`pending` before the first step). -/
def sessionMessages (pending : List (List UInt8)) : List SessionStep → List (List UInt8)
  | [] => []
  | .message pieces :: steps => sessionMessages (pending ++ [pieces.flatten]) steps
  | .send :: steps => pending ++ sessionMessages [] steps

/-- A session sends the frames of its messages. -/
theorem sessionSent_eq_messages (frame : List UInt8 → List UInt8) (pending : List (List UInt8))
    (steps : List SessionStep) :
    sessionSent frame (pending.map frame).flatten steps =
      ((sessionMessages pending steps).map frame).flatten := by
  induction steps generalizing pending with
  | nil => rfl
  | cons step steps ih =>
    cases step with
    | message pieces =>
      simp only [sessionSent, sessionMessages, ← ih, List.map_append, List.flatten_append,
        List.map_singleton, List.flatten_singleton]
    | send =>
      simp only [sessionSent, sessionMessages, List.map_append, List.flatten_append]
      rw [← ih []]
      rfl

theorem mem_sessionMessages {pending : List (List UInt8)} {steps : List SessionStep}
    {m : List UInt8} (h : m ∈ sessionMessages pending steps) :
    m ∈ pending ∨ ∃ pieces, .message pieces ∈ steps ∧ m = pieces.flatten := by
  induction steps generalizing pending with
  | nil => cases h
  | cons step steps ih =>
    cases step with
    | message pieces =>
      rcases ih h with h | ⟨pieces', hp, rfl⟩
      · rcases List.mem_append.mp h with h | h
        · exact .inl h
        · exact .inr ⟨pieces, List.mem_cons_self _ _, List.mem_singleton.mp h⟩
      · exact .inr ⟨pieces', List.mem_cons_of_mem _ hp, rfl⟩
    | send =>
      rcases List.mem_append.mp h with h | h
      · exact .inl h
      · rcases ih h with h | ⟨pieces', hp, rfl⟩
        · cases h
        · exact .inr ⟨pieces', List.mem_cons_of_mem _ hp, rfl⟩

/-! ### WebSocket sessions -/

/-- A WebSocket session between messages runs and sends the frames of the
messages it hands over. -/
theorem wsSession_sent (codec : BoltCodec) {c : BoltClient K} (hc : Between true c [])
    (steps : List SessionStep)
    (hm : ∀ pieces, .message pieces ∈ steps → pieces.flatten.length ≤ 65535) :
    ∃ c', sessionRun codec c steps = some (c', ((sessionMessages [] steps).map wsFrame).flatten) := by
  obtain ⟨c', -, h, -⟩ := sessionRun_between codec hc steps hm
  have hsent := sessionSent_eq_messages wsFrame [] steps
  simp only [List.map_nil, List.flatten_nil] at hsent
  exact ⟨c', by rwa [messageFrame, hsent] at h⟩

/-- A bound on the messages of a session bounds what it hands over. -/
theorem length_sessionMessages_le {steps : List SessionStep} {n : Nat}
    (hm : ∀ pieces, .message pieces ∈ steps → pieces.flatten.length ≤ n) :
    ∀ m ∈ sessionMessages [] steps, m.length ≤ n := fun m hmem => by
  rcases mem_sessionMessages hmem with h | ⟨pieces, hp, rfl⟩
  · cases h
  · exact hm pieces hp

/-- **WebSocket framing of short messages.**  From a WebSocket client between
messages, every session whose messages are at most 121 bytes runs without fault
and the bytes it hands to the socket read, under RFC 6455, as one server frame
per message whose payload is the message's chunk. -/
theorem wsSession_frames_short (codec : BoltCodec) {c : BoltClient K} (hc : Between true c [])
    (steps : List SessionStep) (hm : ∀ pieces, .message pieces ∈ steps → pieces.flatten.length ≤ 121) :
    ∃ c' sent, sessionRun codec c steps = some (c', sent) ∧
      parseServerFrames sent = some ((sessionMessages [] steps).map boltChunk) := by
  obtain ⟨c', h⟩ := wsSession_sent codec hc steps fun pieces hp => (hm pieces hp).trans (by decide)
  exact ⟨c', _, h, parseServerFrames_wsFrames (length_sessionMessages_le hm)⟩

/-- A client made by `bolt_client_new`, switched to WebSocket and emptied by a
first send; then a message of three bytes, a send, a message of two bytes in two
pieces and a send. -/
theorem wsSession_frames_short_new :
    ∃ c : BoltClient 4, Between true c [] ∧
      (∀ pieces, .message pieces ∈
          ([.message [[1, 2, 3]], .send, .message [[4], [5]], .send] : List SessionStep) →
        pieces.flatten.length ≤ 121) ∧
      ∃ c' sent, sessionRun ⟨fun _ _ => [], fun _ => []⟩ c
          [.message [[1, 2, 3]], .send, .message [[4], [5]], .send] = some (c', sent) ∧
        parseServerFrames sent = some ((sessionMessages []
          [.message [[1, 2, 3]], .send, .message [[4], [5]], .send]).map boltChunk) := by
  obtain ⟨c₀, -, hc₀⟩ := boltClientNew_between (K := 4)
  obtain ⟨c, -, hc⟩ := boltClientSend_rewinds ⟨fun _ _ => [], fun _ => []⟩
    (c := { c₀ with ws := true }) hc₀.reset hc₀.write_chunk
  have hm : ∀ pieces, .message pieces ∈
      ([.message [[1, 2, 3]], .send, .message [[4], [5]], .send] : List SessionStep) →
      pieces.flatten.length ≤ 121 := by
    intro pieces h
    simp only [List.mem_cons, SessionStep.message.injEq, reduceCtorEq, false_or,
      List.mem_singleton, List.not_mem_nil, or_false] at h
    rcases h with rfl | rfl <;> decide
  exact ⟨c, hc, hm, wsSession_frames_short _ hc _ hm⟩

/-- **WebSocket framing of long messages.**  From a WebSocket client between
messages, a session whose messages fit the 16-bit chunk length runs without
fault; but when it sends one message of 122 bytes or more, the bytes it hands
to the socket do not read, under RFC 6455, as one server frame per message with
the message's chunk as its payload. -/
theorem wsSession_frames_long (codec : BoltCodec) {c : BoltClient K} (hc : Between true c [])
    (steps : List SessionStep)
    (hm : ∀ pieces, .message pieces ∈ steps → pieces.flatten.length ≤ 65535)
    (hlong : ∃ m ∈ sessionMessages [] steps, 122 ≤ m.length) :
    ∃ c' sent, sessionRun codec c steps = some (c', sent) ∧
      parseServerFrames sent ≠ some ((sessionMessages [] steps).map boltChunk) := by
  obtain ⟨c', h⟩ := wsSession_sent codec hc steps hm
  exact ⟨c', _, h, parseServerFrames_wsFrames_long (length_sessionMessages_le hm) hlong⟩

/-- A client made by `bolt_client_new`, switched to WebSocket and emptied by a
first send; then a message of 300 bytes and a send.  Its length byte is
`304 mod 256 = 48`. -/
theorem wsSession_frames_long_new :
    ∃ c : BoltClient 4, Between true c [] ∧
      (∀ pieces, .message pieces ∈
          ([.message [List.replicate 300 0], .send] : List SessionStep) →
        pieces.flatten.length ≤ 65535) ∧
      (∃ m ∈ sessionMessages [] [.message [List.replicate 300 0], .send], 122 ≤ m.length) ∧
      ∃ c' sent, sessionRun ⟨fun _ _ => [], fun _ => []⟩ c
          [.message [List.replicate 300 0], .send] = some (c', sent) ∧
        parseServerFrames sent ≠ some ((sessionMessages []
          [.message [List.replicate 300 0], .send]).map boltChunk) := by
  obtain ⟨c₀, -, hc₀⟩ := boltClientNew_between (K := 4)
  obtain ⟨c, -, hc⟩ := boltClientSend_rewinds ⟨fun _ _ => [], fun _ => []⟩
    (c := { c₀ with ws := true }) hc₀.reset hc₀.write_chunk
  have hm : ∀ pieces, .message pieces ∈
      ([.message [List.replicate 300 0], .send] : List SessionStep) →
      pieces.flatten.length ≤ 65535 := by
    intro pieces h
    simp only [List.mem_cons, SessionStep.message.injEq, reduceCtorEq, List.mem_singleton,
      List.not_mem_nil, or_false] at h
    subst h
    simp only [List.flatten_cons, List.flatten_nil, List.append_nil, List.length_replicate]
    decide
  have hlong : ∃ m ∈ sessionMessages [] [.message [List.replicate 300 0], .send], 122 ≤ m.length :=
    ⟨List.replicate 300 0, by
      simp only [sessionMessages, List.flatten_cons, List.flatten_nil, List.append_nil,
        List.nil_append, List.mem_singleton], by
      simp only [List.length_replicate]
      decide⟩
  exact ⟨c, hc, hm, hlong, wsSession_frames_long _ hc _ hm hlong⟩

/-- A message of 124 bytes on a WebSocket client: `bolt_client_new`, the
WebSocket mode, a send that empties the buffer, then the message and a send.
The frame's length byte is `124 + 4 = 0x80`, the MASK bit and a length of 0,
and the peer cannot read the frame. -/
theorem wsSession_long_message (K : ℕ+) (codec : BoltCodec) :
    ∃ (c₀ c₁ c : BoltClient K) (sent : List UInt8), boltClientNew = some c₀ ∧
      boltClientSend codec { c₀ with ws := true } = some (c₁, []) ∧
      sessionRun codec c₁ [.message [List.replicate 124 0], .send] = some (c, sent) ∧
      sent = [0x82, 0x80] ++ boltChunk (List.replicate 124 0) ∧ parseServerFrames sent = none := by
  obtain ⟨c₀, h₀, hc₀⟩ := boltClientNew_between (K := K)
  obtain ⟨c₁, h₁, hc₁⟩ := boltClientSend_rewinds codec (c := { c₀ with ws := true }) hc₀.reset
    hc₀.write_chunk
  have hpos : c₀.write.pos = 0 := hc₀.write_pos
  simp only [hpos, List.take_zero] at h₁ hc₁
  obtain ⟨c, -, h, -⟩ := sessionRun_between codec hc₁ [.message [List.replicate 124 0], .send]
    (by simp)
  have hsent : sessionSent (messageFrame true) [] [.message [List.replicate 124 0], .send] =
      [0x82, 0x80] ++ boltChunk (List.replicate 124 0) := by
    simp only [sessionSent, messageFrame, wsFrame, List.flatten_cons, List.flatten_nil,
      List.append_nil, List.nil_append, List.length_replicate]
    rfl
  refine ⟨c₀, c₁, c, _, h₀, h₁, h, hsent, ?_⟩
  rw [hsent]
  refine parseServerFrames_of_none (List.cons_ne_nil _ _) ?_
  show parseServerFrame (0x82 :: 0x80 :: boltChunk (List.replicate 124 0)) = none
  rw [parseServerFrame, if_neg (by decide)]

end FalkorDB
