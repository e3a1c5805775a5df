/-
FalkorDB/Bolt/Session.lean

What the state of a session says about its history.

The history of a session is the list of its events, oldest first.  Two facts
about a history are read off the Bolt protocol: the session is authenticated
when a `HELLO` and a `LOGON` were answered `SUCCESS` and no `LOGOFF` answered
`SUCCESS` came after that `LOGON`; a transaction is open when a `BEGIN` was
answered `SUCCESS` and nothing that ends a transaction came after it.  Both
are instances of one shape, `OpenedSince`, whose step lemma
(`openedSince_append_singleton`) is all the history side of the proofs needs.

`SessionInv` ties the state to the history, and it holds along every run from
`NEGOTIATION` in which no `ASSERT` fires (`sessionInv_run`): the state is
never `INTERRUPTED`, an `AUTHENTICATION` session has been greeted, a session
past authentication is authenticated, and the state is `TX_READY` or
`TX_STREAMING` exactly when a transaction is open.  A `RECORD` response never
moves the state, so a `RESET` or a `GOODBYE` answered `RECORD` does not end a
transaction (`boltRun_reset_record_keeps_transaction`).
-/
import FalkorDB.Bolt.State

namespace FalkorDB

/-! ### Histories -/

/-- In the history `h` an event that `opens` has occurred, and no event that
`closes` has occurred after it. -/
def OpenedSince (opens closes : BoltEvent → Prop) (h : List BoltEvent) : Prop :=
  ∃ pre e post, h = pre ++ e :: post ∧ opens e ∧ ∀ e' ∈ post, ¬closes e'

section OpenedSince

variable {opens closes : BoltEvent → Prop} {h : List BoltEvent} {e : BoltEvent}

@[simp] theorem openedSince_nil : ¬OpenedSince opens closes [] := by
  rintro ⟨pre, e, post, h, -⟩
  simp at h

@[simp] theorem openedSince_append_singleton :
    OpenedSince opens closes (h ++ [e]) ↔ opens e ∨ (OpenedSince opens closes h ∧ ¬closes e) := by
  constructor
  · rintro ⟨pre, x, post, heq, hx, hpost⟩
    rcases List.eq_nil_or_concat post with rfl | ⟨post, y, rfl⟩
    · obtain ⟨-, he⟩ := List.append_inj' heq rfl
      cases he
      exact .inl hx
    · rw [List.concat_eq_append] at heq hpost
      rw [← List.cons_append, ← List.append_assoc] at heq
      obtain ⟨rfl, he⟩ := List.append_inj' heq rfl
      cases he
      exact .inr ⟨⟨pre, x, post, rfl, hx, fun e' he' => hpost e' (by simp [he'])⟩,
        hpost _ (by simp)⟩
  · rintro (he | ⟨⟨pre, x, post, rfl, hx, hpost⟩, he⟩)
    · exact ⟨h, e, [], rfl, he, by simp⟩
    · refine ⟨pre, x, post ++ [e], by simp, hx, ?_⟩
      simp only [List.mem_append, List.mem_singleton]
      rintro e' (he' | rfl)
      exacts [hpost e' he', he]

end OpenedSince

/-- A `HELLO` and a `LOGON` were answered `SUCCESS`, and no `LOGOFF` answered
`SUCCESS` has come after that `LOGON`. -/
def Authenticated (h : List BoltEvent) : Prop :=
  .reply .hello .success ∈ h ∧
    OpenedSince (· = .reply .logon .success) (· = .reply .logoff .success) h

/-- What ends a transaction: a `COMMIT` or a `ROLLBACK` answered `SUCCESS`,
any `FAILURE`, and a `RESET` or a `GOODBYE` answered with anything but a
`RECORD`. -/
def EndsTransaction : BoltEvent → Prop
  | .reply request response =>
    (request = .commit ∧ response = .success) ∨ (request = .rollback ∧ response = .success) ∨
      response = .failure ∨ ((request = .reset ∨ request = .goodbye) ∧ response ≠ .record)
  | .resetSend => False

/-- A `BEGIN` was answered `SUCCESS` and nothing has ended the transaction since. -/
def OpenTransaction (h : List BoltEvent) : Prop :=
  OpenedSince (· = .reply .begin .success) EndsTransaction h

/-! ### The invariant -/

/-- The states of a session past authentication. -/
def BoltState.IsActive : BoltState → Prop
  | .ready | .streaming | .txReady | .txStreaming | .failed | .interrupted => True
  | _ => False

/-- The states of a session inside a transaction. -/
def BoltState.InTransaction : BoltState → Prop
  | .txReady | .txStreaming => True
  | _ => False

/-- What the state of a session says about its history. -/
structure SessionInv (state : BoltState) (h : List BoltEvent) : Prop where
  not_interrupted : state ≠ .interrupted
  greeted : state = .authentication → .reply .hello .success ∈ h
  authenticated : state.IsActive → Authenticated h
  transaction : state.InTransaction ↔ OpenTransaction h

theorem sessionInv_negotiation : SessionInv .negotiation [] :=
  ⟨by decide, by simp, by simp [BoltState.IsActive], by simp [BoltState.InTransaction, OpenTransaction]⟩

/-! ### Step and run lemmas -/

theorem boltRun_append (s : BoltState) (es fs : List BoltEvent) :
    boltRun s (es ++ fs) = (boltRun s es).bind fun s => boltRun s fs := by
  induction es generalizing s with
  | nil => simp [boltRun]
  | cons e es ih => rw [List.cons_append, boltRun, boltRun, Option.bind_assoc]; simp only [ih]

/-- Every step keeps the invariant: the history-neutral steps (a `RECORD`, a
reset sent) by the invariant itself, the others arm by arm of the tables. -/
theorem sessionInv_step {s s' : BoltState} {h : List BoltEvent} {e : BoltEvent}
    (hi : SessionInv s h) (hs : boltStep s e = some s') : SessionInv s' (h ++ [e]) := by
  obtain ⟨hn, hg, ha, ht⟩ := hi
  cases e with
  | resetSend =>
    simp only [boltStep, boltClientSendResetState, Option.some.injEq] at hs
    subst hs
    split_ifs with hf
    · subst hf
      exact ⟨by decide, by simp, fun _ => by simpa [Authenticated] using ha trivial,
        by simpa [BoltState.InTransaction, OpenTransaction, EndsTransaction] using ht⟩
    · exact ⟨hn, by simpa using hg, fun hs => by simpa [Authenticated] using ha hs,
        by simpa [OpenTransaction, EndsTransaction] using ht⟩
  | reply q r =>
    rcases boltChangeClientState_eq_some.mp hs with ⟨rfl, rfl⟩ | htr
    · -- `bolt_change_client_state` returns before the tables
      exact ⟨hn, by simpa using hg, fun hs => by simpa [Authenticated] using ha hs,
        by simpa [OpenTransaction, EndsTransaction] using ht⟩
    · -- one arm of the table of the state
      cases htr <;> refine ⟨by decide, ?_, ?_, ?_⟩ <;>
        simp_all [BoltState.IsActive, BoltState.InTransaction, Authenticated, OpenTransaction,
          EndsTransaction]

theorem sessionInv_run {s s' : BoltState} {h es : List BoltEvent} (hi : SessionInv s h)
    (hr : boltRun s es = some s') : SessionInv s' (h ++ es) := by
  induction es generalizing s h with
  | nil =>
    obtain rfl : s = s' := Option.some.inj hr
    simpa using hi
  | cons e es ih =>
    obtain ⟨s₁, hs₁, hr⟩ := Option.bind_eq_some.mp hr
    simpa using ih (sessionInv_step hi hs₁) hr

/-- The state before each step of a run is the state of a run. -/
theorem boltRun_split {s s' : BoltState} {pre post : List BoltEvent} {e : BoltEvent}
    (h : boltRun s (pre ++ e :: post) = some s') :
    ∃ s₀ s₁, boltRun s pre = some s₀ ∧ boltStep s₀ e = some s₁ := by
  rw [boltRun_append] at h
  obtain ⟨s₀, h₀, h⟩ := Option.bind_eq_some.mp h
  obtain ⟨s₁, h₁, -⟩ := Option.bind_eq_some.mp h
  exact ⟨s₀, s₁, h₀, h₁⟩

/-! ### Authentication -/

/-- A request other than `HELLO` and `LOGON`, answered with anything but a
`RECORD`, is accepted only past authentication. -/
theorem isActive_of_boltChangeClientState {s s' : BoltState} {q r : BoltStructureType}
    (hq : q ≠ .hello ∧ q ≠ .logon) (hr : r ≠ .record)
    (h : boltChangeClientState s q r = some s') : s.IsActive := by
  rcases boltChangeClientState_eq_some.mp h with ⟨rfl, -⟩ | ht
  · exact absurd rfl hr
  · cases ht <;> simp_all [BoltState.IsActive]

/-- **The authentication gate.**  Along every run from `NEGOTIATION` in which
no `ASSERT` fires, each `RUN`, `PULL`, `DISCARD`, `BEGIN`, `COMMIT`, `ROLLBACK`
or `ROUTE` answered with anything but a `RECORD` comes after a `HELLO` and a
`LOGON` answered `SUCCESS` that no `LOGOFF` answered `SUCCESS` has undone; and
the session is `READY`, `STREAMING`, `TX_READY`, `TX_STREAMING` or `FAILED`
only while it is authenticated. -/
theorem boltRun_authenticated {es : List BoltEvent} {s : BoltState}
    (hrun : boltRun .negotiation es = some s) :
    (∀ pre q r post, es = pre ++ .reply q r :: post →
      q ∈ [.run, .pull, .discard, .begin, .commit, .rollback, .route] → r ≠ .record →
      Authenticated pre) ∧
    (s = .ready ∨ s = .streaming ∨ s = .txReady ∨ s = .txStreaming ∨ s = .failed →
      Authenticated es) := by
  refine ⟨fun pre q r post hes hq hr => ?_, fun hs => ?_⟩
  · subst hes
    obtain ⟨s₀, s₁, h₀, h₁⟩ := boltRun_split hrun
    have hi : SessionInv s₀ pre := by simpa using sessionInv_run sessionInv_negotiation h₀
    exact hi.authenticated (isActive_of_boltChangeClientState
      ⟨by rintro rfl; simp at hq, by rintro rfl; simp at hq⟩ hr h₁)
  · have hi : SessionInv s es := by simpa using sessionInv_run sessionInv_negotiation hrun
    exact hi.authenticated (by rcases hs with rfl | rfl | rfl | rfl | rfl <;> trivial)

/-- A session greeted, logged on and asked to run a query. -/
theorem boltRun_authenticated_run :
    boltRun .negotiation [.reply .hello .success, .reply .logon .success, .reply .run .success] =
        some .streaming ∧
      (∀ pre q r post,
        [.reply .hello .success, .reply .logon .success, .reply .run .success] =
          pre ++ .reply q r :: post →
        q ∈ [.run, .pull, .discard, .begin, .commit, .rollback, .route] → r ≠ .record →
        Authenticated pre) ∧
      (BoltState.streaming = .ready ∨ BoltState.streaming = .streaming ∨
          BoltState.streaming = .txReady ∨ BoltState.streaming = .txStreaming ∨
          BoltState.streaming = .failed →
        Authenticated [.reply .hello .success, .reply .logon .success, .reply .run .success]) :=
  ⟨rfl, boltRun_authenticated rfl⟩

/-! ### Transactions -/

/-- Which requests a state accepts, past the handshake, with anything but a
`RECORD`: `COMMIT` and `ROLLBACK` only inside a transaction, `BEGIN` only in
`READY`, and out of a transaction into `READY` only a `COMMIT`, a `ROLLBACK` or
a `RESET`. -/
theorem boltChangeClientState_transaction {s s' : BoltState} {q r : BoltStructureType}
    (hn : s ≠ .interrupted) (hr : r ≠ .record) (h : boltChangeClientState s q r = some s') :
    ((q = .commit ∨ q = .rollback) → s.InTransaction) ∧ (q = .begin → s = .ready) ∧
      (s.InTransaction → s' = .ready → q = .commit ∨ q = .rollback ∨ q = .reset) := by
  rcases boltChangeClientState_eq_some.mp h with ⟨rfl, -⟩ | ht
  · exact absurd rfl hr
  · cases ht <;> simp_all [BoltState.InTransaction]

/-- **Transaction bracketing.**  Along every run from `NEGOTIATION` in which no
`ASSERT` fires, the session is in `TX_READY` or `TX_STREAMING` exactly when a
transaction is open.  And a next step answered with anything but a `RECORD`
accepts `COMMIT` and `ROLLBACK` only inside an open transaction, `BEGIN` only
outside one, and leaves an open transaction for `READY` only by a `COMMIT`, a
`ROLLBACK` or a `RESET`. -/
theorem boltRun_transaction {es : List BoltEvent} {s : BoltState}
    (hrun : boltRun .negotiation es = some s) :
    ((s = .txReady ∨ s = .txStreaming) ↔ OpenTransaction es) ∧
    ∀ q r s', r ≠ .record → boltChangeClientState s q r = some s' →
      ((q = .commit ∨ q = .rollback) → OpenTransaction es) ∧
      (q = .begin → ¬OpenTransaction es) ∧
      (OpenTransaction es → s' = .ready → q = .commit ∨ q = .rollback ∨ q = .reset) := by
  have hi : SessionInv s es := by simpa using sessionInv_run sessionInv_negotiation hrun
  have htx : (s = .txReady ∨ s = .txStreaming) ↔ s.InTransaction := by
    cases s <;> simp [BoltState.InTransaction]
  refine ⟨htx.trans hi.transaction, fun q r s' hr h => ?_⟩
  obtain ⟨hc, hb, hready⟩ := boltChangeClientState_transaction hi.not_interrupted hr h
  refine ⟨fun hq => hi.transaction.mp (hc hq), fun hq => ?_, fun ho => hready (hi.transaction.mpr ho)⟩
  rw [← hi.transaction, hb hq]
  exact id

/-- A transaction opened after the handshake. -/
theorem boltRun_transaction_begin :
    boltRun .negotiation [.reply .hello .success, .reply .logon .success, .reply .begin .success] =
        some .txReady ∧
      ((BoltState.txReady = .txReady ∨ BoltState.txReady = .txStreaming) ↔
        OpenTransaction [.reply .hello .success, .reply .logon .success, .reply .begin .success]) ∧
      ∀ q r s', r ≠ .record → boltChangeClientState .txReady q r = some s' →
        ((q = .commit ∨ q = .rollback) →
          OpenTransaction [.reply .hello .success, .reply .logon .success, .reply .begin .success]) ∧
        (q = .begin →
          ¬OpenTransaction [.reply .hello .success, .reply .logon .success, .reply .begin .success]) ∧
        (OpenTransaction [.reply .hello .success, .reply .logon .success, .reply .begin .success] →
          s' = .ready → q = .commit ∨ q = .rollback ∨ q = .reset) :=
  ⟨rfl, boltRun_transaction rfl⟩

/-- **A `RESET` answered `RECORD` does not end a transaction.**  After the
handshake and a `BEGIN` answered `SUCCESS`, a `RESET` answered `RECORD` leaves
the session in `TX_READY`, although every `BEGIN` answered `SUCCESS` in the run
has a `RESET` after it. -/
theorem boltRun_reset_record_keeps_transaction :
    boltRun .negotiation [.reply .hello .success, .reply .logon .success, .reply .begin .success,
        .reply .reset .record] = some .txReady ∧
      ¬∃ pre post, ([.reply .hello .success, .reply .logon .success, .reply .begin .success,
          .reply .reset .record] : List BoltEvent) = pre ++ .reply .begin .success :: post ∧
        ∀ r, .reply .reset r ∉ post := by
  refine ⟨rfl, ?_⟩
  rintro ⟨pre, post, heq, hpost⟩
  rcases pre with _ | ⟨a, _ | ⟨b, _ | ⟨c, _ | ⟨d, pre⟩⟩⟩⟩ <;> simp at heq
  obtain ⟨-, -, rfl⟩ := heq
  exact hpost .record (List.mem_singleton_self _)

end FalkorDB
