/-
FalkorDB/Bolt/State.lean

The session state machine of `bolt_client.c`.

Each `bolt_change_*_state` function is the transition table of one state: a
`switch` on the request and, inside it, a `switch` on the response.  The tables
are written here with the same nesting, one `match` per `switch`.  A `default:
ASSERT(false)` arm, and the `ASSERT` on the request in the two handshake
states, trap: the table returns `none`.  `bolt_change_client_state` returns
early on a `RECORD` response and otherwise dispatches on the state; a
`DEFUNCT` session has no table and traps.

A session, as the state sees it, is a list of events: replies to requests
(`bolt_client_reply_for`, which writes the reply and then calls
`bolt_change_client_state`), and `bolt_client_send` with a `RESET` pending,
which brings a `FAILED` session back to `READY` and leaves every other state
as it is.

`BoltTransition` lists the arms of the tables as a relation, one constructor per
arm, and `boltChangeClientState_eq_some` says that the function takes exactly
those steps and the `RECORD` ones.  Every proof about the tables cases on the
relation and does not unfold them again.
-/
import Mathlib.Data.List.Basic

namespace FalkorDB

/-- `bolt_state`. -/
inductive BoltState
  | negotiation
  | authentication
  | ready
  | streaming
  | txReady
  | txStreaming
  | failed
  | interrupted
  | defunct
deriving DecidableEq, Repr

/-- The values of `bolt_structure_type` that name requests and responses. -/
inductive BoltStructureType
  | hello
  | logon
  | logoff
  | run
  | pull
  | discard
  | begin
  | commit
  | rollback
  | route
  | reset
  | goodbye
  | success
  | failure
  | ignored
  | record
deriving DecidableEq, Repr

/-! ### The transition tables -/

/-- `bolt_change_negotiation_state`: the request must be `HELLO`. -/
def boltChangeNegotiationState (request response : BoltStructureType) : Option BoltState :=
  match request with
  | .hello =>
    match response with
    | .success => some .authentication
    | .failure => some .defunct
    | _ => none
  | _ => none

/-- `bolt_change_authentication_state`: the request must be `LOGON`. -/
def boltChangeAuthenticationState (request response : BoltStructureType) : Option BoltState :=
  match request with
  | .logon =>
    match response with
    | .success => some .ready
    | .failure => some .defunct
    | _ => none
  | _ => none

/-- `bolt_change_ready_state`. -/
def boltChangeReadyState (request response : BoltStructureType) : Option BoltState :=
  match request with
  | .logoff =>
    match response with
    | .success => some .authentication
    | .failure => some .failed
    | _ => none
  | .run =>
    match response with
    | .success => some .streaming
    | .failure => some .failed
    | _ => none
  | .begin =>
    match response with
    | .success => some .txReady
    | .failure => some .failed
    | _ => none
  | .route =>
    match response with
    | .success => some .ready
    | _ => none
  | .reset => some .ready
  | .goodbye => some .defunct
  | _ => none

/-- `bolt_change_streaming_state`. -/
def boltChangeStreamingState (request response : BoltStructureType) : Option BoltState :=
  match request with
  | .pull =>
    match response with
    | .success => some .ready
    | .failure => some .failed
    | _ => none
  | .discard =>
    match response with
    | .success => some .ready
    | .failure => some .failed
    | _ => none
  | .reset => some .ready
  | .goodbye => some .defunct
  | _ => none

/-- `bolt_change_txready_state`. -/
def boltChangeTxreadyState (request response : BoltStructureType) : Option BoltState :=
  match request with
  | .run =>
    match response with
    | .success => some .txStreaming
    | .failure => some .failed
    | _ => none
  | .commit =>
    match response with
    | .success => some .ready
    | .failure => some .failed
    | _ => none
  | .rollback =>
    match response with
    | .success => some .ready
    | .failure => some .failed
    | _ => none
  | .reset => some .ready
  | .goodbye => some .defunct
  | _ => none

/-- `bolt_change_txstreaming_state`. -/
def boltChangeTxstreamingState (request response : BoltStructureType) : Option BoltState :=
  match request with
  | .run =>
    match response with
    | .success => some .txStreaming
    | .failure => some .failed
    | _ => none
  | .pull =>
    match response with
    | .success => some .txStreaming
    | .failure => some .failed
    | _ => none
  | .commit =>
    match response with
    | .success => some .ready
    | .failure => some .failed
    | _ => none
  | .discard =>
    match response with
    | .success => some .txReady
    | .failure => some .failed
    | _ => none
  | .reset => some .ready
  | .goodbye => some .defunct
  | _ => none

/-- `bolt_change_failed_state`. -/
def boltChangeFailedState (request response : BoltStructureType) : Option BoltState :=
  match request with
  | .run =>
    match response with
    | .ignored => some .failed
    | _ => none
  | .pull =>
    match response with
    | .ignored => some .failed
    | _ => none
  | .discard =>
    match response with
    | .ignored => some .failed
    | _ => none
  | .reset => some .ready
  | .goodbye => some .defunct
  | _ => none

/-- `bolt_change_interrupted_state`. -/
def boltChangeInterruptedState (request response : BoltStructureType) : Option BoltState :=
  match request with
  | .run | .pull | .discard | .begin | .commit | .rollback =>
    match response with
    | .ignored => some .failed
    | _ => none
  | .reset =>
    match response with
    | .success => some .ready
    | .failure => some .defunct
    | _ => none
  | .goodbye => some .defunct
  | _ => none

/-- `bolt_change_client_state`: a `RECORD` leaves the state alone; any other
response goes through the table of the current state. -/
def boltChangeClientState (state : BoltState) (request response : BoltStructureType) :
    Option BoltState :=
  if response = .record then some state else
  match state with
  | .negotiation => boltChangeNegotiationState request response
  | .authentication => boltChangeAuthenticationState request response
  | .ready => boltChangeReadyState request response
  | .streaming => boltChangeStreamingState request response
  | .txReady => boltChangeTxreadyState request response
  | .txStreaming => boltChangeTxstreamingState request response
  | .failed => boltChangeFailedState request response
  | .interrupted => boltChangeInterruptedState request response
  | .defunct => none

/-! ### The tables as a relation -/

/-- The steps the tables take on a response other than `RECORD`: one constructor
per arm of the tables above, named by state, request and response. -/
inductive BoltTransition : BoltState → BoltStructureType → BoltStructureType → BoltState → Prop
  -- `bolt_change_negotiation_state`
  | negotiation_hello_success : BoltTransition .negotiation .hello .success .authentication
  | negotiation_hello_failure : BoltTransition .negotiation .hello .failure .defunct
  -- `bolt_change_authentication_state`
  | authentication_logon_success : BoltTransition .authentication .logon .success .ready
  | authentication_logon_failure : BoltTransition .authentication .logon .failure .defunct
  -- `bolt_change_ready_state`
  | ready_logoff_success : BoltTransition .ready .logoff .success .authentication
  | ready_logoff_failure : BoltTransition .ready .logoff .failure .failed
  | ready_run_success : BoltTransition .ready .run .success .streaming
  | ready_run_failure : BoltTransition .ready .run .failure .failed
  | ready_begin_success : BoltTransition .ready .begin .success .txReady
  | ready_begin_failure : BoltTransition .ready .begin .failure .failed
  | ready_route_success : BoltTransition .ready .route .success .ready
  | ready_reset {r} (hr : r ≠ .record) : BoltTransition .ready .reset r .ready
  | ready_goodbye {r} (hr : r ≠ .record) : BoltTransition .ready .goodbye r .defunct
  -- `bolt_change_streaming_state`
  | streaming_pull_success : BoltTransition .streaming .pull .success .ready
  | streaming_pull_failure : BoltTransition .streaming .pull .failure .failed
  | streaming_discard_success : BoltTransition .streaming .discard .success .ready
  | streaming_discard_failure : BoltTransition .streaming .discard .failure .failed
  | streaming_reset {r} (hr : r ≠ .record) : BoltTransition .streaming .reset r .ready
  | streaming_goodbye {r} (hr : r ≠ .record) : BoltTransition .streaming .goodbye r .defunct
  -- `bolt_change_txready_state`
  | txReady_run_success : BoltTransition .txReady .run .success .txStreaming
  | txReady_run_failure : BoltTransition .txReady .run .failure .failed
  | txReady_commit_success : BoltTransition .txReady .commit .success .ready
  | txReady_commit_failure : BoltTransition .txReady .commit .failure .failed
  | txReady_rollback_success : BoltTransition .txReady .rollback .success .ready
  | txReady_rollback_failure : BoltTransition .txReady .rollback .failure .failed
  | txReady_reset {r} (hr : r ≠ .record) : BoltTransition .txReady .reset r .ready
  | txReady_goodbye {r} (hr : r ≠ .record) : BoltTransition .txReady .goodbye r .defunct
  -- `bolt_change_txstreaming_state`
  | txStreaming_run_success : BoltTransition .txStreaming .run .success .txStreaming
  | txStreaming_run_failure : BoltTransition .txStreaming .run .failure .failed
  | txStreaming_pull_success : BoltTransition .txStreaming .pull .success .txStreaming
  | txStreaming_pull_failure : BoltTransition .txStreaming .pull .failure .failed
  | txStreaming_commit_success : BoltTransition .txStreaming .commit .success .ready
  | txStreaming_commit_failure : BoltTransition .txStreaming .commit .failure .failed
  | txStreaming_discard_success : BoltTransition .txStreaming .discard .success .txReady
  | txStreaming_discard_failure : BoltTransition .txStreaming .discard .failure .failed
  | txStreaming_reset {r} (hr : r ≠ .record) : BoltTransition .txStreaming .reset r .ready
  | txStreaming_goodbye {r} (hr : r ≠ .record) : BoltTransition .txStreaming .goodbye r .defunct
  -- `bolt_change_failed_state`
  | failed_run_ignored : BoltTransition .failed .run .ignored .failed
  | failed_pull_ignored : BoltTransition .failed .pull .ignored .failed
  | failed_discard_ignored : BoltTransition .failed .discard .ignored .failed
  | failed_reset {r} (hr : r ≠ .record) : BoltTransition .failed .reset r .ready
  | failed_goodbye {r} (hr : r ≠ .record) : BoltTransition .failed .goodbye r .defunct
  -- `bolt_change_interrupted_state`
  | interrupted_ignored {q} (hq : q = .run ∨ q = .pull ∨ q = .discard ∨ q = .begin ∨
      q = .commit ∨ q = .rollback) : BoltTransition .interrupted q .ignored .failed
  | interrupted_reset_success : BoltTransition .interrupted .reset .success .ready
  | interrupted_reset_failure : BoltTransition .interrupted .reset .failure .defunct
  | interrupted_goodbye {r} (hr : r ≠ .record) : BoltTransition .interrupted .goodbye r .defunct

/-- **What `bolt_change_client_state` accepts.**  A step is taken exactly when the
response is a `RECORD`, which keeps the state, or it is one arm of the tables. -/
theorem boltChangeClientState_eq_some {s s' : BoltState} {q r : BoltStructureType} :
    boltChangeClientState s q r = some s' ↔ (r = .record ∧ s' = s) ∨ BoltTransition s q r s' := by
  constructor
  · intro h
    by_cases hr : r = .record
    · subst hr
      simp only [boltChangeClientState, if_true, Option.some.injEq] at h
      exact .inl ⟨rfl, h.symm⟩
    · refine .inr ?_
      cases s <;> simp only [boltChangeClientState, hr, if_false] at h
      all_goals
        first
        | cases h
        | (delta boltChangeNegotiationState boltChangeAuthenticationState boltChangeReadyState
            boltChangeStreamingState boltChangeTxreadyState boltChangeTxstreamingState
            boltChangeFailedState boltChangeInterruptedState at h
           split at h <;> (try split at h) <;> cases h <;> constructor <;> simp_all)
  · rintro (⟨rfl, rfl⟩ | ht)
    · simp [boltChangeClientState]
    · cases ht
      case interrupted_ignored hq => rcases hq with rfl | rfl | rfl | rfl | rfl | rfl <;> rfl
      all_goals simp_all [boltChangeClientState, boltChangeNegotiationState,
        boltChangeAuthenticationState, boltChangeReadyState, boltChangeStreamingState,
        boltChangeTxreadyState, boltChangeTxstreamingState, boltChangeFailedState,
        boltChangeInterruptedState]

/-- Every arm of the tables is taken on a response other than `RECORD`. -/
theorem BoltTransition.ne_record {s s' : BoltState} {q r : BoltStructureType}
    (h : BoltTransition s q r s') : r ≠ .record := by
  cases h <;> first | assumption | decide

/-- The state `bolt_client_send` leaves behind when a `RESET` is pending: a
failed session is answered and made `READY`; any other session is answered and
keeps its state. -/
def boltClientSendResetState (state : BoltState) : BoltState :=
  if state = .failed then .ready else state

/-! ### Sessions -/

/-- A step of a session, as the state sees it. -/
inductive BoltEvent
  | reply (request response : BoltStructureType)
  | resetSend
deriving DecidableEq, Repr

/-- One step; `none` when an `ASSERT` fires. -/
def boltStep (state : BoltState) : BoltEvent → Option BoltState
  | .reply request response => boltChangeClientState state request response
  | .resetSend => some (boltClientSendResetState state)

/-- A run of steps; `none` when an `ASSERT` fires on the way. -/
def boltRun (state : BoltState) : List BoltEvent → Option BoltState
  | [] => some state
  | e :: es => (boltStep state e).bind fun state => boltRun state es

end FalkorDB
