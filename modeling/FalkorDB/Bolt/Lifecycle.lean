/-
FalkorDB/Bolt/Lifecycle.lean

Where a session can go from a given state, over every run.

Three facts about the tables of `bolt_client.c`, each a step lemma and a run
lemma, the run lemmas through one preservation lemma (`boltRun_preserve`):

* no step enters `INTERRUPTED`: the tables never return it, a `RECORD` keeps
  the state and a reset sent turns only `FAILED` into `READY`.  A run ends in
  `INTERRUPTED` only when it starts there, so `bolt_change_interrupted_state`
  never runs on a session that `bolt_client_new` started
  (`boltRun_interrupted`);
* `DEFUNCT` has no table: a run from it is accepted exactly when each of its
  events is a `RECORD` or a reset sent, and it stays `DEFUNCT`.  The reset path
  of `bolt_client_send` answers `SUCCESS {}` there, as in every state but
  `FAILED` (`boltRun_defunct_iff`);
* `FAILED` is left only by a reset sent, or a `RESET` or a `GOODBYE` answered
  with anything but a `RECORD`.  Until then the session stays `FAILED` and
  accepts only `IGNORED` to `RUN`, `PULL` and `DISCARD`, and `RECORD`s: a
  `BEGIN`, `COMMIT` or `ROLLBACK` there traps, where the `INTERRUPTED` table
  answers them `IGNORED` (`boltRun_failed`).
-/
import FalkorDB.Bolt.Session

namespace FalkorDB

/-- A property of states that every allowed step keeps holds after every run of
allowed steps. -/
theorem boltRun_preserve (P : BoltState → Prop) (allowed : BoltEvent → Prop)
    (hstep : ∀ {s e s'}, P s → allowed e → boltStep s e = some s' → P s')
    {s s' : BoltState} {es : List BoltEvent} (hs : P s) (hes : ∀ e ∈ es, allowed e)
    (h : boltRun s es = some s') : P s' := by
  induction es generalizing s with
  | nil => exact Option.some.inj h ▸ hs
  | cons e es ih =>
    obtain ⟨s₁, h₁, h⟩ := Option.bind_eq_some.mp h
    exact ih (hstep hs (hes e (List.mem_cons_self e es)) h₁)
      (fun e he => hes e (List.mem_cons_of_mem _ he)) h

/-! ### `INTERRUPTED` -/

/-- A step into `INTERRUPTED` starts there. -/
theorem boltStep_interrupted {s : BoltState} {e : BoltEvent}
    (h : boltStep s e = some .interrupted) : s = .interrupted := by
  cases e with
  | resetSend =>
    simp only [boltStep, boltClientSendResetState, Option.some.injEq] at h
    split_ifs at h
    exact h
  | reply q r =>
    rcases boltChangeClientState_eq_some.mp h with ⟨-, h⟩ | ht
    · exact h.symm
    · -- no arm of any table ends in `INTERRUPTED`
      cases ht

/-- **`INTERRUPTED` is never entered.**  A run that ends in `INTERRUPTED`
started there: no table of `bolt_client.c` moves a session into it. -/
theorem boltRun_interrupted {s : BoltState} {es : List BoltEvent}
    (h : boltRun s es = some .interrupted) : s = .interrupted := by
  by_contra hs
  exact boltRun_preserve (· ≠ .interrupted) (fun _ => True)
    (fun hs _ h' hi => hs (boltStep_interrupted (hi ▸ h'))) hs (fun _ _ => trivial) h rfl

/-- From `INTERRUPTED`, a reset sent and a `RECORD` keep the state. -/
theorem boltRun_interrupted_record :
    boltRun .interrupted [.resetSend, .reply .pull .record] = some .interrupted ∧
      BoltState.interrupted = .interrupted :=
  have h : boltRun .interrupted [.resetSend, .reply .pull .record] = some .interrupted := rfl
  ⟨h, boltRun_interrupted h⟩

/-! ### `DEFUNCT` -/

/-- The steps a `DEFUNCT` session takes: a reset sent and a `RECORD`, both back to
`DEFUNCT`. -/
theorem boltStep_defunct {e : BoltEvent} {s : BoltState} :
    boltStep .defunct e = some s ↔ s = .defunct ∧ (e = .resetSend ∨ ∃ q, e = .reply q .record) := by
  cases e with
  | resetSend => simp [boltStep, boltClientSendResetState, eq_comm]
  | reply q r =>
    by_cases hr : r = .record
    · subst hr
      simp [boltStep, boltChangeClientState, eq_comm]
    · simp [boltStep, boltChangeClientState, hr]

/-- **`DEFUNCT` is final.**  A run from `DEFUNCT` is accepted exactly when each
of its events is a reset sent or a reply answered `RECORD`, and it ends in
`DEFUNCT`. -/
theorem boltRun_defunct_iff {es : List BoltEvent} {s : BoltState} :
    boltRun .defunct es = some s ↔
      s = .defunct ∧ ∀ e ∈ es, e = .resetSend ∨ ∃ q, e = .reply q .record := by
  induction es with
  | nil => simp [boltRun, eq_comm]
  | cons e es ih =>
    simp only [boltRun, Option.bind_eq_some, boltStep_defunct, List.forall_mem_cons]
    constructor
    · rintro ⟨_, ⟨rfl, he⟩, h⟩
      exact ⟨(ih.mp h).1, he, (ih.mp h).2⟩
    · rintro ⟨rfl, he, hes⟩
      exact ⟨_, ⟨rfl, he⟩, ih.mpr ⟨rfl, hes⟩⟩

/-! ### `FAILED` -/

/-- An event that can take a session out of `FAILED`: a reset sent, or a `RESET`
or a `GOODBYE` answered with anything but a `RECORD`. -/
def BoltEvent.Recovers : BoltEvent → Prop
  | .reply request response => (request = .reset ∨ request = .goodbye) ∧ response ≠ .record
  | .resetSend => True

instance : DecidablePred BoltEvent.Recovers
  | .reply request response =>
    inferInstanceAs (Decidable ((request = .reset ∨ request = .goodbye) ∧ response ≠ .record))
  | .resetSend => isTrue trivial

/-- The replies a `FAILED` session accepts without leaving it. -/
def FailedAnswer (request response : BoltStructureType) : Prop :=
  response = .record ∨
    (response = .ignored ∧ (request = .run ∨ request = .pull ∨ request = .discard))

/-- A step from `FAILED` by an event that does not recover stays in `FAILED`,
and is a reply `FAILED` accepts. -/
theorem boltStep_failed {e : BoltEvent} {s : BoltState} (h : boltStep .failed e = some s)
    (he : ¬e.Recovers) : s = .failed ∧ ∀ q r, e = .reply q r → FailedAnswer q r := by
  cases e with
  | resetSend => exact absurd trivial he
  | reply q r =>
    rcases boltChangeClientState_eq_some.mp h with ⟨rfl, rfl⟩ | ht
    · exact ⟨rfl, by rintro _ _ ⟨⟩; exact .inl rfl⟩
    · -- the arms of the `FAILED` table
      cases ht <;> simp_all [BoltEvent.Recovers, FailedAnswer]

/-- **`FAILED` until a `RESET` or a `GOODBYE`.**  Along every run from `FAILED`
in which no event recovers (a reset sent, or a `RESET` or a `GOODBYE` answered
with anything but a `RECORD`), the session stays `FAILED`, and every reply of the
run is a `RECORD` or an `IGNORED` to a `RUN`, a `PULL` or a `DISCARD`: any other
request traps. -/
theorem boltRun_failed {es : List BoltEvent} {s : BoltState} (h : boltRun .failed es = some s)
    (hes : ∀ e ∈ es, ¬e.Recovers) :
    s = .failed ∧ ∀ q r, .reply q r ∈ es → FailedAnswer q r := by
  have hstay : ∀ {pre s'}, (∀ e ∈ pre, ¬e.Recovers) → boltRun .failed pre = some s' →
      s' = .failed := fun hpre hrun =>
    boltRun_preserve (· = .failed) (fun e => ¬e.Recovers)
      (fun hs he h => by subst hs; exact (boltStep_failed h he).1) rfl hpre hrun
  refine ⟨hstay hes h, fun q r hm => ?_⟩
  obtain ⟨pre, post, rfl⟩ := List.append_of_mem hm
  obtain ⟨s₀, s₁, h₀, h₁⟩ := boltRun_split h
  obtain rfl := hstay (fun e he => hes e (List.mem_append_left _ he)) h₀
  exact (boltStep_failed h₁ (hes _ hm)).2 q r rfl

/-- A failed session answered `IGNORED` to a `RUN`, then a `RECORD` and an
`IGNORED` to a `PULL`. -/
theorem boltRun_failed_ignored :
    boltRun .failed [.reply .run .ignored, .reply .pull .record, .reply .pull .ignored] =
        some .failed ∧
      (∀ e ∈ ([.reply .run .ignored, .reply .pull .record, .reply .pull .ignored] : List BoltEvent),
        ¬e.Recovers) ∧
      BoltState.failed = .failed ∧
      ∀ q r, .reply q r ∈
          ([.reply .run .ignored, .reply .pull .record, .reply .pull .ignored] : List BoltEvent) →
        FailedAnswer q r :=
  have h : boltRun .failed [.reply .run .ignored, .reply .pull .record, .reply .pull .ignored] =
      some .failed := rfl
  ⟨h, by decide, boltRun_failed h (by decide)⟩

end FalkorDB
