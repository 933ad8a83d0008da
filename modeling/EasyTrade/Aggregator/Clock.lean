import EasyTrade.Logic.Traces
import Mathlib.Data.List.Nodup

/-!
# The clock

`StartWithClockTimer` and `Stop` of the aggregator's clock, step by step, with the goroutines of a
non-blocking clock. A tick that was received waits until its execution starts, and nothing makes
`Stop` wait for it.
-/

namespace EasyTrade.Aggregator

open EasyTrade.Logic

/-! ## The goroutines -/

/-- Where the loop of `StartWithClockTimer` is. -/
inductive Clock.Loop where
  | selecting
  | received (tick : Nat)
  | ticking (tick : Nat)
  | testing
  | leaving
  | returned
  deriving DecidableEq

/-- Where the call of `Stop` is. -/
inductive Clock.Stopper where
  | idle
  | called
  | closed
  | set
  | returned
  deriving DecidableEq

/-- A clock and the goroutines around it. The ticks are numbered in the order in which they are
sent; those from `taken` up to `sent` are ready in the channel. A goroutine that a non-blocking
clock starts waits for its turn and then executes its tick. -/
structure Clock where
  nonBlocking : Bool
  wg : Nat
  quitChan : Bool
  quit : Bool
  sent : Nat
  taken : Nat
  loop : Clock.Loop
  waiting : List Nat
  ticking : List Nat
  stopper : Clock.Stopper

namespace Clock

/-- What a goroutine or the ticker does next. -/
inductive Action where
  | send
  | receive (tick : Nat)
  | receiveQuit
  | spawn (tick : Nat)
  | tickStarts (tick : Nat)
  | tickEnds (tick : Nat)
  | testQuit
  | leave
  | stopCalled
  | closeQuitChan
  | setQuit
  | stopReturns
  deriving DecidableEq

/-- A new clock, after its loop was started. -/
def started (nonBlocking : Bool) : Clock :=
  { nonBlocking, wg := 1, quitChan := false, quit := false, sent := 0, taken := 0,
    loop := .selecting, waiting := [], ticking := [], stopper := .idle }

/-- When an action can be taken. At the `select` a ready tick and the closed channel are both
possible. -/
def Enabled (s : Clock) : Action → Prop
  | .send => True
  | .receive tick => s.loop = .selecting ∧ tick = s.taken ∧ s.taken < s.sent
  | .receiveQuit => s.loop = .selecting ∧ s.quitChan = true
  | .spawn tick => s.nonBlocking = true ∧ s.loop = .received tick
  | .tickStarts tick =>
    match s.nonBlocking with
    | true => tick ∈ s.waiting
    | false => s.loop = .received tick
  | .tickEnds tick =>
    match s.nonBlocking with
    | true => tick ∈ s.ticking
    | false => s.loop = .ticking tick
  | .testQuit => s.loop = .testing
  | .leave => s.loop = .leaving
  | .stopCalled => s.stopper = .idle
  | .closeQuitChan => s.stopper = .called
  | .setQuit => s.stopper = .closed
  | .stopReturns => s.stopper = .set

instance (s : Clock) (a : Action) : Decidable (s.Enabled a) := by
  cases a <;> dsimp only [Enabled] <;> first | infer_instance | (split <;> infer_instance)

/-- The state after an action. `leave` is `ct.Stop()` and the `return`. -/
def next (s : Clock) : Action → Clock
  | .send => { s with sent := s.sent + 1 }
  | .receive tick => { s with taken := s.taken + 1, loop := .received tick }
  | .receiveQuit => { s with loop := .leaving }
  | .spawn tick => { s with wg := s.wg + 1, waiting := tick :: s.waiting, loop := .testing }
  | .tickStarts tick =>
    match s.nonBlocking with
    | true => { s with waiting := s.waiting.erase tick, ticking := tick :: s.ticking }
    | false => { s with loop := .ticking tick }
  | .tickEnds tick =>
    match s.nonBlocking with
    | true => { s with wg := s.wg - 1, ticking := s.ticking.erase tick }
    | false => { s with loop := .testing }
  | .testQuit => { s with loop := if s.quit then .leaving else .selecting }
  | .leave => { s with wg := s.wg - 1, loop := .returned }
  | .stopCalled => { s with stopper := .called }
  | .closeQuitChan => { s with quitChan := true, stopper := .closed }
  | .setQuit => { s with quit := true, stopper := .set }
  | .stopReturns => { s with stopper := .returned }

/-- One step. -/
def step (s : Clock) (a : Action) : Option Clock :=
  if s.Enabled a then some (s.next a) else none

theorem step_eq_some {s s' : Clock} {a : Action} :
    s.step a = some s' ↔ s.Enabled a ∧ s.next a = s' := by
  rw [step]
  split_ifs with enabled <;> simp [enabled]

/-- The tick that the loop has received and not yet handed on. -/
def Loop.pending : Loop → List Nat
  | .received tick => [tick]
  | _ => []

/-- The tick that the loop executes. -/
def Loop.active : Loop → List Nat
  | .ticking tick => [tick]
  | _ => []

/-- The ticks that were received and have not started. -/
def pending (s : Clock) : List Nat := s.loop.pending ++ s.waiting

/-- The ticks that are being executed. -/
def active (s : Clock) : List Nat := s.loop.active ++ s.ticking

/-! ## What is wanted -/

/-- After `Stop` has returned, no execution starts. -/
def StopsTicks (trace : List Action) : Prop :=
  ∀ before after, trace = before ++ .stopReturns :: after → ∀ tick, .tickStarts tick ∉ after

/-- A tick received before `Stop` was called is executed once. -/
def ExecutesOnce (trace : List Action) : Prop :=
  ∀ before after, trace = before ++ .stopCalled :: after → ∀ tick, .receive tick ∈ before →
    trace.count (.tickStarts tick) = 1 ∧ trace.count (.tickEnds tick) = 1

/-- No tick is executed twice. -/
def NeverTwice (trace : List Action) : Prop :=
  ∀ tick, trace.count (.tickStarts tick) ≤ 1

/-- No tick that was received is still to start when `Stop` returns, and the `select` takes none
after that. -/
def Settled (s : Clock) : Action → Prop
  | .receive _ => s.stopper ≠ .returned
  | .stopReturns => s.pending = []
  | _ => True

/-! ## Steps -/

/-- A tick comes to those that wait when it is received, and leaves them when it starts. -/
theorem count_pending_next {s : Clock} {a : Action} (enabled : s.Enabled a) (tick : Nat) :
    (s.next a).pending.count tick + [a].count (.tickStarts tick) =
      s.pending.count tick + [a].count (.receive tick) := by
  cases a with
  | receive other =>
    obtain ⟨selecting, -, -⟩ := enabled
    simp [next, pending, selecting, Loop.pending, List.count_cons]
  | receiveQuit => simp [next, pending, enabled.1, Loop.pending]
  | spawn other => simp [next, pending, enabled.2, Loop.pending]
  | tickStarts other =>
    cases mode : s.nonBlocking with
    | true =>
      have there : other ∈ s.waiting := by simpa [Enabled, mode] using enabled
      have some_ := List.count_pos_iff.mpr there
      simp only [next, mode, pending, List.count_append, List.count_erase, List.count_singleton,
        beq_iff_eq, Action.tickStarts.injEq, reduceCtorEq, if_false]
      split_ifs with same
      · subst same
        omega
      · omega
    | false =>
      have here : s.loop = .received other := by simpa [Enabled, mode] using enabled
      simp [next, mode, pending, here, Loop.pending, List.count_cons]
  | tickEnds other =>
    cases mode : s.nonBlocking with
    | true => simp [next, mode, pending]
    | false =>
      have here : s.loop = .ticking other := by simpa [Enabled, mode] using enabled
      simp [next, mode, pending, here, Loop.pending]
  | testQuit =>
    have here : s.loop = .testing := enabled
    cases quit : s.quit <;> simp [next, pending, here, quit, Loop.pending]
  | leave =>
    have here : s.loop = .leaving := enabled
    simp [next, pending, here, Loop.pending]
  | send => simp [next, pending]
  | stopCalled => simp [next, pending]
  | closeQuitChan => simp [next, pending]
  | setQuit => simp [next, pending]
  | stopReturns => simp [next, pending]

/-- A tick is being executed from its start to its end. -/
theorem count_active_next {s : Clock} {a : Action} (enabled : s.Enabled a) (tick : Nat) :
    (s.next a).active.count tick + [a].count (.tickEnds tick) =
      s.active.count tick + [a].count (.tickStarts tick) := by
  cases a with
  | receive other =>
    obtain ⟨selecting, -, -⟩ := enabled
    simp [next, active, selecting, Loop.active]
  | receiveQuit => simp [next, active, enabled.1, Loop.active]
  | spawn other => simp [next, active, enabled.2, Loop.active]
  | tickStarts other =>
    cases mode : s.nonBlocking with
    | true =>
      simp [next, mode, active, List.count_cons]
      omega
    | false =>
      have here : s.loop = .received other := by simpa [Enabled, mode] using enabled
      simp [next, mode, active, here, Loop.active, List.count_cons]
  | tickEnds other =>
    cases mode : s.nonBlocking with
    | true =>
      have there : other ∈ s.ticking := by simpa [Enabled, mode] using enabled
      have some_ := List.count_pos_iff.mpr there
      simp only [next, mode, active, List.count_append, List.count_erase, List.count_singleton,
        beq_iff_eq, Action.tickEnds.injEq, reduceCtorEq, if_false]
      split_ifs with same
      · subst same
        omega
      · omega
    | false =>
      have here : s.loop = .ticking other := by simpa [Enabled, mode] using enabled
      simp [next, mode, active, here, Loop.active, List.count_cons]
  | testQuit =>
    have here : s.loop = .testing := enabled
    cases quit : s.quit <;> simp [next, active, here, quit, Loop.active]
  | leave =>
    have here : s.loop = .leaving := enabled
    simp [next, active, here, Loop.active]
  | send => simp [next, active]
  | stopCalled => simp [next, active]
  | closeQuitChan => simp [next, active]
  | setQuit => simp [next, active]
  | stopReturns => simp [next, active]

/-- The wait group counts the loop and the goroutines that have not ended. -/
def Counted (s : Clock) : Prop :=
  s.wg = (if s.loop = .returned then 0 else 1) + s.waiting.length + s.ticking.length

theorem Counted.next {s : Clock} {a : Action} (counted : s.Counted) (enabled : s.Enabled a) :
    (s.next a).Counted := by
  unfold Counted at counted
  cases a with
  | receive other =>
    rw [enabled.1] at counted
    simpa [Counted, Clock.next] using counted
  | receiveQuit =>
    rw [enabled.1] at counted
    simpa [Counted, Clock.next] using counted
  | spawn other =>
    rw [enabled.2] at counted
    simp [Counted, Clock.next] at counted ⊢
    omega
  | tickStarts other =>
    cases mode : s.nonBlocking with
    | true =>
      have there : other ∈ s.waiting := by simpa [Enabled, mode] using enabled
      have fewer := List.length_erase_of_mem there
      have some_ := List.length_pos_of_mem there
      simp only [Counted, Clock.next, mode, List.length_cons]
      omega
    | false =>
      have here : s.loop = .received other := by simpa [Enabled, mode] using enabled
      rw [here] at counted
      simpa [Counted, Clock.next, mode] using counted
  | tickEnds other =>
    cases mode : s.nonBlocking with
    | true =>
      have there : other ∈ s.ticking := by simpa [Enabled, mode] using enabled
      have fewer := List.length_erase_of_mem there
      have some_ := List.length_pos_of_mem there
      simp only [Counted, Clock.next, mode]
      omega
    | false =>
      have here : s.loop = .ticking other := by simpa [Enabled, mode] using enabled
      rw [here] at counted
      simpa [Counted, Clock.next, mode] using counted
  | testQuit =>
    have here : s.loop = .testing := enabled
    rw [here] at counted
    cases quit : s.quit <;> simpa [Counted, Clock.next, quit] using counted
  | leave =>
    have here : s.loop = .leaving := enabled
    rw [here] at counted
    simp [Counted, Clock.next] at counted ⊢
    omega
  | send => exact counted
  | stopCalled => exact counted
  | closeQuitChan => exact counted
  | setQuit => exact counted
  | stopReturns => exact counted

/-- A tick that starts was pending. -/
theorem mem_pending_of_enabled {s : Clock} {tick : Nat} (enabled : s.Enabled (.tickStarts tick)) :
    tick ∈ s.pending := by
  cases mode : s.nonBlocking with
  | true =>
    have there : tick ∈ s.waiting := by simpa [Enabled, mode] using enabled
    exact List.mem_append_right _ there
  | false =>
    have here : s.loop = .received tick := by simpa [Enabled, mode] using enabled
    simp [pending, here, Loop.pending]

/-- Only `Stop` itself goes on with its call, and it returns once. -/
theorem stopper_next {s : Clock} {a : Action} (enabled : s.Enabled a) :
    (s.next a).stopper = .returned ↔ s.stopper = .returned ∨ a = .stopReturns := by
  cases a with
  | tickStarts other => cases mode : s.nonBlocking <;> simp [next, mode]
  | tickEnds other => cases mode : s.nonBlocking <;> simp [next, mode]
  | stopCalled =>
    have here : s.stopper = .idle := enabled
    simp [next, here]
  | closeQuitChan =>
    have here : s.stopper = .called := enabled
    simp [next, here]
  | setQuit =>
    have here : s.stopper = .closed := enabled
    simp [next, here]
  | stopReturns => simp [next]
  | _ => simp [next]

/-- The ticks are received in their order. -/
theorem taken_next {s : Clock} {a : Action} (enabled : s.Enabled a) (tick : Nat) :
    (List.range (s.next a).taken).count tick =
      (List.range s.taken).count tick + [a].count (.receive tick) := by
  cases a with
  | receive other =>
    obtain ⟨-, rfl, -⟩ := enabled
    simp [next, List.range_succ, List.count_singleton]
  | tickStarts other => cases mode : s.nonBlocking <;> simp [next, mode]
  | tickEnds other => cases mode : s.nonBlocking <;> simp [next, mode]
  | _ => simp [next]

/-! ## Runs -/

/-- What the trace so far and the state have to do with each other. -/
structure Accounted (trace : List Action) (s : Clock) : Prop where
  received : ∀ tick, trace.count (.receive tick) = (List.range s.taken).count tick
  started : ∀ tick,
    trace.count (.tickStarts tick) + s.pending.count tick = trace.count (.receive tick)
  ended : ∀ tick,
    trace.count (.tickEnds tick) + s.active.count tick = trace.count (.tickStarts tick)
  counted : s.Counted
  stopped : s.stopper = .returned ↔ .stopReturns ∈ trace

/-- A step keeps the account. -/
theorem Accounted.step {trace : List Action} {s s' : Clock} {a : Action}
    (accounted : Accounted trace s) (step : s.step a = some s') : Accounted (trace ++ [a]) s' := by
  obtain ⟨enabled, rfl⟩ := step_eq_some.mp step
  refine ⟨fun tick => ?_, fun tick => ?_, fun tick => ?_, accounted.counted.next enabled, ?_⟩
  · rw [List.count_append, accounted.received, taken_next enabled]
  · have before := accounted.started tick
    have here := count_pending_next enabled tick
    simp only [List.count_append]
    omega
  · have before := accounted.ended tick
    have here := count_active_next enabled tick
    simp only [List.count_append]
    omega
  · rw [stopper_next enabled, accounted.stopped, List.mem_append, List.mem_singleton, eq_comm]

/-- The account of every run. -/
theorem accounted {nonBlocking : Bool} {trace : List Action} {s : Clock}
    (ran : Trace.run step (started nonBlocking) trace = some s) : Accounted trace s := by
  refine Trace.run_invariant ?_ (fun as s₁ a s₂ _ before taken => before.step taken) ran
  constructor <;> simp [started, pending, active, Loop.pending, Loop.active, Counted]

/-- A tick is received once at most. -/
theorem Accounted.count_receive_le {trace : List Action} {s : Clock}
    (accounted : Accounted trace s) (tick : Nat) : trace.count (.receive tick) ≤ 1 := by
  rw [accounted.received]
  exact List.nodup_iff_count_le_one.mp List.nodup_range tick

/-- When the wait group is at 0, every tick that was received was executed. -/
theorem Accounted.executed {trace : List Action} {s : Clock} (accounted : Accounted trace s)
    (done : s.wg = 0) (tick : Nat) :
    trace.count (.tickStarts tick) = trace.count (.receive tick) ∧
      trace.count (.tickEnds tick) = trace.count (.receive tick) := by
  have counted := accounted.counted
  rw [Counted, done] at counted
  have returned : s.loop = .returned := by
    by_contra other
    rw [if_neg other] at counted
    omega
  have waiting : s.waiting = [] := List.eq_nil_of_length_eq_zero (by omega)
  have ticking : s.ticking = [] := List.eq_nil_of_length_eq_zero (by omega)
  have pending : s.pending = [] := by rw [pending, returned, waiting]; rfl
  have active : s.active = [] := by rw [active, returned, ticking]; rfl
  have started := accounted.started tick
  have ended := accounted.ended tick
  rw [pending, List.count_nil] at started
  rw [active, List.count_nil] at ended
  omega

/-- When `Stop` has returned, nothing is pending and the `select` takes no tick, nothing starts. -/
theorem no_start_of_settled {s s' : Clock} {trace : List Action}
    (ran : Trace.run step s trace = some s') (stopped : s.stopper = .returned)
    (settled : s.pending = []) (meets : Trace.Meets step Settled s trace) (tick : Nat) :
    .tickStarts tick ∉ trace := by
  induction trace generalizing s with
  | nil => exact List.not_mem_nil
  | cons a trace ih =>
    obtain ⟨next, step, rest⟩ := Trace.run_cons_eq_some.mp ran
    obtain ⟨here, later⟩ := meets
    obtain ⟨enabled, rfl⟩ := step_eq_some.mp step
    have noReceive : ∀ other, a ≠ .receive other := fun other same => by
      subst same
      exact here stopped
    have noStart : ∀ other, a ≠ .tickStarts other := fun other same => by
      subst same
      have there := mem_pending_of_enabled enabled
      rw [settled] at there
      exact List.not_mem_nil there
    have settled' : (s.next a).pending = [] := by
      refine List.eq_nil_iff_forall_not_mem.mpr fun other => List.count_eq_zero.mp ?_
      have moved := count_pending_next enabled other
      rw [settled, List.count_nil, List.count_eq_zero.mpr fun member =>
        noReceive other (List.mem_singleton.mp member).symm] at moved
      omega
    rw [List.mem_cons, not_or]
    exact ⟨(noStart tick).symm, ih rest ((stopper_next enabled).mpr (Or.inl stopped)) settled'
      (later _ step)⟩

/-- A settled run starts nothing after `Stop`. -/
theorem stopsTicks_of_meets {nonBlocking : Bool} {trace : List Action} {s : Clock}
    (ran : Trace.run step (started nonBlocking) trace = some s)
    (meets : Trace.Meets step Settled (started nonBlocking) trace) : StopsTicks trace := by
  rintro before after rfl tick
  obtain ⟨s₁, earlier, later⟩ := Trace.run_append_eq_some.mp ran
  obtain ⟨s₂, step, rest⟩ := Trace.run_cons_eq_some.mp later
  obtain ⟨enabled, rfl⟩ := step_eq_some.mp step
  have settled : s₁.pending = [] := Trace.meets_iff.mp meets before _ after s₁ rfl earlier
  refine no_start_of_settled rest ((stopper_next enabled).mpr (Or.inr rfl)) settled ?_ tick
  refine Trace.meets_iff.mpr fun before' a after' s' split ran' => ?_
  refine Trace.meets_iff.mp meets (before ++ .stopReturns :: before') a after' s' ?_ ?_
  · rw [split, List.append_assoc, List.cons_append]
  · exact Trace.run_append_eq_some.mpr ⟨s₁, earlier, Trace.run_cons_eq_some.mpr ⟨_, step, ran'⟩⟩

/-- What starts nothing after `Stop` and has ended was settled. -/
theorem meets_of_stopsTicks {nonBlocking : Bool} {trace : List Action} {s : Clock}
    (ran : Trace.run step (started nonBlocking) trace = some s) (done : s.wg = 0)
    (stops : StopsTicks trace) : Trace.Meets step Settled (started nonBlocking) trace := by
  refine Trace.meets_iff.mpr fun before a after s' split earlier => ?_
  have account := accounted earlier
  have whole := (accounted ran).executed done
  obtain ⟨s₁, again, later⟩ := Trace.run_append_eq_some.mp (split ▸ ran)
  obtain rfl := Option.some.inj (earlier.symm.trans again)
  obtain ⟨s₂, step, -⟩ := Trace.run_cons_eq_some.mp later
  obtain ⟨enabled, -⟩ := step_eq_some.mp step
  -- a tick that is pending or taken here starts later, since it was not started before
  have starts : ∀ tick, before.count (.tickStarts tick) = 0 →
      0 < trace.count (.receive tick) → .tickStarts tick ∈ a :: after := by
    intro tick none_ received
    refine List.count_pos_iff.mp ?_
    have total := (whole tick).1
    rw [split, List.count_append] at total
    rw [← split] at total
    omega
  cases a with
  | receive tick =>
    intro stopped
    obtain ⟨-, rfl, -⟩ := enabled
    have startedBefore := account.started s'.taken
    have new : before.count (.receive s'.taken) = 0 := by
      rw [account.received]
      exact List.count_eq_zero.mpr (by simp)
    have received : 0 < trace.count (.receive s'.taken) := List.count_pos_iff.mpr (by simp [split])
    have later := starts s'.taken (by omega) received
    obtain ⟨first, second, parts⟩ := List.append_of_mem (account.stopped.mp stopped)
    refine stops first (second ++ .receive s'.taken :: after) ?_ s'.taken ?_
    · rw [split, parts, List.append_assoc, List.cons_append]
    · exact List.mem_append_right _ later
  | stopReturns =>
    refine List.eq_nil_iff_forall_not_mem.mpr fun tick pending => ?_
    have waits := List.count_pos_iff.mpr pending
    have startedBefore := account.started tick
    have once := account.count_receive_le tick
    have received : 0 < trace.count (.receive tick) := by
      rw [split, List.count_append]
      omega
    have later := starts tick (by omega) received
    rcases List.mem_cons.mp later with same | later
    · cases same
    · exact stops before after split tick later
  | _ => trivial

/-- In every run that is settled nothing starts after `Stop`, and no tick is executed twice. A run
that has ended has executed each tick that was received once; it started nothing after `Stop` if
and only if it was settled. -/
theorem stopsTicks_iff {nonBlocking : Bool} {trace : List Action} {s : Clock}
    (ran : Trace.run step (started nonBlocking) trace = some s) :
    (Trace.Meets step Settled (started nonBlocking) trace → StopsTicks trace ∧ NeverTwice trace) ∧
      (s.wg = 0 → (StopsTicks trace ∧ ExecutesOnce trace ↔
        Trace.Meets step Settled (started nonBlocking) trace)) := by
  have account := accounted ran
  constructor
  · intro meets
    refine ⟨stopsTicks_of_meets ran meets, fun tick => ?_⟩
    have startedOf := account.started tick
    have once := account.count_receive_le tick
    omega
  · intro done
    constructor
    · rintro ⟨stops, -⟩
      exact meets_of_stopsTicks ran done stops
    · intro meets
      refine ⟨stopsTicks_of_meets ran meets, fun before after split tick received => ?_⟩
      have some_ : 0 < trace.count (.receive tick) := by
        rw [split, List.count_append]
        have here := List.count_pos_iff.mpr received
        omega
      have once := account.count_receive_le tick
      have executed := account.executed done tick
      omega

/-- A run of a non-blocking clock that executes a tick and is stopped when it has started. -/
def quietStop : List Action :=
  [.send, .receive 0, .spawn 0, .tickStarts 0, .testQuit, .stopCalled, .closeQuitChan, .setQuit,
    .stopReturns, .tickEnds 0, .receiveQuit, .leave]

theorem stopsTicks_of_quietStop : StopsTicks quietStop ∧ ExecutesOnce quietStop := by
  have ran : Trace.run step (started true) quietStop = some
      { started true with
        wg := 0, quitChan := true, quit := true, sent := 1, taken := 1, loop := .returned,
        stopper := .returned } := rfl
  refine ((stopsTicks_iff ran).2 rfl).mpr ?_
  simp [quietStop, Trace.Meets, step, Enabled, next, started, Settled, pending, Loop.pending]

/-- The `select` can take a tick after `Stop` has returned, and a tick that was received before can
start after that, for both clocks. -/
theorem tick_after_stop :
    (¬∀ trace s, Trace.run step (started false) trace = some s →
      StopsTicks trace ∧ (s.wg = 0 → ExecutesOnce trace)) ∧
    ¬∀ trace s, Trace.run step (started true) trace = some s →
      StopsTicks trace ∧ (s.wg = 0 → ExecutesOnce trace) := by
  constructor
  · intro promise
    have stops := (promise [.send, .stopCalled, .closeQuitChan, .setQuit, .stopReturns, .receive 0,
      .tickStarts 0] _ rfl).1
    exact stops [.send, .stopCalled, .closeQuitChan, .setQuit] [.receive 0, .tickStarts 0] rfl 0
      (by simp)
  · intro promise
    have stops := (promise [.send, .receive 0, .spawn 0, .stopCalled, .closeQuitChan, .setQuit,
      .stopReturns, .tickStarts 0] _ rfl).1
    exact stops [.send, .receive 0, .spawn 0, .stopCalled, .closeQuitChan, .setQuit]
      [.tickStarts 0] rfl 0 (by simp)

end Clock

end EasyTrade.Aggregator
