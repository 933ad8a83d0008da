import EasyTrade.Logic.Traces
import Mathlib.Logic.Function.Basic

/-!
# The plugin manager

`PluginManager.GetPluginState`, with any number of calls under way. An entry expires the cache
duration after its call read the clock, and its call read the clock before the provider answered;
so the entry is never too old for a call that finds it.
-/

namespace EasyTrade.Broker

open EasyTrade.Logic

/-- Where a call of `GetPluginState` is. The clock it has read is `now`. -/
inductive PluginManager.Call where
  | idle
  | called (pluginName : String) (defaultValue : Bool)
  | looking (pluginName : String) (defaultValue : Bool) (now : Int)
  | asking (pluginName : String) (defaultValue : Bool) (now : Int)
  | storing (pluginName : String) (now : Int) (value : Bool)
  | returningCached (pluginName : String) (now : Int) (value : Bool)
  | returningValue (pluginName : String) (now : Int) (value : Bool)
  | returned
  deriving DecidableEq

/-- The manager, the calls of its clients and the clock, in ticks. -/
structure PluginManager where
  cacheDurationS : Int
  cache : String → Option (Bool × Int)
  calls : Nat → PluginManager.Call
  clock : Int

namespace PluginManager

/-- What happens next. Any value may be the provider's answer, at any time. -/
inductive Action where
  | pass (ticks : Nat)
  | call (i : Nat) (pluginName : String) (defaultValue : Bool)
  | readClock (i : Nat)
  | tryGetValue (i : Nat)
  | answer (i : Nat) (value : Bool)
  | store (i : Nat)
  | return_ (i : Nat)
  deriving DecidableEq

/-- A manager that was not called. -/
def new (cacheDurationS : Int) : PluginManager :=
  { cacheDurationS, cache := fun _ => none, calls := fun _ => .idle, clock := 0 }

/-- `TimeSpan.FromSeconds`. -/
def fromSeconds (seconds : Int) : Int := seconds * 10000000

/-- The value in the cache, if its entry has not expired. -/
def unexpired (s : PluginManager) (pluginName : String) (now : Int) : Option Bool :=
  match s.cache pluginName with
  | some (value, expiry) => if expiry > now then some value else none
  | none => none

/-- A call goes on. -/
def goes (s : PluginManager) (i : Nat) (call : Call) : PluginManager :=
  { s with calls := Function.update s.calls i call }

/-- An entry of the cache is set. -/
def sets (s : PluginManager) (pluginName : String) (entry : Bool × Int) : PluginManager :=
  { s with cache := Function.update s.cache pluginName (some entry) }

/-- One step. -/
def step (s : PluginManager) : Action → Option PluginManager
  | .pass ticks => some { s with clock := s.clock + ticks }
  | .call i pluginName defaultValue =>
    match s.calls i with
    | .idle => some (s.goes i (.called pluginName defaultValue))
    | _ => none
  | .readClock i =>
    match s.calls i with
    | .called pluginName defaultValue => some (s.goes i (.looking pluginName defaultValue s.clock))
    | _ => none
  | .tryGetValue i =>
    match s.calls i with
    | .looking pluginName defaultValue now =>
      match s.unexpired pluginName now with
      | some value => some (s.goes i (.returningCached pluginName now value))
      | none => some (s.goes i (.asking pluginName defaultValue now))
    | _ => none
  | .answer i value =>
    match s.calls i with
    | .asking pluginName _ now => some (s.goes i (.storing pluginName now value))
    | _ => none
  | .store i =>
    match s.calls i with
    | .storing pluginName now value =>
      some ((s.goes i (.returningValue pluginName now value)).sets pluginName
        (value, now + fromSeconds s.cacheDurationS))
    | _ => none
  | .return_ i =>
    match s.calls i with
    | .returningCached _ _ _ => some (s.goes i .returned)
    | .returningValue _ _ _ => some (s.goes i .returned)
    | _ => none

/-! ## What is observed -/

/-- An answer of the provider. -/
structure Answer where
  call : Nat
  pluginName : String
  value : Bool
  time : Int
  deriving DecidableEq

/-- A value that a call returns at a time, after it has read the clock. -/
structure Result where
  call : Nat
  pluginName : String
  now : Int
  value : Bool
  time : Int
  deriving DecidableEq

/-- A call that looks into the cache, with the entry there and what the call does next. -/
structure Lookup where
  pluginName : String
  defaultValue : Bool
  now : Int
  entry : Option (Bool × Int)
  next : Option Call
  deriving DecidableEq

def observeAnswer (s : PluginManager) : Action → List Answer
  | .answer i value =>
    match s.calls i with
    | .asking pluginName _ _ => [⟨i, pluginName, value, s.clock⟩]
    | _ => []
  | _ => []

def observeResult (s : PluginManager) : Action → List Result
  | .return_ i =>
    match s.calls i with
    | .returningCached pluginName now value => [⟨i, pluginName, now, value, s.clock⟩]
    | .returningValue pluginName now value => [⟨i, pluginName, now, value, s.clock⟩]
    | _ => []
  | _ => []

def observeLookup (s : PluginManager) : Action → List Lookup
  | .tryGetValue i =>
    match s.calls i with
    | .looking pluginName defaultValue now =>
      [⟨pluginName, defaultValue, now, s.cache pluginName,
        (s.step (.tryGetValue i)).map fun s' => s'.calls i⟩]
    | _ => []
  | _ => []

/-- The answers of the provider. -/
def answers (cacheDurationS : Int) : List Action → List Answer :=
  Trace.log step observeAnswer (new cacheDurationS)

/-- The values that calls return. -/
def results (cacheDurationS : Int) : List Action → List Result :=
  Trace.log step observeResult (new cacheDurationS)

/-- The lookups of the calls. -/
def lookups (cacheDurationS : Int) : List Action → List Lookup :=
  Trace.log step observeLookup (new cacheDurationS)

/-! ## Where values come from -/

/-- A value of the name that the provider gave: not long before `now`, or to call `i` itself. -/
def Given (cacheDurationS : Int) (as : List Answer) (i : Nat) (pluginName : String) (now : Int)
    (value : Bool) : Prop :=
  ∃ a ∈ as, a.pluginName = pluginName ∧ a.value = value ∧
    (now - fromSeconds cacheDurationS < a.time ∨ a.call = i ∧ now ≤ a.time)

/-- What is known of a call under way. -/
def Backed (cacheDurationS : Int) (as : List Answer) (clock : Int) (i : Nat) : Call → Prop
  | .looking _ _ now => now ≤ clock
  | .asking _ _ now => now ≤ clock
  | .storing pluginName now value => now ≤ clock ∧
      ∃ a ∈ as, a.call = i ∧ a.pluginName = pluginName ∧ a.value = value ∧ now ≤ a.time
  | .returningCached pluginName now value =>
    now ≤ clock ∧ Given cacheDurationS as i pluginName now value
  | .returningValue pluginName now value =>
    now ≤ clock ∧ Given cacheDurationS as i pluginName now value
  | _ => True

/-- It stays known when time passes and the provider answers others. -/
theorem Backed.mono {cacheDurationS clock clock' : Int} {as as' : List Answer} {i : Nat} {call : Call}
    (backed : Backed cacheDurationS as clock i call) (more : as ⊆ as') (later : clock ≤ clock') :
    Backed cacheDurationS as' clock' i call := by
  cases call with
  | looking => exact Int.le_trans backed later
  | asking => exact Int.le_trans backed later
  | storing =>
    obtain ⟨read, a, member, source⟩ := backed
    exact ⟨Int.le_trans read later, a, more member, source⟩
  | returningCached =>
    obtain ⟨read, a, member, source⟩ := backed
    exact ⟨Int.le_trans read later, a, more member, source⟩
  | returningValue =>
    obtain ⟨read, a, member, source⟩ := backed
    exact ⟨Int.le_trans read later, a, more member, source⟩
  | _ => trivial

/-- What holds after every trace. -/
structure Sourced (cacheDurationS : Int) (as : List Answer) (s : PluginManager) : Prop where
  duration : s.cacheDurationS = cacheDurationS
  past : ∀ a ∈ as, a.time ≤ s.clock
  cached : ∀ pluginName value expiry, s.cache pluginName = some (value, expiry) →
    ∃ a ∈ as, a.pluginName = pluginName ∧ a.value = value ∧
      expiry ≤ a.time + fromSeconds cacheDurationS
  calls : ∀ i, Backed cacheDurationS as s.clock i (s.calls i)

/-- A call goes on and all else stays. -/
theorem Sourced.goes {cacheDurationS : Int} {as : List Answer} {s : PluginManager} {i : Nat}
    {call : Call} (sourced : Sourced cacheDurationS as s)
    (backed : Backed cacheDurationS as s.clock i call) :
    Sourced cacheDurationS as (s.goes i call) := by
  refine ⟨sourced.duration, sourced.past, sourced.cached, fun j => ?_⟩
  by_cases same : j = i
  · subst same
    show Backed cacheDurationS as s.clock j (Function.update s.calls j call j)
    rw [Function.update_self]
    exact backed
  · show Backed cacheDurationS as s.clock j (Function.update s.calls i call j)
    rw [Function.update_of_ne same]
    exact sourced.calls j

/-- The new entry of a call that was answered. -/
theorem Sourced.store {cacheDurationS now : Int} {as : List Answer} {s : PluginManager} {i : Nat}
    {pluginName : String} {value : Bool} (sourced : Sourced cacheDurationS as s)
    (storing : s.calls i = .storing pluginName now value) :
    Sourced cacheDurationS as ((s.goes i (.returningValue pluginName now value)).sets pluginName
      (value, now + fromSeconds s.cacheDurationS)) := by
  have backed := sourced.calls i
  rw [storing] at backed
  obtain ⟨read, a, member, call, name, same, answered⟩ := backed
  have gone : Sourced cacheDurationS as (s.goes i (.returningValue pluginName now value)) :=
    sourced.goes ⟨read, a, member, name, same, Or.inr ⟨call, answered⟩⟩
  refine ⟨gone.duration, gone.past, fun other value' expiry entry => ?_, gone.calls⟩
  change Function.update s.cache pluginName _ other = some (value', expiry) at entry
  by_cases here : other = pluginName
  · subst here
    rw [Function.update_self] at entry
    obtain ⟨rfl, rfl⟩ := Prod.mk.inj (Option.some.inj entry)
    refine ⟨a, member, name, same, ?_⟩
    rw [sourced.duration]
    omega
  · rw [Function.update_of_ne here] at entry
    exact sourced.cached other value' expiry entry

/-- A step keeps the sources. -/
theorem Sourced.step {cacheDurationS : Int} {as : List Answer} {s s' : PluginManager} {a : Action}
    (sourced : Sourced cacheDurationS as s) (step : s.step a = some s') :
    Sourced cacheDurationS (as ++ s.observeAnswer a) s' := by
  cases a with
  | pass ticks =>
    obtain rfl := Option.some.inj step
    have later : s.clock ≤ s.clock + ticks := by omega
    rw [show s.observeAnswer (.pass ticks) = [] from rfl, List.append_nil]
    exact ⟨sourced.duration, fun a member => Int.le_trans (sourced.past a member) later,
      sourced.cached, fun i => (sourced.calls i).mono (List.Subset.refl _) later⟩
  | call i pluginName defaultValue =>
    rw [show s.observeAnswer (.call i pluginName defaultValue) = [] from rfl, List.append_nil]
    simp only [PluginManager.step] at step
    split at step
    · obtain rfl := Option.some.inj step
      exact sourced.goes trivial
    · cases step
  | readClock i =>
    rw [show s.observeAnswer (.readClock i) = [] from rfl, List.append_nil]
    simp only [PluginManager.step] at step
    split at step
    · obtain rfl := Option.some.inj step
      exact sourced.goes (Int.le_refl s.clock)
    · cases step
  | tryGetValue i =>
    rw [show s.observeAnswer (.tryGetValue i) = [] from rfl, List.append_nil]
    simp only [PluginManager.step] at step
    split at step
    · rename_i pluginName defaultValue now looking
      have read := sourced.calls i
      rw [looking] at read
      split at step
      · rename_i value found
        obtain rfl := Option.some.inj step
        refine sourced.goes ⟨read, ?_⟩
        rw [unexpired] at found
        split at found
        · rename_i value' expiry entry
          split_ifs at found with fresh
          obtain rfl := Option.some.inj found
          obtain ⟨a, member, name, same, old⟩ := sourced.cached pluginName _ expiry entry
          exact ⟨a, member, name, same, Or.inl (by omega)⟩
        · cases found
      · obtain rfl := Option.some.inj step
        exact sourced.goes read
    · cases step
  | answer i value =>
    simp only [PluginManager.step] at step
    split at step
    · rename_i pluginName defaultValue now asking
      obtain rfl := Option.some.inj step
      have read := sourced.calls i
      rw [asking] at read
      have new : s.observeAnswer (.answer i value) = [⟨i, pluginName, value, s.clock⟩] := by
        simp only [observeAnswer, asking]
      rw [new]
      have more : as ⊆ as ++ [⟨i, pluginName, value, s.clock⟩] := List.subset_append_left _ _
      have known : Sourced cacheDurationS (as ++ [⟨i, pluginName, value, s.clock⟩]) s := by
        refine ⟨sourced.duration, fun a member => ?_, fun other value' expiry entry => ?_,
          fun j => (sourced.calls j).mono more (Int.le_refl _)⟩
        · rcases List.mem_append.mp member with old | here
          · exact sourced.past a old
          · obtain rfl := List.mem_singleton.mp here
            exact Int.le_refl _
        · obtain ⟨a, member, source⟩ := sourced.cached other value' expiry entry
          exact ⟨a, more member, source⟩
      exact known.goes ⟨read, _, List.mem_append_right _ (List.mem_singleton.mpr rfl), rfl, rfl, rfl,
        read⟩
    · cases step
  | store i =>
    rw [show s.observeAnswer (.store i) = [] from rfl, List.append_nil]
    simp only [PluginManager.step] at step
    split at step
    · rename_i pluginName now value storing
      obtain rfl := Option.some.inj step
      exact sourced.store storing
    · cases step
  | return_ i =>
    rw [show s.observeAnswer (.return_ i) = [] from rfl, List.append_nil]
    simp only [PluginManager.step] at step
    split at step
    · obtain rfl := Option.some.inj step
      exact sourced.goes trivial
    · obtain rfl := Option.some.inj step
      exact sourced.goes trivial
    · cases step

/-- A result is one that the provider gave for its name. -/
def Result.Fresh (cacheDurationS : Int) (as : List Answer) (r : Result) : Prop :=
  r.now ≤ r.time ∧ ∃ a ∈ as, a.pluginName = r.pluginName ∧ a.value = r.value ∧ a.time ≤ r.time ∧
    (r.now - fromSeconds cacheDurationS < a.time ∨ a.call = r.call ∧ r.now ≤ a.time)

/-- What a call returns is fresh. -/
theorem Sourced.result {cacheDurationS : Int} {as : List Answer} {s : PluginManager} {a : Action}
    (sourced : Sourced cacheDurationS as s) {r : Result} (returned : r ∈ s.observeResult a) :
    r.Fresh cacheDurationS as := by
  have fresh : ∀ i pluginName now value,
      now ≤ s.clock ∧ Given cacheDurationS as i pluginName now value →
      Result.Fresh cacheDurationS as ⟨i, pluginName, now, value, s.clock⟩ := by
    rintro i pluginName now value ⟨read, a, member, name, same, source⟩
    exact ⟨read, a, member, name, same, sourced.past a member, source⟩
  cases a with
  | return_ i =>
    have backed := sourced.calls i
    simp only [observeResult] at returned
    split at returned
    · rename_i returning
      rw [returning] at backed
      obtain rfl := List.mem_singleton.mp returned
      exact fresh i _ _ _ backed
    · rename_i returning
      rw [returning] at backed
      obtain rfl := List.mem_singleton.mp returned
      exact fresh i _ _ _ backed
    · cases returned
  | _ => cases returned

/-- The sources and the results of every run. -/
theorem sourced {cacheDurationS : Int} {trace : List Action} {s : PluginManager}
    (ran : Trace.run step (new cacheDurationS) trace = some s) :
    Sourced cacheDurationS (answers cacheDurationS trace) s ∧
      ∀ r ∈ results cacheDurationS trace, r.Fresh cacheDurationS (answers cacheDurationS trace) := by
  refine @Trace.run_invariant _ _ step (fun trace s =>
    Sourced cacheDurationS (answers cacheDurationS trace) s ∧
      ∀ r ∈ results cacheDurationS trace, r.Fresh cacheDurationS (answers cacheDurationS trace))
    _ ?_ ?_ _ _ ran
  · refine ⟨⟨rfl, ?_, ?_, fun i => trivial⟩, ?_⟩
    · exact fun a member => by cases member
    · exact fun pluginName value expiry entry => by cases entry
    · exact fun r member => by cases member
  · rintro as s₁ a s₂ earlier ⟨before, fresh⟩ taken
    have more : answers cacheDurationS (as ++ [a]) =
        answers cacheDurationS as ++ s₁.observeAnswer a := Trace.log_concat earlier a
    have later : results cacheDurationS (as ++ [a]) =
        results cacheDurationS as ++ s₁.observeResult a := Trace.log_concat earlier a
    rw [more, later]
    refine ⟨before.step taken, fun r member => ?_⟩
    obtain ⟨read, source, known, rest⟩ : r.Fresh cacheDurationS (answers cacheDurationS as) := by
      rcases List.mem_append.mp member with old | new
      · exact fresh r old
      · exact before.result new
    exact ⟨read, source, List.mem_append_left _ known, rest⟩

/-- A call that finds no entry that expires after its time asks the provider. -/
theorem asks_of_observeLookup {s : PluginManager} {a : Action} {l : Lookup}
    (looked : l ∈ s.observeLookup a)
    (missing : ∀ value expiry, l.entry = some (value, expiry) → expiry ≤ l.now) :
    l.next = some (.asking l.pluginName l.defaultValue l.now) := by
  cases a with
  | tryGetValue i =>
    simp only [observeLookup] at looked
    split at looked
    · rename_i pluginName defaultValue now looking
      obtain rfl := List.mem_singleton.mp looked
      have none_ : s.unexpired pluginName now = none := by
        rw [unexpired]
        split
        · rename_i value expiry entry
          have old := missing value expiry entry
          exact if_neg (Int.not_lt.mpr old)
        · rfl
      simp [step, looking, none_, goes]
    · cases looked
  | _ => cases looked

/-- Whatever calls overlap: a value that is returned was given by the provider for the same name,
less than the cache duration before its call read the clock or to the call itself; and a call that
finds no entry that expires later asks the provider. -/
theorem results_fresh {cacheDurationS : Int} {trace : List Action} {s : PluginManager}
    (ran : Trace.run step (new cacheDurationS) trace = some s) :
    (∀ r ∈ results cacheDurationS trace, r.now ≤ r.time ∧
      ∃ a ∈ answers cacheDurationS trace, a.pluginName = r.pluginName ∧ a.value = r.value ∧
        a.time ≤ r.time ∧
        (r.now - fromSeconds cacheDurationS < a.time ∨ a.call = r.call ∧ r.now ≤ a.time)) ∧
    ∀ l ∈ lookups cacheDurationS trace,
      (∀ value expiry, l.entry = some (value, expiry) → expiry ≤ l.now) →
        l.next = some (.asking l.pluginName l.defaultValue l.now) := by
  refine ⟨(sourced ran).2, fun l member missing => ?_⟩
  obtain ⟨s', a, looked⟩ := Trace.exists_of_mem_log member
  exact asks_of_observeLookup looked missing

/-- One call asks the provider, another finds its answer and waits before it returns. -/
def slowReturn : List Action :=
  [.call 0 "db_not_responding" false, .readClock 0, .tryGetValue 0, .answer 0 true, .store 0,
    .return_ 0, .pass 590000000, .call 1 "db_not_responding" false, .readClock 1, .tryGetValue 1,
    .pass 20000000, .return_ 1]

theorem slowReturn_runs : ∃ s, Trace.run step (new 60) slowReturn = some s :=
  Option.isSome_iff_exists.mp (by decide)

theorem results_fresh_of_slowReturn :
    ⟨1, "db_not_responding", 590000000, true, 610000000⟩ ∈ results 60 slowReturn ∧
      ∃ a ∈ answers 60 slowReturn, a.pluginName = "db_not_responding" ∧ a.value = true ∧
        a.time ≤ 610000000 ∧
        (590000000 - fromSeconds 60 < a.time ∨ a.call = 1 ∧ 590000000 ≤ a.time) := by
  have member : ⟨1, "db_not_responding", 590000000, true, 610000000⟩ ∈ results 60 slowReturn := by
    decide
  obtain ⟨s, ran⟩ := slowReturn_runs
  exact ⟨member, ((results_fresh ran).1 _ member).2⟩

/-- At the time when the second call returns, the answer is older than the cache duration. -/
theorem old_result :
    ¬∀ (cacheDurationS : Int) (trace : List Action) (s : PluginManager),
      Trace.run step (new cacheDurationS) trace = some s →
      ∀ r ∈ results cacheDurationS trace, ∃ a ∈ answers cacheDurationS trace,
        a.pluginName = r.pluginName ∧ a.value = r.value ∧
          r.time - fromSeconds cacheDurationS ≤ a.time := by
  intro bounded
  obtain ⟨s, ran⟩ := slowReturn_runs
  have only : answers 60 slowReturn = [⟨0, "db_not_responding", true, 0⟩] := by decide
  obtain ⟨a, member, -, -, young⟩ := bounded 60 slowReturn s ran
    ⟨1, "db_not_responding", 590000000, true, 610000000⟩ (by decide)
  rw [only] at member
  obtain rfl := List.mem_singleton.mp member
  exact absurd young (by decide)

end PluginManager

end EasyTrade.Broker
