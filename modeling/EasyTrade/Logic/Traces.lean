import Mathlib.Data.List.Induction

/-!
# Traces

The runs of a labelled step function, known by the actions they take. What is said of a run may
speak of the trace so far and of the state after it, and is proved by one step from the other.
-/

namespace EasyTrade.Logic

namespace Trace

variable {S A : Type} (step : S → A → Option S)

/-- The state after a trace, if each of its actions can be taken. -/
def run : S → List A → Option S
  | s, [] => some s
  | s, a :: as => (step s a).bind fun s' => run s' as

/-- Every action of a trace meets a condition on the state it is taken in. -/
def Meets (condition : S → A → Prop) : S → List A → Prop
  | _, [] => True
  | s, a :: as => condition s a ∧ ∀ s' ∈ step s a, Meets condition s' as

/-- What is observed of the actions of a trace, each in the state it is taken in. -/
def log {E : Type} (observe : S → A → List E) : S → List A → List E
  | _, [] => []
  | s, a :: as => observe s a ++ (step s a).elim [] fun s' => log observe s' as

variable {step}

/-- A trace in two parts. -/
theorem run_append (s : S) (as bs : List A) :
    run step s (as ++ bs) = (run step s as).bind fun s' => run step s' bs := by
  induction as generalizing s with
  | nil => rfl
  | cons a as ih =>
    rw [List.cons_append, run, run, Option.bind_assoc]
    exact congrArg _ (funext fun s' => ih s')

/-- The parts of a trace that can be taken. -/
theorem run_append_eq_some {s s'' : S} {as bs : List A} :
    run step s (as ++ bs) = some s'' ↔
      ∃ s', run step s as = some s' ∧ run step s' bs = some s'' := by
  rw [run_append, Option.bind_eq_some_iff]

/-- A trace of one action. -/
theorem run_singleton (s : S) (a : A) : run step s [a] = step s a := by
  rw [run]
  cases step s a <;> rfl

/-- A trace and an action after it. -/
theorem run_cons_eq_some {s s'' : S} {a : A} {as : List A} :
    run step s (a :: as) = some s'' ↔ ∃ s', step s a = some s' ∧ run step s' as = some s'' := by
  rw [run, Option.bind_eq_some_iff]

/-- What holds at first and is kept by each step holds after every trace. -/
theorem run_invariant {holds : List A → S → Prop} {s : S} (first : holds [] s)
    (keeps : ∀ as s₁ a s₂, run step s as = some s₁ → holds as s₁ → step s₁ a = some s₂ →
      holds (as ++ [a]) s₂)
    {as : List A} {s' : S} (ran : run step s as = some s') : holds as s' := by
  induction as using List.reverseRecOn generalizing s' with
  | nil =>
    obtain rfl := Option.some.inj ran
    exact first
  | append_singleton as a ih =>
    obtain ⟨before, earlier, last⟩ := run_append_eq_some.mp ran
    rw [run_singleton] at last
    exact keeps as before a s' earlier (ih earlier) last

/-- The condition is met at each place of the trace. -/
theorem meets_iff {condition : S → A → Prop} {s : S} {as : List A} :
    Meets step condition s as ↔
      ∀ before a after s', as = before ++ a :: after → run step s before = some s' →
        condition s' a := by
  induction as generalizing s with
  | nil => simp [Meets]
  | cons a as ih =>
    constructor
    · rintro ⟨here, later⟩ before b after s' split ran
      cases before with
      | nil =>
        obtain ⟨rfl, rfl⟩ := List.cons.inj split
        obtain rfl := Option.some.inj ran
        exact here
      | cons first before =>
        obtain ⟨rfl, rfl⟩ := List.cons.inj split
        obtain ⟨next, step, rest⟩ := run_cons_eq_some.mp ran
        exact ih.mp (later next step) before b after s' rfl rest
    · intro each
      refine ⟨each [] a as s rfl rfl, fun next taken => ih.mpr ?_⟩
      intro before b after s' split ran
      exact each (a :: before) b after s' (by rw [split]; rfl)
        (run_cons_eq_some.mpr ⟨next, taken, ran⟩)

/-- The last action adds what is observed of it. -/
theorem log_concat {E : Type} {observe : S → A → List E} {s s' : S} {as : List A}
    (ran : run step s as = some s') (a : A) :
    log step observe s (as ++ [a]) = log step observe s as ++ observe s' a := by
  induction as generalizing s with
  | nil =>
    obtain rfl := Option.some.inj ran
    have last : (step s a).elim [] (fun s' => log step observe s' []) = [] := by
      cases step s a <;> rfl
    show observe s a ++ (step s a).elim [] (fun s' => log step observe s' []) = observe s a
    rw [last, List.append_nil]
  | cons b as ih =>
    obtain ⟨next, taken, rest⟩ := run_cons_eq_some.mp ran
    rw [List.cons_append, log, log, taken, Option.elim_some, Option.elim_some, ih rest,
      List.append_assoc]

/-- What is observed is observed of some action. -/
theorem exists_of_mem_log {E : Type} {observe : S → A → List E} {s : S} {as : List A} {e : E}
    (member : e ∈ log step observe s as) : ∃ s' a, e ∈ observe s' a := by
  induction as generalizing s with
  | nil => cases member
  | cons a as ih =>
    rcases List.mem_append.mp member with here | later
    · exact ⟨s, a, here⟩
    · cases taken : step s a with
      | none =>
        rw [taken] at later
        cases later
      | some next =>
        rw [taken] at later
        exact ih later

end Trace

end EasyTrade.Logic
