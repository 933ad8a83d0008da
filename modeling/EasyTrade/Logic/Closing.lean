import EasyTrade.Logic.Interleaving

/-!
# How programs end

A program closes with a tail when it returns by way of the tail only (`ClosesWith`), whatever
comes before. A contract that forbids errors in some state leaves an orderly program nothing
more to do there (`Orderly.returned`): its next command might be refused, and that would be an
error.
-/

namespace EasyTrade.Logic

variable {C : Type} {R : C → Type} {ε α β L G : Type} {m : Machine C R ε L G}
  {k : Contract C ε L G} {post : α → L → Prop} {allowed : C → Prop} {l : L}

namespace Program

/-- The program returns by way of a tail only. -/
def ClosesWith (tail : Program C R ε α → Prop) : Program C R ε α → Prop
  | done _ => False
  | fail _ => True
  | call command next => tail (call command next) ∨ ∀ reply, ClosesWith tail (next reply)

variable {tail : Program C R ε α → Prop} {tail' : Program C R ε β → Prop}

/-- It does not matter what comes first. -/
theorem closesWith_bind (p : Program C R ε α) {f : α → Program C R ε β}
    (second : ∀ a, (f a).ClosesWith tail') : (p >>= f).ClosesWith tail' := by
  change (p.bind f).ClosesWith tail'
  induction p with
  | done value => exact second value
  | fail error => trivial
  | call command next ih => exact .inr ih

/-- What follows a tail belongs to it. -/
theorem ClosesWith.bind {p : Program C R ε α} {f : α → Program C R ε β}
    (lift : ∀ p, tail p → tail' (p >>= f)) (first : p.ClosesWith tail) :
    (p >>= f).ClosesWith tail' := by
  change (p.bind f).ClosesWith tail'
  induction p with
  | done value => exact first.elim
  | fail error => trivial
  | call command next ih =>
    rcases first with isTail | later
    · exact .inl (lift _ isTail)
    · exact .inr fun reply => ih reply (later reply)

/-- A program that fails whatever it is answered can fail where it stands. -/
theorem Fails.aborts {p : Program C R ε α} (fails : p.Fails) (holds : p.Holds m k post l) :
    ∃ error, k.abort error l := by
  induction p with
  | done value => exact fails.elim
  | fail error => exact ⟨error, holds⟩
  | call command next ih => exact ih _ (fails _) holds.2.1

/-- Where no error is allowed an orderly program has returned. -/
theorem Orderly.returned {p : Program C R ε α} (orderly : p.Orderly allowed m.fault)
    (holds : p.Holds m k post l) (forbidden : ∀ error, ¬k.abort error l) :
    ∃ a, p = done a ∧ post a l := by
  cases p with
  | done value => exact ⟨value, rfl, holds⟩
  | fail error => exact absurd holds (forbidden error)
  | call command next =>
    obtain ⟨error, aborted⟩ := orderly.2.1.aborts holds.2.1
    exact absurd aborted (forbidden error)

end Program

namespace System

variable {ι : Type} [DecidableEq ι] {s : System ι C R ε α L G} {i : ι}

/-- A turn moves the program it names. -/
theorem thread_step_of_ne {turn : ι × Bool} (other : i ≠ turn.1) :
    (s.step m turn).threads i = s.threads i := Function.update_of_ne other ..

/-- A program that has returned stays as it is, whoever has a turn. -/
theorem thread_step_of_done {a : α} (ended : (s.threads i).program = .done a) (turn : ι × Bool) :
    (s.step m turn).threads i = s.threads i := by
  by_cases own : i = turn.1
  · subst own
    simp only [step, Function.update_self]
    rw [Thread.step, ended]
  · exact thread_step_of_ne own

end System

end EasyTrade.Logic
