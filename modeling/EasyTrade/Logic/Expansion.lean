import EasyTrade.Logic.Alone

/-!
# Commands carried out by programs

`expand` has each command of a program carried out by a program over finer commands, and hands
its outcome to the rest. What every carrier keeps, any expanded program keeps (`holds_expand`).
Alone, and with nothing refused, an expanded program leaves behind what the program itself leaves
behind, if each carrier does what its command does (`leaves_expand`).
-/

namespace EasyTrade.Logic.Program

variable {C C' : Type} {R : C → Type} {R' : C' → Type} {ε α β L L' G : Type}

/-- Run the program and answer with its outcome. -/
def outcome : Program C R ε α → Program C R ε (Except ε α)
  | done value => done (.ok value)
  | fail error => done (.error error)
  | call command next => call command fun reply => (next reply).outcome

/-- Have each command carried out by a program. -/
def expand (carry : (c : C) → Program C' R' ε (R c)) : Program C R ε α → Program C' R' ε α
  | done value => done value
  | fail error => fail error
  | call command next => (carry command).outcome.bind fun reply => (next reply).expand carry

/-! ## In company -/

section Holds

variable {m : Machine C' R' ε L' G} {k : Contract C' ε L' G}

/-- An outcome is no abort. -/
theorem holds_outcome {p : Program C' R' ε α} {post : Except ε α → L' → Prop} {l : L'}
    (h : Holds m { k with abort := fun e => post (.error e) } p (fun a => post (.ok a)) l) :
    Holds m k p.outcome post l := by
  induction p generalizing l with
  | done value => exact h
  | fail error => exact h
  | call command next ih =>
    obtain ⟨guarded, refused, answered⟩ := h
    exact ⟨guarded, ih _ refused, fun g reply l' g' valid acted =>
      ih _ (answered g reply l' g' valid acted)⟩

/-- What every carrier keeps, whatever it is refused, any expanded program keeps. -/
theorem holds_expand {carry : (c : C) → Program C' R' ε (R c)} {inv : L' → Prop}
    (carried : ∀ c l, inv l →
      Holds m { k with abort := fun _ => inv } (carry c) (fun _ => inv) l)
    (aborts : ∀ e l, inv l → k.abort e l) (p : Program C R ε α) {l : L'} (first : inv l) :
    Holds m k (p.expand carry) (fun _ => inv) l := by
  induction p generalizing l with
  | done value => exact first
  | fail error => exact aborts _ _ first
  | call command next ih =>
    change Holds m k ((carry command).outcome >>= fun reply => (next reply).expand carry) _ l
    rw [holds_bind]
    have ran : Holds m k (carry command).outcome (fun _ => inv) l :=
      holds_outcome (carried command l first)
    exact ran.mono fun reply l' after => ih reply after

end Holds

/-! ## Alone -/

section Exec

variable {m : Machine C R ε L G} {m' : Machine C' R' ε L' G}

/-- Nothing is refused. -/
def never (_ : Nat) : Bool := false

/-- After a program that has returned, the rest runs from where it ended. -/
theorem exec_bind_of_ok {p : Program C R ε α} {f : α → Program C R ε β} {a : α} {l l₁ : L}
    {g g₁ : G} (ok : exec m p never l g = (.ok a, l₁, g₁)) :
    exec m (p >>= f) never l g = exec m (f a) never l₁ g₁ := by
  change exec m (p.bind f) never l g = _
  induction p generalizing l g with
  | done value =>
    cases ok
    rfl
  | fail error => cases ok
  | call command next ih =>
    simp only [bind, exec] at ok ⊢
    split <;> rename_i answer
    · rw [answer] at ok
      exact ih _ ok
    · rw [answer] at ok
      exact ih _ ok

theorem exec_outcome {p : Program C R ε α} {a : α} {l l₁ : L} {g g₁ : G}
    (ok : exec m p never l g = (.ok a, l₁, g₁)) :
    exec m p.outcome never l g = (.ok (.ok a), l₁, g₁) := by
  induction p generalizing l g with
  | done value =>
    cases ok
    rfl
  | fail error => cases ok
  | call command next ih =>
    simp only [outcome, exec] at ok ⊢
    split <;> rename_i answer
    · rw [answer] at ok
      exact ih _ ok
    · rw [answer] at ok
      exact ih _ ok

/-- A handler is not needed where nothing fails. -/
theorem exec_tryCatch_of_ok {p : Program C R ε α} {handler : ε → Program C R ε α} {a : α}
    {l l₁ : L} {g g₁ : G} (ok : exec m p never l g = (.ok a, l₁, g₁)) :
    exec m (tryCatch p handler) never l g = (.ok a, l₁, g₁) := by
  rw [exec_tryCatch_of_rethrown, ok]
  intro e failed
  rw [ok] at failed
  cases failed

/-- If every carrier returns what its command returns, and leaves behind what it leaves behind,
so does every expanded program. -/
theorem leaves_expand {carry : (c : C) → Program C' R' ε (R c)} (rel : L → L' → Prop)
    (carried : ∀ c l l' g, rel l l' → ∃ r l₁ g₁ l₁', m.act c l g = some (r, l₁, g₁) ∧
      exec m' (carry c) never l' g = (.ok r, l₁', g₁) ∧ rel l₁ l₁')
    (p : Program C R ε α) {l : L} {l' : L'} (related : rel l l') (g : G) :
    leaves m' (p.expand carry) never l' g = leaves m p never l g := by
  induction p generalizing l l' g with
  | done value => rfl
  | fail error => rfl
  | call command next ih =>
    obtain ⟨r, l₁, g₁, l₁', acted, ran, related₁⟩ := carried command l l' g related
    have fine : exec m' ((call command next).expand carry) never l' g =
        exec m' ((next (.ok r)).expand carry) never l₁' g₁ :=
      exec_bind_of_ok (exec_outcome ran)
    have coarse : exec m (call command next) never l g = exec m (next (.ok r)) never l₁ g₁ := by
      rw [exec]
      simp only [never, Bool.false_eq_true, if_false, acted]
      rfl
    rw [leaves, leaves, fine, coarse]
    exact ih (.ok r) related₁ g₁

end Exec

end EasyTrade.Logic.Program
