import EasyTrade.Logic.Terms

/-!
# The state a program alone leaves behind

`leaves` is the shared state at the end of a run alone, whatever the outcome. It
is computed command by command (`leaves_send`), and a handler that issues no
command does not matter to it. `Only` is the judgement that a program issues
allowed commands only; what these keep, the run keeps, alone and in company.
-/

namespace EasyTrade.Logic.Program

variable {C : Type} {R : C → Type} {ε α β L G : Type} {m : Machine C R ε L G}

/-- The shared state after a run alone. -/
def leaves (m : Machine C R ε L G) (p : Program C R ε α) (fails : Nat → Bool) (l : L) (g : G) :
    G := (exec m p fails l g).2.2

@[simp] theorem leaves_pure (a : α) (fails : Nat → Bool) (l : L) (g : G) :
    leaves m (pure a : Program C R ε α) fails l g = g := rfl

@[simp] theorem leaves_throw (e : ε) (fails : Nat → Bool) (l : L) (g : G) :
    leaves m (throw e : Program C R ε α) fails l g = g := rfl

/-- The next command of a run alone, if it is carried out. -/
def attempt (m : Machine C R ε L G) (refused : Bool) (c : C) (l : L) (g : G) :
    Option (R c × L × G) := if refused then none else m.act c l g

@[simp] theorem attempt_true (c : C) (l : L) (g : G) : attempt m true c l g = none := rfl

@[simp] theorem attempt_false (c : C) (l : L) (g : G) : attempt m false c l g = m.act c l g := rfl

theorem attempt_eq_some {refused : Bool} {c : C} {l : L} {g : G} {r : R c × L × G} :
    attempt m refused c l g = some r ↔ refused = false ∧ m.act c l g = some r := by
  cases refused <;> simp [attempt]

theorem attempt_eq_none {refused : Bool} {c : C} {l : L} {g : G} :
    attempt m refused c l g = none ↔ refused = true ∨ m.act c l g = none := by
  cases refused <;> simp [attempt]

/-- A command whose refusal ends the program, and the rest after it. -/
theorem leaves_send (c : C) (f : R c → Program C R ε α) (fails : Nat → Bool) (l : L) (g : G) :
    leaves m (perform c >>= f) fails l g =
      (attempt m (fails 0) c l g).elim g fun r =>
        leaves m (f r.1) (fun n => fails (n + 1)) r.2.1 r.2.2 := by
  change (exec m (.call c fun reply => Program.bind _ f) fails l g).2.2 = _
  rw [exec, attempt]
  split <;> rename_i answer <;> simp only [answer] <;> rfl

/-- Sequences of sequences. -/
theorem bind_assoc {γ : Type} (p : Program C R ε α) (f : α → Program C R ε β)
    (g : β → Program C R ε γ) : (p >>= f) >>= g = p >>= fun a => f a >>= g := by
  change (p.bind f).bind g = p.bind fun a => (f a).bind g
  induction p with
  | done value => rfl
  | fail error => rfl
  | call command next ih =>
    simp only [bind]
    congr 1
    funext reply
    exact ih reply

/-- The whole outcome, command by command. -/
theorem exec_send (c : C) (f : R c → Program C R ε α) (fails : Nat → Bool) (l : L) (g : G) :
    exec m (perform c >>= f) fails l g =
      (attempt m (fails 0) c l g).elim (.error m.fault, l, g) fun r =>
        exec m (f r.1) (fun n => fails (n + 1)) r.2.1 r.2.2 := by
  change exec m (.call c fun reply => Program.bind _ f) fails l g = _
  rw [exec, attempt]
  split <;> rename_i answer <;> simp only [answer] <;> rfl

@[simp] theorem exec_pure (a : α) (fails : Nat → Bool) (l : L) (g : G) :
    exec m (pure a : Program C R ε α) fails l g = (.ok a, l, g) := rfl

/-- What a program that answers its errors returns. -/
def caught (answer : ε → α) : Except ε α → α
  | .ok a => a
  | .error e => answer e

/-- A handler that only answers changes the outcome where there is an error. -/
theorem exec_tryCatch {p : Program C R ε α} {handler : ε → Program C R ε α} {answer : ε → α}
    (quiet : ∀ e, handler e = pure (answer e)) (fails : Nat → Bool) (l : L) (g : G) :
    exec m (tryCatch p handler) fails l g =
      (.ok (caught answer (exec m p fails l g).1), (exec m p fails l g).2) := by
  change exec m (p.catchWith handler) fails l g = _
  induction p generalizing fails l g with
  | done value => rfl
  | fail error =>
    rw [catchWith, quiet]
    rfl
  | call command next ih =>
    simp only [catchWith, exec]
    split <;> exact ih _ _ _ _

/-- A handler that passes on the error that reaches it makes no difference. -/
theorem exec_tryCatch_of_rethrown {p : Program C R ε α} {handler : ε → Program C R ε α}
    {fails : Nat → Bool} {l : L} {g : G}
    (rethrown : ∀ e, (exec m p fails l g).1 = .error e → handler e = fail e) :
    exec m (tryCatch p handler) fails l g = exec m p fails l g := by
  change exec m (p.catchWith handler) fails l g = _
  induction p generalizing fails l g with
  | done value => rfl
  | fail error =>
    rw [catchWith, rethrown error rfl]
  | call command next ih =>
    simp only [exec] at rethrown
    simp only [catchWith, exec]
    split <;> rename_i answer
    · rw [answer] at rethrown
      exact ih _ rethrown
    · rw [answer] at rethrown
      exact ih _ rethrown

/-- A handler that issues no command leaves things as they are. -/
theorem leaves_tryCatch {p : Program C R ε α} {handler : ε → Program C R ε α}
    (quiet : ∀ e, (∃ a, handler e = done a) ∨ ∃ e', handler e = fail e') (fails : Nat → Bool)
    (l : L) (g : G) : leaves m (tryCatch p handler) fails l g = leaves m p fails l g := by
  change (exec m (p.catchWith handler) fails l g).2.2 = (exec m p fails l g).2.2
  induction p generalizing fails l g with
  | done value => rfl
  | fail error =>
    rcases quiet error with ⟨a, ends⟩ | ⟨e, ends⟩ <;> rw [catchWith, ends] <;> rfl
  | call command next ih =>
    simp only [catchWith, exec]
    split <;> exact ih _ _ _ _

/-- The program issues allowed commands only. -/
def Only (allowed : C → Prop) : Program C R ε α → Prop
  | done _ => True
  | fail _ => True
  | call command next => allowed command ∧ ∀ reply, Only allowed (next reply)

variable {allowed : C → Prop}

/-- More may be allowed. -/
theorem Only.mono {allowed' : C → Prop} {p : Program C R ε α} (only : p.Only allowed)
    (implies : ∀ c, allowed c → allowed' c) : p.Only allowed' := by
  induction p with
  | done value => trivial
  | fail error => trivial
  | call command next ih => exact ⟨implies _ only.1, fun reply => ih _ (only.2 reply)⟩

theorem only_of_forall (every : ∀ c, allowed c) : ∀ p : Program C R ε α, p.Only allowed
  | done _ => trivial
  | fail _ => trivial
  | call command next => ⟨every command, fun reply => only_of_forall every (next reply)⟩

@[simp] theorem only_pure (a : α) : (pure a : Program C R ε α).Only allowed := trivial

@[simp] theorem only_throw (e : ε) : (throw e : Program C R ε α).Only allowed := trivial

theorem only_perform {c : C} (permitted : allowed c) :
    (perform c : Program C R ε (R c)).Only allowed := by
  refine ⟨permitted, fun reply => ?_⟩
  cases reply <;> trivial

/-- A program whose commands are some among others. -/
def among {D : Type} {S : D → Type} : Program C R ε α → Program (C ⊕ D) (Sum.elim R S) ε α
  | done value => done value
  | fail error => fail error
  | call command next => call (.inl command) fun reply => (next reply).among

/-- It issues the commands it issued before. -/
theorem Only.among {D : Type} {S : D → Type} {allowed' : C ⊕ D → Prop} {p : Program C R ε α}
    (only : p.Only allowed) (implies : ∀ c, allowed c → allowed' (.inl c)) :
    (p.among : Program (C ⊕ D) (Sum.elim R S) ε α).Only allowed' := by
  induction p with
  | done value => trivial
  | fail error => trivial
  | call command next ih => exact ⟨implies _ only.1, fun reply => ih _ (only.2 reply)⟩

theorem only_bind {p : Program C R ε α} {f : α → Program C R ε β} (first : p.Only allowed)
    (second : ∀ a, (f a).Only allowed) : (p >>= f).Only allowed := by
  change (p.bind f).Only allowed
  induction p with
  | done value => exact second value
  | fail error => trivial
  | call command next ih => exact ⟨first.1, fun reply => ih _ (first.2 reply)⟩

theorem only_tryCatch {p : Program C R ε α} {handler : ε → Program C R ε α}
    (body : p.Only allowed) (handled : ∀ e, (handler e).Only allowed) :
    (tryCatch p handler).Only allowed := by
  change (p.catchWith handler).Only allowed
  induction p with
  | done value => trivial
  | fail error => exact handled error
  | call command next ih => exact ⟨body.1, fun reply => ih _ (body.2 reply)⟩

theorem only_forEach {body : β → Program C R ε Unit} (each : ∀ b, (body b).Only allowed) :
    ∀ bs : List β, (forEach bs body).Only allowed
  | [] => trivial
  | b :: rest => only_bind (each b) fun _ => only_forEach each rest

/-- What every allowed command keeps, a run of allowed commands keeps. -/
theorem Only.leaves_inv {p : Program C R ε α} (only : p.Only allowed) (inv : G → Prop)
    (kept : ∀ c l g reply l' g', allowed c → inv g → m.act c l g = some (reply, l', g') → inv g')
    (fails : Nat → Bool) (l : L) {g : G} (start : inv g) : inv (leaves m p fails l g) := by
  unfold leaves
  induction p generalizing fails l g with
  | done value => exact start
  | fail error => exact start
  | call command next ih =>
    simp only [exec]
    split
    · rename_i reply l' g' answered
      have acted : m.act command l g = some (reply, l', g') := by
        split at answered
        · cases answered
        · exact answered
      exact ih _ (only.2 _) _ _ (kept _ _ _ _ _ _ only.1 start acted)
    · exact ih _ (only.2 _) _ _ start

/-- What every allowed command keeps of the private state, a program of allowed
commands keeps on any terms that leave these commands free. -/
theorem Only.keeps {t : Terms C ε L G} {p : Program C R ε α} (only : p.Only allowed)
    (inv : L → Prop) (free : ∀ c l, allowed c → inv l → t.guard c l)
    (kept : ∀ c l g reply l' g', allowed c → inv l → m.act c l g = some (reply, l', g') → inv l')
    (ends : ∀ e l, inv l → t.abort e l) {l : L} (start : inv l) :
    Keeps m t p (fun _ => inv) l := by
  induction p generalizing l with
  | done value => exact start
  | fail error => exact ends error l start
  | call command next ih =>
    exact ⟨free _ _ only.1 start, fun _ => ih _ (only.2 _) start, fun g reply l' g' _ acted =>
      ih _ (only.2 _) (kept _ _ _ _ _ _ only.1 start acted)⟩

/-! ## Programs that end -/

/-- The program has ended. -/
inductive Ended : Program C R ε α → Prop
  | done (value : α) : Ended (done value)
  | fail (error : ε) : Ended (fail error)

/-- The program ends within so many commands, whatever it is answered. -/
def Within : Nat → Program C R ε α → Prop
  | _, done _ => True
  | _, fail _ => True
  | 0, call _ _ => False
  | k + 1, call _ next => ∀ reply, Within k (next reply)

/-- A program that has ended and does not abort has kept its promise. -/
theorem Keeps.of_ended {t : Terms C ε L G} {p : Program C R ε α} {post : α → L → Prop} {l : L}
    (keeps : p.Keeps m t post l) (ended : p.Ended) (never : ∀ e, ¬t.abort e l) :
    ∃ a, post a l := by
  cases ended with
  | done value => exact ⟨value, keeps⟩
  | fail error => exact absurd keeps (never error)

theorem Within.mono {k k' : Nat} {p : Program C R ε α} (within : p.Within k) (le : k ≤ k') :
    p.Within k' := by
  induction p generalizing k k' with
  | done value => cases k' <;> trivial
  | fail error => cases k' <;> trivial
  | call command next ih =>
    cases k with
    | zero => exact within.elim
    | succ k =>
      cases k' with
      | zero => omega
      | succ k' => exact fun reply => ih reply (within reply) (by omega)

theorem within_bind {j k : Nat} {p : Program C R ε α} {f : α → Program C R ε β}
    (first : p.Within j) (second : ∀ a, (f a).Within k) : (p >>= f).Within (j + k) := by
  change (p.bind f).Within (j + k)
  induction p generalizing j with
  | done value => exact (second value).mono (by omega)
  | fail error => cases j + k <;> trivial
  | call command next ih =>
    cases j with
    | zero => exact first.elim
    | succ j =>
      rw [Nat.succ_add]
      exact fun reply => ih reply (first reply)

/-- A command whose errors are swallowed. -/
theorem within_attempt {c : C} {handler : ε → Program C R ε (R c)}
    (quiet : ∀ e, (handler e).Within 0) : (tryCatch (perform c) handler).Within 1 := by
  intro reply
  cases reply with
  | ok answer => trivial
  | error e => exact quiet e

end EasyTrade.Logic.Program

namespace EasyTrade.Logic.System

open Program

variable {ι C : Type} {R : C → Type} {ε α L G : Type} [DecidableEq ι] {m : Machine C R ε L G}

/-- A turn uses up one command. -/
theorem step_within {k : Nat} {t : Thread C R ε α L} (within : t.program.Within (k + 1)) (g : G)
    (refused : Bool) : (t.step m g refused).1.program.Within k := by
  obtain ⟨program, priv⟩ := t
  cases program with
  | done value => cases k <;> trivial
  | fail error => cases k <;> trivial
  | call command next =>
    simp only [Thread.step]
    split
    · exact within _
    · exact within _

/-- A program that has the next turns to itself uses them, and the others wait. -/
theorem run_replicate {k : Nat} {s : System ι C R ε α L G} {i : ι}
    (within : (s.threads i).program.Within k) (refused : Bool) :
    ((s.run m (List.replicate k (i, refused))).threads i).program.Ended ∧
      ∀ j, j ≠ i → (s.run m (List.replicate k (i, refused))).threads j = s.threads j := by
  induction k generalizing s with
  | zero =>
    refine ⟨?_, fun _ _ => rfl⟩
    show ((s.threads i).program).Ended
    cases reached : (s.threads i).program with
    | done value => exact .done value
    | fail error => exact .fail error
    | call command next =>
      rw [reached] at within
      exact within.elim
  | succ k ih =>
    have others : ∀ j, j ≠ i → (s.step m (i, refused)).threads j = s.threads j :=
      fun j other => Function.update_of_ne other _ _
    have own : ((s.step m (i, refused)).threads i).program.Within k := by
      have moved : (s.step m (i, refused)).threads i =
          ((s.threads i).step m s.shared refused).1 := Function.update_self ..
      rw [moved]
      exact step_within within s.shared refused
    obtain ⟨ended, wait⟩ := ih own
    exact ⟨ended, fun j other => (wait j other).trans (others j other)⟩

theorem run_append (s : System ι C R ε α L G) (first second : List (ι × Bool)) :
    s.run m (first ++ second) = (s.run m first).run m second := List.foldl_append ..

/-- What holds before a schedule and not after it is lost in one of its turns. -/
theorem exists_turn (P : System ι C R ε α L G → Prop) {schedule : List (ι × Bool)}
    {s : System ι C R ε α L G} (first : P s) (last : ¬P (s.run m schedule)) :
    ∃ before turn after, schedule = before ++ turn :: after ∧ P (s.run m before) ∧
      ¬P ((s.run m before).step m turn) := by
  induction schedule generalizing s with
  | nil => exact absurd first last
  | cons turn rest ih =>
    by_cases now : P (s.step m turn)
    · obtain ⟨before, turn', after, rfl, held, lost⟩ := ih now last
      exact ⟨turn :: before, turn', after, rfl, held, lost⟩
    · exact ⟨[], turn, rest, rfl, first, now⟩

end EasyTrade.Logic.System
