import Mathlib.Logic.Basic

/-!
# Programs that issue commands

A program is a tree of commands. Each command is answered by a value or by an
error, and the rest of the program depends on the answer. A `Machine` says what
a command does to the private state of the program and to the state it shares
with others; a command it cannot carry out, and any command refused from
outside, is answered by `fault` and changes nothing.

`exec` runs a program alone on a machine and `eval` runs it on an ideal state
that refuses nothing. `Holds` is the judgement about a program whose shared
state anyone may move: its guard and its end speak of the private state only,
whatever the answers were. `Orderly` says that a refused command ends the program in an error.
-/

namespace EasyTrade.Logic

/-- A program over commands `C` with answers `R`, errors `ε` and results `α`. -/
inductive Program (C : Type) (R : C → Type) (ε α : Type) where
  /-- The program has ended with a value. -/
  | done (value : α)
  /-- The program has ended with an error nobody caught. -/
  | fail (error : ε)
  /-- The program issues a command and continues with its answer. -/
  | call (command : C) (next : Except ε (R command) → Program C R ε α)

/-- What a command does to the private state `L` and the shared state `G`, if it
can be carried out, and the error that answers it otherwise. -/
structure Machine (C : Type) (R : C → Type) (ε L G : Type) where
  /-- The answer of a command and the two states after it. -/
  act : (command : C) → L → G → Option (R command × L × G)
  /-- The error of a command that is not carried out. -/
  fault : ε

/-- What a program may assume of the two states and promises about its own. -/
structure Contract (C ε L G : Type) where
  /-- What holds of the two states whenever a command is carried out. -/
  assume : L → G → Prop
  /-- What holds whenever a command is issued. -/
  guard : C → L → Prop
  /-- What holds when the program ends in an error. -/
  abort : ε → L → Prop

namespace Program

variable {C : Type} {R : C → Type} {ε α β L G M : Type}

/-- Run the first program and hand its value to the second. -/
def bind : Program C R ε α → (α → Program C R ε β) → Program C R ε β
  | done value, f => f value
  | fail error, _ => fail error
  | call command next, f => call command fun reply => (next reply).bind f

/-- Run the handler when the program ends in an error. -/
def catchWith : Program C R ε α → (ε → Program C R ε α) → Program C R ε α
  | done value, _ => done value
  | fail error, handler => handler error
  | call command next, handler => call command fun reply => (next reply).catchWith handler

instance : Monad (Program C R ε) where
  pure := done
  bind := bind

instance : MonadExceptOf ε (Program C R ε) where
  throw := fail
  tryCatch := catchWith

/-- Issue one command; its error ends the program. -/
def perform (command : C) : Program C R ε (R command) :=
  call command fun
    | .ok reply => done reply
    | .error error => fail error

/-- Run the body for each element, in order. -/
def forEach : List β → (β → Program C R ε Unit) → Program C R ε Unit
  | [], _ => pure ()
  | b :: rest, body => body b >>= fun _ => forEach rest body

/-- A run of a program alone. `fails n` refuses its `n`-th command. -/
def exec (m : Machine C R ε L G) : Program C R ε α → (Nat → Bool) → L → G → Except ε α × L × G
  | done value, _, l, g => (.ok value, l, g)
  | fail error, _, l, g => (.error error, l, g)
  | call command next, fails, l, g =>
    match if fails 0 then none else m.act command l g with
    | some (reply, l', g') => exec m (next (.ok reply)) (fun n => fails (n + 1)) l' g'
    | none => exec m (next (.error m.fault)) (fun n => fails (n + 1)) l g

/-- A run of a program on an ideal state. -/
def eval (act : (command : C) → M → Option (R command × M)) (fault : ε) :
    Program C R ε α → M → Except ε (α × M)
  | done value, μ => .ok (value, μ)
  | fail error, _ => .error error
  | call command next, μ =>
    match act command μ with
    | some (reply, μ') => eval act fault (next (.ok reply)) μ'
    | none => eval act fault (next (.error fault)) μ

/-! ## Ideal runs -/

section Eval

variable {act : (command : C) → M → Option (R command × M)} {fault : ε}

@[simp] theorem eval_pure (a : α) (μ : M) :
    eval act fault (pure a : Program C R ε α) μ = .ok (a, μ) := rfl

@[simp] theorem eval_throw (e : ε) (μ : M) :
    eval act fault (throw e : Program C R ε α) μ = .error e := rfl

theorem eval_bind (p : Program C R ε α) (f : α → Program C R ε β) (μ : M) :
    eval act fault (p >>= f) μ = (eval act fault p μ).bind fun r => eval act fault (f r.1) r.2 := by
  change eval act fault (p.bind f) μ = _
  induction p generalizing μ with
  | done value => rfl
  | fail error => rfl
  | call command next ih =>
    simp only [bind, eval]
    split <;> exact ih _ _

theorem eval_perform (command : C) (μ : M) :
    eval act fault (perform command : Program C R ε (R command)) μ =
      (act command μ).elim (.error fault) .ok := by
  unfold perform eval
  split <;> rename_i answer <;> simp [answer, eval]

/-- Where the handler only ends in errors, a program that returns has not needed it. -/
theorem eval_of_tryCatch {p : Program C R ε α} {handler : ε → Program C R ε α} {μ : M} {r : α × M}
    (rethrows : ∀ e μ, eval act fault (handler e) μ ≠ .ok r)
    (ok : eval act fault (tryCatch p handler) μ = .ok r) : eval act fault p μ = .ok r := by
  change eval act fault (p.catchWith handler) μ = _ at ok
  induction p generalizing μ with
  | done value => exact ok
  | fail error => exact absurd ok (rethrows error μ)
  | call command next ih =>
    simp only [catchWith, eval] at ok ⊢
    split at ok <;> rename_i answer <;> exact ih _ ok

/-- A program that returns does not need its handler. -/
theorem eval_tryCatch_of_ok {p : Program C R ε α} {handler : ε → Program C R ε α} {μ : M}
    {r : α × M} (ok : eval act fault p μ = .ok r) :
    eval act fault (tryCatch p handler) μ = .ok r := by
  change eval act fault (p.catchWith handler) μ = _
  induction p generalizing μ with
  | done value => exact ok
  | fail error => cases ok
  | call command next ih =>
    simp only [catchWith, eval] at ok ⊢
    split at ok <;> exact ih _ ok

/-- A sequence of two programs returns when both do. -/
theorem eval_bind_eq_ok {p : Program C R ε α} {f : α → Program C R ε β} {μ : M} {r : β × M} :
    eval act fault (p >>= f) μ = .ok r ↔
      ∃ a μ₁, eval act fault p μ = .ok (a, μ₁) ∧ eval act fault (f a) μ₁ = .ok r := by
  rw [eval_bind]
  cases eval act fault p μ with
  | error e => simp [Except.bind]
  | ok ended =>
    obtain ⟨a, μ₁⟩ := ended
    simp only [Except.bind, Except.ok.injEq, Prod.mk.injEq]
    constructor
    · exact fun next => ⟨a, μ₁, ⟨rfl, rfl⟩, next⟩
    · rintro ⟨_, _, ⟨rfl, rfl⟩, next⟩
      exact next

/-- A loop keeps an invariant that each pass of its body keeps. The invariant
sees the elements still to come. -/
theorem eval_forEach {body : β → Program C R ε Unit} (inv : List β → M → Prop)
    (pass : ∀ b rest μ μ', inv (b :: rest) μ → eval act fault (body b) μ = .ok ((), μ') →
      inv rest μ') :
    ∀ (bs : List β) (μ μ' : M), inv bs μ → eval act fault (forEach bs body) μ = .ok ((), μ') →
      inv [] μ'
  | [], _, _, start, ok => by
    cases ok
    exact start
  | b :: rest, μ, μ', start, ok => by
    obtain ⟨_, μ₁, once, others⟩ := eval_bind_eq_ok.1 ok
    exact eval_forEach inv pass rest μ₁ μ' (pass b rest μ μ₁ start once) others

end Eval

/-! ## The judgement -/

variable {m : Machine C R ε L G} {k : Contract C ε L G}

/-- Under the contract the program, started in this private state, keeps its
guard and ends in `post` or in the abort condition, whatever it is answered. -/
def Holds (m : Machine C R ε L G) (k : Contract C ε L G) :
    Program C R ε α → (α → L → Prop) → L → Prop
  | done value, post, l => post value l
  | fail error, _, l => k.abort error l
  | call command next, post, l =>
    k.guard command l ∧ Holds m k (next (.error m.fault)) post l ∧
      ∀ g reply l' g', k.assume l g → m.act command l g = some (reply, l', g') →
        Holds m k (next (.ok reply)) post l'

@[simp] theorem holds_pure {value : α} {post : α → L → Prop} {l : L} :
    Holds m k (pure value : Program C R ε α) post l ↔ post value l := Iff.rfl

@[simp] theorem holds_throw {error : ε} {post : α → L → Prop} {l : L} :
    Holds m k (throw error : Program C R ε α) post l ↔ k.abort error l := Iff.rfl

/-- A weaker postcondition asks no more. -/
theorem Holds.mono {p : Program C R ε α} {post post' : α → L → Prop} {l : L}
    (h : Holds m k p post l) (weaker : ∀ a l, post a l → post' a l) : Holds m k p post' l := by
  induction p generalizing l with
  | done value => exact weaker _ _ h
  | fail error => exact h
  | call command next ih =>
    obtain ⟨guarded, refused, answered⟩ := h
    exact ⟨guarded, ih _ refused, fun g reply l' g' valid acted =>
      ih _ (answered g reply l' g' valid acted)⟩

/-- Sequencing: the second program starts where the first one ended. -/
@[simp] theorem holds_bind {p : Program C R ε α} {f : α → Program C R ε β} {post : β → L → Prop}
    {l : L} : Holds m k (p >>= f) post l ↔ Holds m k p (fun a => Holds m k (f a) post) l := by
  change Holds m k (p.bind f) post l ↔ _
  induction p generalizing l with
  | done value => exact Iff.rfl
  | fail error => exact Iff.rfl
  | call command next ih => simp only [bind, Holds, ih]

/-- Catching: the body may abort wherever the handler can take over. -/
theorem holds_tryCatch {p : Program C R ε α} {handler : ε → Program C R ε α} {post : α → L → Prop}
    {l : L} (h : Holds m { k with abort := fun e => Holds m k (handler e) post } p post l) :
    Holds m k (tryCatch p handler) post l := by
  change Holds m k (p.catchWith handler) post l
  induction p generalizing l with
  | done value => exact h
  | fail error => exact h
  | call command next ih =>
    obtain ⟨guarded, refused, answered⟩ := h
    exact ⟨guarded, ih _ refused, fun g reply l' g' valid acted =>
      ih _ (answered g reply l' g' valid acted)⟩

/-- One command: it may be refused, and otherwise it acts. -/
theorem holds_perform {command : C} {post : R command → L → Prop} {l : L}
    (guarded : k.guard command l) (refused : k.abort m.fault l)
    (acts : ∀ g reply l' g', k.assume l g → m.act command l g = some (reply, l', g') →
      post reply l') : Holds m k (perform command) post l :=
  ⟨guarded, refused, acts⟩

/-- A loop keeps an invariant that each pass of its body keeps. The invariant
sees the elements still to come. -/
theorem holds_forEach {body : β → Program C R ε Unit} (inv : List β → L → Prop)
    (pass : ∀ b rest l, inv (b :: rest) l → Holds m k (body b) (fun _ => inv rest) l) :
    ∀ (bs : List β) (l : L), inv bs l → Holds m k (forEach bs body) (fun _ => inv []) l
  | [], _, h => h
  | b :: rest, l, h => by
    rw [forEach, holds_bind]
    exact (pass b rest l h).mono fun _ l h => holds_forEach inv pass rest l h

/-- A command that was answered was not refused. -/
private theorem of_not_refused {c : C} {refused : Bool} {l : L} {g : G} {r : R c × L × G}
    (h : (if refused then none else m.act c l g) = some r) :
    refused = false ∧ m.act c l g = some r := by
  cases refused with
  | true => cases h
  | false => exact ⟨rfl, by simpa using h⟩

/-- The two states and the outcome of a run alone, as the judgement sees them. -/
def Ends (k : Contract C ε L G) (post : α → L → Prop) : Except ε α × L × G → Prop
  | (.ok value, l, _) => post value l
  | (.error error, l, _) => k.abort error l

/-- The judgement describes runs alone, and with them an invariant of the two
states that guarded commands keep. -/
theorem exec_of_holds {p : Program C R ε α} {post : α → L → Prop} (inv : L → G → Prop)
    (kept : ∀ c l g reply l' g', k.guard c l → inv l g → m.act c l g = some (reply, l', g') →
      inv l' g') (valid : ∀ l g, inv l g → k.assume l g) (fails : Nat → Bool) {l : L} {g : G}
    (h : Holds m k p post l) (start : inv l g) :
    Ends k post (exec m p fails l g) ∧
      inv (exec m p fails l g).2.1 (exec m p fails l g).2.2 := by
  induction p generalizing l g fails with
  | done value => exact ⟨h, start⟩
  | fail error => exact ⟨h, start⟩
  | call command next ih =>
    obtain ⟨guarded, refused, answered⟩ := h
    simp only [exec]
    split
    · rename_i acted
      have acted := of_not_refused acted
      exact ih _ _ (answered _ _ _ _ (valid _ _ start) acted.2)
        (kept _ _ _ _ _ _ guarded start acted.2)
    · exact ih _ _ refused start

/-! ## Errors that end the program -/

/-- Every run of the program ends in an error. -/
def Fails : Program C R ε α → Prop
  | done _ => False
  | fail _ => True
  | call _ next => ∀ reply, Fails (next reply)

/-- A refused command ends the program in an error, and until then it issues
allowed commands only. -/
def Orderly (allowed : C → Prop) (fault : ε) : Program C R ε α → Prop
  | done _ => True
  | fail _ => True
  | call command next => allowed command ∧ (next (.error fault)).Fails ∧
      ∀ reply, Orderly allowed fault (next (.ok reply))

variable {allowed : C → Prop} {fault : ε}

/-- A program that fails returns no value. -/
theorem Fails.exec_ne_ok {p : Program C R ε α} (h : p.Fails) (fails : Nat → Bool) (l : L) (g : G)
    (a : α) : (exec m p fails l g).1 ≠ .ok a := by
  induction p generalizing l g fails with
  | done value => exact h.elim
  | fail error => simp [exec]
  | call command next ih =>
    simp only [exec]
    split
    · exact ih _ (h _) _ _ _
    · exact ih _ (h _) _ _ _

/-- A program that fails returns no value on an ideal state. -/
theorem Fails.eval_ne_ok {act : (command : C) → M → Option (R command × M)}
    {p : Program C R ε α} (h : p.Fails) (μ : M) (r : α × M) : eval act fault p μ ≠ .ok r := by
  induction p generalizing μ with
  | done value => exact h.elim
  | fail error => simp [eval]
  | call command next ih =>
    simp only [eval]
    split
    · exact ih _ (h _) _
    · exact ih _ (h _) _

/-- A run that returns a value is the run in which nothing was refused. -/
theorem Orderly.exec_eq {p : Program C R ε α} (h : p.Orderly allowed m.fault) {fails : Nat → Bool}
    {l : L} {g : G} {a : α} (ok : (exec m p fails l g).1 = .ok a) :
    exec m p (fun _ => false) l g = exec m p fails l g := by
  induction p generalizing l g fails with
  | done value => rfl
  | fail error => rfl
  | call command next ih =>
    obtain ⟨-, refused, answered⟩ := h
    simp only [exec] at ok ⊢
    split at ok
    · rename_i acted
      simp only [(of_not_refused acted).2, Bool.false_eq_true, if_false]
      exact ih _ (answered _) ok
    · exact absurd ok (refused.exec_ne_ok _ _ _ _)

theorem fails_bind {p : Program C R ε α} {f : α → Program C R ε β} (h : p.Fails) :
    (p >>= f).Fails := by
  change (p.bind f).Fails
  induction p with
  | done value => exact h.elim
  | fail error => trivial
  | call command next ih => exact fun reply => ih _ (h reply)

@[simp] theorem orderly_pure (a : α) :
    (pure a : Program C R ε α).Orderly allowed fault := trivial

@[simp] theorem orderly_throw (e : ε) :
    (throw e : Program C R ε α).Orderly allowed fault := trivial

theorem orderly_bind {p : Program C R ε α} {f : α → Program C R ε β}
    (first : p.Orderly allowed fault) (second : ∀ a, (f a).Orderly allowed fault) :
    (p >>= f).Orderly allowed fault := by
  change (p.bind f).Orderly allowed fault
  induction p with
  | done value => exact second value
  | fail error => trivial
  | call command next ih =>
    obtain ⟨permitted, refused, answered⟩ := first
    exact ⟨permitted, fails_bind refused, fun reply => ih _ (answered reply)⟩

theorem orderly_perform {command : C} (permitted : allowed command) :
    (perform command : Program C R ε (R command)).Orderly allowed fault :=
  ⟨permitted, trivial, fun _ => trivial⟩

theorem orderly_forEach {body : β → Program C R ε Unit} (h : ∀ b, (body b).Orderly allowed fault) :
    ∀ bs : List β, (forEach bs body).Orderly allowed fault
  | [] => trivial
  | b :: rest => orderly_bind (h b) fun _ => orderly_forEach h rest

/-- Catching an error in order to fail afterwards still ends in an error. -/
theorem orderly_tryCatch {p : Program C R ε α} {handler : ε → Program C R ε α}
    (body : p.Orderly allowed fault) (rethrows : ∀ e, (handler e).Fails)
    (caught : ∀ e, (handler e).Orderly allowed fault) :
    (tryCatch p handler).Orderly allowed fault := by
  have fails_catchWith : ∀ q : Program C R ε α, q.Fails → (q.catchWith handler).Fails := by
    intro q failing
    induction q with
    | done value => exact failing.elim
    | fail error => exact rethrows error
    | call command next ih => exact fun reply => ih _ (failing reply)
  change (p.catchWith handler).Orderly allowed fault
  induction p with
  | done value => trivial
  | fail error => exact caught error
  | call command next ih =>
    obtain ⟨permitted, refused, answered⟩ := body
    exact ⟨permitted, fails_catchWith _ refused, fun reply => ih _ (answered reply)⟩

/-! ## Simulation -/

/-- The ideal state answers every allowed command as the machine does, as long as
the two are related. -/
def Simulates (m : Machine C R ε L G) (act : (command : C) → M → Option (R command × M))
    (allowed : C → Prop) (rel : L → G → M → Prop) : Prop :=
  ∀ c l g μ reply l' g', allowed c → rel l g μ → m.act c l g = some (reply, l', g') →
    ∃ μ', act c μ = some (reply, μ') ∧ rel l' g' μ'

/-- A run alone that returns a value is an ideal run. -/
theorem Orderly.exec_simulated {act : (command : C) → M → Option (R command × M)}
    {rel : L → G → M → Prop} (sim : Simulates m act allowed rel) {p : Program C R ε α}
    (h : p.Orderly allowed m.fault) {fails : Nat → Bool} {l : L} {g : G} {μ : M} {a : α}
    (related : rel l g μ) (ok : (exec m p fails l g).1 = .ok a) :
    ∃ μ', eval act m.fault p μ = .ok (a, μ') ∧
      rel (exec m p fails l g).2.1 (exec m p fails l g).2.2 μ' := by
  induction p generalizing l g fails μ with
  | done value =>
    cases ok
    exact ⟨μ, rfl, related⟩
  | fail error => cases ok
  | call command next ih =>
    obtain ⟨permitted, refused, answered⟩ := h
    simp only [exec] at ok ⊢
    split at ok
    · rename_i reply l' g' acted
      obtain ⟨μ', ideal, related'⟩ := sim _ _ _ _ _ _ _ permitted related (of_not_refused acted).2
      simp only [eval, ideal]
      exact ih _ (answered _) related' ok
    · exact absurd ok (refused.exec_ne_ok _ _ _ _)

/-- An ideal run that returns a value is the run alone in which nothing is refused, where
the machine carries out what the ideal state answers. -/
theorem Orderly.eval_simulated {act : (command : C) → M → Option (R command × M)}
    {rel : L → G → M → Prop} (sim : Simulates m act allowed rel)
    (total : ∀ c l g μ, allowed c → rel l g μ → m.act c l g = none → act c μ = none)
    {p : Program C R ε α} (h : p.Orderly allowed m.fault) {l : L} {g : G} {μ μ' : M} {a : α}
    (related : rel l g μ) (ok : eval act m.fault p μ = .ok (a, μ')) :
    (exec m p (fun _ => false) l g).1 = .ok a := by
  induction p generalizing l g μ with
  | done value =>
    cases ok
    rfl
  | fail error => cases ok
  | call command next ih =>
    obtain ⟨permitted, refused, answered⟩ := h
    simp only [exec, Bool.false_eq_true, if_false]
    cases acted : m.act command l g with
    | none =>
      have ideal := total _ _ _ _ permitted related acted
      simp only [eval, ideal] at ok
      exact absurd ok (refused.eval_ne_ok _ _)
    | some r =>
      obtain ⟨reply, l', g'⟩ := r
      obtain ⟨μ₁, ideal, related'⟩ := sim _ _ _ _ _ _ _ permitted related acted
      simp only [eval, ideal] at ok
      exact ih _ (answered _) related' ok

end Program

end EasyTrade.Logic
