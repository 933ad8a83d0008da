import Mathlib.Logic.Function.Basic
import EasyTrade.Logic.Program

/-!
# Interleaved programs

Any family of programs runs against one shared state. A schedule names, turn by
turn, the program that issues its next command and whether that command is
refused from outside. Nothing else is fixed, so a theorem about every schedule
is a theorem about every interleaving.

Three rules combine what is known of the programs one by one. A program that
keeps its contract keeps it in company (`System.Safe.step`). A program that an
ideal run simulates, under every hypothesis about the shared state its answers
agree with, stays simulated (`System.Follows.step`). An invariant of the private
and the shared states that every guarded command keeps holds after every
schedule (`System.run_invariant`); the schedule can be restricted to turns that
meet a condition (`System.Meets`), and where that condition is exact for a property
of the shared state, so is the restriction (`System.always_iff_meets`).
-/

namespace EasyTrade.Logic

/-- A program and its private state. -/
structure Thread (C : Type) (R : C → Type) (ε α L : Type) where
  /-- What the program still has to do. -/
  program : Program C R ε α
  /-- Its private state. -/
  priv : L

/-- A family of programs and the state they share. -/
structure System (ι C : Type) (R : C → Type) (ε α L G : Type) where
  /-- The programs. -/
  threads : ι → Thread C R ε α L
  /-- The shared state. -/
  shared : G

namespace Thread

variable {C : Type} {R : C → Type} {ε α L G M β : Type}

/-- One turn of a program: its next command is refused or carried out. A program
that has ended does nothing. -/
def step (m : Machine C R ε L G) (t : Thread C R ε α L) (g : G) (refused : Bool) :
    Thread C R ε α L × G :=
  match t.program with
  | .done _ => (t, g)
  | .fail _ => (t, g)
  | .call command next =>
    match if refused then none else m.act command t.priv g with
    | some (reply, priv, shared) => (⟨next (.ok reply), priv⟩, shared)
    | none => (⟨next (.error m.fault), t.priv⟩, g)

/-- The command a turn carries out. -/
def Issues (m : Machine C R ε L G) (t : Thread C R ε α L) (g : G) (c : C)
    (t' : Thread C R ε α L) (g' : G) : Prop :=
  ∃ next reply l', t.program = .call c next ∧ m.act c t.priv g = some (reply, l', g') ∧
    t' = ⟨next (.ok reply), l'⟩

/-- A turn carries out a command, or it changes neither state. -/
theorem step_cases (m : Machine C R ε L G) (t : Thread C R ε α L) (g : G) (refused : Bool) :
    (∃ c, refused = false ∧ t.Issues m g c (t.step m g refused).1 (t.step m g refused).2) ∨
      ((t.step m g refused).2 = g ∧ (t.step m g refused).1.priv = t.priv ∧
        ((t.step m g refused).1 = t ∨ ∃ c next, t.program = .call c next ∧
          (t.step m g refused).1.program = next (.error m.fault))) := by
  obtain ⟨program, priv⟩ := t
  cases program with
  | done value => exact .inr ⟨rfl, rfl, .inl rfl⟩
  | fail error => exact .inr ⟨rfl, rfl, .inl rfl⟩
  | call command next =>
    simp only [step]
    cases refused with
    | true => exact .inr ⟨rfl, rfl, .inr ⟨command, next, rfl, rfl⟩⟩
    | false =>
      simp only [Bool.false_eq_true, if_false]
      cases acted : m.act command priv g with
      | none => exact .inr ⟨rfl, rfl, .inr ⟨command, next, rfl, rfl⟩⟩
      | some r => exact .inl ⟨command, trivial, next, r.1, r.2.1, rfl, acted, rfl⟩

/-- The program keeps its contract from here, whatever it is answered. -/
def Safe (m : Machine C R ε L G) (k : Contract C ε L G) (post : α → L → Prop)
    (t : Thread C R ε α L) : Prop := t.program.Holds m k post t.priv

/-- A command of a safe program is guarded and leaves it safe. -/
theorem Safe.issues {m : Machine C R ε L G} {k : Contract C ε L G} {post : α → L → Prop}
    {t t' : Thread C R ε α L} {g g' : G} {c : C} (safe : t.Safe m k post) (valid : k.assume t.priv g)
    (issues : t.Issues m g c t' g') : k.guard c t.priv ∧ t'.Safe m k post := by
  obtain ⟨next, reply, l', program, acted, rfl⟩ := issues
  rw [Safe, program] at safe
  exact ⟨safe.1, safe.2.2 g reply l' g' valid acted⟩

/-- A turn of a safe program leaves it safe. -/
theorem Safe.step {m : Machine C R ε L G} {k : Contract C ε L G} {post : α → L → Prop}
    {t : Thread C R ε α L} {g : G} (safe : t.Safe m k post) (valid : k.assume t.priv g) (refused : Bool) :
    (t.step m g refused).1.Safe m k post := by
  rcases t.step_cases m g refused with ⟨c, -, issues⟩ | ⟨-, samePriv, same | ⟨c, next, was, now⟩⟩
  · exact (safe.issues valid issues).2
  · rw [same]
    exact safe
  · rw [Safe, was] at safe
    rw [Safe, now, samePriv]
    exact safe.2.1

/-- What an ideal run has to do with a program under way: the program has been
refused a command and fails, or under every hypothesis its answers agree with
the ideal run of the whole program is where the program is. -/
def Follows (act : (command : C) → M → Option (R command × M)) (fault : ε) (allowed : C → Prop)
    (agrees : β → L → Prop) (rel : β → L → M → Prop) (whole : Program C R ε α) (start : β → M)
    (t : Thread C R ε α L) : Prop :=
  t.program.Fails ∨ (t.program.Orderly allowed fault ∧ ∀ b, agrees b t.priv →
    ∃ μ, whole.eval act fault (start b) = t.program.eval act fault μ ∧ rel b t.priv μ)

/-- A turn of a program keeps the ideal run beside it. -/
theorem Follows.step {m : Machine C R ε L G} {act : (command : C) → M → Option (R command × M)}
    {allowed : C → Prop} {agrees : β → L → Prop} {rel : β → L → M → Prop}
    {whole : Program C R ε α} {start : β → M}
    (recalls : ∀ b c l g reply l' g', m.act c l g = some (reply, l', g') → agrees b l' →
      agrees b l)
    (sim : ∀ b c l g μ reply l' g', allowed c → rel b l μ → m.act c l g = some (reply, l', g') →
      agrees b l' → ∃ μ', act c μ = some (reply, μ') ∧ rel b l' μ')
    {t : Thread C R ε α L} (follows : t.Follows act m.fault allowed agrees rel whole start)
    (g : G) (refused : Bool) :
    (t.step m g refused).1.Follows act m.fault allowed agrees rel whole start := by
  rcases t.step_cases m g refused with
    ⟨c, -, next, reply, l', program, acted, now⟩ | ⟨-, -, same | ⟨c, next, program, now⟩⟩
  · rw [now]
    rcases follows with fails | ⟨orderly, ideal⟩
    · rw [program] at fails
      exact .inl (fails _)
    · rw [program] at orderly ideal
      refine .inr ⟨orderly.2.2 reply, fun b agreed => ?_⟩
      obtain ⟨μ, whole, related⟩ := ideal b (recalls _ _ _ _ _ _ _ acted agreed)
      obtain ⟨μ', answer, related'⟩ := sim _ _ _ _ _ _ _ _ orderly.1 related acted agreed
      exact ⟨μ', by rw [whole, Program.eval, answer], related'⟩
  · rw [same]
    exact follows
  · rcases follows with fails | ⟨orderly, -⟩
    · rw [program] at fails
      exact .inl (by rw [now]; exact fails _)
    · rw [program] at orderly
      exact .inl (by rw [now]; exact orderly.2.1)

end Thread

namespace System

variable {ι C : Type} {R : C → Type} {ε α L G : Type} [DecidableEq ι]

/-- The private states of all programs. -/
def privs (s : System ι C R ε α L G) : ι → L := fun i => (s.threads i).priv

/-- One turn: the named program issues its next command. -/
def step (m : Machine C R ε L G) (s : System ι C R ε α L G) (turn : ι × Bool) :
    System ι C R ε α L G :=
  let moved := (s.threads turn.1).step m s.shared turn.2
  ⟨Function.update s.threads turn.1 moved.1, moved.2⟩

/-- The state after a schedule. -/
def run (m : Machine C R ε L G) (s : System ι C R ε α L G) (schedule : List (ι × Bool)) :
    System ι C R ε α L G := schedule.foldl (step m) s

/-- Every command the schedule carries out meets the condition when issued. -/
def Meets (m : Machine C R ε L G) (cond : C → L → G → Prop) :
    System ι C R ε α L G → List (ι × Bool) → Prop
  | _, [] => True
  | s, turn :: rest =>
    (∀ command next, (s.threads turn.1).program = .call command next → turn.2 = false →
      cond command (s.threads turn.1).priv s.shared) ∧
    Meets m cond (s.step m turn) rest

/-- Whether a given schedule meets the condition can be computed. -/
instance Meets.decidable (m : Machine C R ε L G) (cond : C → L → G → Prop)
    [∀ c l g, Decidable (cond c l g)] : ∀ (schedule : List (ι × Bool)) (s : System ι C R ε α L G),
      Decidable (s.Meets m cond schedule)
  | [], _ => isTrue trivial
  | turn :: rest, s =>
    have now : Decidable (∀ command next, (s.threads turn.1).program = .call command next →
        turn.2 = false → cond command (s.threads turn.1).priv s.shared) :=
      match reached : (s.threads turn.1).program with
      | .done _ => isTrue nofun
      | .fail _ => isTrue nofun
      | .call command _ =>
        decidable_of_iff (turn.2 = false → cond command (s.threads turn.1).priv s.shared)
          ⟨fun met _ _ same => by cases same; exact met, fun met => met command _ rfl⟩
    have later := Meets.decidable m cond rest (s.step m turn)
    instDecidableAnd

variable {m : Machine C R ε L G} {k : Contract C ε L G} {post : ι → α → L → Prop}
  {cond : C → L → G → Prop}

/-- The private states after a turn. -/
theorem privs_step (s : System ι C R ε α L G) (turn : ι × Bool) :
    (s.step m turn).privs = Function.update s.privs turn.1
      ((s.threads turn.1).step m s.shared turn.2).1.priv := by
  funext j
  by_cases same : j = turn.1
  · subst same
    simp only [privs, step, Function.update_self]
  · simp only [privs, step, Function.update_of_ne same]

/-- What a property of each program keeps through its own turns, it keeps through
every turn. -/
theorem step_threads {P : ι → Thread C R ε α L → Prop} {s : System ι C R ε α L G}
    (h : ∀ i, P i (s.threads i)) (turn : ι × Bool)
    (own : P turn.1 ((s.threads turn.1).step m s.shared turn.2).1) (i : ι) :
    P i ((s.step m turn).threads i) := by
  by_cases same : i = turn.1
  · subst same
    simpa only [step, Function.update_self] using own
  · simpa only [step, Function.update_of_ne same] using h i

/-- A turn of a program that has ended changes nothing. -/
theorem shared_step_of_ended {s : System ι C R ε α L G} {turn : ι × Bool}
    (ended : ∀ c next, (s.threads turn.1).program ≠ .call c next) :
    (s.step m turn).shared = s.shared := by
  rcases (s.threads turn.1).step_cases m s.shared turn.2 with
    ⟨c, -, next, reply, l', reached, -⟩ | ⟨same, -⟩
  · exact absurd reached (ended c next)
  · exact same

/-- A turn of a program under way changes what its next command changes. -/
theorem shared_step_of_call {s : System ι C R ε α L G} {turn : ι × Bool} {c : C}
    {next : Except ε (R c) → Program C R ε α}
    (reached : (s.threads turn.1).program = .call c next) :
    (s.step m turn).shared =
      ((if turn.2 then none else m.act c (s.threads turn.1).priv s.shared).map
        fun r => r.2.2).getD s.shared := by
  simp only [step, Thread.step, reached]
  cases if turn.2 = true then none else m.act c (s.threads turn.1).priv s.shared <;> rfl

/-- The invariant rule: what every guarded command that meets the condition keeps
holds after every schedule whose turns meet it, and the programs keep their
contracts. -/
theorem run_invariant (inv : (ι → L) → G → Prop) (valid : ∀ privs g, inv privs g → ∀ i, k.assume (privs i) g)
    (kept : ∀ privs i g c reply l' g', k.guard c (privs i) → cond c (privs i) g → inv privs g →
      m.act c (privs i) g = some (reply, l', g') → inv (Function.update privs i l') g')
    (schedule : List (ι × Bool)) {s : System ι C R ε α L G}
    (safe : ∀ i, (s.threads i).Safe m k (post i)) (start : inv s.privs s.shared)
    (meets : s.Meets m cond schedule) :
    inv (s.run m schedule).privs (s.run m schedule).shared ∧
      ∀ i, ((s.run m schedule).threads i).Safe m k (post i) := by
  induction schedule generalizing s with
  | nil => exact ⟨start, safe⟩
  | cons turn rest ih =>
    have assumed := valid _ _ start turn.1
    refine ih (step_threads (P := fun i t => t.Safe m k (post i)) safe turn
      ((safe turn.1).step assumed turn.2)) ?_ meets.2
    rw [privs_step]
    rcases (s.threads turn.1).step_cases m s.shared turn.2 with
      ⟨c, notRefused, issues⟩ | ⟨sameShared, samePriv, -⟩
    · have guarded := ((safe turn.1).issues assumed issues).1
      obtain ⟨next, reply, l', program, acted, now⟩ := issues
      rw [now]
      exact kept s.privs turn.1 _ c _ _ _ guarded (meets.1 c next program notRefused) start acted
    · rw [samePriv]
      change inv (Function.update s.privs turn.1 (s.privs turn.1)) _
      rw [Function.update_eq_self]
      exact (show (s.step m turn).shared = s.shared from sameShared) ▸ start

/-- A property of the shared state that every guarded command keeps just under a condition,
as long as an invariant holds, is there all along a schedule just where the schedule meets
the condition. -/
theorem always_iff_meets {P : G → Prop} (inv : (ι → L) → G → Prop)
    (valid : ∀ privs g, inv privs g → ∀ i, k.assume (privs i) g)
    (kept : ∀ privs i g c reply l' g', k.guard c (privs i) → inv privs g →
      m.act c (privs i) g = some (reply, l', g') → inv (Function.update privs i l') g')
    (exact : ∀ privs i g c reply l' g', k.guard c (privs i) → inv privs g → P g →
      m.act c (privs i) g = some (reply, l', g') → (P g' ↔ cond c (privs i) g))
    (schedule : List (ι × Bool)) {s : System ι C R ε α L G}
    (safe : ∀ i, (s.threads i).Safe m k (post i)) (start : inv s.privs s.shared) :
    (∀ n, P (s.run m (schedule.take n)).shared) ↔
      P s.shared ∧ s.Meets m (fun c l g => (m.act c l g).isSome → cond c l g) schedule := by
  induction schedule generalizing s with
  | nil => simp [run, Meets]
  | cons turn rest ih =>
    have anyway : Meets m (fun _ _ _ => True) s [turn] := ⟨fun _ _ _ _ => trivial, trivial⟩
    obtain ⟨later, safe'⟩ := run_invariant inv valid
      (fun privs i g c reply l' g' guarded _ => kept privs i g c reply l' g' guarded) [turn] safe
      start anyway
    -- the property survives one turn just under the condition
    have turns : P s.shared → (P (s.step m turn).shared ↔
        ∀ c next, (s.threads turn.1).program = .call c next → turn.2 = false →
          (m.act c (s.threads turn.1).priv s.shared).isSome →
          cond c (s.threads turn.1).priv s.shared) := by
      intro holds
      cases reached : (s.threads turn.1).program with
      | done value =>
        rw [shared_step_of_ended (by simp [reached])]
        exact iff_of_true holds fun _ _ same => by cases same
      | fail error =>
        rw [shared_step_of_ended (by simp [reached])]
        exact iff_of_true holds fun _ _ same => by cases same
      | call command next =>
        have guarded : k.guard command (s.threads turn.1).priv := by
          have own := safe turn.1
          rw [Thread.Safe, reached] at own
          exact own.1
        rw [shared_step_of_call reached]
        cases refused : turn.2 with
        | true => exact iff_of_true holds fun _ _ _ off => by cases off
        | false =>
          simp only [Bool.false_eq_true, if_false]
          cases acted : m.act command (s.threads turn.1).priv s.shared with
          | none =>
            refine iff_of_true holds fun c next' same _ possible => ?_
            cases same
            rw [acted] at possible
            cases possible
          | some r =>
            have step := exact s.privs turn.1 _ _ _ _ _ guarded start holds acted
            constructor
            · intro after c next' same _ _
              cases same
              exact step.mp after
            · intro met
              exact step.mpr (met command next rfl trivial (by rw [acted]; rfl))
    have always := ih safe' later
    constructor
    · intro holds
      obtain ⟨next, meets⟩ := always.mp fun n => holds (n + 1)
      exact ⟨holds 0, (turns (holds 0)).mp next, meets⟩
    · rintro ⟨holds, met, meets⟩ n
      cases n with
      | zero => exact holds
      | succ n => exact always.mpr ⟨(turns holds).mpr met, meets⟩ n

end System

end EasyTrade.Logic
