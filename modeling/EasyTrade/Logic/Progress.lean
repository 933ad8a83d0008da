import EasyTrade.Logic.Rely
import Mathlib.Data.List.Forall2

/-!
# Progress

What a program brings about when it runs alone and nothing is refused: `Leads` is the judgement,
computed command by command. And what a sequence of such runs brings about: where each of them
leaves a state at its stage or takes it to the next one, and the ones that are needed are among
them in their order, the last stage is reached (`reaches_of_sublist`).
-/

namespace EasyTrade.Logic

namespace Program

variable {C : Type} {R : C → Type} {ε α β L G : Type} {m : Machine C R ε L G}
  {post post' : Except ε α → L → G → Prop} {l l' : L} {g g' : G}

/-- A run alone, in which nothing is refused, ends in `post`. -/
def Leads (m : Machine C R ε L G) (p : Program C R ε α) (post : Except ε α → L → G → Prop) (l : L)
    (g : G) : Prop :=
  post (exec m p (fun _ => false) l g).1 (exec m p (fun _ => false) l g).2.1
    (exec m p (fun _ => false) l g).2.2

@[simp] theorem leads_pure {a : α} :
    Leads m (pure a : Program C R ε α) post l g ↔ post (.ok a) l g := Iff.rfl

@[simp] theorem leads_throw {e : ε} :
    Leads m (throw e : Program C R ε α) post l g ↔ post (.error e) l g := Iff.rfl

/-- A weaker postcondition asks no more. -/
theorem Leads.mono {p : Program C R ε α} (h : Leads m p post l g)
    (weaker : ∀ r l g, post r l g → post' r l g) : Leads m p post' l g := weaker _ _ _ h

/-- Sequencing: the second program starts where the first one has returned. -/
theorem leads_bind {p : Program C R ε α} {f : α → Program C R ε β}
    {post : Except ε β → L → G → Prop} :
    Leads m (p >>= f) post l g ↔
      Leads m p (Ending (fun a => Leads m (f a) post) fun e => post (.error e)) l g := by
  change Leads m (p.bind f) post l g ↔ _
  induction p generalizing l g with
  | done value => exact Iff.rfl
  | fail error => exact Iff.rfl
  | call command next ih =>
    simp only [Leads, bind, exec] at ih ⊢
    split <;> exact ih _

/-- Catching: the handler starts where the body has failed. -/
theorem leads_tryCatch {p : Program C R ε α} {handler : ε → Program C R ε α} :
    Leads m (tryCatch p handler) post l g ↔
      Leads m p (Ending (fun a => post (.ok a)) fun e => Leads m (handler e) post) l g := by
  change Leads m (p.catchWith handler) post l g ↔ _
  induction p generalizing l g with
  | done value => exact Iff.rfl
  | fail error => exact Iff.rfl
  | call command next ih =>
    simp only [Leads, catchWith, exec] at ih ⊢
    split <;> exact ih _

/-- A command that is carried out. -/
theorem leads_perform {c : C} {post : Except ε (R c) → L → G → Prop} {reply : R c}
    (acted : m.act c l g = some (reply, l', g')) (holds : post (.ok reply) l' g') :
    Leads m (perform c) post l g := by
  unfold Leads perform
  simp only [exec, Bool.false_eq_true, if_false, acted]
  exact holds

/-- A command that is impossible. -/
theorem leads_perform_of_none {c : C} {post : Except ε (R c) → L → G → Prop}
    (impossible : m.act c l g = none) (holds : post (.error m.fault) l g) :
    Leads m (perform c) post l g := by
  unfold Leads perform
  simp only [exec, Bool.false_eq_true, if_false, impossible]
  exact holds

end Program

/-! ## Stages -/

section Stages

variable {N A S : Type} {serves : N → A → Prop}

/-- What serves some needs serves them without the first one. -/
theorem sublistForall₂_tail {need : N} {needed : List N} {actions : List A}
    (among : List.SublistForall₂ serves (need :: needed) actions) :
    List.SublistForall₂ serves needed actions := by
  induction actions with
  | nil => cases among
  | cons action actions ih =>
    cases among with
    | cons _ others => exact .cons_right others
    | cons_right others => exact .cons_right (ih others)

/-- Stages are gone through in order. A state at a stage needs actions of certain kinds, one after
the other. An action leaves the state at its stage or takes it to the next one, and always does so
where it serves the first need: once the needs have been served in their order, whatever else was
done in between, nothing more is needed. -/
theorem reaches_of_sublist (step : A → S → S → Prop) (stage : List N → S → Prop)
    (run : List A → S → S → Prop)
    (keeps : ∀ a s s', step a s s' → stage [] s → stage [] s')
    (moves : ∀ need rest a s s', step a s s' → stage (need :: rest) s →
      stage (need :: rest) s' ∧ ¬serves need a ∨ stage rest s')
    (stays : ∀ needed s s', run [] s s' → stage needed s → stage needed s')
    (first : ∀ needed a rest s s'', run (a :: rest) s s'' → stage needed s →
      ∃ s₁ s₂, stage needed s₁ ∧ step a s₁ s₂ ∧ run rest s₂ s'')
    {needed : List N} {actions : List A} (among : List.SublistForall₂ serves needed actions)
    {s s' : S} (at_stage : stage needed s) (ran : run actions s s') : stage [] s' := by
  induction actions generalizing needed s with
  | nil =>
    cases among
    exact stays [] s s' ran at_stage
  | cons a actions ih =>
    obtain ⟨s₁, s₂, at_stage, stepped, later⟩ := first needed a actions s s' ran at_stage
    cases needed with
    | nil => exact ih .nil (keeps a s₁ s₂ stepped at_stage) later
    | cons need rest =>
      rcases moves need rest a s₁ s₂ stepped at_stage with ⟨still, unserved⟩ | next
      · cases among with
        | cons serving _ => exact absurd serving unserved
        | cons_right others => exact ih others still later
      · cases among with
        | cons _ others => exact ih others next later
        | cons_right others => exact ih (sublistForall₂_tail others) next later

end Stages

end EasyTrade.Logic
