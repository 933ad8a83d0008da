import EasyTrade.Logic.Interleaving

/-!
# Terms

A contract asks a program to keep its promise whatever is refused. Terms also
say which commands may be left undone, so a program can promise what it only
keeps while nothing goes wrong at the wrong moment. `Keeps` is the judgement,
`System.Respects` restricts a schedule turn by turn, and `System.run_terms` is
the invariant rule for a family of programs, each on terms of its own.
-/

namespace EasyTrade.Logic

/-- A contract, and when a command may be left undone. -/
structure Terms (C ε L G : Type) extends Contract C ε L G where
  /-- The commands that may be refused, or be impossible, in a private state. -/
  refusable : C → L → Prop

namespace Program

variable {C : Type} {R : C → Type} {ε α β L G : Type}
  {m : Machine C R ε L G} {t : Terms C ε L G}

/-- On these terms the program, started in this private state, keeps its guard
and ends in `post` or in the abort condition, whatever it is answered. -/
def Keeps (m : Machine C R ε L G) (t : Terms C ε L G) :
    Program C R ε α → (α → L → Prop) → L → Prop
  | done value, post, l => post value l
  | fail error, _, l => t.abort error l
  | call command next, post, l =>
    t.guard command l ∧ (t.refusable command l → Keeps m t (next (.error m.fault)) post l) ∧
      ∀ g reply l' g', t.assume l g → m.act command l g = some (reply, l', g') →
        Keeps m t (next (.ok reply)) post l'

@[simp] theorem keeps_pure {value : α} {post : α → L → Prop} {l : L} :
    Keeps m t (pure value : Program C R ε α) post l ↔ post value l := Iff.rfl

@[simp] theorem keeps_throw {error : ε} {post : α → L → Prop} {l : L} :
    Keeps m t (throw error : Program C R ε α) post l ↔ t.abort error l := Iff.rfl

/-- A weaker postcondition asks no more. -/
theorem Keeps.mono {p : Program C R ε α} {post post' : α → L → Prop} {l : L}
    (h : Keeps m t p post l) (weaker : ∀ a l, post a l → post' a l) : Keeps m t p post' l := by
  induction p generalizing l with
  | done value => exact weaker _ _ h
  | fail error => exact h
  | call command next ih =>
    obtain ⟨guarded, refused, answered⟩ := h
    exact ⟨guarded, fun may => ih _ (refused may), fun g reply l' g' valid acted =>
      ih _ (answered g reply l' g' valid acted)⟩

/-- A program that may abort in more states asks no more. -/
theorem Keeps.mono_abort {p : Program C R ε α} {post : α → L → Prop} {abort : ε → L → Prop} {l : L}
    (h : Keeps m t p post l) (weaker : ∀ e l, t.abort e l → abort e l) :
    Keeps m { t with abort := abort } p post l := by
  induction p generalizing l with
  | done value => exact h
  | fail error => exact weaker _ _ h
  | call command next ih =>
    obtain ⟨guarded, refused, answered⟩ := h
    exact ⟨guarded, fun may => ih _ (refused may), fun g reply l' g' valid acted =>
      ih _ (answered g reply l' g' valid acted)⟩

/-- Sequencing: the second program starts where the first one ended. -/
@[simp] theorem keeps_bind {p : Program C R ε α} {f : α → Program C R ε β} {post : β → L → Prop}
    {l : L} : Keeps m t (p >>= f) post l ↔ Keeps m t p (fun a => Keeps m t (f a) post) l := by
  change Keeps m t (p.bind f) post l ↔ _
  induction p generalizing l with
  | done value => exact Iff.rfl
  | fail error => exact Iff.rfl
  | call command next ih => simp only [bind, Keeps, ih]

/-- Catching: the body may abort wherever the handler can take over. -/
theorem keeps_tryCatch {p : Program C R ε α} {handler : ε → Program C R ε α} {post : α → L → Prop}
    {l : L} (h : Keeps m { t with abort := fun e => Keeps m t (handler e) post } p post l) :
    Keeps m t (tryCatch p handler) post l := by
  change Keeps m t (p.catchWith handler) post l
  induction p generalizing l with
  | done value => exact h
  | fail error => exact h
  | call command next ih =>
    obtain ⟨guarded, refused, answered⟩ := h
    exact ⟨guarded, fun may => ih _ (refused may), fun g reply l' g' valid acted =>
      ih _ (answered g reply l' g' valid acted)⟩

/-- One command: it may be left undone where the terms say so, and otherwise it acts. -/
theorem keeps_perform {command : C} {post : R command → L → Prop} {l : L}
    (guarded : t.guard command l) (refused : t.refusable command l → t.abort m.fault l)
    (acts : ∀ g reply l' g', t.assume l g → m.act command l g = some (reply, l', g') →
      post reply l') : Keeps m t (perform command) post l :=
  ⟨guarded, refused, acts⟩

/-- A loop keeps an invariant that each pass of its body keeps. The invariant
sees the elements still to come. -/
theorem keeps_forEach {body : β → Program C R ε Unit} (inv : List β → L → Prop)
    (pass : ∀ b rest l, inv (b :: rest) l → Keeps m t (body b) (fun _ => inv rest) l) :
    ∀ (bs : List β) (l : L), inv bs l → Keeps m t (forEach bs body) (fun _ => inv []) l
  | [], _, h => h
  | b :: rest, l, h => by
    rw [forEach, keeps_bind]
    exact (pass b rest l h).mono fun _ l h => keeps_forEach inv pass rest l h

end Program

/-- One turn on terms: what is not carried out was refusable. -/
theorem Thread.step_keeps {C : Type} {R : C → Type} {ε α L G : Type} {m : Machine C R ε L G}
    {t : Terms C ε L G} {post : α → L → Prop} {th : Thread C R ε α L} {g : G} {refused : Bool}
    (keeps : th.program.Keeps m t post th.priv) (valid : t.assume th.priv g)
    (excused : ∀ c next, th.program = .call c next → (refused = true ∨ m.act c th.priv g = none) →
      t.refusable c th.priv) :
    (th.step m g refused).1.program.Keeps m t post (th.step m g refused).1.priv := by
  obtain ⟨program, priv⟩ := th
  cases program with
  | done value => exact keeps
  | fail error => exact keeps
  | call command next =>
    obtain ⟨-, undone, answered⟩ := keeps
    have may := excused command next rfl
    simp only [Thread.step]
    cases refused with
    | true => exact undone (may (.inl rfl))
    | false =>
      simp only [Bool.false_eq_true, if_false]
      cases acted : m.act command priv g with
      | none => exact undone (may (.inr acted))
      | some r => exact answered g r.1 r.2.1 r.2.2 valid acted

namespace System

variable {ι C : Type} {R : C → Type} {ε α L G : Type} [DecidableEq ι]

/-- Every turn of the schedule that reaches a command meets the condition: who
issues it, whether it is refused, the command and the two states. -/
def Respects (m : Machine C R ε L G) (cond : ι → Bool → C → L → G → Prop) :
    System ι C R ε α L G → List (ι × Bool) → Prop
  | _, [] => True
  | s, turn :: rest =>
    (∀ command next, (s.threads turn.1).program = .call command next →
      cond turn.1 turn.2 command (s.threads turn.1).priv s.shared) ∧
    Respects m cond (s.step m turn) rest

variable {m : Machine C R ε L G} {t : ι → Terms C ε L G} {post : ι → α → L → Prop}
  {cond : ι → Bool → C → L → G → Prop}

/-- Whether a given schedule respects the condition can be computed. -/
instance Respects.decidable [∀ i refused c l g, Decidable (cond i refused c l g)] :
    ∀ (schedule : List (ι × Bool)) (s : System ι C R ε α L G),
      Decidable (s.Respects m cond schedule)
  | [], _ => isTrue trivial
  | turn :: rest, s =>
    have now : Decidable (∀ command next, (s.threads turn.1).program = .call command next →
        cond turn.1 turn.2 command (s.threads turn.1).priv s.shared) :=
      match reached : (s.threads turn.1).program with
      | .done _ => isTrue nofun
      | .fail _ => isTrue nofun
      | .call command _ =>
        decidable_of_iff (cond turn.1 turn.2 command (s.threads turn.1).priv s.shared)
          ⟨fun met _ _ same => by cases same; exact met, fun met => met command _ rfl⟩
    have later := Respects.decidable rest (s.step m turn)
    instDecidableAnd

/-- A weaker condition is respected as well. -/
theorem Respects.mono {weaker : ι → Bool → C → L → G → Prop} {s : System ι C R ε α L G}
    {schedule : List (ι × Bool)} (h : s.Respects m cond schedule)
    (implies : ∀ i refused c l g, cond i refused c l g → weaker i refused c l g) :
    s.Respects m weaker schedule := by
  induction schedule generalizing s with
  | nil => trivial
  | cons turn rest ih =>
    exact ⟨fun c next reached => implies _ _ _ _ _ (h.1 c next reached), ih h.2⟩

/-- A condition that always holds is respected by every schedule. -/
theorem Respects.of_forall (every : ∀ i refused c l g, cond i refused c l g)
    (schedule : List (ι × Bool)) (s : System ι C R ε α L G) : s.Respects m cond schedule := by
  induction schedule generalizing s with
  | nil => trivial
  | cons turn rest ih => exact ⟨fun _ _ _ => every _ _ _ _ _, ih _⟩

/-- The invariant rule on terms: what every command that is guarded and meets
the condition keeps holds after every schedule that respects the condition, if
whatever is not carried out was refusable. -/
theorem run_terms (inv : (ι → L) → G → Prop)
    (valid : ∀ privs g, inv privs g → ∀ i, (t i).assume (privs i) g)
    (excused : ∀ privs g i c refused, inv privs g → (t i).guard c (privs i) →
      cond i refused c (privs i) g → (refused = true ∨ m.act c (privs i) g = none) →
      (t i).refusable c (privs i))
    (kept : ∀ privs g i c reply l' g', (t i).guard c (privs i) → cond i false c (privs i) g →
      inv privs g → m.act c (privs i) g = some (reply, l', g') → inv (Function.update privs i l') g')
    (schedule : List (ι × Bool)) {s : System ι C R ε α L G}
    (keeps : ∀ i, (s.threads i).program.Keeps m (t i) (post i) (s.threads i).priv)
    (start : inv s.privs s.shared) (respects : s.Respects m cond schedule) :
    inv (s.run m schedule).privs (s.run m schedule).shared ∧
      ∀ i, ((s.run m schedule).threads i).program.Keeps m (t i) (post i)
        ((s.run m schedule).threads i).priv := by
  induction schedule generalizing s with
  | nil => exact ⟨start, keeps⟩
  | cons turn rest ih =>
    have assumed := valid _ _ start turn.1
    have guarded : ∀ c next, (s.threads turn.1).program = .call c next →
        (t turn.1).guard c (s.threads turn.1).priv := by
      intro c next reached
      have keeps := keeps turn.1
      rw [reached] at keeps
      exact keeps.1
    refine ih (step_threads (P := fun i th => th.program.Keeps m (t i) (post i) th.priv) keeps turn
      (Thread.step_keeps (keeps turn.1) assumed fun c next reached undone =>
        excused _ _ _ _ _ start (guarded c next reached) (respects.1 c next reached) undone)) ?_
      respects.2
    rw [privs_step]
    rcases (s.threads turn.1).step_cases m s.shared turn.2 with
      ⟨c, notRefused, next, reply, l', reached, acted, now⟩ | ⟨sameShared, samePriv, -⟩
    · rw [now]
      have met := respects.1 c next reached
      rw [notRefused] at met
      exact kept s.privs _ turn.1 c _ _ _ (guarded c next reached) met start acted
    · rw [samePriv]
      change inv (Function.update s.privs turn.1 (s.privs turn.1)) _
      rw [Function.update_eq_self]
      exact (show (s.step m turn).shared = s.shared from sameShared) ▸ start

/-- A property of the shared state that every guarded command keeps just under a
condition holds all along a schedule just where the schedule respects the condition. -/
theorem always_iff_respects {P valid : G → Prop} {cond : C → L → G → Prop}
    (free : ∀ i c l, (t i).refusable c l) (assumed : ∀ i l g, valid g → (t i).assume l g)
    (kept : ∀ c l g reply l' g', valid g → m.act c l g = some (reply, l', g') → valid g')
    (exact : ∀ i c l g reply l' g', (t i).guard c l → valid g → P g →
      m.act c l g = some (reply, l', g') → (P g' ↔ cond c l g))
    (schedule : List (ι × Bool)) {s : System ι C R ε α L G}
    (keeps : ∀ i, (s.threads i).program.Keeps m (t i) (post i) (s.threads i).priv)
    (start : valid s.shared) :
    (∀ n, P (s.run m (schedule.take n)).shared) ↔
      P s.shared ∧ s.Respects m
        (fun _ refused c l g => refused = false → (m.act c l g).isSome → cond c l g) schedule := by
  induction schedule generalizing s with
  | nil => simp [run, Respects]
  | cons turn rest ih =>
    have guarded : ∀ c next, (s.threads turn.1).program = .call c next →
        (t turn.1).guard c (s.threads turn.1).priv := by
      intro c next reached
      have own := keeps turn.1
      rw [reached] at own
      exact own.1
    -- one turn keeps the world valid, and the property just under the condition
    have turns : valid (s.step m turn).shared ∧ (P s.shared → (P (s.step m turn).shared ↔
        ∀ c next, (s.threads turn.1).program = .call c next → turn.2 = false →
          (m.act c (s.threads turn.1).priv s.shared).isSome →
          cond c (s.threads turn.1).priv s.shared)) := by
      cases reached : (s.threads turn.1).program with
      | done value =>
        rw [shared_step_of_ended (by simp [reached])]
        refine ⟨start, fun holds => iff_of_true holds fun c next same => ?_⟩
        cases same
      | fail error =>
        rw [shared_step_of_ended (by simp [reached])]
        refine ⟨start, fun holds => iff_of_true holds fun c next same => ?_⟩
        cases same
      | call command next =>
        rw [shared_step_of_call reached]
        cases refused : turn.2 with
        | true =>
          refine ⟨start, fun holds => iff_of_true holds fun c next' same off => ?_⟩
          cases off
        | false =>
          simp only [Bool.false_eq_true, if_false]
          cases acted : m.act command (s.threads turn.1).priv s.shared with
          | none =>
            refine ⟨start, fun holds => iff_of_true holds fun c next' same _ possible => ?_⟩
            cases same
            rw [acted] at possible
            cases possible
          | some r =>
            refine ⟨kept _ _ _ _ _ _ start acted, fun holds => ?_⟩
            have step := exact _ _ _ _ _ _ _ (guarded command next reached) start holds acted
            constructor
            · intro after c next' same _ _
              cases same
              exact step.1 after
            · intro met
              exact step.2 (met command next rfl trivial (by rw [acted]; rfl))
    have later := ih
      (step_threads (P := fun i th => th.program.Keeps m (t i) (post i) th.priv) keeps turn
        (Thread.step_keeps (keeps turn.1) (assumed _ _ _ start) fun c _ _ _ => free turn.1 c _))
      turns.1
    constructor
    · intro always
      have holds := always 0
      have after := fun n => always (n + 1)
      obtain ⟨next, respects⟩ := later.1 after
      exact ⟨holds, (turns.2 holds).1 next, respects⟩
    · rintro ⟨holds, met, respects⟩ n
      cases n with
      | zero => exact holds
      | succ n => exact later.2 ⟨(turns.2 holds).2 met, respects⟩ n

end System

/-- Terms that ask for nothing. -/
def Terms.none (C ε L G : Type) : Terms C ε L G where
  assume _ _ := True
  guard _ _ := True
  abort _ _ := True
  refusable _ _ := True

/-- Every program keeps them. -/
theorem Program.keeps_none {C : Type} {R : C → Type} {ε α L G : Type} {m : Machine C R ε L G} :
    ∀ (p : Program C R ε α) (l : L), p.Keeps m (Terms.none C ε L G) (fun _ _ => True) l
  | .done _, _ => trivial
  | .fail _, _ => trivial
  | .call _ next, l =>
    ⟨trivial, fun _ => keeps_none (next _) l, fun _ _ l' _ _ _ => keeps_none (next _) l'⟩

/-- An invariant of the shared state that every command keeps holds after every schedule. -/
theorem System.run_shared {ι C : Type} {R : C → Type} {ε α L G : Type} [DecidableEq ι]
    {m : Machine C R ε L G} (inv : G → Prop)
    (kept : ∀ c l g reply l' g', inv g → m.act c l g = some (reply, l', g') → inv g')
    (schedule : List (ι × Bool)) {s : System ι C R ε α L G} (first : inv s.shared) :
    inv (s.run m schedule).shared := by
  induction schedule generalizing s with
  | nil => exact first
  | cons turn rest ih =>
    refine ih ?_
    rcases (s.threads turn.1).step_cases m s.shared turn.2 with
      ⟨c, -, next, reply, l', -, acted, -⟩ | ⟨same, -⟩
    · exact kept _ _ _ _ _ _ first acted
    · exact (show (s.step m turn).shared = s.shared from same) ▸ first

/-- Two terms at once. -/
def Terms.both {C ε L G : Type} (t t' : Terms C ε L G) : Terms C ε L G where
  assume l g := t.assume l g ∧ t'.assume l g
  guard c l := t.guard c l ∧ t'.guard c l
  abort e l := t.abort e l ∧ t'.abort e l
  refusable c l := t.refusable c l ∧ t'.refusable c l

/-- What keeps each of two terms keeps both. -/
theorem Program.Keeps.both {C : Type} {R : C → Type} {ε α L G : Type} {m : Machine C R ε L G}
    {t t' : Terms C ε L G} {p : Program C R ε α} {post post' : α → L → Prop} {l : L}
    (h : p.Keeps m t post l) (h' : p.Keeps m t' post' l) :
    p.Keeps m (t.both t') (fun a l => post a l ∧ post' a l) l := by
  induction p generalizing l with
  | done value => exact ⟨h, h'⟩
  | fail error => exact ⟨h, h'⟩
  | call command next ih =>
    obtain ⟨guarded, undone, answered⟩ := h
    obtain ⟨guarded', undone', answered'⟩ := h'
    exact ⟨⟨guarded, guarded'⟩, fun may => ih _ (undone may.1) (undone' may.2),
      fun g reply l₁ g₁ valid acted =>
        ih _ (answered g reply l₁ g₁ valid.1 acted) (answered' g reply l₁ g₁ valid.2 acted)⟩

end EasyTrade.Logic
