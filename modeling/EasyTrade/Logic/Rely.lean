import EasyTrade.Logic.Alone

/-!
# Rely and guarantee

`Keeps` forgets the shared state between two commands. Under a pact a program relies on what
others do to it in the meantime, and guarantees that its own commands do no more than others
rely on. `Assures` is the judgement: whatever happens within the rely, the program ends in its
postcondition, which then speaks of the shared state as well. In a family of programs whose
guarantees are what the others rely on, every program keeps its judgement through every
schedule (`System.run_assures`).
-/

namespace EasyTrade.Logic

/-- What a program relies on, what it guarantees, and what it may take for granted when one of
its commands is carried out. -/
structure Pact (C L G : Type) where
  /-- What others may do to the shared state. -/
  rely : G → G → Prop
  /-- What a command of the program may do to it. -/
  guarantee : G → G → Prop
  /-- The condition on which commands are carried out. -/
  granted : C → L → G → Prop
  /-- Others may do nothing. -/
  rely_refl : ∀ g, rely g g
  /-- What others do one after the other, they do together. -/
  rely_trans : ∀ {g g' g''}, rely g g' → rely g' g'' → rely g g''

namespace Program

variable {C : Type} {R : C → Type} {ε α β L G : Type}

/-- A postcondition by how a program ends. -/
def Ending (returns : α → L → G → Prop) (fails : ε → L → G → Prop) :
    Except ε α → L → G → Prop
  | .ok a => returns a
  | .error error => fails error

/-- Under the pact the program, started in these two states, guarantees what it has to and ends
in `post`, whatever it is answered and whatever others do. -/
def Assures (m : Machine C R ε L G) (κ : Pact C L G) :
    Program C R ε α → (Except ε α → L → G → Prop) → L → G → Prop
  | done value, post, l, g => ∀ g', κ.rely g g' → post (.ok value) l g'
  | fail error, post, l, g => ∀ g', κ.rely g g' → post (.error error) l g'
  | call command next, post, l, g => ∀ g', κ.rely g g' →
    Assures m κ (next (.error m.fault)) post l g' ∧
      ∀ reply l' g'', κ.granted command l g' → m.act command l g' = some (reply, l', g'') →
        κ.guarantee g' g'' ∧ Assures m κ (next (.ok reply)) post l' g''

variable {m : Machine C R ε L G} {κ : Pact C L G} {post post' : Except ε α → L → G → Prop} {l : L}
  {g g' : G}

/-- What others do within the rely does not matter. -/
theorem Assures.stable {p : Program C R ε α} (h : Assures m κ p post l g) (within : κ.rely g g') :
    Assures m κ p post l g' := by
  cases p with
  | done value => exact fun g'' later => h g'' (κ.rely_trans within later)
  | fail error => exact fun g'' later => h g'' (κ.rely_trans within later)
  | call command next => exact fun g'' later => h g'' (κ.rely_trans within later)

/-- A weaker postcondition asks no more. -/
theorem Assures.mono {p : Program C R ε α} (h : Assures m κ p post l g)
    (weaker : ∀ answer l g, post answer l g → post' answer l g) : Assures m κ p post' l g := by
  induction p generalizing l g with
  | done value => exact fun g' within => weaker _ _ _ (h g' within)
  | fail error => exact fun g' within => weaker _ _ _ (h g' within)
  | call command next ih =>
    intro g' within
    obtain ⟨refused, answered⟩ := h g' within
    refine ⟨ih _ refused, fun reply l' g'' granted acted => ?_⟩
    obtain ⟨guaranteed, later⟩ := answered reply l' g'' granted acted
    exact ⟨guaranteed, ih _ later⟩

/-- Where a program ends is related to where it started, by whatever contains its rely and its
guarantee. -/
theorem Assures.related (rel : G → G → Prop)
    (trans : ∀ {g g' g''}, rel g g' → rel g' g'' → rel g g'')
    (relied : ∀ g g', κ.rely g g' → rel g g') (contained : ∀ g g', κ.guarantee g g' → rel g g')
    {p : Program C R ε α} (h : Assures m κ p post l g) {g₀ : G} (first : rel g₀ g) :
    Assures m κ p (fun answer l g' => post answer l g' ∧ rel g₀ g') l g := by
  induction p generalizing l g with
  | done value => exact fun g' within => ⟨h g' within, trans first (relied _ _ within)⟩
  | fail error => exact fun g' within => ⟨h g' within, trans first (relied _ _ within)⟩
  | call command next ih =>
    intro g' within
    have now := trans first (relied _ _ within)
    obtain ⟨refused, answered⟩ := h g' within
    refine ⟨ih _ refused now, fun reply l' g'' granted acted => ?_⟩
    obtain ⟨guaranteed, later⟩ := answered reply l' g'' granted acted
    exact ⟨guaranteed, ih _ later (trans now (contained _ _ guaranteed))⟩

/-- A program that has ended has done so in its postcondition. -/
theorem Assures.ended {a : α} (h : Assures m κ (done a : Program C R ε α) post l g) :
    post (.ok a) l g := h g (κ.rely_refl g)

/-- A value whose postcondition others leave alone. -/
theorem assures_pure {a : α} (holds : ∀ g', κ.rely g g' → post (.ok a) l g') :
    Assures m κ (pure a : Program C R ε α) post l g := holds

/-- Sequencing: the second program starts where the first one has returned. -/
theorem assures_bind {p : Program C R ε α} {f : α → Program C R ε β}
    {post : Except ε β → L → G → Prop}
    (h : Assures m κ p
      (Ending (fun a => Assures m κ (f a) post) fun error => post (.error error)) l g) :
    Assures m κ (p >>= f) post l g := by
  change Assures m κ (p.bind f) post l g
  induction p generalizing l g with
  | done value => exact h g (κ.rely_refl g)
  | fail error => exact h
  | call command next ih =>
    intro g' within
    obtain ⟨refused, answered⟩ := h g' within
    refine ⟨ih _ refused, fun reply l' g'' granted acted => ?_⟩
    obtain ⟨guaranteed, later⟩ := answered reply l' g'' granted acted
    exact ⟨guaranteed, ih _ later⟩

/-- Catching: the handler starts where the body has failed. -/
theorem assures_tryCatch {p : Program C R ε α} {handler : ε → Program C R ε α}
    (h : Assures m κ p
      (Ending (fun a => post (.ok a)) fun error => Assures m κ (handler error) post) l g) :
    Assures m κ (tryCatch p handler) post l g := by
  change Assures m κ (p.catchWith handler) post l g
  induction p generalizing l g with
  | done value => exact h
  | fail error => exact h g (κ.rely_refl g)
  | call command next ih =>
    intro g' within
    obtain ⟨refused, answered⟩ := h g' within
    refine ⟨ih _ refused, fun reply l' g'' granted acted => ?_⟩
    obtain ⟨guaranteed, later⟩ := answered reply l' g'' granted acted
    exact ⟨guaranteed, ih _ later⟩

/-- One command: refused or not, others may act before it and after it. -/
theorem assures_perform {command : C} {post : Except ε (R command) → L → G → Prop}
    (refused : ∀ g', κ.rely g g' → post (.error m.fault) l g')
    (acts : ∀ g' reply l' g'', κ.rely g g' → κ.granted command l g' →
      m.act command l g' = some (reply, l', g'') →
      κ.guarantee g' g'' ∧ ∀ g₃, κ.rely g'' g₃ → post (.ok reply) l' g₃) :
    Assures m κ (perform command) post l g := by
  refine fun g' within => ⟨fun g'' later => refused g'' (κ.rely_trans within later), ?_⟩
  intro reply l' g'' granted acted
  exact acts g' reply l' g'' within granted acted

/-- Commands that guarantee what they have to, whoever issues them. -/
theorem Only.assures {allowed : C → Prop} {p : Program C R ε α} (only : p.Only allowed)
    (guaranteed : ∀ c l g reply l' g', allowed c → κ.granted c l g →
      m.act c l g = some (reply, l', g') → κ.guarantee g g') (l : L) (g : G) :
    Assures m κ p (fun _ _ _ => True) l g := by
  induction p generalizing l g with
  | done value => exact fun _ _ => trivial
  | fail error => exact fun _ _ => trivial
  | call command next ih =>
    exact fun g' _ => ⟨ih _ (only.2 _) l g', fun reply l' g'' granted acted =>
      ⟨guaranteed _ _ _ _ _ _ only.1 granted acted, ih _ (only.2 _) l' g''⟩⟩

end Program

namespace System

variable {ι C : Type} {R : C → Type} {ε α L G : Type} [DecidableEq ι] {m : Machine C R ε L G}
  {κ : ι → Pact C L G} {post : ι → Except ε α → L → G → Prop}

/-- A schedule in two parts. -/
theorem respects_append {cond : ι → Bool → C → L → G → Prop} {s : System ι C R ε α L G}
    {first second : List (ι × Bool)} :
    s.Respects m cond (first ++ second) ↔
      s.Respects m cond first ∧ (s.run m first).Respects m cond second := by
  induction first generalizing s with
  | nil => exact ⟨fun respects => ⟨trivial, respects⟩, fun respects => respects.2⟩
  | cons turn rest ih =>
    rw [List.cons_append, Respects, Respects, ih, and_assoc]
    rfl

/-- Every command the schedule carries out has what its program takes for granted. -/
def Grants (m : Machine C R ε L G) (κ : ι → Pact C L G) :
    System ι C R ε α L G → List (ι × Bool) → Prop :=
  Respects m fun i refused c l g => refused = false → (m.act c l g).isSome → (κ i).granted c l g

instance {s : System ι C R ε α L G} {schedule : List (ι × Bool)}
    [∀ i c l g, Decidable ((κ i).granted c l g)] : Decidable (s.Grants m κ schedule) :=
  inferInstanceAs (Decidable (s.Respects m
    (fun i refused c l g => refused = false → (m.act c l g).isSome → (κ i).granted c l g) schedule))

/-- The rule for a family of programs: where every guarantee is within what the others rely on,
every program keeps its judgement, and whatever contains all guarantees relates the shared
state to the one before. -/
theorem run_assures {rel : G → G → Prop} (refl : ∀ g, rel g g)
    (trans : ∀ {g g' g''}, rel g g' → rel g' g'' → rel g g'')
    (relied : ∀ i j, i ≠ j → ∀ g g', (κ i).guarantee g g' → (κ j).rely g g')
    (contained : ∀ i g g', (κ i).guarantee g g' → rel g g') (schedule : List (ι × Bool))
    {s : System ι C R ε α L G}
    (assures : ∀ i, (s.threads i).program.Assures m (κ i) (post i) (s.threads i).priv s.shared)
    (grants : s.Grants m κ schedule) :
    rel s.shared (s.run m schedule).shared ∧
      ∀ i, ((s.run m schedule).threads i).program.Assures m (κ i) (post i)
        ((s.run m schedule).threads i).priv (s.run m schedule).shared := by
  induction schedule generalizing s with
  | nil => exact ⟨refl _, assures⟩
  | cons turn rest ih =>
    -- one turn is a command of one program, or nothing
    have turned : rel s.shared (s.step m turn).shared ∧
        ∀ i, ((s.step m turn).threads i).program.Assures m (κ i) (post i)
          ((s.step m turn).threads i).priv (s.step m turn).shared := by
      have own := assures turn.1
      rcases (s.threads turn.1).step_cases m s.shared turn.2 with
        ⟨c, notRefused, next, reply, l', reached, acted, now⟩ | ⟨same, samePriv, ended⟩
      · rw [reached] at own
        have granted := grants.1 c next reached notRefused (by rw [acted]; rfl)
        obtain ⟨guaranteed, later⟩ :=
          (own s.shared ((κ turn.1).rely_refl _)).2 reply l' _ granted acted
        refine ⟨contained _ _ _ guaranteed, fun i => ?_⟩
        by_cases mine : turn.1 = i
        · subst mine
          change ((Function.update s.threads turn.1 _ turn.1).program).Assures m _ _ _ _
          simp only [step, Function.update_self, now]
          exact later
        · rw [show (s.step m turn).threads i = s.threads i from Function.update_of_ne (Ne.symm mine) ..]
          exact (assures i).stable (relied turn.1 i mine _ _ guaranteed)
      · have same : (s.step m turn).shared = s.shared := same
        rw [same]
        refine ⟨refl _, step_threads (P := fun i t => t.program.Assures m (κ i) (post i) t.priv
          s.shared) assures turn ?_⟩
        rcases ended with unmoved | ⟨c, next, was, next'⟩
        · rw [unmoved]
          exact own
        · rw [was] at own
          rw [next', samePriv]
          exact (own s.shared ((κ turn.1).rely_refl _)).1
    obtain ⟨related, later⟩ := ih turned.2 grants.2
    exact ⟨trans turned.1 related, later⟩

end System

end EasyTrade.Logic
