import EasyTrade.Logic.Alone

/-!
# Hidden programs

A property hides a program when its turns leave the shared state as it is and keep the property.
Nobody notices a hidden program: the others, and the state they share, are where they are in the
run without its turns (`run_hidden`).
-/

namespace EasyTrade.Logic.System

variable {ι C : Type} {R : C → Type} {ε α L G : Type} [DecidableEq ι] {m : Machine C R ε L G}
  {P : Thread C R ε α L → Prop} {hidden : ι → Bool}

/-- A turn of a program with the property leaves the shared state and the property. -/
def Hides (m : Machine C R ε L G) (P : Thread C R ε α L → Prop) : Prop :=
  ∀ t g refused, P t → (t.step m g refused).2 = g ∧ P (t.step m g refused).1

/-- What keeps its promise on terms that leave no guarded command a trace is hidden. -/
theorem hides_keeps {t : Terms C ε L G} {post : α → L → Prop} (inv : L → Prop)
    (assumed : ∀ l g, inv l → t.assume l g) (free : ∀ c l, t.refusable c l)
    (kept : ∀ c l g reply l' g', t.guard c l → inv l → m.act c l g = some (reply, l', g') →
      g' = g ∧ inv l') :
    Hides m fun th : Thread C R ε α L => th.program.Keeps m t post th.priv ∧ inv th.priv := by
  rintro th g refused ⟨keeps, holds⟩
  have later : (th.step m g refused).1.program.Keeps m t post (th.step m g refused).1.priv :=
    Thread.step_keeps keeps (assumed _ g holds) fun c _ _ _ => free c th.priv
  rcases th.step_cases m g refused with
    ⟨c, -, next, reply, l', reached, acted, now⟩ | ⟨same, samePriv, -⟩
  · rw [reached] at keeps
    obtain ⟨unmoved, still⟩ := kept c th.priv g reply l' _ keeps.1 holds acted
    exact ⟨unmoved, later, by rw [now]; exact still⟩
  · exact ⟨same, later, by rw [samePriv]; exact holds⟩

/-- The two systems share one state and differ in hidden programs only. -/
structure Agree (hidden : ι → Bool) (s s' : System ι C R ε α L G) : Prop where
  shared : s.shared = s'.shared
  threads : ∀ i, hidden i = false → s.threads i = s'.threads i

/-- A turn that is not hidden does the same in both. -/
theorem Agree.step {s s' : System ι C R ε α L G} (agree : s.Agree hidden s') {turn : ι × Bool}
    (seen : hidden turn.1 = false) : (s.step m turn).Agree hidden (s'.step m turn) := by
  have own := agree.threads turn.1 seen
  refine ⟨?_, fun i seenToo => ?_⟩
  · simp only [System.step, own, agree.shared]
  · by_cases same : i = turn.1
    · subst same
      simp only [System.step, Function.update_self, own, agree.shared]
    · simp only [System.step, Function.update_of_ne same]
      exact agree.threads i seenToo

/-- A hidden turn does nothing that the other system lacks. -/
theorem Agree.hide {s s' : System ι C R ε α L G} (agree : s.Agree hidden s')
    (hides : Hides m P) {turn : ι × Bool} (unseen : hidden turn.1 = true)
    (holds : P (s.threads turn.1)) : (s.step m turn).Agree hidden s' := by
  refine ⟨(hides _ s.shared turn.2 holds).1.trans agree.shared, fun i seen => ?_⟩
  have other : i ≠ turn.1 := by
    rintro rfl
    rw [unseen] at seen
    cases seen
  simp only [System.step, Function.update_of_ne other]
  exact agree.threads i seen

/-- Nobody notices hidden programs. -/
theorem run_hidden (hides : Hides m P) (schedule : List (ι × Bool)) {s s' : System ι C R ε α L G}
    (agree : s.Agree hidden s') (holds : ∀ i, hidden i = true → P (s.threads i)) :
    (s.run m schedule).Agree hidden (s'.run m (schedule.filter fun turn => !hidden turn.1)) ∧
      ∀ i, hidden i = true → P ((s.run m schedule).threads i) := by
  induction schedule generalizing s s' with
  | nil => exact ⟨agree, holds⟩
  | cons turn rest ih =>
    have still : ∀ i, hidden i = true → P ((s.step m turn).threads i) := fun i unseen => by
      by_cases same : i = turn.1
      · subst same
        simp only [System.step, Function.update_self]
        exact (hides _ _ _ (holds _ unseen)).2
      · simp only [System.step, Function.update_of_ne same]
        exact holds i unseen
    cases unseen : hidden turn.1 with
    | true =>
      rw [List.filter_cons_of_neg (by simp [unseen])]
      exact ih (agree.hide hides unseen (holds _ unseen)) still
    | false =>
      rw [List.filter_cons_of_pos (by simp [unseen])]
      exact ih (agree.step unseen) still

end EasyTrade.Logic.System
