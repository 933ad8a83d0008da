import Mathlib.Data.List.Basic
import Mathlib.Tactic.Common

/-!
# Passes

A pass takes a state through a list of items, one step for each, and is over where a
step fails. What every step keeps decides whether a pass has an end, and items whose
steps do nothing may be left out. Where the steps of items with different keys commute,
only the order of the items of one key matters.
-/

namespace EasyTrade.Logic

variable {α κ σ : Type*} {step : α → σ → Option σ}

/-- The state after the steps of all items, if none fails. -/
def pass (step : α → σ → Option σ) : List α → σ → Option σ
  | [], s => some s
  | a :: rest, s => (step a s).bind (pass step rest)

@[simp] theorem pass_nil (s : σ) : pass step [] s = some s := rfl

@[simp] theorem pass_cons (a : α) (rest : List α) (s : σ) :
    pass step (a :: rest) s = (step a s).bind (pass step rest) := rfl

theorem pass_append (items more : List α) (s : σ) :
    pass step (items ++ more) s = (pass step items s).bind (pass step more) := by
  induction items generalizing s with
  | nil => rfl
  | cons a rest ih =>
    rw [List.cons_append, pass_cons, pass_cons, Option.bind_assoc]
    exact Option.bind_congr fun s' _ => ih s'

/-! ## Passes that end -/

section Ends

variable {inv : σ → Prop} {items : List α} {s : σ}

/-- A pass ends where no step fails on the states that are kept. -/
theorem exists_pass (goes : ∀ a ∈ items, ∀ s, inv s → ∃ s', step a s = some s' ∧ inv s')
    (start : inv s) : ∃ s', pass step items s = some s' ∧ inv s' := by
  induction items generalizing s with
  | nil => exact ⟨s, rfl, start⟩
  | cons a rest ih =>
    obtain ⟨s₁, stepped, kept⟩ := goes a List.mem_cons_self s start
    obtain ⟨s', passed, kept'⟩ := ih (fun b inRest => goes b (List.mem_cons_of_mem _ inRest)) kept
    exact ⟨s', by rw [pass_cons, stepped, Option.bind_some, passed], kept'⟩

/-- A pass has no end where the step of an item fails on all states that are kept. -/
theorem pass_eq_none {a : α} (keeps : ∀ b ∈ items, ∀ s s', inv s → step b s = some s' → inv s')
    (listed : a ∈ items) (fails : ∀ s, inv s → step a s = none) (start : inv s) :
    pass step items s = none := by
  induction items generalizing s with
  | nil => cases listed
  | cons b rest ih =>
    rw [pass_cons]
    cases stepped : step b s with
    | none => rfl
    | some s₁ =>
      rcases List.mem_cons.mp listed with rfl | later
      · rw [fails s start] at stepped
        cases stepped
      · exact ih (fun c inRest => keeps c (List.mem_cons_of_mem _ inRest)) later
          (keeps b List.mem_cons_self s s₁ start stepped)

/-- Items whose steps do nothing that matters may be left out. -/
theorem pass_filter {rel : σ → σ → Prop} (keep : α → Bool) {s' : σ}
    (both : ∀ a ∈ items, keep a = true → ∀ s s', rel s s' →
      Option.Rel rel (step a s) (step a s'))
    (idle : ∀ a ∈ items, keep a = false → ∀ s s', rel s s' → ∃ s₁, step a s = some s₁ ∧ rel s₁ s')
    (start : rel s s') : Option.Rel rel (pass step items s) (pass step (items.filter keep) s') := by
  induction items generalizing s s' with
  | nil => exact .some start
  | cons a rest ih =>
    have later : ∀ {s s'}, rel s s' →
        Option.Rel rel (pass step rest s) (pass step (rest.filter keep) s') := fun related =>
      ih (fun b inRest => both b (List.mem_cons_of_mem _ inRest))
        (fun b inRest => idle b (List.mem_cons_of_mem _ inRest)) related
    cases kept : keep a with
    | true =>
      rw [List.filter_cons_of_pos kept, pass_cons, pass_cons]
      have stepped := both a List.mem_cons_self kept s s' start
      generalize step a s = next, step a s' = next' at stepped
      cases stepped with
      | none => exact .none
      | some related => exact later related
    | false =>
      obtain ⟨s₁, stepped, related⟩ := idle a List.mem_cons_self kept s s' start
      rw [List.filter_cons_of_neg (by simp [kept]), pass_cons, stepped]
      exact later related

end Ends

/-! ## Passes in another order -/

/-- The steps of two items lead to one state in both orders, or to none. -/
def Commuting (step : α → σ → Option σ) (a b : α) : Prop :=
  ∀ s, (step a s).bind (step b) = (step b s).bind (step a)

/-- A step may be made before a pass or after it. -/
theorem step_pass {a : α} {items : List α} (commute : ∀ b ∈ items, Commuting step b a) (s : σ) :
    (pass step items s).bind (step a) = (step a s).bind (pass step items) := by
  induction items generalizing s with
  | nil =>
    rw [pass_nil, Option.bind_some]
    exact (Option.bind_fun_some _).symm
  | cons b rest ih =>
    have later := ih fun c inRest => commute c (List.mem_cons_of_mem _ inRest)
    have first := commute b List.mem_cons_self s
    calc (pass step (b :: rest) s).bind (step a)
        = (step b s).bind fun s' => (pass step rest s').bind (step a) := Option.bind_assoc ..
      _ = (step b s).bind fun s' => (step a s').bind (pass step rest) :=
          Option.bind_congr fun s' _ => later s'
      _ = ((step b s).bind (step a)).bind (pass step rest) := (Option.bind_assoc ..).symm
      _ = (step a s).bind fun s' => (step b s').bind (pass step rest) := by
          rw [first, Option.bind_assoc]
      _ = (step a s).bind (pass step (b :: rest)) := rfl

variable [DecidableEq κ] {key : α → κ}

/-- Passes over lists that agree for each key end alike. -/
theorem pass_eq_of_filter_eq {items others : List α}
    (commute : ∀ a ∈ items, ∀ b ∈ items, key a ≠ key b → Commuting step a b)
    (same : ∀ k, items.filter (fun a => key a = k) = others.filter fun a => key a = k) (s : σ) :
    pass step items s = pass step others s := by
  induction items generalizing others s with
  | nil =>
    have none : others = [] := List.eq_nil_iff_forall_not_mem.mpr fun b inOthers => by
      have found : b ∈ others.filter fun a => key a = key b := List.mem_filter.mpr ⟨inOthers, by simp⟩
      rw [← same (key b)] at found
      exact List.not_mem_nil found
    rw [none]
  | cons a rest ih =>
    have ofKey := same (key a)
    rw [List.filter_cons_of_pos (by simp)] at ofKey
    obtain ⟨before, after, rfl, apart, -, remain⟩ := List.filter_eq_cons_iff.mp ofKey.symm
    have others : ∀ k, rest.filter (fun b => key b = k) =
        (before ++ after).filter fun b => key b = k := fun k => by
      by_cases here : key a = k
      · subst here
        have none : before.filter (fun b => key b = key a) = [] := List.filter_eq_nil_iff.mpr apart
        rw [List.filter_append, none, remain, List.nil_append]
      · have tail := same k
        rw [List.filter_cons_of_neg (by simpa using here), List.filter_append,
          List.filter_cons_of_neg (by simpa using here)] at tail
        rw [tail, List.filter_append]
    have known : ∀ b ∈ before, b ∈ rest := fun b inBefore => by
      have found : b ∈ (before ++ after).filter fun c => key c = key b :=
        List.mem_filter.mpr ⟨List.mem_append_left _ inBefore, by simp⟩
      rw [← others (key b)] at found
      exact (List.mem_filter.mp found).1
    have first : ∀ b ∈ before, Commuting step b a := fun b inBefore =>
      commute b (List.mem_cons_of_mem _ (known b inBefore)) a List.mem_cons_self
        (by simpa using apart b inBefore)
    have later := ih (fun b inRest c inRest' => commute b (List.mem_cons_of_mem _ inRest) c
      (List.mem_cons_of_mem _ inRest')) others
    calc pass step (a :: rest) s
        = (step a s).bind (pass step (before ++ after)) :=
          Option.bind_congr fun s' _ => later s'
      _ = ((step a s).bind (pass step before)).bind (pass step after) := by
          rw [Option.bind_assoc]
          exact Option.bind_congr fun s' _ => pass_append before after s'
      _ = ((pass step before s).bind (step a)).bind (pass step after) := by
          rw [step_pass first]
      _ = pass step (before ++ a :: after) s := by
          rw [pass_append, Option.bind_assoc]
          rfl

end EasyTrade.Logic
