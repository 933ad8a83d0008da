import EasyTrade.Operator.Groups
import Mathlib.Data.List.Nodup
import Mathlib.Data.List.Perm.Basic

/-!
# Which controllers have their change made

The mark on a resource is that of a flag. So an update of the state makes one change for a flag
on a resource that is not marked as the flag is, and none after it, whatever the order of the
commands: of two controllers for one flag and one resource one never has its change made. The
controllers all have their changes made when no two of them share both.
-/

namespace EasyTrade.Operator.Groups

open EasyTrade.Logic EasyTrade.Logic.Program

variable {Key Spec : Type}

/-! ## Registration -/

/-- The groups of registered controllers: one group for a flag, with the controllers of this
flag. -/
structure Grouped (o : ControllerSet Key Spec) (registered : List (Registered Key Spec)) :
    Prop where
  nodup : (o.map Prod.fst).Nodup
  flags : ∀ entry ∈ o, ∀ c ∈ entry.2, c.flagName = entry.1
  member : ∀ c, (∃ entry ∈ o, c ∈ entry.2) ↔ c ∈ registered

/-- The flags after a group is set. -/
theorem flags_setControllersForFlag (flag : String) (cs : List (Registered Key Spec))
    (o : ControllerSet Key Spec) :
    (setControllersForFlag flag cs o).map Prod.fst
      = if flag ∈ o.map Prod.fst then o.map Prod.fst else o.map Prod.fst ++ [flag] := by
  induction o with
  | nil => rfl
  | cons entry rest step =>
    obtain ⟨other, old⟩ := entry
    by_cases same : other = flag
    · simp [setControllersForFlag, same]
    · have differs : ¬flag = other := fun eq => same eq.symm
      rw [setControllersForFlag, if_neg same, List.map_cons, List.map_cons, step]
      by_cases later : flag ∈ rest.map Prod.fst
      · rw [if_pos later, if_pos (List.mem_cons_of_mem _ later)]
      · rw [if_neg later, if_neg (by simp only [List.mem_cons]; tauto)]
        rfl

/-- The groups after a group is set. -/
theorem mem_setControllersForFlag {flag : String} {cs : List (Registered Key Spec)}
    {o : ControllerSet Key Spec} (nodup : (o.map Prod.fst).Nodup)
    (entry : String × List (Registered Key Spec)) :
    entry ∈ setControllersForFlag flag cs o ↔ entry = (flag, cs) ∨ entry ∈ o ∧ entry.1 ≠ flag := by
  induction o with
  | nil => simp [setControllersForFlag]
  | cons first rest step =>
    obtain ⟨other, old⟩ := first
    rw [List.map_cons, List.nodup_cons] at nodup
    by_cases same : other = flag
    · subst same
      have apart : ∀ entry ∈ rest, entry.1 ≠ other := by
        intro entry listed eq
        exact nodup.1 (List.mem_map.mpr ⟨entry, listed, eq⟩)
      rw [setControllersForFlag, if_pos rfl, List.mem_cons, List.mem_cons]
      constructor
      · rintro (rfl | later)
        · exact Or.inl rfl
        · exact Or.inr ⟨Or.inr later, apart entry later⟩
      · rintro (rfl | ⟨rfl | later, differs⟩)
        · exact Or.inl rfl
        · exact absurd rfl differs
        · exact Or.inr later
    · rw [setControllersForFlag, if_neg same, List.mem_cons, List.mem_cons, step nodup.2]
      constructor
      · rintro (rfl | rfl | ⟨later, differs⟩)
        · exact Or.inr ⟨Or.inl rfl, same⟩
        · exact Or.inl rfl
        · exact Or.inr ⟨Or.inr later, differs⟩
      · rintro (rfl | ⟨rfl | later, differs⟩)
        · exact Or.inr (Or.inl rfl)
        · exact Or.inl rfl
        · exact Or.inr (Or.inr ⟨later, differs⟩)

/-- The controllers of a flag are those of its group. -/
theorem mem_getControllersForFlag {o : ControllerSet Key Spec} (nodup : (o.map Prod.fst).Nodup)
    (flag : String) (c : Registered Key Spec) :
    c ∈ getControllersForFlag o flag ↔ ∃ entry ∈ o, entry.1 = flag ∧ c ∈ entry.2 := by
  induction o with
  | nil => simp [getControllersForFlag]
  | cons first rest step =>
    obtain ⟨other, old⟩ := first
    rw [List.map_cons, List.nodup_cons] at nodup
    by_cases same : flag = other
    · subst same
      have apart : ∀ entry ∈ rest, entry.1 ≠ flag := by
        intro entry listed eq
        exact nodup.1 (List.mem_map.mpr ⟨entry, listed, eq⟩)
      rw [getControllersForFlag, List.lookup_cons_self, Option.getD_some]
      constructor
      · exact fun member => ⟨_, List.mem_cons_self, rfl, member⟩
      · rintro ⟨entry, listed, is_flag, member⟩
        rcases List.mem_cons.mp listed with rfl | later
        · exact member
        · exact absurd is_flag (apart entry later)
    · have differs : (flag == other) = false := by simpa using same
      have found : getControllersForFlag ((other, old) :: rest) flag
          = getControllersForFlag rest flag := by
        rw [getControllersForFlag, List.lookup_cons, differs]
        rfl
      rw [found, step nodup.2]
      constructor
      · rintro ⟨entry, listed, is_flag, member⟩
        exact ⟨entry, List.mem_cons_of_mem _ listed, is_flag, member⟩
      · rintro ⟨entry, listed, is_flag, member⟩
        rcases List.mem_cons.mp listed with rfl | later
        · exact absurd is_flag.symm same
        · exact ⟨entry, later, is_flag, member⟩

/-- One more controller. -/
theorem Grouped.register {o : ControllerSet Key Spec} {registered : List (Registered Key Spec)}
    (grouped : Grouped o registered) (c : Registered Key Spec) :
    Grouped (registerController o c) (registered ++ [c]) := by
  have entries := fun entry =>
    @mem_setControllersForFlag _ _ c.flagName (getControllersForFlag o c.flagName ++ [c]) o
      grouped.nodup entry
  have old := fun other => mem_getControllersForFlag grouped.nodup c.flagName other
  constructor
  · rw [registerController, flags_setControllersForFlag]
    by_cases there : c.flagName ∈ o.map Prod.fst
    · rw [if_pos there]
      exact grouped.nodup
    · rw [if_neg there]
      exact List.nodup_append.mpr ⟨grouped.nodup, List.nodup_singleton _, fun f listed f' same eq =>
        there (List.mem_singleton.mp same ▸ eq ▸ listed)⟩
  · intro entry listed other member
    rcases (entries entry).mp listed with rfl | ⟨before, -⟩
    · rcases List.mem_append.mp member with earlier | now
      · obtain ⟨entry, before, is_flag, member⟩ := (old other).mp earlier
        exact (grouped.flags entry before other member).trans is_flag
      · rw [List.mem_singleton.mp now]
    · exact grouped.flags entry before other member
  · intro other
    rw [List.mem_append, List.mem_singleton, ← grouped.member]
    constructor
    · rintro ⟨entry, listed, member⟩
      rcases (entries entry).mp listed with rfl | ⟨before, -⟩
      · rcases List.mem_append.mp member with earlier | now
        · obtain ⟨entry, before, -, member⟩ := (old other).mp earlier
          exact Or.inl ⟨entry, before, member⟩
        · exact Or.inr (List.mem_singleton.mp now)
      · exact Or.inl ⟨entry, before, member⟩
    · rintro (⟨entry, before, member⟩ | rfl)
      · by_cases same : entry.1 = c.flagName
        · exact ⟨_, (entries _).mpr (Or.inl rfl),
            List.mem_append_left _ ((old other).mpr ⟨entry, before, same, member⟩)⟩
        · exact ⟨entry, (entries entry).mpr (Or.inr ⟨before, same⟩), member⟩
      · exact ⟨_, (entries _).mpr (Or.inl rfl), by simp⟩

/-- All of them. -/
theorem grouped_registerAll (targets : List (Target Key Spec)) :
    Grouped (registerAll targets) (numberAll targets) := by
  have general : ∀ (more registered : List (Registered Key Spec)) (o : ControllerSet Key Spec),
      Grouped o registered → Grouped (more.foldl registerController o) (registered ++ more) := by
    intro more
    induction more with
    | nil =>
      intro registered o grouped
      rwa [List.append_nil]
    | cons c rest step =>
      intro registered o grouped
      have next := step (registered ++ [c]) _ (grouped.register c)
      rwa [List.append_assoc] at next
  have start : Grouped ([] : ControllerSet Key Spec) [] :=
    ⟨List.nodup_nil, nofun, fun c => by simp⟩
  exact general (numberAll targets) [] [] start

/-! ## What a goroutine stores -/

/-- The mark of a flag on a resource. -/
def Resource.mark (r : Resource Spec) (flagName : String) : Option String :=
  r.annotations (getAnnotationName ⟨flagName, true⟩)

/-- A resource is marked as a flag is read. -/
def Agrees (flagName : String) (enabled : Bool) (r : Resource Spec) : Prop :=
  r.mark flagName = some AnnotationValue.on.text ↔ enabled = true

/-- How often a change was made for a flag. -/
def Resource.total (r : Resource Spec) (flagName : String) (change : Change) : Nat :=
  r.effects.countP fun e => decide (e.flagName = flagName ∧ e.change = change)

/-- The mark of a flag, after that of one was set. -/
theorem setFlagAnnotation_mark (flag : Flag) (r : Resource Spec) (value : AnnotationValue)
    (flagName : String) : ( setFlagAnnotation flag r value).mark flagName
      = if flagName = flag.id then some value.text else r.mark flagName := by
  have names : getAnnotationName ⟨flagName, true⟩ = getAnnotationName flag ↔ flagName = flag.id :=
    String.append_right_inj _
  show Function.update r.annotations (getAnnotationName flag) (some value.text) _ = _
  rw [Function.update_apply]
  exact if_congr names rfl rfl

/-- What a controller stores instead of what it has read: the resource is marked as the flag is,
and where it was not, the change is made. -/
structure Turned (c : Registered Key Spec) (enabled : Bool) (read obj : Resource Spec) : Prop where
  version : obj.resourceVersion = read.resourceVersion
  agrees : Agrees c.flagName enabled obj
  kept : Agrees c.flagName enabled read → obj.effects = read.effects
  made : ¬Agrees c.flagName enabled read →
    obj.effects = read.effects ++ [⟨c.number, c.flagName, .of enabled⟩]
  others : ∀ flagName, flagName ≠ c.flagName → obj.mark flagName = read.mark flagName

/-- The state of a resource tells whether it is marked as the flag is. -/
theorem getObjectState_agrees (flagName : String) (enabled : Bool) (r : Resource Spec) :
    (Agrees flagName enabled r ∧ (getObjectState ⟨flagName, enabled⟩ r).1 = .synchronized ∨
      ¬Agrees flagName enabled r ∧ (getObjectState ⟨flagName, enabled⟩ r).1
        = if enabled then .shouldApply else .shouldRollback) ∧
    (getObjectState ⟨flagName, enabled⟩ r).2.resourceVersion = r.resourceVersion ∧
    (getObjectState ⟨flagName, enabled⟩ r).2.effects = r.effects ∧
    (∀ other, other ≠ flagName →
      (getObjectState ⟨flagName, enabled⟩ r).2.mark other = r.mark other) ∧
    ((getObjectState ⟨flagName, enabled⟩ r).2.mark flagName = some AnnotationValue.on.text ↔
      r.mark flagName = some AnnotationValue.on.text) := by
  obtain ⟨states, whole⟩ := getObjectState_cases ⟨flagName, enabled⟩ r
  have mark : Object.annotations r (getAnnotationName ⟨flagName, enabled⟩) = r.mark flagName := rfl
  rw [mark] at states whole
  refine ⟨?_, ?_⟩
  · rcases states with ⟨state, ⟨on, is_on⟩ | ⟨off, is_off⟩⟩ | ⟨state, is_on, off⟩ |
      ⟨state, is_off, on⟩
    · exact Or.inl ⟨iff_of_true on is_on, state⟩
    · exact Or.inl ⟨iff_of_false off (by simp_all), state⟩
    · refine Or.inr ⟨fun agrees => off (agrees.mpr is_on), ?_⟩
      rw [state, if_pos is_on]
    · have notOn : ¬enabled = true := by simp_all
      refine Or.inr ⟨fun agrees => notOn (agrees.mp on), ?_⟩
      rw [state, if_neg notOn]
  · rw [whole]
    by_cases missing : r.mark flagName = none
    · rw [if_pos missing]
      refine ⟨rfl, rfl, ?_, ?_⟩
      · intro other differs
        rw [setFlagAnnotation_mark, if_neg differs]
      · rw [setFlagAnnotation_mark, if_pos rfl, missing]
        decide
    · rw [if_neg missing]
      exact ⟨rfl, rfl, fun _ _ => rfl, Iff.rfl⟩

/-- Where there is nothing to do, what is stored has no new effect. -/
theorem turned_synchronized (c : Registered Key Spec) (enabled : Bool) (r : Resource Spec)
    (state : (getObjectState ⟨c.flagName, enabled⟩ r).1 = .synchronized) :
    Turned c enabled r (getObjectState ⟨c.flagName, enabled⟩ r).2 := by
  obtain ⟨states, version, effects, others, same⟩ := getObjectState_agrees c.flagName enabled r
  have agrees : Agrees c.flagName enabled r := by
    rcases states with ⟨agrees, -⟩ | ⟨-, other⟩
    · exact agrees
    · rw [state] at other
      cases enabled <;> cases other
  exact ⟨version, same.trans agrees, fun _ => effects, fun differs => absurd agrees differs, others⟩

/-- Where the change is to be made, what is stored is marked, and has the effect. -/
theorem turned_made (c : Registered Key Spec) (enabled : Bool) (r : Resource Spec)
    (state : (getObjectState ⟨c.flagName, enabled⟩ r).1 ≠ .synchronized) (spec : Spec) :
    Turned c enabled r
      { setFlagAnnotation ⟨c.flagName, enabled⟩ (getObjectState ⟨c.flagName, enabled⟩ r).2
          (.ofBool enabled) with
        spec := spec
        effects := (getObjectState ⟨c.flagName, enabled⟩ r).2.effects
          ++ [⟨c.number, c.flagName, .of enabled⟩] } := by
  obtain ⟨states, version, effects, others, same⟩ := getObjectState_agrees c.flagName enabled r
  have marks := setFlagAnnotation_mark ⟨c.flagName, enabled⟩
    (getObjectState ⟨c.flagName, enabled⟩ r).2 (.ofBool enabled)
  have differs : ¬Agrees c.flagName enabled r := by
    rcases states with ⟨-, other⟩ | ⟨differs, -⟩
    · exact absurd other state
    · exact differs
  refine ⟨version, ?_, fun agrees => absurd agrees differs, fun _ => by rw [effects], ?_⟩
  · show Resource.mark ( setFlagAnnotation _ _ _) _ = _ ↔ _
    rw [marks, if_pos rfl]
    cases enabled <;> decide
  · intro other apart
    show Resource.mark ( setFlagAnnotation _ _ _) _ = _
    rw [marks, if_neg apart, others other apart]

/-! ## What changes for a reading of the flags leave -/

/-- What is left of a resource after changes for flags that were read as given: for each flag
the change was made once if the resource was not marked as the flag is, and is now. -/
structure Phased (enabled : Bool) (r₀ r : Resource Spec) : Prop where
  settled : ∀ flagName, Agrees flagName enabled r₀ → Agrees flagName enabled r
  same : ∀ flagName, (Agrees flagName enabled r → Agrees flagName enabled r₀) →
    r.total flagName (.of enabled) = r₀.total flagName (.of enabled)
  once : ∀ flagName, ¬Agrees flagName enabled r₀ → Agrees flagName enabled r →
    r.total flagName (.of enabled) = r₀.total flagName (.of enabled) + 1
  totals : ∀ flagName change, change ≠ .of enabled →
    r.total flagName change = r₀.total flagName change

/-- A resource that nobody has changed. -/
theorem Phased.refl (enabled : Bool) (r : Resource Spec) : Phased enabled r r :=
  ⟨fun _ agrees => agrees, fun _ _ => rfl, fun _ differs agrees => absurd agrees differs,
    fun _ _ _ => rfl⟩

/-- One change after the other. -/
theorem Phased.trans {enabled : Bool} {r₀ r r' : Resource Spec} (first : Phased enabled r₀ r)
    (second : Phased enabled r r') : Phased enabled r₀ r' where
  settled flagName agrees := second.settled flagName (first.settled flagName agrees)
  same flagName kept := by
    rw [second.same flagName fun agrees => first.settled flagName (kept agrees),
      first.same flagName fun agrees => kept (second.settled flagName agrees)]
  once flagName differs agrees := by
    by_cases between : Agrees flagName enabled r
    · rw [second.same flagName fun _ => between, first.once flagName differs between]
    · rw [second.once flagName between agrees,
        first.same flagName fun agrees => absurd agrees between]
  totals flagName change other :=
    (second.totals flagName change other).trans (first.totals flagName change other)

/-- How often a change was made, after one more. -/
theorem total_append (r r' : Resource Spec) (e : Effect) (more : r'.effects = r.effects ++ [e])
    (flagName : String) (change : Change) :
    r'.total flagName change = r.total flagName change
      + if e.flagName = flagName ∧ e.change = change then 1 else 0 := by
  rw [Resource.total, more, List.countP_append, List.countP_singleton]
  simp only [decide_eq_true_eq]
  rfl

/-- What a controller stores. -/
theorem Turned.phased {c : Registered Key Spec} {enabled : Bool} {read obj : Resource Spec}
    (turned : Turned c enabled read obj) : Phased enabled read obj := by
  have other : ∀ flagName, flagName ≠ c.flagName →
      (Agrees flagName enabled obj ↔ Agrees flagName enabled read) := by
    intro flagName differs
    rw [Agrees, turned.others flagName differs]
    rfl
  have total : ∀ flagName change, flagName ≠ c.flagName ∨ change ≠ .of enabled →
      obj.total flagName change = read.total flagName change := by
    intro flagName change differs
    by_cases agrees : Agrees c.flagName enabled read
    · rw [Resource.total, turned.kept agrees]
      rfl
    · have apart : ¬(c.flagName = flagName ∧ Change.of enabled = change) := by
        rintro ⟨rfl, rfl⟩
        rcases differs with differs | differs <;> exact differs rfl
      rw [total_append read obj _ (turned.made agrees), if_neg apart]
      rfl
  refine ⟨?_, ?_, ?_, fun flagName change differs => total flagName change (Or.inr differs)⟩
  · intro flagName agrees
    by_cases own : flagName = c.flagName
    · rw [own]
      exact turned.agrees
    · exact (other flagName own).mpr agrees
  · intro flagName kept
    by_cases own : flagName = c.flagName
    · subst own
      rw [Resource.total, turned.kept (kept turned.agrees)]
      rfl
    · exact total flagName _ (Or.inl own)
  · intro flagName differs agrees
    by_cases own : flagName = c.flagName
    · subst own
      rw [total_append read obj _ (turned.made differs), if_pos ⟨rfl, rfl⟩]
    · exact absurd ((other flagName own).mp agrees) differs

/-! ## A goroutine -/

variable [DecidableEq Key]

/-- What a goroutine promises: it updates the resource that it has read. -/
def promises (enabled : Bool) :
    Option (Registered Key Spec) → Terms (Command Key Spec) Failure (Private Key Spec)
      (Resources Key Spec)
  | some c => {
      assume := fun _ _ => True
      guard := fun
        | .update key obj, l => key = c.resource ∧
            ∃ read, l.read = some (key, read) ∧ Turned c enabled read obj
        | _, _ => True
      abort := fun _ _ => True
      refusable := fun _ _ => True }
  | none => {
      assume := fun _ _ => True
      guard := fun _ _ => False
      abort := fun _ _ => True
      refusable := fun _ _ => True }

/-- A goroutine that returns has stored its resource. -/
def ends (c : Option (Registered Key Spec)) (_ : Unit) (l : Private Key Spec) : Prop :=
  ∀ key ∈ c.map fun c => c.resource, l.stored = some key

/-- An update with what was read and turned. -/
theorem updateResource_keeps {c : Registered Key Spec} {enabled : Bool} {l : Private Key Spec}
    {read obj : Resource Spec} (is_read : l.read = some (c.resource, read))
    (turned : Turned c enabled read obj) :
    (updateResource c.resource obj).Keeps machine (promises enabled (some c))
      (ends (some c)) l := by
  rw [updateResource, keeps_bind]
  refine keeps_perform ⟨rfl, read, is_read, turned⟩ (fun _ => trivial) ?_
  intro w answer l' w' _ acted
  have acted : act (.update c.resource obj) l w = some (answer, l', w') := acted
  rw [act] at acted
  by_cases fresh : obj.resourceVersion = (w c.resource).resourceVersion
  · rw [if_pos fresh] at acted
    cases acted
    intro key is_key
    cases is_key
    rfl
  · rw [if_neg fresh] at acted
    cases acted
    exact trivial

/-- An attempt. -/
theorem attempt_keeps (c : Registered Key Spec) (enabled : Bool) (l : Private Key Spec) :
    (Operator.attempt (send .err) ⟨c.flagName, enabled⟩ c.controller).Keeps machine
      (promises enabled (some c)) (ends (some c)) l := by
  rw [Operator.attempt, keeps_bind]
  refine keeps_perform trivial (fun _ => trivial) ?_
  intro w _ l' w' _ acted
  cases acted
  rw [keeps_bind]
  refine keeps_perform trivial (fun _ => trivial) ?_
  intro w read l' w' _ acted
  cases acted
  have synchronized := turned_synchronized c enabled (w c.resource)
  have made := turned_made c enabled (w c.resource)
  have states := (getObjectState_agrees c.flagName enabled (w c.resource)).1
  cases found : getObjectState ⟨c.flagName, enabled⟩ (w c.resource) with
  | mk state obj =>
  rw [found] at synchronized made states
  have changes : ∀ value change, value = AnnotationValue.ofBool enabled →
      change = Change.of enabled → state ≠ .synchronized →
      (c.make change ( setFlagAnnotation ⟨c.flagName, enabled⟩ obj value) >>=
        updateResource c.resource).Keeps machine (promises enabled (some c)) (ends (some c))
        { l with read := some (c.resource, w c.resource) } := by
    rintro _ _ rfl rfl other
    rw [Registered.make, keeps_bind, keeps_bind]
    refine keeps_perform trivial (fun _ => trivial) ?_
    intro w' spec l' w'' _ acted
    obtain ⟨spec', -, same⟩ := Option.map_eq_some_iff.mp acted
    cases same
    exact updateResource_keeps rfl (made other spec)
  cases state with
  | synchronized => exact updateResource_keeps rfl (synchronized rfl)
  | shouldApply =>
    cases enabled with
    | true => exact changes .on .apply rfl rfl nofun
    | false => simp at states
  | shouldRollback =>
    cases enabled with
    | true => simp at states
    | false => exact changes .off .rollback rfl rfl nofun

/-- A call. -/
theorem processController_keeps (c : Registered Key Spec) (enabled : Bool)
    (l : Private Key Spec) :
    (processController (send .err) ⟨c.flagName, enabled⟩ c.controller).Keeps machine
      (promises enabled (some c)) (ends (some c)) l :=
  keeps_retryOnConflict (fun _ => True) (fun _ _ _ => trivial)
    (fun l _ => attempt_keeps c enabled l) defaultRetry l trivial

/-! ## A group -/

/-- Every effect is that of a registered controller, on its resource. -/
def Owned (registered : List (Registered Key Spec)) (w : Resources Key Spec) : Prop :=
  ∀ key, ∀ e ∈ (w key).effects, ∃ c ∈ registered,
    c.number = e.controller ∧ c.flagName = e.flagName ∧ c.resource = key

/-- What holds all along the calls of a group. -/
structure Inv (flagName : String) (enabled : Bool) (registered : List (Registered Key Spec))
    (w₀ : Resources Key Spec) (privs : Nat → Private Key Spec) (w : Resources Key Spec) :
    Prop where
  old : ∀ i key read, (privs i).read = some (key, read) →
    read.resourceVersion ≤ (w key).resourceVersion
  current : ∀ i key read, (privs i).read = some (key, read) →
    read.resourceVersion = (w key).resourceVersion → read = w key
  stored : ∀ i key, (privs i).stored = some key → Agrees flagName enabled (w key)
  phased : ∀ key, Phased enabled (w₀ key) (w key)
  owned : Owned registered w

variable {flagName : String} {enabled : Bool} {registered : List (Registered Key Spec)}
  {w₀ w : Resources Key Spec} {privs : Nat → Private Key Spec}

omit [DecidableEq Key] in
/-- A goroutine reads what is stored. -/
theorem Inv.get (inv : Inv flagName enabled registered w₀ privs w) (i : Nat) (key : Key) :
    Inv flagName enabled registered w₀
      (Function.update privs i { privs i with read := some (key, w key) }) w := by
  refine ⟨?_, ?_, ?_, inv.phased, inv.owned⟩
  · intro j other read is_read
    by_cases own : j = i
    · subst own
      rw [Function.update_self] at is_read
      cases is_read
      exact le_refl _
    · rw [Function.update_of_ne own] at is_read
      exact inv.old j other read is_read
  · intro j other read is_read version
    by_cases own : j = i
    · subst own
      rw [Function.update_self] at is_read
      cases is_read
      rfl
    · rw [Function.update_of_ne own] at is_read
      exact inv.current j other read is_read version
  · intro j other is_stored
    by_cases own : j = i
    · subst own
      rw [Function.update_self] at is_stored
      exact inv.stored j other is_stored
    · rw [Function.update_of_ne own] at is_stored
      exact inv.stored j other is_stored

/-- A goroutine stores what it has turned. -/
theorem Inv.update (inv : Inv flagName enabled registered w₀ privs w) (i : Nat)
    {c : Registered Key Spec} (member : c ∈ registered) (is_flag : c.flagName = flagName)
    {read obj : Resource Spec} (is_read : (privs i).read = some (c.resource, read))
    (turned : Turned c enabled read obj)
    (fresh : obj.resourceVersion = (w c.resource).resourceVersion) :
    Inv flagName enabled registered w₀
      (Function.update privs i { privs i with stored := some c.resource })
      (Function.update w c.resource
        { obj with resourceVersion := (w c.resource).resourceVersion + 1 }) := by
  have same : read = w c.resource :=
    inv.current i c.resource read is_read (turned.version.symm.trans fresh)
  subst same
  have phase := turned.phased
  have reads : ∀ j, (Function.update privs i { privs i with stored := some c.resource } j).read
      = (privs j).read := by
    intro j
    by_cases own : j = i
    · rw [own, Function.update_self]
    · rw [Function.update_of_ne own]
  refine ⟨?_, ?_, ?_, ?_, ?_⟩
  · intro j key read is_read
    rw [reads] at is_read
    have before := inv.old j key read is_read
    by_cases own : key = c.resource
    · subst own
      rw [Function.update_self]
      show read.resourceVersion ≤ (w c.resource).resourceVersion + 1
      omega
    · rw [Function.update_of_ne own]
      exact before
  · intro j key read is_read version
    rw [reads] at is_read
    by_cases own : key = c.resource
    · subst own
      rw [Function.update_self] at version
      have before := inv.old j c.resource read is_read
      have version : read.resourceVersion = (w c.resource).resourceVersion + 1 := version
      omega
    · rw [Function.update_of_ne own] at version ⊢
      exact inv.current j key read is_read version
  · intro j key is_stored
    by_cases target : key = c.resource
    · rw [target, Function.update_self, ← is_flag]
      exact turned.agrees
    · rw [Function.update_of_ne target]
      by_cases own : j = i
      · rw [own, Function.update_self] at is_stored
        exact absurd (Option.some.inj is_stored).symm target
      · rw [Function.update_of_ne own] at is_stored
        exact inv.stored j key is_stored
  · intro key
    by_cases own : key = c.resource
    · rw [own, Function.update_self]
      have whole := (inv.phased c.resource).trans phase
      exact ⟨whole.settled, whole.same, whole.once, whole.totals⟩
    · rw [Function.update_of_ne own]
      exact inv.phased key
  · intro key e listed
    by_cases own : key = c.resource
    · subst own
      rw [Function.update_self] at listed
      have listed : e ∈ obj.effects := listed
      by_cases agrees : Agrees c.flagName enabled (w c.resource)
      · rw [turned.kept agrees] at listed
        exact inv.owned c.resource e listed
      · rw [turned.made agrees] at listed
        rcases List.mem_append.mp listed with before | now
        · exact inv.owned c.resource e before
        · rw [List.mem_singleton.mp now]
          exact ⟨c, member, rfl, rfl, rfl⟩
    · rw [Function.update_of_ne own] at listed
      exact inv.owned key e listed

/-- Every command that keeps the promises keeps what holds. -/
theorem inv_act {controllers : List (Registered Key Spec)}
    (members : ∀ c ∈ controllers, c.flagName = flagName ∧ c ∈ registered)
    {i : Nat} {command : Command Key Spec} {reply : Reply command} {l' : Private Key Spec}
    {w' : Resources Key Spec}
    (guarded : (promises enabled controllers[i]?).guard command (privs i))
    (inv : Inv flagName enabled registered w₀ privs w)
    (acted : act command (privs i) w = some (reply, l', w')) :
    Inv flagName enabled registered w₀ (Function.update privs i l') w' := by
  cases found : controllers[i]? with
  | none =>
    rw [found] at guarded
    exact guarded.elim
  | some c =>
    rw [found] at guarded
    obtain ⟨is_flag, member⟩ := members c (List.mem_of_getElem? found)
    cases command with
    | err =>
      cases acted
      rw [Function.update_eq_self]
      exact inv
    | get key =>
      cases acted
      exact inv.get i key
    | change _ _ _ =>
      obtain ⟨_, -, same⟩ := Option.map_eq_some_iff.mp acted
      cases same
      rw [Function.update_eq_self]
      exact inv
    | update key obj =>
      obtain ⟨rfl, read, is_read, turned⟩ := guarded
      rw [act] at acted
      by_cases fresh : obj.resourceVersion = (w c.resource).resourceVersion
      · rw [if_pos fresh] at acted
        cases acted
        exact inv.update i member is_flag is_read turned fresh
      · rw [if_neg fresh] at acted
        cases acted
        rw [Function.update_eq_self]
        exact inv

/-- After the calls of a group have returned, its resources are marked as the flag is. -/
theorem group_settles {controllers : List (Registered Key Spec)}
    (members : ∀ c ∈ controllers, c.flagName = flagName ∧ c ∈ registered)
    (owned : Owned registered w) (schedule : Schedule) :
    let s := (group ⟨flagName, enabled⟩ controllers w).run machine schedule
    (∀ key, Phased enabled (w key) (s.shared key)) ∧ Owned registered s.shared ∧
      ((List.range controllers.length).all (fun i => returned (s.threads i).program) →
        ∀ c ∈ controllers, Agrees flagName enabled (s.shared c.resource)) := by
  intro s
  obtain ⟨inv, keeps⟩ : Inv flagName enabled registered w s.privs s.shared ∧
      ∀ i, (s.threads i).program.Keeps machine (promises enabled controllers[i]?)
        (ends controllers[i]?) (s.threads i).priv := by
    refine System.run_terms (Inv flagName enabled registered w) ?_ ?_
      (fun _ _ _ _ _ _ _ guarded _ inv acted => inv_act members guarded inv acted) schedule ?_ ?_
      (System.Respects.of_forall (fun _ _ _ _ _ => trivial) _ _ :
        System.Respects _ (fun _ _ _ _ _ => True) _ _)
    · intro _ _ _ i
      cases controllers[i]? <;> trivial
    · intro _ _ i _ _ _ _ _ _
      cases controllers[i]? <;> trivial
    · intro i
      cases found : controllers[i]? with
      | none =>
        simp only [group, found]
        exact nofun
      | some c =>
        obtain ⟨is_flag, -⟩ := members c (List.mem_of_getElem? found)
        simp only [group, found]
        rw [← is_flag]
        exact processController_keeps c enabled {}
    · refine ⟨?_, ?_, ?_, fun key => Phased.refl enabled (w key), owned⟩
      all_goals
        intro i
        cases found : controllers[i]? <;> simp [System.privs, group, found]
  refine ⟨inv.phased, inv.owned, ?_⟩
  intro all c member
  obtain ⟨i, bound, is_c⟩ := List.getElem_of_mem member
  have ended := List.all_eq_true.mp all i (List.mem_range.mpr bound)
  have own := keeps i
  rw [List.getElem?_eq_getElem bound, is_c] at own
  cases program : (s.threads i).program with
  | done value =>
    rw [program] at own
    exact inv.stored i c.resource (own c.resource rfl)
  | fail e =>
    rw [program] at ended
    cases ended
  | call command next =>
    rw [program] at ended
    cases ended

/-! ## An update of the state -/

/-- After the loop over the groups has met no error, the resources of all controllers are marked
as the flags are. -/
theorem updateGroups_settles {getFlag : String → Option Bool}
    (readings : ∀ flag reading, getFlag flag = some reading → reading = enabled)
    {groups : List ((String × List (Registered Key Spec)) × Schedule)}
    (members : ∀ entry ∈ groups.map Prod.fst, ∀ c ∈ entry.2,
      c.flagName = entry.1 ∧ c ∈ registered)
    (owned : Owned registered w) (fine : (updateGroups getFlag groups w).1 = true) :
    (∀ key, Phased enabled (w key) ((updateGroups getFlag groups w).2 key)) ∧
      Owned registered (updateGroups getFlag groups w).2 ∧
      ∀ entry ∈ groups.map Prod.fst, ∀ c ∈ entry.2,
        Agrees c.flagName enabled ((updateGroups getFlag groups w).2 c.resource) := by
  induction groups generalizing w with
  | nil => exact ⟨fun key => Phased.refl enabled (w key), owned, nofun⟩
  | cons entry rest step =>
    obtain ⟨⟨flagName, controllers⟩, schedule⟩ := entry
    cases fetched : getFlag flagName with
    | none =>
      rw [updateGroups, fetched] at fine
      cases fine
    | some reading =>
      have is_enabled := readings flagName reading fetched
      subst is_enabled
      rw [updateGroups, fetched] at fine ⊢
      obtain ⟨all, later⟩ := (Bool.and_eq_true _ _).mp fine
      obtain ⟨phased, owned', agrees⟩ := @group_settles _ _ _ flagName reading
        registered w controllers (fun c member => members (flagName, controllers) List.mem_cons_self c member)
        owned schedule
      obtain ⟨phased', owned'', agrees'⟩ := step
        (fun entry listed => members entry (List.mem_cons_of_mem _ listed)) owned' later
      refine ⟨fun key => (phased key).trans (phased' key), owned'', ?_⟩
      intro entry listed c member
      rcases List.mem_cons.mp listed with rfl | other
      · have is_flag := (members _ List.mem_cons_self c member).1
        rw [is_flag]
        exact (phased' c.resource).settled flagName (agrees all c member)
      · exact agrees' entry other c member

/-- After an update of the state that returns nil, the resources of all registered controllers
are marked as the flags are. -/
theorem updateState_settles {targets : List (Target Key Spec)} {cancelled : Bool}
    {getFlag : String → Option Bool}
    (readings : ∀ flag reading, getFlag flag = some reading → reading = enabled)
    {groups : List ((String × List (Registered Key Spec)) × Schedule)}
    (order : (groups.map Prod.fst).Perm (registerAll targets))
    (owned : Owned (numberAll targets) w) {w' : Resources Key Spec}
    (updated : updateState cancelled getFlag groups w = (true, w')) :
    (∀ key, Phased enabled (w key) (w' key)) ∧ Owned (numberAll targets) w' ∧
      ∀ c ∈ numberAll targets, Agrees c.flagName enabled (w' c.resource) := by
  have grouped := grouped_registerAll targets
  cases cancelled with
  | true => cases updated
  | false =>
    have updated : updateGroups getFlag groups w = (true, w') := updated
    have fine : (updateGroups getFlag groups w).1 = true := by rw [updated]
    have settles := @updateGroups_settles _ _ _ _ (numberAll targets) w _ readings groups
      (fun entry listed c member => by
        have there := order.mem_iff.mp listed
        exact ⟨grouped.flags entry there c member, (grouped.member c).mp ⟨entry, there, member⟩⟩)
      owned fine
    rw [updated] at settles
    refine ⟨settles.1, settles.2.1, ?_⟩
    intro c member
    obtain ⟨entry, there, listed⟩ := (grouped.member c).mpr member
    exact settles.2.2 entry (order.mem_iff.mpr there) c listed

/-! ## How often the change of a controller was made -/

/-- How often a controller has made a change to what is stored of its resource. -/
def Registered.count (c : Registered Key Spec) (change : Change) (w : Resources Key Spec) : Nat :=
  (w c.resource).effects.countP fun e => decide (e.controller = c.number ∧ e.change = change)

/-- Two kinds of elements that are apart, counted together. -/
theorem countP_add_le {α : Type} {p q r : α → Bool} :
    ∀ {l : List α}, (∀ x ∈ l, p x = true → r x = true ∧ q x = false) →
      (∀ x ∈ l, q x = true → r x = true) → l.countP p + l.countP q ≤ l.countP r
  | [], _, _ => Nat.le_refl _
  | x :: rest, first, second => by
    have later := countP_add_le (fun y member => first y (List.mem_cons_of_mem _ member))
      (fun y member => second y (List.mem_cons_of_mem _ member))
    have own := first x List.mem_cons_self
    have other := second x List.mem_cons_self
    simp only [List.countP_cons]
    cases is_p : p x with
    | true =>
      obtain ⟨is_r, not_q⟩ := own is_p
      simp only [is_r, not_q, if_true, Bool.false_eq_true, if_false]
      omega
    | false =>
      cases is_q : q x with
      | true =>
        simp only [other is_q, if_true, Bool.false_eq_true, if_false]
        omega
      | false =>
        simp only [Bool.false_eq_true, if_false]
        omega

omit [DecidableEq Key] in
/-- A change is made once for each flag and resource. Then every controller has made it once
exactly when no two of them share both. -/
theorem count_eq_one_iff {targets : List (Target Key Spec)} {change : Change}
    (owned : Owned (numberAll targets) w)
    (once : ∀ c ∈ numberAll targets, (w c.resource).total c.flagName change = 1) :
    (∀ c ∈ numberAll targets, c.count change w = 1) ↔
      targets.Pairwise fun t t' => t.flagName = t'.flagName → t.resource ≠ t'.resource := by
  have listed : ∀ (i : Nat) (bound : i < targets.length),
      (⟨targets[i], i⟩ : Registered Key Spec) ∈ numberAll targets :=
    fun i bound => List.mem_mapIdx.mpr ⟨i, bound, rfl⟩
  -- an effect with the number of a controller is for its flag
  have flags : ∀ (i : Nat) (bound : i < targets.length) (key : Key), ∀ e ∈ (w key).effects,
      e.controller = i → e.flagName = targets[i].flagName := by
    intro i bound key e member number
    obtain ⟨c, is_registered, is_number, is_flag, -⟩ := owned key e member
    obtain ⟨j, _, rfl⟩ := List.mem_mapIdx.mp is_registered
    have same : j = i := is_number.trans number
    subst same
    exact is_flag.symm
  constructor
  · intro all
    rw [List.pairwise_iff_getElem]
    intro i j bound bound' before sameFlag sameResource
    have one := all _ (listed i bound)
    have other := all _ (listed j bound')
    have total := once _ (listed i bound)
    simp only [Registered.count, Resource.total] at one other total
    rw [← sameResource] at other
    have both := countP_add_le (l := (w targets[i].resource).effects)
      (p := fun e => decide (e.controller = i ∧ e.change = change))
      (q := fun e => decide (e.controller = j ∧ e.change = change))
      (r := fun e => decide (e.flagName = targets[i].flagName ∧ e.change = change))
      (by
        intro e member is_one
        obtain ⟨number, is_change⟩ := of_decide_eq_true is_one
        refine ⟨decide_eq_true ⟨flags i bound _ e member number, is_change⟩, ?_⟩
        simp only [decide_eq_false_iff_not]
        omega)
      (by
        intro e member is_other
        obtain ⟨number, is_change⟩ := of_decide_eq_true is_other
        exact decide_eq_true
          ⟨(flags j bound' _ e member number).trans sameFlag.symm, is_change⟩)
    omega
  · intro apart c member
    have total := once c member
    obtain ⟨i, bound, rfl⟩ := List.mem_mapIdx.mp member
    rw [← total]
    apply List.countP_congr
    intro e there
    simp only [decide_eq_true_eq]
    constructor
    · rintro ⟨number, is_change⟩
      exact ⟨flags i bound _ e there number, is_change⟩
    · rintro ⟨is_flag, is_change⟩
      obtain ⟨c, is_registered, is_number, sameFlag, sameResource⟩ := owned _ e there
      obtain ⟨j, bound', rfl⟩ := List.mem_mapIdx.mp is_registered
      rw [List.pairwise_iff_getElem] at apart
      rcases Nat.lt_trichotomy i j with before | same | after
      · exact absurd sameResource.symm
          (apart i j bound bound' before (is_flag.symm.trans sameFlag.symm))
      · exact ⟨is_number.symm.trans same.symm, is_change⟩
      · exact absurd sameResource (apart j i bound' bound after (sameFlag.trans is_flag))

/-- The flags are all read on by an update of the state that returns nil, and then all read off
by one that returns nil. The mark of a flag on a resource stands for the changes of all its
controllers: every controller has its change made exactly once, and rolled back exactly once,
if and only if no two of them have the same flag and the same resource. -/
theorem controllers_honoured (targets : List (Target Key Spec)) {w w₁ w₂ : Resources Key Spec}
    (unmarked : ∀ key flag, (w key).annotations (getAnnotationName flag) = none)
    (unchanged : ∀ key, (w key).effects = []) {cancelled cancelled' : Bool}
    {getFlag getFlag' : String → Option Bool}
    (on : ∀ flag reading, getFlag flag = some reading → reading = true)
    (off : ∀ flag reading, getFlag' flag = some reading → reading = false)
    {groups groups' : List ((String × List (Registered Key Spec)) × Schedule)}
    (order : (groups.map Prod.fst).Perm (registerAll targets))
    (order' : (groups'.map Prod.fst).Perm (registerAll targets))
    (applied : updateState cancelled getFlag groups w = (true, w₁))
    (rolledBack : updateState cancelled' getFlag' groups' w₁ = (true, w₂)) :
    ((∀ c ∈ numberAll targets, c.count .apply w₁ = 1) ∧
        ∀ c ∈ numberAll targets, c.count .rollback w₂ = 1) ↔
      targets.Pairwise fun t t' => t.flagName = t'.flagName → t.resource ≠ t'.resource := by
  have fresh : Owned (numberAll targets) w := by
    intro key e listed
    rw [unchanged] at listed
    cases listed
  obtain ⟨phased, owned, marked⟩ := updateState_settles on order fresh applied
  obtain ⟨phased', owned', marked'⟩ := updateState_settles off order' owned rolledBack
  have none : ∀ key flagName change, (w key).total flagName change = 0 := by
    intro key flagName change
    rw [Resource.total, unchanged]
    rfl
  have before : ∀ key flagName, ¬Agrees flagName true (w key) := by
    intro key flagName agrees
    have on := agrees.mpr rfl
    rw [Resource.mark, unmarked] at on
    cases on
  have between : ∀ key flagName, Agrees flagName true (w₁ key) →
      ¬Agrees flagName false (w₁ key) := by
    intro key flagName agrees other
    exact absurd (other.mp (agrees.mpr rfl)) nofun
  have once : ∀ c ∈ numberAll targets, (w₁ c.resource).total c.flagName .apply = 1 := by
    intro c member
    have total := (phased c.resource).once c.flagName (before _ _) (marked c member)
    rw [none] at total
    exact total
  have once' : ∀ c ∈ numberAll targets, (w₂ c.resource).total c.flagName .rollback = 1 := by
    intro c member
    have total := (phased' c.resource).once c.flagName (between _ _ (marked c member))
      (marked' c member)
    have earlier := (phased c.resource).totals c.flagName .rollback nofun
    rw [none] at earlier
    have total : (w₂ c.resource).total c.flagName .rollback
      = (w₁ c.resource).total c.flagName .rollback + 1 := total
    rw [total, earlier]
  have exactly := count_eq_one_iff owned once
  have exactly' := count_eq_one_iff owned' once'
  exact ⟨fun all => exactly.mp all.1, fun apart => ⟨exactly.mpr apart, exactly'.mpr apart⟩⟩

/-- A controller of a resource. -/
def sampleTarget (resource : Nat) : Target Nat Unit := ⟨"high_cpu_usage", resource, fun _ => some⟩

/-- Resources without annotations. -/
def sampleResources : Resources Nat Unit := fun _ => ⟨1, fun _ => none, (), []⟩

/-- The groups of controllers, all under one schedule of two goroutines. -/
def sampleGroups (targets : List (Target Nat Unit)) (turns : List Nat) :
    List ((String × List (Registered Nat Unit)) × Schedule) :=
  (registerAll targets).map fun entry => (entry, turns.map fun i => (i, false))

/-- An update of the state that nothing disturbs. -/
def afterUpdate (targets : List (Target Nat Unit)) (turns : List Nat) (enabled : Bool)
    (w : Resources Nat Unit) : Bool × Resources Nat Unit :=
  updateState false (fun _ => some enabled) (sampleGroups targets turns) w

/-- An update of the state that has returned nil. -/
theorem eq_of_fine {α : Type} {p : Bool × α} (fine : p.1 = true) : p = (true, p.2) :=
  Prod.ext fine rfl

/-- Two controllers of one flag, with a resource each. -/
theorem controllers_honoured_of_two :
    let targets := [sampleTarget 0, sampleTarget 1]
    let w₁ := (afterUpdate targets [0, 1, 0, 1, 0, 1, 0, 1] true sampleResources).2
    let w₂ := (afterUpdate targets [1, 0, 1, 0, 1, 0, 1, 0] false w₁).2
    (∀ c ∈ numberAll targets, c.count .apply w₁ = 1) ∧
      ∀ c ∈ numberAll targets, c.count .rollback w₂ = 1 := by
  intro targets w₁ w₂
  have applied : afterUpdate targets [0, 1, 0, 1, 0, 1, 0, 1] true sampleResources = (true, w₁) :=
    eq_of_fine (by decide +kernel)
  have rolledBack : afterUpdate targets [1, 0, 1, 0, 1, 0, 1, 0] false w₁ = (true, w₂) :=
    eq_of_fine (by decide +kernel)
  have order : ∀ turns, ((sampleGroups targets turns).map Prod.fst).Perm (registerAll targets) :=
    fun turns => by simp [sampleGroups, Function.comp_def]
  exact (controllers_honoured targets (fun _ _ => rfl) (fun _ => rfl)
    (fun _ _ same => (Option.some.inj same).symm) (fun _ _ same => (Option.some.inj same).symm)
    (order _) (order _) applied rolledBack).mpr (by simp [targets, sampleTarget])

/-- Two controllers of one flag and one resource. The second meets a conflict, finds the mark of
the first, and is done: its change is never made. -/
theorem controller_is_skipped :
    ¬ ∀ (targets : List (Target Nat Unit)) (w w₁ w₂ : Resources Nat Unit)
        (groups groups' : List ((String × List (Registered Nat Unit)) × Schedule)),
      (∀ key flag, (w key).annotations (getAnnotationName flag) = none) →
      (∀ key, (w key).effects = []) →
      (groups.map Prod.fst).Perm (registerAll targets) →
      (groups'.map Prod.fst).Perm (registerAll targets) →
      updateState false (fun _ => some true) groups w = (true, w₁) →
      updateState false (fun _ => some false) groups' w₁ = (true, w₂) →
      (∀ c ∈ numberAll targets, c.count .apply w₁ = 1) ∧
        ∀ c ∈ numberAll targets, c.count .rollback w₂ = 1 := by
  intro law
  have order : ∀ targets turns,
      ((sampleGroups targets turns).map Prod.fst).Perm (registerAll targets) :=
    fun targets turns => by simp [sampleGroups, Function.comp_def]
  have all := (law [sampleTarget 0, sampleTarget 0] sampleResources _ _ _ _ (fun _ _ => rfl)
    (fun _ => rfl) (order _ [0, 1, 0, 1, 0, 1, 0, 1, 1, 1, 1])
    (order _ [0, 1, 0, 1, 0, 1, 0, 1, 1, 1, 1]) (eq_of_fine (by decide +kernel))
    (eq_of_fine (by decide +kernel))).1 ⟨sampleTarget 0, 1⟩
    (List.mem_mapIdx.mpr ⟨1, by decide, rfl⟩)
  exact absurd all (by decide +kernel)

end EasyTrade.Operator.Groups
