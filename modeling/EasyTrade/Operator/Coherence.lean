import EasyTrade.Operator.Cluster

/-!
# The mark and the limits agree

Calls of the operator, one after the other, with any readings of the flag, in company of others
who change neither the operator's annotations nor the CPU limits. A deployment that is marked
as changed has the limit on every container; a call that fails has stored nothing; after a call
that returns, the mark is as the flag was read.
-/

namespace EasyTrade.Operator

open EasyTrade.Logic EasyTrade.Logic.Program

variable (config : BrokerConfig)

/-- The mark is one that the operator sets, or none, and `on` only with the limit on every
container. -/
structure Coherent (d : Deployment) : Prop where
  known : d.mark config = none ∨ d.mark config = some AnnotationValue.off.text ∨
    d.mark config = some AnnotationValue.on.text
  limits : d.mark config = some AnnotationValue.on.text →
    ∃ limit, config.cpuLimit = some limit ∧ ∀ x ∈ d.template.cpuLimits, x = some limit

/-- The controllers of the cluster are among the others. -/
def unreconciled (c : Cluster) (_ : Template) : Cluster := c

/-- A call of the operator, in company of others. -/
def company (enabled : Bool) (edits : List Edit) (w : World) :
    System Writer Command Reply Failure Unit Private World where
  threads
    | .operator => ⟨call config enabled, {}⟩
    | .others => ⟨forEach edits fun e => send (.edit e), {}⟩
  shared := w

/-- What calls one after the other lead to, from a deployment without a mark, or marked `off`.
Every state of a call is one, so the next call may also start when the operator has stopped in
the middle of one. -/
inductive Reachable : World → Prop where
  | start (c : Cluster) (fresh : c.deployment.mark config = none ∨
      c.deployment.mark config = some AnnotationValue.off.text) :
      Reachable ⟨c, [(.others, c.deployment)]⟩
  | call {w : World} (reached : Reachable w) (enabled : Bool) (edits : List Edit)
      (schedule : List (Writer × Bool)) :
      Reachable ((company config enabled edits w).run (machine unreconciled) schedule).shared

/-! ## What a call stores -/

/-- What the operator and the others promise: the operator updates what it has read, into a
deployment that is coherent and marked as the flag was read. -/
def promises (enabled : Bool) : Writer → Terms Command Failure Private World
  | .operator => {
      assume := fun _ _ => True
      guard := fun
        | .updateDeployment d, l => l.stored = false ∧ ∃ read, l.read = some read ∧
            d.resourceVersion = read.resourceVersion ∧
            (Coherent config read → Coherent config d ∧
              d.mark config = some (AnnotationValue.ofBool enabled).text)
        | .edit _, _ => False
        | _, _ => True
      abort := fun _ l => l.stored = false
      refusable := fun _ _ => True }
  | .others => {
      assume := fun _ _ => True
      guard := fun
        | .edit _, _ => True
        | _, _ => False
      abort := fun _ _ => True
      refusable := fun _ _ => True }

/-- What the two ends promise of their own. -/
def ends : Writer → Unit → Private → Prop
  | .operator, _, l => l.stored = true
  | .others, _, _ => True

/-- What holds all along a call that started in a world. -/
structure Inv (enabled : Bool) (w₀ : World) (privs : Writer → Private) (w : World) : Prop where
  coherent : Coherent config w.cluster.deployment
  last : w.updates.head?.map Prod.snd = some w.cluster.deployment
  old : ∀ read, (privs .operator).read = some read →
    read.resourceVersion ≤ w.cluster.deployment.resourceVersion
  same : ∀ read, (privs .operator).read = some read →
    read.resourceVersion = w.cluster.deployment.resourceVersion → read = w.cluster.deployment
  marked : (privs .operator).stored = true →
    w.cluster.deployment.mark config = some (AnnotationValue.ofBool enabled).text
  updates : ∃ new, w.updates = new ++ w₀.updates ∧
    ((privs .operator).stored = false → ∀ u ∈ new, u.1 = .others)

variable {config}

/-- A deployment that is marked `off` is coherent whatever its limits are. -/
theorem coherent_of_off {d : Deployment} (off : d.mark config = some AnnotationValue.off.text) :
    Coherent config d where
  known := Or.inr (Or.inl off)
  limits on := by
    rw [off] at on
    exact absurd on (by decide)

/-- A deployment with the limit on every container is coherent when it is marked `on`. -/
theorem coherent_of_on {d : Deployment} {limit : Quantity}
    (on : d.mark config = some AnnotationValue.on.text) (configured : config.cpuLimit = some limit)
    (limits : ∀ x ∈ d.template.cpuLimits, x = some limit) : Coherent config d where
  known := Or.inr (Or.inr on)
  limits _ := ⟨limit, configured, limits⟩

/-- Every container of a changed template has the limit. -/
theorem cpuLimits_withCpuLimit (t : Template) (limit : Quantity) :
    ∀ x ∈ (t.withCpuLimit limit).cpuLimits, x = some limit := by
  intro x member
  simp only [Template.cpuLimits, Template.withCpuLimit, List.mem_map] at member
  obtain ⟨_, ⟨c, _, rfl⟩, rfl⟩ := member
  rfl

/-- Where there is nothing to do, the deployment that is stored is marked as the flag was
read. -/
theorem synchronized_coherent (read : Deployment) (enabled : Bool)
    (coherent : Coherent config read)
    (same : (getObjectState ⟨config.highCpuUsage, enabled⟩ read).1 = .synchronized) :
    Coherent config (getObjectState ⟨config.highCpuUsage, enabled⟩ read).2 ∧
      (getObjectState ⟨config.highCpuUsage, enabled⟩ read).2.mark config
        = some (AnnotationValue.ofBool enabled).text := by
  obtain ⟨states, whole⟩ := getObjectState_cases ⟨config.highCpuUsage, enabled⟩ read
  have mark : Object.annotations read (getAnnotationName ⟨config.highCpuUsage, enabled⟩)
      = read.mark config := rfl
  rw [same, mark] at states
  simp only [true_and, reduceCtorEq, false_and, or_false] at states
  rw [whole, mark]
  rcases states with ⟨on, is_on⟩ | ⟨notOn, is_off⟩
  · rw [if_neg (by rw [on]; simp)]
    have : enabled = true := is_on
    subst this
    exact ⟨coherent, on⟩
  · have : enabled = false := is_off
    subst this
    by_cases missing : read.mark config = none
    · rw [if_pos missing]
      exact ⟨coherent_of_off (setFlagAnnotation_mark read false .off),
        setFlagAnnotation_mark read false .off⟩
    · rw [if_neg missing]
      rcases coherent.known with none | off | on
      · exact absurd none missing
      · exact ⟨coherent, off⟩
      · exact absurd on notOn

/-! ## A call keeps its promise -/

/-- The terms of one attempt: it starts, and ends in an error, with nothing stored. -/
def attemptTerms (config : BrokerConfig) (enabled : Bool) :
    Terms Command Failure Private World :=
  { promises config enabled .operator with abort := fun _ l => l.stored = false }

variable {reconcile : Cluster → Template → Cluster} {enabled : Bool}

/-- A deployment that keeps the promise is stored, or refused with nothing stored. -/
theorem updateResource_keeps {l : Private} {d read : Deployment} (nothing : l.stored = false)
    (is_read : l.read = some read) (version : d.resourceVersion = read.resourceVersion)
    (good : Coherent config read → Coherent config d ∧
      d.mark config = some (AnnotationValue.ofBool enabled).text) :
    (updateResource d).Keeps (machine reconcile) (attemptTerms config enabled)
      (fun _ l => l.stored = true) l := by
  rw [updateResource, keeps_bind]
  refine keeps_perform ⟨nothing, read, is_read, version, good⟩ (fun _ => nothing) ?_
  intro w answer l' w' _ acted
  have acted : act reconcile (.updateDeployment d) l w = some (answer, l', w') := acted
  rw [act] at acted
  by_cases fresh : d.resourceVersion = w.cluster.deployment.resourceVersion
  · rw [if_pos fresh] at acted
    cases acted
    exact rfl
  · rw [if_neg fresh] at acted
    cases acted
    exact nothing

/-- The limit is set on a deployment that is marked `on`, or nothing is stored. -/
theorem apply_keeps {l : Private} {obj read : Deployment} (nothing : l.stored = false)
    (is_read : l.read = some read) (version : obj.resourceVersion = read.resourceVersion) :
    (applyChange config ( setFlagAnnotation ⟨config.highCpuUsage, true⟩ obj .on) >>=
        updateResource).Keeps (machine reconcile) (attemptTerms config true)
      (fun _ l => l.stored = true) l := by
  unfold applyChange
  cases configured : config.cpuLimit with
  | none => exact nothing
  | some limit =>
    refine updateResource_keeps nothing is_read version fun _ => ?_
    have on : Deployment.mark config (( setFlagAnnotation ⟨config.highCpuUsage, true⟩ obj
        .on).withTemplate (obj.template.withCpuLimit limit)) = some AnnotationValue.on.text :=
      setFlagAnnotation_mark obj true .on
    exact ⟨coherent_of_on on configured (cpuLimits_withCpuLimit obj.template limit), on⟩

/-- A template is put back into a deployment that is marked `off`, or nothing is stored. -/
theorem rollback_keeps {l : Private} {obj read : Deployment} (nothing : l.stored = false)
    (is_read : l.read = some read) (version : obj.resourceVersion = read.resourceVersion) :
    (rollbackDeployment ( setFlagAnnotation ⟨config.highCpuUsage, false⟩ obj .off) >>=
        updateResource).Keeps (machine reconcile) (attemptTerms config false)
      (fun _ l => l.stored = true) l := by
  unfold rollbackDeployment
  cases ( setFlagAnnotation ⟨config.highCpuUsage, false⟩ obj .off).revision with
  | none => exact nothing
  | some readable =>
    cases readable with
    | none => exact nothing
    | some deployRev =>
      rw [keeps_bind, keeps_bind]
      refine keeps_perform trivial (fun _ => nothing) ?_
      intro w replicaSets l' w' _ acted
      cases acted
      cases findRevision (deployRev - 1) w.cluster.replicaSets with
      | none => exact nothing
      | some template =>
        refine updateResource_keeps nothing is_read version fun _ => ?_
        have off : Deployment.mark config (( setFlagAnnotation ⟨config.highCpuUsage, false⟩ obj
            .off).withTemplate template) = some AnnotationValue.off.text :=
          setFlagAnnotation_mark obj false .off
        exact ⟨coherent_of_off off, off⟩

/-- An attempt keeps the promise. -/
theorem attempt_keeps {l : Private} (nothing : l.stored = false) :
    (attempt (send .err) ⟨config.highCpuUsage, enabled⟩ (brokerController config)).Keeps
      (machine reconcile) (attemptTerms config enabled) (fun _ l => l.stored = true) l := by
  rw [attempt, keeps_bind]
  refine keeps_perform trivial (fun _ => nothing) ?_
  intro w _ l' w' _ acted
  cases acted
  rw [keeps_bind]
  refine keeps_perform trivial (fun _ => nothing) ?_
  intro w read l' w' _ acted
  cases acted
  have version := (getObjectState_frame ⟨config.highCpuUsage, enabled⟩
    w.cluster.deployment).1
  have states := (getObjectState_cases ⟨config.highCpuUsage, enabled⟩ w.cluster.deployment).1
  have settled := @synchronized_coherent config w.cluster.deployment enabled
  cases found : getObjectState ⟨config.highCpuUsage, enabled⟩ w.cluster.deployment with
  | mk state obj =>
  rw [found] at version states settled
  cases state with
  | synchronized =>
    exact updateResource_keeps nothing rfl version fun coherent => settled coherent rfl
  | shouldApply =>
    have is_on : enabled = true := And.left (by simpa using states)
    subst is_on
    exact apply_keeps nothing rfl version
  | shouldRollback =>
    have is_off : enabled = false := And.left (by simpa using states)
    subst is_off
    exact rollback_keeps nothing rfl version

/-- A call keeps the promise. -/
theorem call_keeps (config : BrokerConfig) (enabled : Bool) {l : Private}
    (nothing : l.stored = false) :
    (call config enabled).Keeps (machine reconcile) (promises config enabled .operator)
      (ends .operator) l :=
  keeps_retryOnConflict (fun l => l.stored = false) (fun _ _ nothing => nothing)
    (fun _ nothing => attempt_keeps nothing) defaultRetry l nothing

/-- The others keep theirs. -/
theorem edits_keep (config : BrokerConfig) (enabled : Bool) (edits : List Edit) (l : Private) :
    (forEach edits fun e => send (.edit e)).Keeps (machine reconcile)
      (promises config enabled .others) (ends .others) l :=
  keeps_forEach (fun _ _ => True)
    (fun _ _ _ _ => keeps_perform trivial (fun _ => trivial) fun _ _ _ _ _ _ => trivial)
    edits l trivial

/-! ## What holds all along -/

/-- An edit is coherent with what was stored. -/
theorem coherent_edit {w : World} (e : Edit) (coherent : Coherent config w.cluster.deployment) :
    Coherent config (w.edit e).cluster.deployment ∧
      (w.edit e).cluster.deployment.mark config = w.cluster.deployment.mark config := by
  have sameMark : (e.apply w.cluster).deployment.mark config = w.cluster.deployment.mark config :=
    e.annotations w.cluster ⟨config.highCpuUsage, true⟩
  have sameLimits := e.cpuLimits w.cluster
  have edited : Coherent config (e.apply w.cluster).deployment := by
    constructor
    · rw [sameMark]
      exact coherent.known
    · rw [sameMark, sameLimits]
      exact coherent.limits
  unfold World.edit
  by_cases touches : e.touches = true
  · rw [if_pos touches]
    exact ⟨⟨edited.known, edited.limits⟩, sameMark⟩
  · rw [if_neg touches]
    exact ⟨edited, sameMark⟩

/-- A world with a new last update, and a call that has read nothing new. -/
theorem edit_frame (w : World) (e : Edit) :
    (w.edit e).updates.head?.map Prod.snd = some (w.edit e).cluster.deployment ∧
        (w.edit e).cluster.deployment.resourceVersion
          = w.cluster.deployment.resourceVersion + 1 ∧
        (w.edit e).updates = (.others, (w.edit e).cluster.deployment) :: w.updates ∨
      (w.edit e).cluster.deployment = w.cluster.deployment ∧ (w.edit e).updates = w.updates := by
  unfold World.edit
  by_cases touches : e.touches = true
  · rw [if_pos touches]
    exact Or.inl ⟨rfl, rfl, rfl⟩
  · rw [if_neg touches]
    exact Or.inr ⟨e.untouched (eq_false_of_ne_true touches) w.cluster, rfl⟩

/-- What others do keeps what holds. -/
theorem inv_edit {w₀ w : World} {privs : Writer → Private} (e : Edit)
    (inv : Inv config enabled w₀ privs w) : Inv config enabled w₀ privs (w.edit e) := by
  obtain ⟨coherent, sameMark⟩ := coherent_edit e inv.coherent
  obtain ⟨new, updates, own⟩ := inv.updates
  rcases edit_frame w e with ⟨last, version, log⟩ | ⟨sameDeployment, log⟩
  · refine ⟨coherent, last, ?_, ?_, ?_, ?_⟩
    · intro read is_read
      have := inv.old read is_read
      omega
    · intro read is_read same
      have := inv.old read is_read
      omega
    · intro stored
      rw [sameMark]
      exact inv.marked stored
    · refine ⟨(.others, (w.edit e).cluster.deployment) :: new, ?_, ?_⟩
      · rw [log, updates, List.cons_append]
      · intro nothing u member
        rcases List.mem_cons.mp member with rfl | member
        · rfl
        · exact own nothing u member
  · refine ⟨coherent, ?_, ?_, ?_, ?_, ?_⟩
    · rw [log, sameDeployment]
      exact inv.last
    · rw [sameDeployment]
      exact inv.old
    · rw [sameDeployment]
      exact inv.same
    · rw [sameDeployment]
      exact inv.marked
    · rw [log]
      exact inv.updates

/-- What the operator stores keeps what holds. -/
theorem inv_update {w₀ w : World} {privs : Writer → Private} {d read : Deployment}
    (inv : Inv config enabled w₀ privs w)
    (is_read : (privs .operator).read = some read)
    (version : d.resourceVersion = read.resourceVersion)
    (good : Coherent config read → Coherent config d ∧
      d.mark config = some (AnnotationValue.ofBool enabled).text)
    (fresh : d.resourceVersion = w.cluster.deployment.resourceVersion) :
    Inv config enabled w₀
      (Function.update privs .operator { privs .operator with stored := true })
      (w.store unreconciled .operator d) := by
  have current : read = w.cluster.deployment := inv.same read is_read (version ▸ fresh)
  obtain ⟨coherent, marked⟩ := good (current ▸ inv.coherent)
  obtain ⟨new, updates, own⟩ := inv.updates
  have after : (w.store unreconciled .operator d).cluster.deployment
      = { d with resourceVersion := w.cluster.deployment.resourceVersion + 1 } := rfl
  refine ⟨⟨coherent.known, coherent.limits⟩, rfl, ?_, ?_, fun _ => marked, ?_⟩
  · intro other is_other
    rw [Function.update_self] at is_other
    have := inv.old other is_other
    rw [after]
    show other.resourceVersion ≤ w.cluster.deployment.resourceVersion + 1
    omega
  · intro other is_other same
    rw [Function.update_self] at is_other
    have := inv.old other is_other
    rw [after] at same
    have : other.resourceVersion = w.cluster.deployment.resourceVersion + 1 := same
    omega
  · refine ⟨(.operator, (w.store unreconciled .operator d).cluster.deployment) :: new, ?_, ?_⟩
    · show (_, _) :: w.updates = _
      rw [updates]
      rfl
    · intro stored
      rw [Function.update_self] at stored
      cases stored

/-- What the operator reads is what is stored. -/
theorem inv_read {w₀ w : World} {privs : Writer → Private} (inv : Inv config enabled w₀ privs w) :
    Inv config enabled w₀
      (Function.update privs .operator
        { privs .operator with read := some w.cluster.deployment }) w where
  coherent := inv.coherent
  last := inv.last
  old read is_read := by
    rw [Function.update_self] at is_read
    cases is_read
    exact Nat.le_refl _
  same read is_read _ := by
    rw [Function.update_self] at is_read
    cases is_read
    rfl
  marked := by
    rw [Function.update_self]
    exact inv.marked
  updates := by
    rw [Function.update_self]
    exact inv.updates

/-- The private state of the others does not matter. -/
theorem inv_others {w₀ w : World} {privs : Writer → Private} (inv : Inv config enabled w₀ privs w)
    (l : Private) : Inv config enabled w₀ (Function.update privs .others l) w where
  coherent := inv.coherent
  last := inv.last
  old := inv.old
  same := inv.same
  marked := inv.marked
  updates := inv.updates

/-- Every command that keeps the promises keeps what holds. -/
theorem inv_act {w₀ w w' : World} {privs : Writer → Private} {i : Writer} {c : Command}
    {reply : Reply c} {l' : Private} (guarded : (promises config enabled i).guard c (privs i))
    (inv : Inv config enabled w₀ privs w)
    (acted : act unreconciled c (privs i) w = some (reply, l', w')) :
    Inv config enabled w₀ (Function.update privs i l') w' := by
  cases i with
  | others =>
    cases c with
    | edit e =>
      cases acted
      exact inv_others (inv_edit e inv) _
    | _ => exact guarded.elim
  | operator =>
    cases c with
    | err =>
      cases acted
      rw [Function.update_eq_self]
      exact inv
    | getDeployment =>
      cases acted
      exact inv_read inv
    | listReplicaSets =>
      cases acted
      rw [Function.update_eq_self]
      exact inv
    | updateDeployment d =>
      obtain ⟨-, read, is_read, version, good⟩ := guarded
      rw [act] at acted
      by_cases fresh : d.resourceVersion = w.cluster.deployment.resourceVersion
      · rw [if_pos fresh] at acted
        cases acted
        exact inv_update inv is_read version good fresh
      · rw [if_neg fresh] at acted
        cases acted
        rw [Function.update_eq_self]
        exact inv
    | edit e => exact guarded.elim

/-- All along a call what holds goes on to hold, and the two ends keep their promises. -/
theorem company_inv (enabled : Bool) (edits : List Edit) (schedule : List (Writer × Bool))
    {w : World} (coherent : Coherent config w.cluster.deployment)
    (last : w.updates.head?.map Prod.snd = some w.cluster.deployment) :
    let s := (company config enabled edits w).run (machine unreconciled) schedule
    Inv config enabled w s.privs s.shared ∧
      ∀ i, (s.threads i).program.Keeps (machine unreconciled) (promises config enabled i) (ends i)
        (s.threads i).priv := by
  refine System.run_terms (Inv config enabled w) (fun _ _ _ i => by cases i <;> trivial)
    (fun _ _ i _ _ _ _ _ _ => by cases i <;> trivial)
    (fun _ _ _ _ _ _ _ guarded _ inv acted => inv_act guarded inv acted) schedule ?_ ?_
    (System.Respects.of_forall (fun _ _ _ _ _ => trivial) _ _ :
      System.Respects _ (fun _ _ _ _ _ => True) _ _)
  · intro i
    cases i with
    | operator => exact call_keeps config enabled rfl
    | others => exact edits_keep config enabled edits {}
  · exact ⟨coherent, last, nofun, nofun, nofun, [], rfl, fun _ => nofun⟩

/-- What holds whenever a call may start. -/
theorem reachable_coherent {w : World} (reached : Reachable config w) :
    Coherent config w.cluster.deployment ∧
      w.updates.head?.map Prod.snd = some w.cluster.deployment := by
  induction reached with
  | start c fresh =>
    refine ⟨⟨?_, ?_⟩, rfl⟩
    · rcases fresh with none | off
      · exact Or.inl none
      · exact Or.inr (Or.inl off)
    · intro on
      rcases fresh with none | off
      · rw [none] at on
        cases on
      · rw [off] at on
        exact absurd on (by decide)
  | call reached enabled edits schedule earlier =>
    have inv := (company_inv enabled edits schedule earlier.1 earlier.2).1
    exact ⟨inv.coherent, inv.last⟩

/-- Calls of the operator with any readings of the flag, with conflicts, retries and failures of
any kind, among others who keep the annotations of the operator and the CPU limits: whenever the
stored deployment is marked `on`, every container has the limit that `ApplyChange` sets; what is
stored is what the last successful update left, and a call that fails has no part in the updates;
after a call that returns, the mark is as the flag was read. -/
theorem operator_coherent (config : BrokerConfig) {w : World} (reached : Reachable config w)
    (enabled : Bool) (edits : List Edit) (schedule : List (Writer × Bool)) :
    let s := (company config enabled edits w).run (machine unreconciled) schedule
    (s.shared.cluster.deployment.mark config = some AnnotationValue.on.text →
      ∃ limit, config.cpuLimit = some limit ∧
        ∀ c ∈ s.shared.cluster.deployment.template.containers, c.cpuLimit = some limit) ∧
    s.shared.updates.head?.map Prod.snd = some s.shared.cluster.deployment ∧
    (∀ e, (s.threads .operator).program = .fail e →
      ∃ new, s.shared.updates = new ++ w.updates ∧ ∀ u ∈ new, u.1 = .others) ∧
    ((s.threads .operator).program = .done () →
      s.shared.cluster.deployment.mark config
        = some (AnnotationValue.ofBool enabled).text) := by
  obtain ⟨coherent, last⟩ := reachable_coherent reached
  obtain ⟨inv, keeps⟩ := company_inv enabled edits schedule coherent last
  have own := keeps .operator
  refine ⟨?_, inv.last, ?_, ?_⟩
  · intro on
    obtain ⟨limit, configured, limits⟩ := inv.coherent.limits on
    exact ⟨limit, configured, fun c member => limits _ (List.mem_map_of_mem member)⟩
  · intro e failed
    rw [failed] at own
    obtain ⟨new, updates, others⟩ := inv.updates
    exact ⟨new, updates, others own⟩
  · intro returned
    rw [returned] at own
    exact inv.marked own

/-- A call that reads the flag on and returns. -/
theorem operator_coherent_of_one_call :
    let start : World := ⟨sampleCluster (sampleTemplate "1.0" none),
      [(.others, (sampleCluster (sampleTemplate "1.0" none)).deployment)]⟩
    let s := (company sampleConfig true [] start).run (machine unreconciled)
      (List.replicate 3 (.operator, false))
    (s.threads .operator).program = .done () ∧
      s.shared.cluster.deployment.mark sampleConfig = some "on" ∧
      s.shared.cluster.deployment.template = sampleTemplate "1.0" (some (3 / 10)) := by
  intro start s
  have returned : (s.threads .operator).program = .done () := rfl
  have coherent := operator_coherent sampleConfig
    (.start (sampleCluster (sampleTemplate "1.0" none)) (Or.inl rfl)) true []
    (List.replicate 3 (.operator, false))
  exact ⟨returned, coherent.2.2.2 returned, rfl⟩

end EasyTrade.Operator
