import EasyTrade.Operator.Cluster
import Mathlib.Data.List.Induction

/-!
# What a rollback brings back

A rollback puts back the whole template of the previous revision. That undoes the change of the
operator when this change is the last one that was deployed, and only then: a change that
changed nothing has no revision of its own, and after other changes the previous revision is
one of theirs.
-/

namespace EasyTrade.Operator

open EasyTrade.Logic EasyTrade.Logic.Program

/-! ## The deployment controller -/

/-- The revision of a replica set, 0 without one. -/
def ReplicaSet.number (rs : ReplicaSet) : Int :=
  match rs.revision with
  | some (some number) => number
  | _ => 0

/-- The highest revision. -/
def maxRevision (replicaSets : List ReplicaSet) : Int :=
  (replicaSets.map ReplicaSet.number).foldr max 0

/-- A replica set of a revision. -/
def numbered (number : Int) (template : Template) : ReplicaSet := ⟨some (some number), template⟩

/-- The replica sets after a template is deployed as a revision: one with that template is
renumbered, or there is a new one. -/
def deployReplicaSet (replicaSets : List ReplicaSet) (number : Int) (template : Template) :
    List ReplicaSet :=
  if template ∈ replicaSets.map ReplicaSet.template then
    replicaSets.map fun rs => if rs.template = template then numbered number template else rs
  else replicaSets ++ [numbered number template]

/-- The deployment controller of the cluster, after an update of the deployment that had a
template before: a changed template is a new highest revision. -/
def deploymentController (c : Cluster) (before : Template) : Cluster :=
  if c.deployment.template = before then c
  else
    { deployment := { c.deployment with revision := some (some (maxRevision c.replicaSets + 1)) }
      replicaSets :=
        deployReplicaSet c.replicaSets (maxRevision c.replicaSets + 1) c.deployment.template }

/-- Someone else deploys a template. -/
def deploy (c : Cluster) (template : Template) : Cluster :=
  deploymentController
    { c with deployment := { c.deployment with
        resourceVersion := c.deployment.resourceVersion + 1, template := template } }
    c.deployment.template

/-- The deployment is at a revision: it is the highest, its replica set has the template, and
no two replica sets share a revision or a template. -/
structure Deployed (c : Cluster) (n : Int) : Prop where
  revision : c.deployment.revision = some (some n)
  positive : 0 < n
  current : numbered n c.deployment.template ∈ c.replicaSets
  readable : ∀ rs ∈ c.replicaSets, ∃ k, rs.revision = some (some k) ∧ k ≤ n
  numbers : ∀ rs ∈ c.replicaSets, ∀ rs' ∈ c.replicaSets, rs.revision = rs'.revision → rs = rs'
  templates : ∀ rs ∈ c.replicaSets, ∀ rs' ∈ c.replicaSets, rs.template = rs'.template → rs = rs'

/-- Its revision is the highest. -/
theorem Deployed.maxRevision {c : Cluster} {n : Int} (deployed : Deployed c n) :
    maxRevision c.replicaSets = n := by
  have positive := deployed.positive
  have upper : ∀ sets : List ReplicaSet, (∀ rs ∈ sets, ∃ k, rs.revision = some (some k) ∧ k ≤ n) →
      Operator.maxRevision sets ≤ n := by
    intro sets readable
    induction sets with
    | nil =>
      show (0 : Int) ≤ n
      omega
    | cons rs rest step =>
      obtain ⟨k, revision, bound⟩ := readable rs (by simp)
      have others := step fun other member => readable other (by simp [member])
      have number : rs.number = k := by simp [ReplicaSet.number, revision]
      show max rs.number (Operator.maxRevision rest) ≤ n
      rw [number]
      omega
  have lower : ∀ sets : List ReplicaSet, numbered n c.deployment.template ∈ sets →
      n ≤ Operator.maxRevision sets := by
    intro sets member
    induction sets with
    | nil => simp at member
    | cons rs rest step =>
      show n ≤ max rs.number (Operator.maxRevision rest)
      rcases List.mem_cons.mp member with rfl | later
      · exact le_max_left _ _
      · exact le_trans (step later) (le_max_right _ _)
  exact le_antisymm (upper _ deployed.readable) (lower _ deployed.current)

/-- What the replica sets are after a deployment. -/
theorem mem_deployReplicaSet (sets : List ReplicaSet) (n : Int) (t : Template) (rs : ReplicaSet) :
    rs ∈ deployReplicaSet sets n t ↔ rs = numbered n t ∨ rs ∈ sets ∧ rs.template ≠ t := by
  unfold deployReplicaSet
  by_cases there : t ∈ sets.map ReplicaSet.template
  · rw [if_pos there, List.mem_map]
    constructor
    · rintro ⟨old, member, rfl⟩
      by_cases same : old.template = t
      · rw [if_pos same]
        exact Or.inl rfl
      · rw [if_neg same]
        exact Or.inr ⟨member, same⟩
    · rintro (rfl | ⟨member, other⟩)
      · obtain ⟨old, member, same⟩ := List.mem_map.mp there
        exact ⟨old, member, if_pos same⟩
      · exact ⟨rs, member, if_neg other⟩
  · rw [if_neg there, List.mem_append, List.mem_singleton]
    constructor
    · rintro (member | rfl)
      · exact Or.inr ⟨member, fun same => there (List.mem_map.mpr ⟨rs, member, same⟩)⟩
      · exact Or.inl rfl
    · rintro (rfl | ⟨member, -⟩)
      · exact Or.inr rfl
      · exact Or.inl member

/-- A changed template is deployed as the next revision, and the template before it stays that
of the revision before. -/
theorem Deployed.controller {c c' : Cluster} {n : Int} (deployed : Deployed c n)
    (sets : c'.replicaSets = c.replicaSets)
    (changed : c'.deployment.template ≠ c.deployment.template) :
    Deployed (deploymentController c' c.deployment.template) (n + 1) ∧
      numbered n c.deployment.template ∈
        (deploymentController c' c.deployment.template).replicaSets := by
  have highest : Operator.maxRevision c'.replicaSets = n := by
    rw [sets]
    exact deployed.maxRevision
  rw [deploymentController, if_neg changed, highest, sets]
  have member := fun rs => mem_deployReplicaSet c.replicaSets (n + 1) c'.deployment.template rs
  have old : ∀ rs ∈ c.replicaSets, rs.revision ≠ some (some (n + 1)) := by
    intro rs listed same
    obtain ⟨k, revision, bound⟩ := deployed.readable rs listed
    rw [revision] at same
    have : k = n + 1 := by simpa using same
    omega
  have positive := deployed.positive
  refine ⟨⟨rfl, by omega, (member _).mpr (Or.inl rfl), ?_, ?_, ?_⟩,
    (member _).mpr (Or.inr ⟨deployed.current, fun same => changed same.symm⟩)⟩
  · intro rs listed
    rcases (member _).mp listed with rfl | ⟨before, -⟩
    · exact ⟨n + 1, rfl, le_refl _⟩
    · obtain ⟨k, revision, bound⟩ := deployed.readable rs before
      exact ⟨k, revision, by omega⟩
  · intro rs listed rs' listed' same
    rcases (member _).mp listed with rfl | ⟨before, -⟩ <;>
      rcases (member _).mp listed' with rfl | ⟨before', -⟩
    · rfl
    · exact absurd same.symm (old rs' before')
    · exact absurd same (old rs before)
    · exact deployed.numbers rs before rs' before' same
  · intro rs listed rs' listed' same
    rcases (member _).mp listed with rfl | ⟨before, other⟩ <;>
      rcases (member _).mp listed' with rfl | ⟨before', other'⟩
    · rfl
    · exact absurd same.symm other'
    · exact absurd same other
    · exact deployed.templates rs before rs' before' same

/-- The template that is found is that of a replica set of the revision. -/
theorem findRevision_mem {n : Int} {sets : List ReplicaSet} {t : Template}
    (found : findRevision n sets = some t) : numbered n t ∈ sets := by
  induction sets with
  | nil => cases found
  | cons rs rest step =>
    rw [findRevision] at found
    split at found
    · cases found
    · cases found
    · rename_i number revision
      by_cases same : number = n
      · rw [if_pos same] at found
        cases found
        have whole : numbered n rs.template = rs := by
          rw [numbered, ← same, ← revision]
        rw [whole]
        exact List.mem_cons_self
      · rw [if_neg same] at found
        exact List.mem_cons_of_mem _ (step found)

/-- Two templates of one revision are one. -/
theorem Deployed.unique {c : Cluster} {n k : Int} (deployed : Deployed c n) {t t' : Template}
    (one : numbered k t ∈ c.replicaSets) (other : numbered k t' ∈ c.replicaSets) : t = t' :=
  congrArg ReplicaSet.template (deployed.numbers _ one _ other rfl)

/-- The template of another revision is another one. -/
theorem Deployed.other {c : Cluster} {n k : Int} (deployed : Deployed c n) {t : Template}
    (member : numbered k t ∈ c.replicaSets) (differs : k ≠ n) : t ≠ c.deployment.template := by
  intro same
  have one := deployed.templates _ member _ deployed.current same
  exact differs (by simpa [numbered] using congrArg ReplicaSet.revision one)

/-! ## Other changes -/

/-- What a deployment by someone else is, whether the template has changed or not. -/
theorem deploy_frame (c : Cluster) (t : Template) :
    (deploy c t).deployment.template = t ∧
      (deploy c t).deployment.annotations = c.deployment.annotations := by
  unfold deploy deploymentController
  by_cases same : t = c.deployment.template
  · rw [if_pos same]
    exact ⟨rfl, rfl⟩
  · rw [if_neg same]
    exact ⟨rfl, rfl⟩

/-- The template that is there is deployed as what it is. -/
theorem Deployed.deploy_same {c : Cluster} {n : Int} (deployed : Deployed c n) {t : Template}
    (same : t = c.deployment.template) :
    Deployed (deploy c t) n ∧ (deploy c t).replicaSets = c.replicaSets := by
  rw [deploy, deploymentController, if_pos same]
  refine ⟨⟨deployed.revision, deployed.positive, ?_, deployed.readable, deployed.numbers,
    deployed.templates⟩, rfl⟩
  rw [same]
  exact deployed.current

/-- Another template is deployed as the next revision. -/
theorem Deployed.deploy_other {c : Cluster} {n : Int} (deployed : Deployed c n) {t : Template}
    (other : t ≠ c.deployment.template) :
    Deployed (deploy c t) (n + 1) ∧
      numbered n c.deployment.template ∈ (deploy c t).replicaSets :=
  deployed.controller rfl other

/-- After other templates were deployed: nothing has changed, or the previous revision has the
first template or one of the others. -/
structure Since (c : Cluster) (n : Int) (templates : List Template) (k : Int) : Prop where
  deployed : Deployed (templates.foldl deploy c) k
  annotations : (templates.foldl deploy c).deployment.annotations = c.deployment.annotations
  template : (templates.foldl deploy c).deployment.template ∈ c.deployment.template :: templates
  unchanged : (∀ t ∈ templates, t = c.deployment.template) →
    k = n ∧ (templates.foldl deploy c).replicaSets = c.replicaSets
  changed : ¬(∀ t ∈ templates, t = c.deployment.template) →
    ∃ t ∈ c.deployment.template :: templates,
      numbered (k - 1) t ∈ (templates.foldl deploy c).replicaSets

/-- One more template. -/
theorem Since.append {c : Cluster} {n k : Int} {templates : List Template}
    (since : Since c n templates k) (t : Template) :
    ∃ k, Since c n (templates ++ [t]) k := by
  have whole : (templates ++ [t]).foldl deploy c = deploy (templates.foldl deploy c) t := by
    rw [List.foldl_append]
    rfl
  obtain ⟨template, annotations⟩ := deploy_frame (templates.foldl deploy c) t
  have notes := annotations.trans since.annotations
  have last : (deploy (templates.foldl deploy c) t).deployment.template
      ∈ c.deployment.template :: (templates ++ [t]) := by
    rw [template]
    simp
  have more : ∀ {old}, old ∈ c.deployment.template :: templates →
      old ∈ c.deployment.template :: (templates ++ [t]) := by
    intro old member
    rcases List.mem_cons.mp member with first | later
    · exact List.mem_cons.mpr (Or.inl first)
    · exact List.mem_cons.mpr (Or.inr (List.mem_append.mpr (Or.inl later)))
  by_cases same : t = (templates.foldl deploy c).deployment.template
  · obtain ⟨deployed, sets⟩ := since.deployed.deploy_same same
    refine ⟨k, by rwa [whole], by rwa [whole], by rwa [whole], ?_, ?_⟩
    · intro all
      obtain ⟨kept, earlier⟩ := since.unchanged fun other member => all other (by simp [member])
      rw [whole, sets]
      exact ⟨kept, earlier⟩
    · intro notAll
      rw [whole, sets]
      have earlier : ¬(∀ other ∈ templates, other = c.deployment.template) := by
        intro all
        apply notAll
        intro other member
        rcases List.mem_append.mp member with before | now
        · exact all other before
        · rw [List.mem_singleton.mp now, same]
          rcases List.mem_cons.mp since.template with first | later
          · exact first
          · exact all _ later
      obtain ⟨old, listed, member⟩ := since.changed earlier
      exact ⟨old, more listed, member⟩
  · obtain ⟨deployed, previous⟩ := since.deployed.deploy_other same
    refine ⟨k + 1, by rwa [whole], by rwa [whole], by rwa [whole], ?_, ?_⟩
    · intro all
      exfalso
      apply same
      have now : t = c.deployment.template := all t (by simp)
      rw [now]
      rcases List.mem_cons.mp since.template with first | later
      · exact first.symm
      · exact (all _ (by simp [later])).symm
    · intro _
      rw [whole]
      refine ⟨_, more since.template, ?_⟩
      rw [Int.add_sub_cancel]
      exact previous

/-- Any templates. -/
theorem since_deployed {c : Cluster} {n : Int} (deployed : Deployed c n)
    (templates : List Template) : ∃ k, Since c n templates k := by
  induction templates using List.reverseRecOn with
  | nil =>
    exact ⟨n, deployed, rfl, List.mem_cons_self, fun _ => ⟨rfl, rfl⟩,
      fun notAll => absurd nofun notAll⟩
  | append_singleton templates t step =>
    obtain ⟨k, since⟩ := step
    exact since.append t

/-! ## Calls that nobody disturbs -/

/-- What a call stores of the deployment of a cluster. -/
inductive Updates (config : BrokerConfig) (enabled : Bool) (c : Cluster) : Deployment → Prop where
  | synchronized
      (state : (getObjectState ⟨config.highCpuUsage, enabled⟩ c.deployment).1 = .synchronized) :
      Updates config enabled c (getObjectState ⟨config.highCpuUsage, enabled⟩ c.deployment).2
  | applied {obj : Deployment} {limit : Quantity}
      (state : getObjectState ⟨config.highCpuUsage, enabled⟩ c.deployment = (.shouldApply, obj))
      (configured : config.cpuLimit = some limit) :
      Updates config enabled c
        (( setFlagAnnotation ⟨config.highCpuUsage, enabled⟩ obj .on).withTemplate
          (obj.template.withCpuLimit limit))
  | rolledBack {obj : Deployment} {n : Int} {t : Template}
      (state : getObjectState ⟨config.highCpuUsage, enabled⟩ c.deployment = (.shouldRollback, obj))
      (revision : obj.revision = some (some n))
      (found : findRevision (n - 1) c.replicaSets = some t) :
      Updates config enabled c
        (( setFlagAnnotation ⟨config.highCpuUsage, enabled⟩ obj .off).withTemplate t)

variable {config : BrokerConfig} {enabled : Bool} {reconcile : Cluster → Template → Cluster}

/-- A program that ends in an error that is no conflict, or stores what a call stores. -/
def Settles (config : BrokerConfig) (enabled : Bool) (reconcile : Cluster → Template → Cluster)
    (w : World) (p : Task Unit) : Prop :=
  ∀ fails l, (exec (machine reconcile) p fails l w).1 = .error .other ∨
    ∃ d, Updates config enabled w.cluster d ∧
      (exec (machine reconcile) p fails l w).1 = .ok () ∧
      (exec (machine reconcile) p fails l w).2.2 = w.store reconcile .operator d

/-- A command that reads only, and what follows. -/
theorem settles_send {w : World} {c : Command} {f : Reply c → Task Unit}
    (next : ∀ l reply l' w', act reconcile c l w = some (reply, l', w') →
      w' = w ∧ Settles config enabled reconcile w (f reply)) :
    Settles config enabled reconcile w (send c >>= f) := by
  intro fails l
  rw [send, exec_send]
  cases refused : fails 0 with
  | true => exact Or.inl rfl
  | false =>
    rw [attempt_false]
    cases acted : (machine reconcile).act c l w with
    | none => exact Or.inl rfl
    | some r =>
      obtain ⟨reply, l', w'⟩ := r
      obtain ⟨same, settles⟩ := next l reply l' w' acted
      subst same
      exact settles _ l'

/-- The update of what was read is stored. -/
theorem settles_update {w : World} {d : Deployment} (updates : Updates config enabled w.cluster d)
    (version : d.resourceVersion = w.cluster.deployment.resourceVersion) :
    Settles config enabled reconcile w (updateResource d) := by
  intro fails l
  rw [updateResource, send, exec_send]
  cases refused : fails 0 with
  | true => exact Or.inl rfl
  | false =>
    have acted : (machine reconcile).act (.updateDeployment d) l w
        = some (.stored, { l with stored := true }, w.store reconcile .operator d) :=
      if_pos version
    rw [attempt_false, acted]
    exact Or.inr ⟨d, updates, rfl, rfl⟩

/-- One attempt. -/
theorem settles_attempt (w : World) :
    Settles config enabled reconcile w
      (attempt (send .err) ⟨config.highCpuUsage, enabled⟩ (brokerController config)) := by
  apply settles_send
  intro l _ l' w' acted
  cases acted
  refine ⟨rfl, settles_send ?_⟩
  intro l d l' w' acted
  cases acted
  refine ⟨rfl, ?_⟩
  have version := (getObjectState_frame ⟨config.highCpuUsage, enabled⟩
    w.cluster.deployment).1
  cases state : getObjectState ⟨config.highCpuUsage, enabled⟩ w.cluster.deployment with
  | mk action obj =>
  rw [state] at version
  cases action with
  | synchronized =>
    have updates : Updates config enabled w.cluster
        (getObjectState ⟨config.highCpuUsage, enabled⟩ w.cluster.deployment).2 :=
      .synchronized (by rw [state])
    rw [state] at updates
    exact settles_update updates version
  | shouldApply =>
    show Settles config enabled reconcile w (applyChange config _ >>= updateResource)
    unfold applyChange
    cases configured : config.cpuLimit with
    | none => exact fun _ _ => Or.inl rfl
    | some limit => exact settles_update (.applied state configured) version
  | shouldRollback =>
    show Settles config enabled reconcile w (rollbackDeployment _ >>= updateResource)
    unfold rollbackDeployment
    have sameRevision : ( setFlagAnnotation ⟨config.highCpuUsage, enabled⟩ obj .off).revision
        = obj.revision := rfl
    cases revision : obj.revision with
    | none =>
      rw [sameRevision, revision]
      exact fun _ _ => Or.inl rfl
    | some readable =>
      rw [sameRevision, revision]
      cases readable with
      | none => exact fun _ _ => Or.inl rfl
      | some n =>
        show Settles config enabled reconcile w ((send .listReplicaSets >>= _) >>= updateResource)
        rw [Program.bind_assoc]
        apply settles_send
        intro l sets l' w' acted
        cases acted
        refine ⟨rfl, ?_⟩
        cases found : findRevision (n - 1) w.cluster.replicaSets with
        | none => exact fun _ _ => Or.inl rfl
        | some t => exact settles_update (.rolledBack state revision found) version

/-- A call. -/
theorem settles_call (w : World) : Settles config enabled reconcile w (call config enabled) := by
  intro fails l
  have same : ∀ attempts, exec (machine reconcile) (retryOnConflict (attempt (send .err)
      ⟨config.highCpuUsage, enabled⟩ (brokerController config)) attempts) fails l w
      = exec (machine reconcile) (attempt (send .err) ⟨config.highCpuUsage, enabled⟩
        (brokerController config)) fails l w := by
    intro attempts
    cases attempts with
    | zero => rfl
    | succ attempts =>
      apply exec_tryCatch_of_rethrown
      intro e ended
      rcases settles_attempt w fails l with failed | ⟨d, _, returned, _⟩
      · rw [failed] at ended
        cases ended
        rfl
      · rw [returned] at ended
        cases ended
  rw [call, processController, same]
  exact settles_attempt w fails l

/-- The mark tells what a call stores. -/
theorem state_of_mark (config : BrokerConfig) (d : Deployment) :
    (d.mark config ≠ some AnnotationValue.on.text →
      (getObjectState ⟨config.highCpuUsage, true⟩ d).1 = .shouldApply) ∧
    (d.mark config = some AnnotationValue.on.text →
      (getObjectState ⟨config.highCpuUsage, false⟩ d).1 = .shouldRollback) := by
  have whenOn := (getObjectState_cases ⟨config.highCpuUsage, true⟩ d).1
  have whenOff := (getObjectState_cases ⟨config.highCpuUsage, false⟩ d).1
  have mark : ∀ enabled, Object.annotations d (getAnnotationName ⟨config.highCpuUsage, enabled⟩)
      = d.mark config := fun _ => rfl
  rw [mark] at whenOn whenOff
  constructor
  · intro unmarked
    rcases whenOn with ⟨_, ⟨on, _⟩ | ⟨_, off⟩⟩ | ⟨state, _⟩ | ⟨_, off, _⟩
    · exact absurd on unmarked
    · cases off
    · exact state
    · cases off
  · intro marked
    rcases whenOff with ⟨_, ⟨_, on⟩ | ⟨off, _⟩⟩ | ⟨_, on, _⟩ | ⟨state, _⟩
    · cases on
    · exact absurd marked off
    · cases on
    · exact state

/-- A call that finds no mark and returns has set the limit. -/
theorem updates_applied {c : Cluster} {d : Deployment} (updates : Updates config true c d)
    (unmarked : c.deployment.mark config ≠ some AnnotationValue.on.text) :
    ∃ limit, config.cpuLimit = some limit ∧
      d.template = c.deployment.template.withCpuLimit limit ∧
      d.revision = c.deployment.revision ∧ d.mark config = some AnnotationValue.on.text := by
  have apply := (state_of_mark config c.deployment).1 unmarked
  obtain ⟨-, template, revision⟩ := getObjectState_frame ⟨config.highCpuUsage, true⟩ c.deployment
  cases updates with
  | synchronized state =>
    rw [apply] at state
    cases state
  | applied state configured =>
    rw [state] at template revision
    refine ⟨_, configured, ?_, revision, setFlagAnnotation_mark _ true .on⟩
    rw [← template]
    rfl
  | rolledBack state =>
    rw [state] at apply
    cases apply

/-- A call that finds the mark and returns has put a template back. -/
theorem updates_rolledBack {c : Cluster} {d : Deployment} (updates : Updates config false c d)
    (marked : c.deployment.mark config = some AnnotationValue.on.text) {n : Int}
    (deployed : Deployed c n) :
    numbered (n - 1) d.template ∈ c.replicaSets ∧ d.revision = c.deployment.revision := by
  have rollback := (state_of_mark config c.deployment).2 marked
  obtain ⟨-, -, revision⟩ := getObjectState_frame ⟨config.highCpuUsage, false⟩ c.deployment
  cases updates with
  | synchronized state =>
    rw [rollback] at state
    cases state
  | applied state =>
    rw [state] at rollback
    cases rollback
  | rolledBack state read found =>
    rw [state] at revision
    have same := revision.symm.trans read
    rw [deployed.revision] at same
    have number : n = _ := Option.some.inj (Option.some.inj same)
    refine ⟨?_, revision⟩
    rw [number]
    exact findRevision_mem found

/-! ## The limits -/

/-- The CPU limits are set, container by container. -/
def Template.withCpuLimits (t : Template) (limits : List (Option Quantity)) : Template :=
  { t with containers := t.containers.zipWith (fun c limit => { c with cpuLimit := limit }) limits }

/-- The limits that were set are there. -/
theorem cpuLimits_withCpuLimits {t : Template} {limits : List (Option Quantity)}
    (fits : limits.length = t.cpuLimits.length) : (t.withCpuLimits limits).cpuLimits = limits := by
  have general : ∀ (containers : List Container) (limits : List (Option Quantity)),
      limits.length = containers.length →
      (containers.zipWith (fun c limit => { c with cpuLimit := limit }) limits).map
        Container.cpuLimit = limits := by
    intro containers
    induction containers with
    | nil =>
      intro limits fits
      rw [List.length_eq_zero_iff.mp fits]
      rfl
    | cons c rest step =>
      intro limits fits
      cases limits with
      | nil => cases fits
      | cons limit limits =>
        rw [List.zipWith_cons_cons, List.map_cons, step limits (Nat.succ.inj fits)]
  exact general t.containers limits (fits.trans (List.length_map _))

/-- The limits before a change undo it. -/
theorem withCpuLimits_withCpuLimit (t : Template) (limit : Quantity) :
    (t.withCpuLimit limit).withCpuLimits t.cpuLimits = t := by
  have general : ∀ containers : List Container,
      (containers.map fun c => { c with cpuLimit := some limit }).zipWith
        (fun c limit => { c with cpuLimit := limit }) (containers.map Container.cpuLimit)
        = containers := by
    intro containers
    induction containers with
    | nil => rfl
    | cons c rest step => rw [List.map_cons, List.map_cons, List.zipWith_cons_cons, step]
  exact congrArg (fun containers => { t with containers := containers }) (general t.containers)

/-- The limits that are there change nothing. -/
theorem withCpuLimits_self (t : Template) : t.withCpuLimits t.cpuLimits = t := by
  have general : ∀ containers : List Container,
      containers.zipWith (fun c limit => { c with cpuLimit := limit })
        (containers.map Container.cpuLimit) = containers := by
    intro containers
    induction containers with
    | nil => rfl
    | cons c rest step => rw [List.map_cons, List.zipWith_cons_cons, step]
  exact congrArg (fun containers => { t with containers := containers }) (general t.containers)

/-- A change of the limits that leaves the limits changes nothing. -/
theorem withCpuLimit_eq_self {t : Template} {limit : Quantity}
    (same : (t.withCpuLimit limit).cpuLimits = t.cpuLimits) : t.withCpuLimit limit = t := by
  have undone := withCpuLimits_withCpuLimit t limit
  rw [← same, withCpuLimits_self] at undone
  exact undone

/-! ## A change, other changes, and a rollback -/

/-- The template after an update, and the revision it has led to. -/
theorem Deployed.store {w : World} {n : Int} (deployed : Deployed w.cluster n) {d : Deployment}
    (revision : d.revision = w.cluster.deployment.revision) :
    (w.store deploymentController .operator d).cluster.deployment.template = d.template ∧
      (w.store deploymentController .operator d).cluster.deployment.mark config = d.mark config ∧
      (d.template = w.cluster.deployment.template →
        Deployed (w.store deploymentController .operator d).cluster n) ∧
      (d.template ≠ w.cluster.deployment.template →
        Deployed (w.store deploymentController .operator d).cluster (n + 1) ∧
        numbered n w.cluster.deployment.template
          ∈ (w.store deploymentController .operator d).cluster.replicaSets) := by
  let after : Cluster := { w.cluster with deployment :=
    { d with resourceVersion := w.cluster.deployment.resourceVersion + 1 } }
  show (deploymentController after w.cluster.deployment.template).deployment.template = _ ∧
    (deploymentController after w.cluster.deployment.template).deployment.mark config = _ ∧
    (_ → Deployed (deploymentController after w.cluster.deployment.template) n) ∧
    (_ → Deployed (deploymentController after w.cluster.deployment.template) (n + 1) ∧
      _ ∈ (deploymentController after w.cluster.deployment.template).replicaSets)
  have frame : (deploymentController after w.cluster.deployment.template).deployment.template
        = d.template ∧
      (deploymentController after w.cluster.deployment.template).deployment.annotations
        = d.annotations := by
    unfold deploymentController
    by_cases same : after.deployment.template = w.cluster.deployment.template
    · rw [if_pos same]
      exact ⟨rfl, rfl⟩
    · rw [if_neg same]
      exact ⟨rfl, rfl⟩
  refine ⟨frame.1, congrFun frame.2 _, ?_, ?_⟩
  · intro same
    rw [deploymentController, if_pos (show after.deployment.template = _ from same)]
    refine ⟨revision.trans deployed.revision, deployed.positive, ?_, deployed.readable,
      deployed.numbers, deployed.templates⟩
    show numbered n d.template ∈ w.cluster.replicaSets
    rw [same]
    exact deployed.current
  · exact fun changed => deployed.controller rfl changed

/-- A call that finds no mark and returns: the limit is set, and if that has changed the
template, the previous revision has the template before. -/
theorem call_applies {w : World} {n : Int} (deployed : Deployed w.cluster n)
    (unmarked : w.cluster.deployment.mark config ≠ some AnnotationValue.on.text)
    {fails : Nat → Bool} {l : Private} {applied : World}
    (applies : (exec (machine deploymentController) (call config true) fails l w).1 = .ok () ∧
      (exec (machine deploymentController) (call config true) fails l w).2.2 = applied) :
    ∃ limit k, applied.cluster.deployment.template
        = w.cluster.deployment.template.withCpuLimit limit ∧
      applied.cluster.deployment.mark config = some AnnotationValue.on.text ∧
      Deployed applied.cluster k ∧
      (applied.cluster.deployment.template ≠ w.cluster.deployment.template →
        numbered (k - 1) w.cluster.deployment.template ∈ applied.cluster.replicaSets) := by
  obtain ⟨returned, rfl⟩ := applies
  rcases @settles_call config true deploymentController w fails l with
    failed | ⟨d, updates, -, stored⟩
  · rw [failed] at returned
    cases returned
  · obtain ⟨limit, -, template, revision, mark⟩ := updates_applied updates unmarked
    obtain ⟨frame, kept, same, changed⟩ := @Deployed.store config w _ deployed d revision
    rw [stored, frame]
    by_cases moved : d.template = w.cluster.deployment.template
    · exact ⟨limit, n, template, kept.trans mark, same moved, fun other => absurd moved other⟩
    · obtain ⟨next, previous⟩ := changed moved
      refine ⟨limit, n + 1, template, kept.trans mark, next, fun _ => ?_⟩
      rw [Int.add_sub_cancel]
      exact previous

/-- A call that finds the mark and returns: the template is that of the previous revision. -/
theorem call_rollsBack {w : World} {k : Int} (deployed : Deployed w.cluster k)
    (marked : w.cluster.deployment.mark config = some AnnotationValue.on.text)
    {fails : Nat → Bool} {l : Private} {after : World}
    (rollsBack : (exec (machine deploymentController) (call config false) fails l w).1 = .ok () ∧
      (exec (machine deploymentController) (call config false) fails l w).2.2 = after) :
    numbered (k - 1) after.cluster.deployment.template ∈ w.cluster.replicaSets := by
  obtain ⟨returned, rfl⟩ := rollsBack
  rcases @settles_call config false deploymentController w fails l with
    failed | ⟨d, updates, -, stored⟩
  · rw [failed] at returned
    cases returned
  · obtain ⟨member, revision⟩ := updates_rolledBack updates marked deployed
    obtain ⟨frame, -⟩ := @Deployed.store config w _ deployed d revision
    rw [stored, frame]
    exact member

/-- The flag is read on by a call that returns, other templates with the same CPU limits are
deployed, and the flag is read off by a call that returns. The rollback puts back the template
of the revision before the last one. That is the template before the rollback with the CPU
limits as they were, exactly when the change of the operator has changed the template, and no
other template was deployed since. -/
theorem rollback_brings_back (config : BrokerConfig) {w : World} {n : Int}
    (deployed : Deployed w.cluster n)
    (unmarked : w.cluster.deployment.mark config ≠ some AnnotationValue.on.text)
    (fails fails' : Nat → Bool) (l l' : Private) (templates : List Template)
    {applied before after : World}
    (applies : (exec (machine deploymentController) (call config true) fails l w).1 = .ok () ∧
      (exec (machine deploymentController) (call config true) fails l w).2.2 = applied)
    (unrelated : ∀ t ∈ templates, t.cpuLimits = applied.cluster.deployment.template.cpuLimits)
    (others : before.cluster = templates.foldl deploy applied.cluster)
    (rollsBack : (exec (machine deploymentController) (call config false) fails' l' before).1
        = .ok () ∧
      (exec (machine deploymentController) (call config false) fails' l' before).2.2 = after) :
    ∃ k, Deployed before.cluster k ∧
      numbered (k - 1) after.cluster.deployment.template ∈ before.cluster.replicaSets ∧
      (after.cluster.deployment.template
          = before.cluster.deployment.template.withCpuLimits
            w.cluster.deployment.template.cpuLimits ↔
        applied.cluster.deployment.template ≠ w.cluster.deployment.template ∧
          ∀ t ∈ templates, t = applied.cluster.deployment.template) := by
  obtain ⟨limit, n', template, mark, current, previous⟩ := call_applies deployed unmarked applies
  obtain ⟨k, since⟩ := since_deployed current templates
  have deployed' : Deployed before.cluster k := by
    rw [others]
    exact since.deployed
  have mark' : before.cluster.deployment.mark config = some AnnotationValue.on.text := by
    rw [others]
    exact (congrFun since.annotations _).trans mark
  have back := call_rollsBack deployed' mark' rollsBack
  have listed := since.template
  have unchanged := since.unchanged
  have changed := since.changed
  rw [← others] at listed unchanged changed
  -- every template since has the limits that the operator has set
  have limits : ∀ t ∈ applied.cluster.deployment.template :: templates,
      t.cpuLimits = applied.cluster.deployment.template.cpuLimits := by
    intro t member
    rcases List.mem_cons.mp member with rfl | later
    · rfl
    · exact unrelated t later
  refine ⟨k, deployed', back, ?_, ?_⟩
  · intro restored
    have moved : applied.cluster.deployment.template ≠ w.cluster.deployment.template := by
      intro same
      apply deployed'.other back (by omega)
      rw [restored, ← same, ← limits _ listed, withCpuLimits_self]
    refine ⟨moved, ?_⟩
    by_contra notAll
    obtain ⟨t, member, stored⟩ := changed notAll
    apply moved
    rw [template]
    apply withCpuLimit_eq_self
    rw [← template, ← limits t member, ← deployed'.unique back stored, restored]
    apply cpuLimits_withCpuLimits
    rw [limits _ listed, template]
    simp [Template.cpuLimits, Template.withCpuLimit]
  · rintro ⟨moved, all⟩
    obtain ⟨rfl, sets⟩ := unchanged all
    have still : before.cluster.deployment.template = applied.cluster.deployment.template := by
      rcases List.mem_cons.mp listed with first | later
      · exact first
      · exact all _ later
    have stored := previous moved
    rw [← sets] at stored
    rw [deployed'.unique back stored, still, template, withCpuLimits_withCpuLimit]

/-- A deployment at its first revision, in its cluster. -/
def sampleWorld (template : Template) : World := ⟨sampleCluster template, []⟩

/-- It is at that revision. -/
theorem deployed_sampleWorld (template : Template) : Deployed (sampleWorld template).cluster 1 where
  revision := rfl
  positive := by decide
  current := List.mem_singleton.mpr rfl
  readable rs listed := ⟨1, by rw [List.mem_singleton.mp listed], le_refl _⟩
  numbers rs listed rs' listed' _ :=
    (List.mem_singleton.mp listed).trans (List.mem_singleton.mp listed').symm
  templates rs listed rs' listed' _ :=
    (List.mem_singleton.mp listed).trans (List.mem_singleton.mp listed').symm

/-- The world after a call that nothing disturbs. -/
def afterCall (enabled : Bool) (w : World) : World :=
  (exec (machine deploymentController) (call sampleConfig enabled) (fun _ => false) {} w).2.2

/-- Nobody deploys anything else between the change and the rollback. -/
theorem rollback_brings_back_the_limit :
    (afterCall false (afterCall true
      (sampleWorld (sampleTemplate "1.0" none)))).cluster.deployment.template
      = sampleTemplate "1.0" none := by
  obtain ⟨k, -, -, exactly⟩ := rollback_brings_back sampleConfig
    (deployed_sampleWorld (sampleTemplate "1.0" none)) (by decide) (fun _ => false)
    (fun _ => false) {} {} [] ⟨by decide +kernel, rfl⟩ nofun rfl ⟨by decide +kernel, rfl⟩
  exact (exactly.mpr ⟨by decide +kernel, nofun⟩).trans (by decide +kernel)

/-- A new image that was deployed after the change of the limit is lost, and the limit stays. -/
theorem rollback_loses_image :
    ¬ ∀ (config : BrokerConfig) (w : World) (n : Int), Deployed w.cluster n →
      w.cluster.deployment.mark config ≠ some AnnotationValue.on.text →
      ∀ (fails fails' : Nat → Bool) (l l' : Private) (templates : List Template)
        (applied before after : World),
      (exec (machine deploymentController) (call config true) fails l w).1 = .ok () ∧
        (exec (machine deploymentController) (call config true) fails l w).2.2 = applied →
      (∀ t ∈ templates, t.cpuLimits = applied.cluster.deployment.template.cpuLimits) →
      before.cluster = templates.foldl deploy applied.cluster →
      (exec (machine deploymentController) (call config false) fails' l' before).1 = .ok () ∧
        (exec (machine deploymentController) (call config false) fails' l' before).2.2 = after →
      after.cluster.deployment.template
        = before.cluster.deployment.template.withCpuLimits
          w.cluster.deployment.template.cpuLimits := by
  intro law
  let w := sampleWorld (sampleTemplate "1.0" none)
  let before : World :=
    ⟨[sampleTemplate "1.1" (some (3 / 10))].foldl deploy (afterCall true w).cluster, []⟩
  have lost : (afterCall false before).cluster.deployment.template
      ≠ before.cluster.deployment.template.withCpuLimits
        w.cluster.deployment.template.cpuLimits := by decide +kernel
  exact lost (law sampleConfig w 1 (deployed_sampleWorld _) (by decide) (fun _ => false)
    (fun _ => false) {} {} [sampleTemplate "1.1" (some (3 / 10))] _ before _
    ⟨by decide +kernel, rfl⟩ (by decide +kernel) rfl ⟨by decide +kernel, rfl⟩)

end EasyTrade.Operator
