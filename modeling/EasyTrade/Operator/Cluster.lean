import EasyTrade.Operator.Operator
import Mathlib.Algebra.Order.Ring.Rat

/-!
# A deployment and its controller

The deployment of the broker service in a cluster, and the controller that sets a CPU limit on
its containers and rolls back to the template of the previous revision. The API server stores
an update when nothing was stored since the object was read, and answers with a conflict
otherwise.
-/

namespace EasyTrade.Operator

open EasyTrade.Logic EasyTrade.Logic.Program

/-- `resource.Quantity`. -/
abbrev Quantity := ℚ

/-- A container of a pod template. -/
structure Container where
  name : String
  image : String
  env : List (String × String)
  /-- The CPU limit; without limits there is none. -/
  cpuLimit : Option Quantity
  /-- Everything else, other limits included. -/
  others : String
  deriving DecidableEq

/-- A pod template. -/
structure Template where
  containers : List Container
  /-- Everything else. -/
  others : String
  deriving DecidableEq

/-- The CPU limits of a template. -/
def Template.cpuLimits (t : Template) : List (Option Quantity) := t.containers.map Container.cpuLimit

/-- What `strconv.Atoi` makes of the revision annotation of an object that has one. -/
abbrev Revision := Option Int

/-- A deployment. -/
structure Deployment where
  resourceVersion : Nat
  annotations : Annotations
  /-- The revision annotation, when there is one. -/
  revision : Option Revision
  template : Template

/-- A deployment with another template. -/
def Deployment.withTemplate (d : Deployment) (template : Template) : Deployment :=
  { d with template := template }

instance : Object Deployment where
  annotations := Deployment.annotations
  setAnnotations d notes := { d with annotations := notes }
  annotations_setAnnotations _ _ := rfl

/-- A replica set with the label of the application. -/
structure ReplicaSet where
  /-- The revision annotation, when there is one. -/
  revision : Option Revision
  template : Template
  deriving DecidableEq

/-- What the cluster holds. -/
structure Cluster where
  deployment : Deployment
  replicaSets : List ReplicaSet

/-! ## Commands -/

/-- What others do to a cluster: it keeps the annotations of the operator and the CPU limits. -/
structure Edit where
  apply : Cluster → Cluster
  /-- It updates the deployment, not only what belongs to it. -/
  touches : Bool
  annotations : ∀ c flag, (apply c).deployment.annotations (getAnnotationName flag)
    = c.deployment.annotations (getAnnotationName flag)
  cpuLimits : ∀ c, (apply c).deployment.template.cpuLimits = c.deployment.template.cpuLimits
  untouched : touches = false → ∀ c, (apply c).deployment = c.deployment

/-- The commands of a call, and what others do. -/
inductive Command where
  /-- `ctx.Err()`. -/
  | err
  /-- `Get` of the deployment. -/
  | getDeployment
  /-- `List` of the replica sets. -/
  | listReplicaSets
  /-- `Update` of the deployment. -/
  | updateDeployment (d : Deployment)
  /-- An update by someone else. -/
  | edit (e : Edit)

/-- How an update is answered that is not refused. -/
inductive Answer where
  | stored
  | conflict
  deriving DecidableEq

/-- What answers a command. -/
abbrev Reply : Command → Type
  | .err => Unit
  | .getDeployment => Deployment
  | .listReplicaSets => List ReplicaSet
  | .updateDeployment _ => Answer
  | .edit _ => Unit

/-- Who stores an object. -/
inductive Writer where
  | operator
  | others
  deriving DecidableEq

/-- A cluster, with the objects that were stored in it, the last one first. -/
structure World where
  cluster : Cluster
  updates : List (Writer × Deployment)

/-- What a call remembers: the object it has read, and whether it has stored one. -/
structure Private where
  read : Option Deployment := none
  stored : Bool := false

/-- The API server stores a deployment under a new version; what happens then in the cluster is
given. -/
def World.store (reconcile : Cluster → Template → Cluster) (w : World) (writer : Writer)
    (d : Deployment) : World :=
  let d := { d with resourceVersion := w.cluster.deployment.resourceVersion + 1 }
  { cluster := reconcile { w.cluster with deployment := d } w.cluster.deployment.template
    updates := (writer, d) :: w.updates }

/-- Someone else changes the cluster, with a new version where the deployment is updated. -/
def World.edit (w : World) (e : Edit) : World :=
  if e.touches then
    let c := e.apply w.cluster
    let d := { c.deployment with resourceVersion := w.cluster.deployment.resourceVersion + 1 }
    { cluster := { c with deployment := d }, updates := (.others, d) :: w.updates }
  else { w with cluster := e.apply w.cluster }

/-- What a command does. -/
def act (reconcile : Cluster → Template → Cluster) :
    (command : Command) → Private → World → Option (Reply command × Private × World)
  | .err, l, w => some ((), l, w)
  | .getDeployment, l, w =>
    some (w.cluster.deployment, { l with read := some w.cluster.deployment }, w)
  | .listReplicaSets, l, w => some (w.cluster.replicaSets, l, w)
  | .updateDeployment d, l, w =>
    if d.resourceVersion = w.cluster.deployment.resourceVersion then
      some (.stored, { l with stored := true }, w.store reconcile .operator d)
    else some (.conflict, l, w)
  | .edit e, l, w => some ((), l, w.edit e)

/-- The machine of all commands. -/
def machine (reconcile : Cluster → Template → Cluster) :
    Machine Command Reply Failure Private World where
  act := act reconcile
  fault := .other

/-- A program over these commands. -/
abbrev Task := Program Command Reply Failure

/-- Issue a command. -/
def send (command : Command) : Task (Reply command) := Program.perform command

/-! ## The controller -/

/-- `BrokerController`: the flag, and what `resource.ParseQuantity` makes of the configured
limit. -/
structure BrokerConfig where
  highCpuUsage : String
  cpuLimit : Option Quantity

/-- The CPU limit is set on every container. -/
def Template.withCpuLimit (t : Template) (limit : Quantity) : Template :=
  { t with containers := t.containers.map fun c => { c with cpuLimit := some limit } }

/-- `ApplyChange`. -/
def applyChange (config : BrokerConfig) (deployment : Deployment) : Task Deployment :=
  match config.cpuLimit with
  | none => throw .other
  | some cpuLimit =>
    return deployment.withTemplate (deployment.template.withCpuLimit cpuLimit)

/-- The loop of `RollbackDeployment`: the template of the first replica set of a revision, if
every replica set before it has a revision that can be read. -/
def findRevision (revision : Int) : List ReplicaSet → Option Template
  | [] => none
  | replicaSet :: rest =>
    match replicaSet.revision with
    | none | some none => none
    | some (some rsRev) =>
      if rsRev = revision then some replicaSet.template else findRevision revision rest

/-- `RollbackDeployment`. -/
def rollbackDeployment (deployment : Deployment) : Task Deployment :=
  match deployment.revision with
  | none | some none => throw .other
  | some (some deployRev) => do
    let replicaSets ← send .listReplicaSets
    match findRevision (deployRev - 1) replicaSets with
    | none => throw .other
    | some template => return deployment.withTemplate template

/-- `UpdateResource`. -/
def updateResource (deployment : Deployment) : Task Unit := do
  match ← send (.updateDeployment deployment) with
  | .stored => return ()
  | .conflict => throw .conflict

/-- `BrokerController`. -/
def brokerController (config : BrokerConfig) : Controller Command Reply Deployment where
  getFlagName := config.highCpuUsage
  getResource := send .getDeployment
  applyChange := applyChange config
  rollbackChange := rollbackDeployment
  updateResource := updateResource

/-- A call for the flag of the controller, with the reading of the flag. -/
def call (config : BrokerConfig) (enabled : Bool) : Task Unit :=
  processController (send .err) ⟨config.highCpuUsage, enabled⟩ (brokerController config)

/-- The mark of the controller's flag on a deployment. -/
def Deployment.mark (config : BrokerConfig) (d : Deployment) : Option String :=
  d.annotations (getAnnotationName ⟨config.highCpuUsage, true⟩)

@[simp] theorem setFlagAnnotation_mark {config : BrokerConfig} (d : Deployment) (enabled : Bool)
    (value : AnnotationValue) :
    ( setFlagAnnotation ⟨config.highCpuUsage, enabled⟩ d value).mark config = some value.text :=
  setFlagAnnotation_annotations ⟨config.highCpuUsage, enabled⟩ d value

/-- What the reading of the state leaves of a deployment. -/
theorem getObjectState_frame (flag : Flag) (d : Deployment) :
    (getObjectState flag d).2.resourceVersion = d.resourceVersion ∧
      (getObjectState flag d).2.template = d.template ∧
      (getObjectState flag d).2.revision = d.revision := by
  obtain ⟨-, whole⟩ := getObjectState_cases flag d
  rw [whole]
  by_cases missing : Object.annotations d (getAnnotationName flag) = none
  · rw [if_pos missing]
    exact ⟨rfl, rfl, rfl⟩
  · rw [if_neg missing]
    exact ⟨rfl, rfl, rfl⟩

/-! ## A cluster -/

/-- The controller of the broker service with a limit of 300m. -/
def sampleConfig : BrokerConfig := ⟨"high_cpu_usage", some (3 / 10)⟩

/-- A template with one container. -/
def sampleTemplate (image : String) (cpuLimit : Option Quantity) : Template :=
  ⟨[⟨"broker-service", image, [], cpuLimit, ""⟩], ""⟩

/-- A deployment at its first revision. -/
def sampleCluster (template : Template) : Cluster where
  deployment := ⟨1, fun _ => none, some (some 1), template⟩
  replicaSets := [⟨some (some 1), template⟩]

end EasyTrade.Operator
