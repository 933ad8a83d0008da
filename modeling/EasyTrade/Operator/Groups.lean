import EasyTrade.Operator.Cluster
import Mathlib.Data.List.Basic

/-!
# Groups of controllers

Controllers are registered by their flags, several for one flag if need be, and several for one
resource. An update of the state goes through the flags in any order. The controllers of one
flag are processed in parallel, and the next flag waits for all of them.
-/

namespace EasyTrade.Operator.Groups

open EasyTrade.Logic EasyTrade.Logic.Program

variable {Key Spec : Type}

/-- What a controller does to a resource. -/
inductive Change where
  | apply
  | rollback
  deriving DecidableEq

/-- The change that a reading of a flag asks for. -/
def Change.of (enabled : Bool) : Change := if enabled then .apply else .rollback

/-- A change that was made to a resource: by the controller with which number, for which flag. -/
structure Effect where
  controller : Nat
  flagName : String
  change : Change
  deriving DecidableEq

/-- A resource. The effects are those of the changes that have made it what it is. -/
structure Resource (Spec : Type) where
  resourceVersion : Nat
  annotations : Annotations
  spec : Spec
  effects : List Effect

instance : Object (Resource Spec) where
  annotations := Resource.annotations
  setAnnotations r notes := { r with annotations := notes }
  annotations_setAnnotations _ _ := rfl

/-- What is stored. -/
abbrev Resources (Key Spec : Type) := Key → Resource Spec

/-- What a controller is for: its flag, its resource, and what its changes make of a
specification, where they can. -/
structure Target (Key Spec : Type) where
  flagName : String
  resource : Key
  change : Change → Spec → Option Spec

/-- A controller that is registered. The number tells it from the others. -/
structure Registered (Key Spec : Type) extends Target Key Spec where
  number : Nat

/-! ## Commands -/

/-- The commands of the operator and its controllers. -/
inductive Command (Key Spec : Type) where
  /-- `ctx.Err()`. -/
  | err
  /-- `GetResource`. -/
  | get (key : Key)
  /-- `ApplyChange` and `RollbackChange`, in memory. -/
  | change (c : Registered Key Spec) (change : Change) (spec : Spec)
  /-- `UpdateResource`. -/
  | update (key : Key) (obj : Resource Spec)

/-- What answers a command. -/
abbrev Reply : Command Key Spec → Type
  | .err => Unit
  | .get _ => Resource Spec
  | .change _ _ _ => Spec
  | .update _ _ => Answer

/-- What a goroutine remembers: the resource it has read, and the one it has stored. -/
structure Private (Key Spec : Type) where
  read : Option (Key × Resource Spec) := none
  stored : Option Key := none

/-- What a command does. -/
def act [DecidableEq Key] : (command : Command Key Spec) → Private Key Spec → Resources Key Spec →
    Option (Reply command × Private Key Spec × Resources Key Spec)
  | .err, l, w => some ((), l, w)
  | .get key, l, w => some (w key, { l with read := some (key, w key) }, w)
  | .change c change spec, l, w => (c.change change spec).map fun spec => (spec, l, w)
  | .update key obj, l, w =>
    if obj.resourceVersion = (w key).resourceVersion then
      some (.stored, { l with stored := some key },
        Function.update w key { obj with resourceVersion := (w key).resourceVersion + 1 })
    else some (.conflict, l, w)

/-- The machine of all commands. -/
def machine [DecidableEq Key] :
    Machine (Command Key Spec) Reply Failure (Private Key Spec) (Resources Key Spec) where
  act := act
  fault := .other

/-- A program over these commands. -/
abbrev Task (Key Spec : Type) := Program (Command Key Spec) Reply Failure

/-- Issue a command. -/
def send (command : Command Key Spec) : Task Key Spec (Reply command) := Program.perform command

/-- A change in memory, with its effect. -/
def Registered.make (c : Registered Key Spec) (change : Change) (obj : Resource Spec) :
    Task Key Spec (Resource Spec) := do
  let spec ← send (.change c change obj.spec)
  return { obj with spec := spec, effects := obj.effects ++ [⟨c.number, c.flagName, change⟩] }

/-- `UpdateResource`. -/
def updateResource (key : Key) (obj : Resource Spec) : Task Key Spec Unit := do
  match ← send (.update key obj) with
  | .stored => return ()
  | .conflict => throw .conflict

/-- The programs of a controller. -/
def Registered.controller (c : Registered Key Spec) :
    Controller (Command Key Spec) Reply (Resource Spec) where
  getFlagName := c.flagName
  getResource := send (.get c.resource)
  applyChange := c.make .apply
  rollbackChange := c.make .rollback
  updateResource := updateResource c.resource

/-! ## Registration -/

/-- `controllerSet`. -/
abbrev ControllerSet (Key Spec : Type) := List (String × List (Registered Key Spec))

/-- `getControllersForFlag`. -/
def getControllersForFlag (o : ControllerSet Key Spec) (flag : String) :
    List (Registered Key Spec) := (o.lookup flag).getD []

/-- `setControllersForFlag`. -/
def setControllersForFlag (flag : String) (controllers : List (Registered Key Spec)) :
    ControllerSet Key Spec → ControllerSet Key Spec
  | [] => [(flag, controllers)]
  | (other, old) :: rest =>
    if other = flag then (other, controllers) :: rest
    else (other, old) :: setControllersForFlag flag controllers rest

/-- `RegisterController`. -/
def registerController (o : ControllerSet Key Spec) (c : Registered Key Spec) :
    ControllerSet Key Spec :=
  setControllersForFlag c.flagName (getControllersForFlag o c.flagName ++ [c]) o

/-- The controllers with their numbers, in the order they are registered in. -/
def numberAll (targets : List (Target Key Spec)) : List (Registered Key Spec) :=
  targets.mapIdx fun number target => ⟨target, number⟩

/-- All of them are registered, one after the other. -/
def registerAll (targets : List (Target Key Spec)) : ControllerSet Key Spec :=
  (numberAll targets).foldl registerController []

/-! ## An update of the state -/

/-- The order of the commands of a group, with those that fail. -/
abbrev Schedule := List (Nat × Bool)

/-- The goroutines of a group, one for each controller. -/
def group (flag : Flag) (controllers : List (Registered Key Spec)) (w : Resources Key Spec) :
    System Nat (Command Key Spec) Reply Failure Unit (Private Key Spec) (Resources Key Spec) where
  threads i :=
    match controllers[i]? with
    | some c => ⟨processController (send .err) flag c.controller, {}⟩
    | none => ⟨pure (), {}⟩
  shared := w

/-- A goroutine has returned without an error. -/
def returned (p : Task Key Spec Unit) : Bool :=
  match p with
  | .done _ => true
  | _ => false

/-- The loop of `updateState`, and whether it has met no error. -/
def updateGroups [DecidableEq Key] (getFlag : String → Option Bool) :
    List ((String × List (Registered Key Spec)) × Schedule) → Resources Key Spec →
    Bool × Resources Key Spec
  | [], w => (true, w)
  | ((flagName, controllers), schedule) :: rest, w =>
    match getFlag flagName with
    | none => (false, (updateGroups getFlag rest w).2)
    | some enabled =>
      let s := (group ⟨flagName, enabled⟩ controllers w).run machine schedule
      let (fine, w') := updateGroups getFlag rest s.shared
      ((List.range controllers.length).all (fun i => returned (s.threads i).program) && fine, w')

/-- `updateState`, and whether it returns nil. The groups come in any order. -/
def updateState [DecidableEq Key] (cancelled : Bool) (getFlag : String → Option Bool)
    (groups : List ((String × List (Registered Key Spec)) × Schedule)) (w : Resources Key Spec) :
    Bool × Resources Key Spec :=
  if cancelled then (false, w) else updateGroups getFlag groups w

end EasyTrade.Operator.Groups
