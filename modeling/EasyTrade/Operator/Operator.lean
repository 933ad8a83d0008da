import EasyTrade.Logic.Alone

/-!
# The problem operator

A controller changes one resource while a flag is on and takes the change back when it is off.
The operator marks a resource with an annotation of the flag: `on` when the change has been
applied, `off` otherwise. A call for one controller reads the resource, compares the mark with
the flag, sets the mark and makes or takes back the change in memory, and stores the resource;
all of it is done again when the resource has changed in the meantime.
-/

namespace EasyTrade.Operator

open EasyTrade.Logic EasyTrade.Logic.Program

/-- What ends a call early. -/
inductive Failure where
  /-- The resource has changed since it was read. -/
  | conflict
  /-- Any other error, of the context, of a controller or of the API server. -/
  | other
  deriving DecidableEq

/-! ## Annotations -/

/-- The annotations of an object. -/
abbrev Annotations := String → Option String

/-- What has annotations. -/
class Object (Obj : Type) where
  /-- The annotations. -/
  annotations : Obj → Annotations
  /-- The object with other annotations. -/
  setAnnotations : Obj → Annotations → Obj
  /-- Annotations that are set are there. -/
  annotations_setAnnotations : ∀ obj notes, annotations (setAnnotations obj notes) = notes

attribute [simp] Object.annotations_setAnnotations

/-- `Flag`. -/
structure Flag where
  id : String
  enabled : Bool

/-- `annotationValue`. -/
inductive AnnotationValue where
  | on
  | off
  deriving DecidableEq

/-- The text of a value. -/
def AnnotationValue.text : AnnotationValue → String
  | .on => "on"
  | .off => "off"

/-- `annotationValue.Bool`. -/
def AnnotationValue.bool (value : AnnotationValue) : Bool := value = .on

/-- The value that a reading of a flag asks for. -/
def AnnotationValue.ofBool (enabled : Bool) : AnnotationValue := if enabled then .on else .off

/-- `getAnnotationName`. -/
def getAnnotationName (flag : Flag) : String := "problem-operator/" ++ flag.id

section Annotations

variable {Obj : Type} [Object Obj]

/-- `setFlagAnnotation`. -/
def setFlagAnnotation (flag : Flag) (obj : Obj) (value : AnnotationValue) : Obj :=
  Object.setAnnotations obj
    (Function.update (Object.annotations obj) (getAnnotationName flag) (some value.text))

/-- `getFlagAnnotation`. A missing annotation is added. -/
def getFlagAnnotation (flag : Flag) (obj : Obj) : AnnotationValue × Obj :=
  match Object.annotations obj (getAnnotationName flag) with
  | some text => (if text = AnnotationValue.on.text then .on else .off, obj)
  | none => (.off, setFlagAnnotation flag obj .off)

/-- `StateAction`. -/
inductive StateAction where
  | synchronized
  | shouldApply
  | shouldRollback
  deriving DecidableEq

/-- `getObjectState`. -/
def getObjectState (flag : Flag) (obj : Obj) : StateAction × Obj :=
  let (value, obj) := getFlagAnnotation flag obj
  if flag.enabled = value.bool then (.synchronized, obj)
  else if flag.enabled then (.shouldApply, obj)
  else (.shouldRollback, obj)

/-- The annotation of a flag that was set. -/
@[simp] theorem setFlagAnnotation_annotations (flag : Flag) (obj : Obj)
    (value : AnnotationValue) :
    Object.annotations ( setFlagAnnotation flag obj value) (getAnnotationName flag)
      = some value.text := by
  simp [ setFlagAnnotation]

/-- What a call finds: nothing to do, with the mark as the flag is, or a mark to be flipped. -/
theorem getObjectState_cases (flag : Flag) (obj : Obj) :
    ((getObjectState flag obj).1 = .synchronized ∧
        ((Object.annotations obj (getAnnotationName flag) = some AnnotationValue.on.text ∧
            flag.enabled = true ∨
          Object.annotations obj (getAnnotationName flag) ≠ some AnnotationValue.on.text ∧
            flag.enabled = false)) ∨
      ((getObjectState flag obj).1 = .shouldApply ∧ flag.enabled = true ∧
        Object.annotations obj (getAnnotationName flag) ≠ some AnnotationValue.on.text) ∨
      ((getObjectState flag obj).1 = .shouldRollback ∧ flag.enabled = false ∧
        Object.annotations obj (getAnnotationName flag) = some AnnotationValue.on.text)) ∧
    (getObjectState flag obj).2 =
      if Object.annotations obj (getAnnotationName flag) = none then
        setFlagAnnotation flag obj .off else obj := by
  cases found : Object.annotations obj (getAnnotationName flag) with
  | none =>
    cases enabled : flag.enabled <;>
      simp [getObjectState, getFlagAnnotation, found, enabled, AnnotationValue.bool]
  | some text =>
    by_cases on : text = AnnotationValue.on.text
    · cases enabled : flag.enabled <;>
        simp [getObjectState, getFlagAnnotation, found, enabled, on, AnnotationValue.bool]
    · cases enabled : flag.enabled <;>
        simp [getObjectState, getFlagAnnotation, found, enabled, on, AnnotationValue.bool]

end Annotations

/-! ## Calls -/

section Calls

variable {C : Type} {R : C → Type} {Obj : Type}

/-- `Controller`: programs over the commands of a cluster. What changes an object in memory
returns the object as it then is. -/
structure Controller (C : Type) (R : C → Type) (Obj : Type) where
  getFlagName : String
  getResource : Program C R Failure Obj
  applyChange : Obj → Program C R Failure Obj
  rollbackChange : Obj → Program C R Failure Obj
  updateResource : Obj → Program C R Failure Unit

/-- `retry.RetryOnConflict`, with the number of attempts after the first. -/
def retryOnConflict (body : Program C R Failure Unit) : Nat → Program C R Failure Unit
  | 0 => body
  | attempts + 1 => tryCatch body fun
    | .conflict => retryOnConflict body attempts
    | .other => throw .other

/-- The attempts after the first of `retry.DefaultRetry`. -/
def defaultRetry : Nat := 4

variable [Object Obj]

/-- What `processController` tries. `err` is `ctx.Err()` of its context. -/
def attempt (err : Program C R Failure Unit) (flag : Flag) (controller : Controller C R Obj) :
    Program C R Failure Unit := do
  err
  let obj ← controller.getResource
  let (state, obj) := getObjectState flag obj
  let obj ← match state with
    | .shouldApply => controller.applyChange ( setFlagAnnotation flag obj .on)
    | .shouldRollback => controller.rollbackChange ( setFlagAnnotation flag obj .off)
    | .synchronized => pure obj
  controller.updateResource obj

/-- `processController`. -/
def processController (err : Program C R Failure Unit) (flag : Flag)
    (controller : Controller C R Obj) : Program C R Failure Unit :=
  retryOnConflict (attempt err flag controller) defaultRetry

variable {L G : Type} {m : Machine C R Failure L G} {t : Terms C Failure L G}

/-- What one attempt keeps, whatever it has left behind, all attempts keep: an attempt that ends
in a conflict leaves what the next one starts from. -/
theorem keeps_retryOnConflict {body : Program C R Failure Unit} (ready : L → Prop)
    {post : Unit → L → Prop} (aborts : ∀ e l, ready l → t.abort e l)
    (once : ∀ l, ready l → body.Keeps m { t with abort := fun _ => ready } post l) :
    ∀ (attempts : Nat) (l : L), ready l → (retryOnConflict body attempts).Keeps m t post l
  | 0, l, start => (once l start).mono_abort aborts
  | attempts + 1, l, start => by
    apply keeps_tryCatch
    refine (once l start).mono_abort (t := { t with abort := fun _ => ready }) ?_
    intro e l ended
    cases e with
    | conflict => exact keeps_retryOnConflict ready aborts once attempts l ended
    | other => exact aborts .other l ended

end Calls

end EasyTrade.Operator
