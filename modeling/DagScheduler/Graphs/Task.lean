import DagScheduler.Graphs.Uuid

/-! Tasks. The graph owns, clones and hands them over, and never runs them. -/

namespace DagScheduler.Graphs

/-- A configuration document, as the JSON library holds it. -/
inductive Document where
  | null
  | bool (b : Bool)
  | number (text : String)
  | string (s : String)
  | array (elements : List Document)
  | object (members : List (String × Document))

/-- What a derived stage class brings; `clone` is its override. -/
class TaskStage (σ : Type) where
  label : σ → String
  clone : σ → σ

class TaskCallbackPlugin (π : Type) where
  clone : π → π

/-- A `std::function<void(bool)>` that is set; all that is known of it is which one it is. -/
abbrev CompleteCallback := ℕ

structure Task (σ π : Type) where
  iterating : Bool
  kill : Bool
  stages : List σ
  label : String
  completeCallback : Option CompleteCallback
  completeCallbackPlugin : Option π
  uuid : UUID
  jsonConfig : Option Document
  jsonInitialInputs : Option Document
  uuid_initialized : uuid.isInitialized

/-- Who is told that a task is over, and how it ended. -/
inductive Notification (π : Type) where
  | callback (f : CompleteCallback) (status : Bool)
  | plugin (p : π) (status : Bool)

namespace Task

variable {σ π : Type}

/-- `Task::kill`. -/
def killed (t : Task σ π) : Task σ π := { t with kill := true }

def complete (t : Task σ π) (status : Bool) : List (Notification π) :=
  (t.completeCallback.map fun f => .callback f status).toList ++
    (t.completeCallbackPlugin.map fun p => .plugin p status).toList

def callbackIsSet (t : Task σ π) : Bool := t.completeCallback.isSome

def callbackPluginIsSet (t : Task σ π) : Bool := t.completeCallbackPlugin.isSome

/-- What the move constructor and the move assignment leave of their argument. -/
def moved (other : Task σ π) : Task σ π :=
  { other with stages := [], label := "", jsonConfig := none, jsonInitialInputs := none }

/-- The move constructor and what is left of `other`; `none` where the assertion fails. -/
def moveConstruct (other : Task σ π) : Option (Task σ π × Task σ π) :=
  if other.iterating then none
  else some ({ iterating := false
               kill := false
               stages := other.stages
               label := other.label
               -- Both are default constructed.
               completeCallback := none
               completeCallbackPlugin := none
               uuid := other.uuid
               jsonConfig := other.jsonConfig
               jsonInitialInputs := other.jsonInitialInputs
               uuid_initialized := other.uuid_initialized }, other.moved)

/-- The move assignment; the callback and the plugin of `this` stay. -/
def moveAssign (this other : Task σ π) : Option (Task σ π × Task σ π) :=
  if other.iterating then none
  else some ({ this with
               iterating := false
               kill := false
               stages := other.stages
               label := other.label
               uuid := other.uuid
               jsonConfig := other.jsonConfig
               jsonInitialInputs := other.jsonInitialInputs
               uuid_initialized := other.uuid_initialized }, other.moved)

variable [TaskStage σ]

/-- What happens around one stage: what `next_stage` and `end()` return, and whether `kill()` was
called before `kill_` is read. -/
structure Outcome where
  ran : Bool
  ended : Bool
  killed : Bool

/-- The calls that `iterate_stages` makes, each with the label of its stage. -/
inductive StageEvent where
  | nextStage (label : String)
  | cleanup (label : String)
  | «end» (label : String)
  deriving DecidableEq

/-- `std::all_of` over the stages from the `i`-th on: the result, the calls and `kill_`. -/
def allOf (outcome : ℕ → Outcome) (kill : Bool) (i : ℕ) : List σ → Bool × List StageEvent × Bool
  | [] => (true, [], kill)
  | next :: stages =>
    let o := outcome i
    let l := TaskStage.label next
    let calls := [.nextStage l, .cleanup l] ++ if o.ran then [.end l] else []
    let kill := kill || o.killed
    if o.ran && o.ended && !kill then
      let (ret, rest, kill) := allOf outcome kill (i + 1) stages
      (ret, calls ++ rest, kill)
    else (false, calls, kill)

def iterateStages (outcome : ℕ → Outcome) (t : Task σ π) : Bool × List StageEvent × Task σ π :=
  if t.iterating then (false, [], t)
  else
    let (ranAll, calls, kill) := allOf outcome t.kill 0 t.stages
    (ranAll, calls, { t with kill := kill })

variable [TaskCallbackPlugin π]

def clone (t : Task σ π) : Task σ π where
  iterating := false
  kill := false
  stages := t.stages.map TaskStage.clone
  label := t.label
  -- With a plugin the constructor that takes the plugin is called, and the function is dropped.
  completeCallback := if t.completeCallbackPlugin.isSome then none else t.completeCallback
  completeCallbackPlugin := t.completeCallbackPlugin.map TaskCallbackPlugin.clone
  -- `update_uuid` parses the text of the identifier: `updateUuid_eq`.
  uuid := t.uuid
  jsonConfig := some (t.jsonConfig.getD .null)
  jsonInitialInputs := some (t.jsonInitialInputs.getD .null)
  uuid_initialized := t.uuid_initialized

omit [TaskStage σ] [TaskCallbackPlugin π] in
lemma updateUuid_eq (t : Task σ π) : UUID.ofString t.uuid.asString = some t.uuid :=
  UUID.ofString_asString t.uuid_initialized

@[simp] lemma clone_uuid (t : Task σ π) : t.clone.uuid = t.uuid := rfl
@[simp] lemma clone_label (t : Task σ π) : t.clone.label = t.label := rfl

end Task

end DagScheduler.Graphs
