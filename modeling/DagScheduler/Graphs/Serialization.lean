import DagScheduler.Graphs.Dag

/-! `YAMLDagDeserializer`. What the YAML library, the JSON library and `boost::dll` answer is given. -/

namespace DagScheduler.Graphs

open Library Library.Programs

/-- What is thrown, with its `what()`. The last three derive from `std::runtime_error`. -/
inductive Exception where
  | deserializerError (what : String)
  | wrongTypeError (what : String)
  | nonSupportedCallbackType (what : String)
  | yamlException (what : String)
  | systemError (what : String)
  | runtimeError (what : String)

namespace Exception

def what : Exception → String
  | deserializerError s | wrongTypeError s | nonSupportedCallbackType s | yamlException s | systemError s
  | runtimeError s => s

def isRuntimeError : Exception → Bool
  | yamlException _ | systemError _ | runtimeError _ => true
  | _ => false

end Exception

/-- `YAML::Node`; an error is the `what()` of the exception. -/
class YAMLNode (ν : Type) where
  /-- `operator[]`; `none` for a node that is not defined. -/
  get : ν → String → Except String (Option ν)
  isMap : ν → Bool
  isSequence : ν → Bool
  asString : ν → Except String String
  asVector : ν → Except String (List ν)
  text : ν → String
  /-- What the emitter writes, parsed as JSON; `none` where that has an error. -/
  json : ν → Option Document

/-- What `boost::dll` finds by the names of a library, a section and a symbol; an error is the
`what()` of the exception. -/
structure Dll (L σ π : Type) where
  sharedLibrary : String → Except String L
  symbols : String → String → Except String (List String)
  stageCreator : String → String → Except String (String → Option σ)
  callback : L → String → Except String CompleteCallback
  plugin : String → String → Except String π
  /-- A `TaskCallbackPlugin` of no derived class. The class has no members, so this is what
  `make_unique<TaskCallbackPlugin>` makes of any plugin. -/
  base : π

structure RegistryItem (L : Type) where
  libraryName : String
  sharedLibrary : L

variable {ν L σ π : Type}

/-- A name that was registered before yields the same library again. -/
def registerDynamicLibrary (dll : Dll L σ π) (libraryName : String) : Except Exception (RegistryItem L) :=
  match dll.sharedLibrary libraryName with
  | .ok library => pure ⟨libraryName, library⟩
  | .error what =>
    throw (.runtimeError ("Could not load library from " ++ libraryName ++ " with " ++ what ++ " with: " ++ what))

namespace YAMLDagDeserializer

def dagKey := "DAG"
def verticesKey := "Vertices"
def taskKey := "Task"
def stagesKey := "Stages"
def configurationKey := "Configuration"
def initialInputsKey := "InitialInputs"
def titleKey := "Title"
def nameKey := "Name"
def uuidKey := "UUID"
def callbackKey := "Callback"
def libraryNameKey := "LibraryName"
def symbolNameKey := "SymbolName"
def callbackTypeKey := "Type"

inductive UpTo where
  | connections | empty | dag | vertices | vertex | task | stages | stage
  deriving DecidableEq

def stageStr : String :=
  "            - Name: <optional string>\n" ++
  "              LibraryName: <string>\n" ++
  "              SymbolName: <string>\n" ++
  "          ...\n" ++ "    ...\n"

def stagesStr (ret : String) : String :=
  if ret.isEmpty then "        Stages:\n" ++ "          ..." else "        Stages:\n" ++ ret

def taskStr (ret : String) : String :=
  "      Task:\n" ++
  "        Name: <optional string>\n" ++
  "        InitialInputs: <optional YAML>\n" ++
  "          <valid YAML>\n" ++
  "        Configuration: <optional YAML>\n" ++
  "          <valid YAML>\n" ++
  "        Callback: <optional>\n" ++
  "            LibraryName: <string>\n" ++
  "            SymbolName: <string>\n" ++
  "            Type: <enum \x7bPlugin, Function\x7d>\n" ++
  if ret.isEmpty then "        ..." else ret

def vertexStr (ret : String) : String :=
  "    - Vertex:\n" ++
  "      Name: <optional string>\n" ++
  "      UUID: <valid uuid4 string>\n" ++
  if ret.isEmpty then "        ..." else ret

def verticiesStr (ret : String) : String :=
  "  Vertices:\n" ++ if ret.isEmpty then "    ..." else ret

def connectionsStr : String :=
  "  Connections:\n" ++
  "    - Connection:\n" ++
  "      From: <valid uuid4 string from vertex>\n" ++
  "      To: <valid uuid4 string from vertex>\n" ++
  "    ..."

def dagStr (ret : String) : String :=
  "DAG:\n" ++
  "  Title: <optional string>\n" ++
  "  Configuation: <optional YAML>\n" ++
  "    <valid YAML>\n" ++
  if ret.isEmpty then "  ..." else ret

/-- The cases of the `switch` fall through. -/
def sampleDagOutput (upto : UpTo) : String :=
  let ret := match upto with
    | .connections => connectionsStr
    | .empty => ""
    | .dag => dagStr ""
    | .vertices => dagStr (verticiesStr "")
    | .vertex => dagStr (verticiesStr (vertexStr ""))
    | .task => dagStr (verticiesStr (vertexStr (taskStr "")))
    | .stages => dagStr (verticiesStr (vertexStr (taskStr (stagesStr ""))))
    | .stage => dagStr (verticiesStr (vertexStr (taskStr (stagesStr stageStr))))
  -- `back()` of the empty text is undefined; nobody asks for `EMPTY`.
  if ret.toList.getLast? = some '\n' then ret else ret ++ "\n"

def throwWrongType {α : Type} (upto : UpTo) (error : String) : Except Exception α :=
  throw (.wrongTypeError (error ++ " As in:\n" ++ sampleDagOutput upto))

inductive CallbackType where
  | function | plugin | dne
  deriving DecidableEq

def callbackTypeFromString (enumStr : String) : CallbackType :=
  if enumStr.toLower = "function" then .function
  else if enumStr.toLower = "plugin" then .plugin
  else .dne

section Nodes

variable [YAMLNode ν]

def find (node : ν) (key : String) : Except Exception (Option ν) :=
  (YAMLNode.get node key).mapError .yamlException

def asString (node : ν) : Except Exception String := (YAMLNode.asString node).mapError .yamlException

def asVector (node : ν) : Except Exception (List ν) := (YAMLNode.asVector node).mapError .yamlException

/-- `as` throws on a node that is not defined. -/
def require (node : ν) (key : String) : Except Exception ν := do
  match ← find node key with
  | some child => pure child
  | none => throw (.yamlException ("invalid node; first invalid key: \"" ++ key ++ "\""))

def optionalString (node : ν) (key : String) : Except Exception String := do
  match ← find node key with
  | some child => asString child
  | none => pure ""

def optionalJson (node : ν) (key what : String) : Except Exception Document := do
  match ← find node key with
  | none => pure .null
  | some child =>
    match YAMLNode.json child with
    | some document => pure document
    | none => throw (.deserializerError ("Could not parse " ++ what ++ " from " ++ YAMLNode.text child))

end Nodes

section Libraries

variable (dll : Dll L σ π)

def verifySymbolPresent (library : RegistryItem L) (symbolName sectionName : String) :
    Except Exception (Bool × String) :=
  match dll.symbols library.libraryName sectionName with
  | .ok symbols => pure (symbols.contains symbolName, String.join (symbols.map (· ++ ",")))
  | .error what =>
    throw (.deserializerError ("Could not load symbol info from " ++ library.libraryName ++ " with " ++ what))

def dynamicallyLoadStage (library : RegistryItem L) (symbolName stageName : String) :
    Except Exception (Option σ) := do
  let (symbolPresent, cbSymbols) ← verifySymbolPresent dll library symbolName "Stages"
  if symbolPresent && !cbSymbols.isEmpty then
    let stageCreator ← (dll.stageCreator library.libraryName symbolName).mapError .systemError
    pure (stageCreator stageName)
  else
    throw (.deserializerError ("Failed to load " ++ symbolName ++ " from " ++ library.libraryName ++
      ". It could not be found" ++ " in available symbols of --" ++ cbSymbols ++ "--."))

def makeTaskFunctionCallback (library : RegistryItem L) (symbolName : String) :
    Except Exception CompleteCallback := do
  let (symbolPresent, cbSymbols) ← verifySymbolPresent dll library symbolName "TaskCb"
  if symbolPresent && !cbSymbols.isEmpty then
    (dll.callback library.sharedLibrary symbolName).mapError .systemError
  else
    throw (.deserializerError ("Failed to load " ++ symbolName ++ " from " ++ library.libraryName ++
      ". It could not be found in available " ++ " symbols of " ++ cbSymbols))

def makeTaskFunctionCallbackPlugin (library : RegistryItem L) (symbolName : String) :
    Except Exception (Option π) := do
  let (symbolPresent, cbSymbols) ← verifySymbolPresent dll library symbolName "TaskCb"
  if symbolPresent && !cbSymbols.isEmpty then
    let _ ← (dll.plugin library.libraryName symbolName).mapError .systemError
    pure (some dll.base)
  else
    throw (.deserializerError ("Failed to load " ++ symbolName ++ " from " ++ library.libraryName ++
      ". It could not be found " ++ " in available symbols of " ++ cbSymbols))

variable [YAMLNode ν]

def missingKey (key : String) (stageNode : ν) : Exception :=
  .deserializerError ("The required key of \"" ++ key ++ "\" was not present in " ++ YAMLNode.text stageNode)

/-- The key that is looked for is that of the name. -/
def stageLibraryName (stageNode : ν) : Except Exception String := do
  match ← find stageNode nameKey with
  | some _ => asString (← require stageNode libraryNameKey)
  | none => throw (missingKey libraryNameKey stageNode)

def stageSymbolName (stageNode : ν) : Except Exception String := do
  match ← find stageNode symbolNameKey with
  | some symbol => asString symbol
  | none => throw (missingKey symbolNameKey stageNode)

def loadStage (stageNode : ν) : Except Exception σ := do
  let stageName ← optionalString stageNode nameKey
  let libraryName ← stageLibraryName stageNode
  let symbolName ← stageSymbolName stageNode
  let loaded : Except Exception σ := do
    match ← dynamicallyLoadStage dll (← registerDynamicLibrary dll libraryName) symbolName stageName with
    | some nextStage => pure nextStage
    | none => throw (.deserializerError ("Could not load library from " ++ libraryName ++ " with unknown error"))
  match loaded with
  | .error (.systemError what) =>
    throw (.deserializerError ("Could not load library from " ++ libraryName ++ " with " ++ what))
  | loaded => loaded

def loadStages (stagesNode : ν) : Except Exception (List σ) := do
  (← asVector stagesNode).mapM (loadStage dll)

/-- An identifier from `uuid_generate`, which never yields the null one. -/
structure TaskUuid where
  uuid : UUID
  initialized : uuid.isInitialized

def newTask (u : TaskUuid) (stages : List σ) (label : String) (completeCallback : Option CompleteCallback)
    (completeCallbackPlugin : Option π) (jsonConfig jsonInitialInputs : Document) : Task σ π where
  iterating := false
  kill := false
  stages := stages
  label := label
  completeCallback := completeCallback
  completeCallbackPlugin := completeCallbackPlugin
  uuid := u.uuid
  jsonConfig := some jsonConfig
  jsonInitialInputs := some jsonInitialInputs
  uuid_initialized := u.initialized

def makeTaskCallback (u : TaskUuid) (taskName : String) (stages : List σ) (callbackNode : ν)
    (jsonConfig jsonInitialInputs : Document) : Except Exception (Task σ π) := do
  let libraryName ← asString (← require callbackNode libraryNameKey)
  let made : Except Exception (Task σ π) := do
    let sharedLibrary ← registerDynamicLibrary dll libraryName
    match ← find callbackNode callbackTypeKey with
    | none => throw (.deserializerError ("If a callback is to be used in:\n" ++
        ((← find callbackNode callbackKey).map YAMLNode.text).getD "" ++ " it must contain a Callback Type."))
    | some type =>
      match callbackTypeFromString (← asString type) with
      | .function =>
        let taskCallback ← makeTaskFunctionCallback dll sharedLibrary
          (← asString (← require callbackNode symbolNameKey))
        pure (newTask u stages taskName (some taskCallback) none jsonConfig jsonInitialInputs)
      | .plugin =>
        match ← makeTaskFunctionCallbackPlugin dll sharedLibrary
            (← asString (← require callbackNode symbolNameKey)) with
        | none => throw (.deserializerError ("Unable to properly deserialize" ++ YAMLNode.text callbackNode))
        | some taskCallbackPlugin =>
          pure (newTask u stages taskName none (some taskCallbackPlugin) jsonConfig jsonInitialInputs)
      | .dne => throw (.nonSupportedCallbackType ("Unspported callback type specified. Currently " ++
          "only \"FUNCTION\" or \"PLUGIN\" are accepted. " ++ "Note these values are case insensitive."))
  match made with
  | .error e =>
    if e.isRuntimeError then
      throw (.deserializerError ("Could not load library from " ++ libraryName ++ " with " ++ e.what))
    else throw e
  | .ok task => pure task

def optionalStages (taskNode : ν) : Except Exception (List σ) := do
  match ← find taskNode stagesKey with
  | some stagesNode => loadStages dll stagesNode
  | none => pure []

def makeTask (u : TaskUuid) (taskNode : ν) : Except Exception (Task σ π) := do
  let taskName ← optionalString taskNode nameKey
  let stages ← optionalStages dll taskNode
  let jsonConfig ← optionalJson taskNode configurationKey "task configuration"
  let jsonInitialInputs ← optionalJson taskNode initialInputsKey "task initial inputs"
  match ← find taskNode callbackKey with
  | some callbackNode => makeTaskCallback dll u taskName stages callbackNode jsonConfig jsonInitialInputs
  | none => pure (newTask u stages taskName none none jsonConfig jsonInitialInputs)

end Libraries

inductive Failure where
  | exception (e : Exception)
  | fault (f : Fault)

abbrev Deserialization (σ π α : Type) := Program (Memory σ π) Failure α

def attempt {α : Type} (r : Except Exception α) : Deserialization σ π α := ofResult (r.mapError .exception)

def generateTaskUuid : Deserialization σ π TaskUuid := do
  let u ← mapFault .fault uuidGenerate
  pure (if h : u.isInitialized then ⟨u, h⟩ else ⟨⟨1⟩, rfl⟩)

variable (dll : Dll L σ π) [YAMLNode ν]

def parseUuid (userDefinedUuid : String) : Except Exception UUID :=
  match UUID.ofString userDefinedUuid with
  | some uuid => pure uuid
  | none => throw (.runtimeError ("Failed to parse user defined uuid of " ++ userDefinedUuid))

def optionalTask (vertexNode : ν) : Deserialization σ π (Option (Task σ π)) := do
  match ← attempt (find vertexNode taskKey) with
  | some taskNode => do pure (some (← attempt (makeTask dll (← generateTaskUuid) taskNode)))
  | none => pure none

def makeVertex (dag : DAG) (vertexNode : ν) : Deserialization σ π DAG := do
  let name ← attempt (optionalString vertexNode nameKey)
  let uuidStr ← attempt (do asString (← require vertexNode uuidKey))
  let uuid ← attempt (parseUuid uuidStr)
  let task ← optionalTask dll vertexNode
  let nextVertex : DAGVertex σ π := ⟨uuid, .initialized, name, [], 0, task⟩
  -- Nobody looks at what `add_vertex` returns.
  let (_, dag, _) ← mapFault .fault (dag.addVertex nextVertex)
  pure dag

def makeVertices (verticesNode : ν) (dag : DAG) : Deserialization σ π DAG := do
  if YAMLNode.isSequence verticesNode then
    (← attempt (asVector verticesNode)).foldlM (makeVertex dll) dag
  else attempt (throwWrongType .vertex "\"Vertices\" must be a YAML Sequence.")

def makeDag (dagNode : ν) : Deserialization σ π DAG := do
  match ← attempt (find dagNode dagKey) with
  | none => attempt (throw (.deserializerError ("Root element of \"DAG\" not found in\n" ++ YAMLNode.text dagNode ++
      "\nFor example, as in\n" ++ sampleDagOutput .dag)))
  | some dagDefinitionNode =>
    if !YAMLNode.isMap dagDefinitionNode then
      attempt (throwWrongType .dag ("\"DAG\" the root elment must be a " ++ "YAML map."))
    else
      let jsonDagConfiguration ← attempt (optionalJson dagDefinitionNode configurationKey "dag configuration")
      let title ← attempt (optionalString dagDefinitionNode titleKey)
      let ret : DAG := ⟨[], title, some jsonDagConfiguration⟩
      match ← attempt (find dagDefinitionNode verticesKey) with
      | some verticesNode => makeVertices dll verticesNode ret
      | none => pure ret

end YAMLDagDeserializer

end DagScheduler.Graphs
