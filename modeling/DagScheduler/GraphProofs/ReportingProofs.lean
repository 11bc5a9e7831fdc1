import DagScheduler.GraphProofs.FormatProofs
import DagScheduler.GraphProofs.LoadingProofs

/-! How `make_dag` reports that a library cannot be loaded. The callback of a task catches what the
registry throws; a stage catches only what the registry has caught before. -/

namespace DagScheduler.Graphs

open Library Library.Programs Library.Results

/-- What `catch (const YAMLDagDeserializerError &)` takes. -/
def Exception.isDeserializerError : Exception → Bool
  | deserializerError _ | wrongTypeError _ => true
  | _ => false

namespace YAMLDagDeserializer

variable {ν L σ π α β : Type} [YAMLNode ν] {dll : Dll L σ π} {dagNode e taskNode callbackNode node : ν}
  {m m' : Memory σ π} {g g' : DAG} {libraryName what : String}

/-- The library is that of a stage or of the callback of some vertex. -/
inductive Mentions (dagNode : ν) (libraryName : String) : Prop
  | stage {e taskNode stagesNode node : ν} {nodes : List ν} (hentry : e ∈ entries dagNode)
      (htask : find e taskKey = .ok (some taskNode)) (hstages : find taskNode stagesKey = .ok (some stagesNode))
      (hnodes : asVector stagesNode = .ok nodes) (hnode : node ∈ nodes)
      (hlibrary : TextAt node libraryNameKey libraryName) : Mentions dagNode libraryName
  | callback {e taskNode callbackNode : ν} (hentry : e ∈ entries dagNode)
      (htask : find e taskKey = .ok (some taskNode)) (hcallback : find taskNode callbackKey = .ok (some callbackNode))
      (hlibrary : TextAt callbackNode libraryNameKey libraryName) : Mentions dagNode libraryName

def Reported (dll : Dll L σ π) (dagNode : ν) (m : Memory σ π) : Prop :=
  ∃ e, Stops (makeDag dll dagNode) m (.exception e) ∧ e.isDeserializerError = true

/-! What else can stop a document from being read: what is not a text, a map or a sequence where
one is read, an identifier that is none, a type of callback that is not supported, and a library of
a stage that cannot be loaded. What comes before it is read. -/

inductive StageDerails (dll : Dll L σ π) (node : ν) : Prop
  | name (hname : ∀ name, optionalString node nameKey ≠ .ok name) : StageDerails dll node
  | libraryName {name : String} (hname : TextAt node nameKey name)
      (hlibrary : ∀ libraryName, ¬ TextAt node libraryNameKey libraryName) : StageDerails dll node
  | symbolName {name libraryName : String} (hname : TextAt node nameKey name)
      (hlibrary : TextAt node libraryNameKey libraryName)
      (hsymbol : ∀ symbolName, optionalString node symbolNameKey ≠ .ok symbolName) : StageDerails dll node
  | library {name libraryName symbolName what : String} (hname : TextAt node nameKey name)
      (hlibrary : TextAt node libraryNameKey libraryName) (hsymbol : TextAt node symbolNameKey symbolName)
      (hloaded : dll.sharedLibrary libraryName = .error what) : StageDerails dll node

inductive StagesDerail (dll : Dll L σ π) (taskNode : ν) : Prop
  | lookup (hstages : ∀ found, find taskNode stagesKey ≠ .ok found) : StagesDerail dll taskNode
  | sequence {stagesNode : ν} (hstages : find taskNode stagesKey = .ok (some stagesNode))
      (hnodes : ∀ nodes, asVector stagesNode ≠ .ok nodes) : StagesDerail dll taskNode
  | stage {stagesNode node : ν} {before after : List ν} (hstages : find taskNode stagesKey = .ok (some stagesNode))
      (hnodes : asVector stagesNode = .ok (before ++ node :: after))
      (hbefore : ∀ node ∈ before, ∃ stage, loadStage dll node = .ok stage) (hnode : StageDerails dll node) :
      StagesDerail dll taskNode

inductive CallbackDerails (dll : Dll L σ π) (taskNode : ν) : Prop
  | lookup (hcallback : ∀ found, find taskNode callbackKey ≠ .ok found) : CallbackDerails dll taskNode
  | libraryName {callbackNode : ν} (hcallback : find taskNode callbackKey = .ok (some callbackNode))
      (hlibrary : ∀ libraryName, ¬ TextAt callbackNode libraryNameKey libraryName) : CallbackDerails dll taskNode
  | type {callbackNode : ν} {libraryName type : String} {library : L}
      (hcallback : find taskNode callbackKey = .ok (some callbackNode))
      (hlibrary : TextAt callbackNode libraryNameKey libraryName) (hloaded : dll.sharedLibrary libraryName = .ok library)
      (htype : TextAt callbackNode callbackTypeKey type) (hunsupported : callbackTypeFromString type = .dne) :
      CallbackDerails dll taskNode

inductive TaskDerails (dll : Dll L σ π) (taskNode : ν) : Prop
  | name (hname : ∀ name, optionalString taskNode nameKey ≠ .ok name) : TaskDerails dll taskNode
  | stages {name : String} (hname : optionalString taskNode nameKey = .ok name) (hstages : StagesDerail dll taskNode) :
      TaskDerails dll taskNode
  | configuration {name : String} {stages : List σ} (hname : optionalString taskNode nameKey = .ok name)
      (hstages : optionalStages dll taskNode = .ok stages) (hconfig : ∀ found, find taskNode configurationKey ≠ .ok found) :
      TaskDerails dll taskNode
  | initialInputs {name : String} {stages : List σ} {config : Document}
      (hname : optionalString taskNode nameKey = .ok name) (hstages : optionalStages dll taskNode = .ok stages)
      (hconfig : optionalJson taskNode configurationKey "task configuration" = .ok config)
      (hinputs : ∀ found, find taskNode initialInputsKey ≠ .ok found) : TaskDerails dll taskNode
  | callback {name : String} {stages : List σ} {config inputs : Document}
      (hname : optionalString taskNode nameKey = .ok name) (hstages : optionalStages dll taskNode = .ok stages)
      (hconfig : optionalJson taskNode configurationKey "task configuration" = .ok config)
      (hinputs : optionalJson taskNode initialInputsKey "task initial inputs" = .ok inputs)
      (hcallback : CallbackDerails dll taskNode) : TaskDerails dll taskNode

inductive EntryDerails (dll : Dll L σ π) (e : ν) : Prop
  | name (hname : ∀ name, optionalString e nameKey ≠ .ok name) : EntryDerails dll e
  | uuid {name : String} (hname : optionalString e nameKey = .ok name) (huuid : ∀ text, ¬ TextAt e uuidKey text) :
      EntryDerails dll e
  | malformed {name text : String} (hname : optionalString e nameKey = .ok name) (huuid : TextAt e uuidKey text)
      (hmalformed : UUID.ofString text = none) : EntryDerails dll e
  | lookup {name text : String} {uuid : UUID} (hname : optionalString e nameKey = .ok name)
      (huuid : TextAt e uuidKey text) (hparsed : UUID.ofString text = some uuid)
      (htask : ∀ found, find e taskKey ≠ .ok found) : EntryDerails dll e
  | task {name text : String} {uuid : UUID} {taskNode : ν} (hname : optionalString e nameKey = .ok name)
      (huuid : TextAt e uuidKey text) (hparsed : UUID.ofString text = some uuid)
      (hnode : find e taskKey = .ok (some taskNode)) (htask : TaskDerails dll taskNode) : EntryDerails dll e

inductive Derails (dll : Dll L σ π) (dagNode : ν) : Prop
  | root (hroot : ∀ found, find dagNode dagKey ≠ .ok found) : Derails dll dagNode
  | configuration {definition : ν} (hroot : find dagNode dagKey = .ok (some definition))
      (hmap : YAMLNode.isMap definition = true) (hconfig : ∀ found, find definition configurationKey ≠ .ok found) :
      Derails dll dagNode
  | title {definition : ν} {config : Document} (hroot : find dagNode dagKey = .ok (some definition))
      (hmap : YAMLNode.isMap definition = true)
      (hconfig : optionalJson definition configurationKey "dag configuration" = .ok config)
      (htitle : ∀ title, optionalString definition titleKey ≠ .ok title) : Derails dll dagNode
  | lookup {definition : ν} {config : Document} {title : String} (hroot : find dagNode dagKey = .ok (some definition))
      (hmap : YAMLNode.isMap definition = true)
      (hconfig : optionalJson definition configurationKey "dag configuration" = .ok config)
      (htitle : optionalString definition titleKey = .ok title)
      (hvertices : ∀ found, find definition verticesKey ≠ .ok found) : Derails dll dagNode
  | sequence {definition verticesNode : ν} {config : Document} {title : String}
      (hroot : find dagNode dagKey = .ok (some definition)) (hmap : YAMLNode.isMap definition = true)
      (hconfig : optionalJson definition configurationKey "dag configuration" = .ok config)
      (htitle : optionalString definition titleKey = .ok title)
      (hvertices : find definition verticesKey = .ok (some verticesNode))
      (hsequence : YAMLNode.isSequence verticesNode = true) (hnodes : ∀ nodes, asVector verticesNode ≠ .ok nodes) :
      Derails dll dagNode
  | entry {definition verticesNode e : ν} {config : Document} {title : String} {before after : List ν}
      (hroot : find dagNode dagKey = .ok (some definition)) (hmap : YAMLNode.isMap definition = true)
      (hconfig : optionalJson definition configurationKey "dag configuration" = .ok config)
      (htitle : optionalString definition titleKey = .ok title)
      (hvertices : find definition verticesKey = .ok (some verticesNode))
      (hsequence : YAMLNode.isSequence verticesNode = true) (hnodes : asVector verticesNode = .ok (before ++ e :: after))
      (hbefore : ∀ e ∈ before, Loads dll e) (hentry : EntryDerails dll e) : Derails dll dagNode

/-! An exception that is not the one of the deserializer. -/

def Escapes (r : Except Exception α) : Prop := ∃ e, r = .error e ∧ e.isDeserializerError = false

@[simp] lemma escapes_ok {a : α} : ¬ Escapes (.ok a) := by simp [Escapes]

@[simp] lemma escapes_error {e : Exception} : Escapes (.error e : Except Exception α) ↔ e.isDeserializerError = false := by
  simp [Escapes]

lemma escapes_bind {r : Except Exception α} {f : α → Except Exception β} :
    Escapes (r >>= f) ↔ Escapes r ∨ ∃ a, r = .ok a ∧ Escapes (f a) := by
  cases r <;> simp [bind, Except.bind]

lemma Escapes.bind {r : Except Exception α} (h : Escapes r) (f : α → Except Exception β) : Escapes (r >>= f) :=
  escapes_bind.mpr (.inl h)

lemma Escapes.after {r : Except Exception α} {f : α → Except Exception β} {a : α} (hr : r = .ok a) (h : Escapes (f a)) :
    Escapes (r >>= f) := escapes_bind.mpr (.inr ⟨a, hr, h⟩)

def FromYaml (r : Except Exception α) : Prop := Errors (fun e => ∃ what, e = .yamlException what) r

namespace FromYaml

lemma escapes_iff {r : Except Exception α} (h : FromYaml r) : Escapes r ↔ ∀ a, r ≠ .ok a := by
  cases r with
  | ok a => simp
  | error e =>
    obtain ⟨what, rfl⟩ := h e rfl
    simp [Exception.isDeserializerError]

lemma find (node : ν) (key : String) : FromYaml (find node key) := .mapError (fun what => ⟨what, rfl⟩) _

lemma asString (node : ν) : FromYaml (asString node) := .mapError (fun what => ⟨what, rfl⟩) _

lemma asVector (node : ν) : FromYaml (asVector node) := .mapError (fun what => ⟨what, rfl⟩) _

lemma require (node : ν) (key : String) : FromYaml (require node key) := by
  refine (find node key).bind fun found _ => ?_
  cases found with
  | none => exact .error ⟨_, rfl⟩
  | some child => exact .ok child

lemma optionalString (node : ν) (key : String) : FromYaml (optionalString node key) := by
  refine (find node key).bind fun found _ => ?_
  cases found with
  | none => exact .ok ""
  | some child => exact asString child

end FromYaml

lemma text_eq_ok {key text : String} : (do asString (← require node key)) = .ok text ↔ TextAt node key text := by
  simp only [bind_eq_ok, require_eq_ok, TextAt]

lemma escapes_text {key : String} : Escapes (do asString (← require node key)) ↔ ∀ text, ¬ TextAt node key text := by
  have hyaml : FromYaml (do asString (← require node key)) :=
    (FromYaml.require node key).bind fun child _ => FromYaml.asString child
  rw [hyaml.escapes_iff]
  exact forall_congr' fun text => not_congr text_eq_ok

lemma escapes_optionalJson {key what : String} :
    Escapes (optionalJson node key what) ↔ ∀ found, find node key ≠ .ok found := by
  rw [optionalJson, escapes_bind, (FromYaml.find node key).escapes_iff, or_iff_left]
  rintro ⟨found, -, hescapes⟩
  cases found with
  | none => exact escapes_ok hescapes
  | some child =>
    dsimp only at hescapes
    split at hescapes
    · exact escapes_ok hescapes
    · simpa [Exception.isDeserializerError] using escapes_error.mp hescapes

lemma escapes_stageLibraryName {name : String} (hname : optionalString node nameKey = .ok name) :
    Escapes (stageLibraryName node) ↔ TextAt node nameKey name ∧ ∀ libraryName, ¬ TextAt node libraryNameKey libraryName := by
  rcases optionalString_eq_ok.mp hname with ⟨hnone, rfl⟩ | htext
  · have herror : stageLibraryName node = .error (missingKey libraryNameKey node) :=
      bind_eq_error.mpr (.inr ⟨none, hnone, rfl⟩)
    rw [herror, escapes_error]
    refine iff_of_false (by simp [missingKey, Exception.isDeserializerError]) ?_
    rintro ⟨⟨child, hchild, -⟩, -⟩
    simp [hnone] at hchild
  · obtain ⟨child, hchild, -⟩ := id htext
    have hread : stageLibraryName node = (do asString (← require node libraryNameKey)) := by
      rw [stageLibraryName, hchild]
      rfl
    rw [hread, escapes_text]
    exact (and_iff_right (show TextAt node nameKey name from htext)).symm

lemma escapes_stageSymbolName :
    Escapes (stageSymbolName node) ↔ ∀ symbolName, optionalString node symbolNameKey ≠ .ok symbolName := by
  cases hfind : find node symbolNameKey with
  | error e =>
    have hoptional : Escapes (optionalString node symbolNameKey) ↔ Escapes (stageSymbolName node) := by
      rw [optionalString, stageSymbolName, hfind]
      rfl
    rw [← hoptional, (FromYaml.optionalString node symbolNameKey).escapes_iff]
  | ok found =>
    cases found with
    | none =>
      have herror : stageSymbolName node = .error (missingKey symbolNameKey node) :=
        bind_eq_error.mpr (.inr ⟨none, hfind, rfl⟩)
      rw [herror, escapes_error]
      refine iff_of_false (by simp [missingKey, Exception.isDeserializerError]) fun h => ?_
      exact h "" (optionalString_eq_ok.mpr (.inl ⟨hfind, rfl⟩))
    | some child =>
      have hread : stageSymbolName node = optionalString node symbolNameKey := by
        rw [optionalString, stageSymbolName, hfind]
        rfl
      rw [hread, (FromYaml.optionalString node symbolNameKey).escapes_iff]

omit [YAMLNode ν] in
lemma dynamicallyLoadStage_error {item : RegistryItem L} {symbolName stageName : String} {e : Exception}
    (h : dynamicallyLoadStage dll item symbolName stageName = .error e) :
    e.isDeserializerError = true ∨ ∃ what, e = .systemError what := by
  rcases bind_eq_error.mp h with h | ⟨⟨present, symbols⟩, -, h⟩
  · unfold verifySymbolPresent at h
    split at h
    · cases h
    · rw [← Except.error.inj h]
      exact .inl rfl
  · dsimp only at h
    split at h
    · rcases bind_eq_error.mp h with h | ⟨creator, -, h⟩
      · obtain ⟨what, -, rfl⟩ := mapError_eq_error.mp h
        exact .inr ⟨what, rfl⟩
      · cases h
    · rw [← Except.error.inj h]
      exact .inl rfl

omit [YAMLNode ν] in
lemma registerDynamicLibrary_error {what : String} (h : dll.sharedLibrary libraryName = .error what) :
    ∃ what, registerDynamicLibrary dll libraryName = .error (.runtimeError what) := by
  rw [registerDynamicLibrary, h]
  exact ⟨_, rfl⟩

omit [YAMLNode ν] in
lemma registerDynamicLibrary_ok {library : L} (h : dll.sharedLibrary libraryName = .ok library) :
    registerDynamicLibrary dll libraryName = .ok ⟨libraryName, library⟩ := by
  rw [registerDynamicLibrary, h]
  rfl

/-- A stage that has all its texts escapes only if its library does. -/
lemma escapes_loadStage_complete {name libraryName symbolName : String}
    (hname : TextAt node nameKey name) (hlibrary : TextAt node libraryNameKey libraryName)
    (hsymbol : TextAt node symbolNameKey symbolName) :
    Escapes (loadStage dll node : Except Exception σ) ↔ ∃ what, dll.sharedLibrary libraryName = .error what := by
  have hread : stageLibraryName node = .ok libraryName := stageLibraryName_eq_ok.mpr ⟨hname.has, hlibrary⟩
  rw [loadStage, hname.optionalString, hread, stageSymbolName_eq_ok.mpr hsymbol]
  simp only [bind, Except.bind]
  cases hloaded : dll.sharedLibrary libraryName with
  | error what =>
    obtain ⟨what', hregister⟩ := registerDynamicLibrary_error hloaded
    simp [hregister, Exception.isDeserializerError]
  | ok library =>
    refine iff_of_false ?_ (by simp)
    rw [registerDynamicLibrary_ok hloaded]
    cases hstage : dynamicallyLoadStage dll ⟨libraryName, library⟩ symbolName name with
    | error e =>
      rcases dynamicallyLoadStage_error hstage with hreported | ⟨what, rfl⟩
      · cases e <;> simp_all [Exception.isDeserializerError]
      · simp [hstage, Exception.isDeserializerError, throw, throwThe, MonadExceptOf.throw]
    | ok created =>
      cases created with
      | none => simp [hstage, Exception.isDeserializerError, throw, throwThe, MonadExceptOf.throw]
      | some stage => simp [hstage, pure, Except.pure]

lemma escapes_loadStage : Escapes (loadStage dll node) ↔ StageDerails dll node := by
  constructor
  · intro h
    rcases escapes_bind.mp h with h | ⟨name, hname, hrest⟩
    · exact .name ((FromYaml.optionalString node nameKey).escapes_iff.mp h)
    rcases escapes_bind.mp hrest with h | ⟨libraryName, hlibrary, hrest⟩
    · obtain ⟨hname, hlibrary⟩ := (escapes_stageLibraryName hname).mp h
      exact .libraryName hname hlibrary
    obtain ⟨⟨child, hchild⟩, hlibrary⟩ := stageLibraryName_eq_ok.mp hlibrary
    have hname : TextAt node nameKey name := by
      rcases optionalString_eq_ok.mp hname with ⟨hnone, -⟩ | htext
      · simp [hnone] at hchild
      · exact htext
    rcases escapes_bind.mp hrest with h | ⟨symbolName, hsymbol, -⟩
    · exact .symbolName hname hlibrary (escapes_stageSymbolName.mp h)
    rw [stageSymbolName_eq_ok] at hsymbol
    obtain ⟨what, hloaded⟩ := (escapes_loadStage_complete hname hlibrary hsymbol).mp h
    exact .library hname hlibrary hsymbol hloaded
  · intro h
    cases h with
    | name hname => exact ((FromYaml.optionalString node nameKey).escapes_iff.mpr hname).bind _
    | libraryName hname hlibrary =>
      have h := (escapes_stageLibraryName hname.optionalString).mpr ⟨hname, hlibrary⟩
      exact .after hname.optionalString (h.bind _)
    | symbolName hname hlibrary hsymbol =>
      have hread := stageLibraryName_eq_ok.mpr ⟨hname.has, hlibrary⟩
      exact .after hname.optionalString (.after hread ((escapes_stageSymbolName.mpr hsymbol).bind _))
    | library hname hlibrary hsymbol hloaded =>
      exact (escapes_loadStage_complete hname hlibrary hsymbol).mpr ⟨_, hloaded⟩

lemma escapes_optionalStages : Escapes (optionalStages dll taskNode) ↔ StagesDerail dll taskNode := by
  constructor
  · intro h
    rcases escapes_bind.mp h with h | ⟨found, hfound, h⟩
    · exact .lookup ((FromYaml.find taskNode stagesKey).escapes_iff.mp h)
    cases found with
    | none => exact absurd h escapes_ok
    | some stagesNode =>
      rcases escapes_bind.mp h with h | ⟨nodes, hnodes, e, he, hforeign⟩
      · exact .sequence hfound ((FromYaml.asVector stagesNode).escapes_iff.mp h)
      obtain ⟨before, node, after, rfl, hbefore, hnode⟩ := mapM_eq_error.mp he
      exact .stage hfound hnodes hbefore (escapes_loadStage.mp ⟨e, hnode, hforeign⟩)
  · intro h
    cases h with
    | lookup hstages => exact ((FromYaml.find taskNode stagesKey).escapes_iff.mpr hstages).bind _
    | sequence hstages hnodes =>
      exact .after hstages (((FromYaml.asVector _).escapes_iff.mpr hnodes).bind _)
    | @stage _ node before after hstages hnodes hbefore hnode =>
      obtain ⟨e, he, hforeign⟩ := escapes_loadStage.mpr hnode
      exact .after hstages (.after hnodes ⟨e, mapM_eq_error.mpr ⟨before, node, after, rfl, hbefore, he⟩, hforeign⟩)

/-- The callback path catches these, or throws them itself. -/
def Handled (r : Except Exception α) : Prop :=
  Errors (fun e => e.isRuntimeError = true ∨ e.isDeserializerError = true) r

lemma FromYaml.handled {r : Except Exception α} (h : FromYaml r) : Handled r := by
  refine h.mono ?_
  rintro _ ⟨what, rfl⟩
  exact .inl rfl

omit [YAMLNode ν] in
lemma registerDynamicLibrary_handled (libraryName : String) : Handled (registerDynamicLibrary dll libraryName) := by
  unfold registerDynamicLibrary
  split
  · exact .ok _
  · exact .error (.inl rfl)

omit [YAMLNode ν] in
lemma verifySymbolPresent_handled (item : RegistryItem L) (symbolName sectionName : String) :
    Handled (verifySymbolPresent dll item symbolName sectionName) := by
  unfold verifySymbolPresent
  split
  · exact .ok _
  · exact .error (.inr rfl)

omit [YAMLNode ν] in
lemma makeTaskFunctionCallback_handled (item : RegistryItem L) (symbolName : String) :
    Handled (makeTaskFunctionCallback dll item symbolName) := by
  refine (verifySymbolPresent_handled item symbolName "TaskCb").bind ?_
  rintro ⟨present, symbols⟩ -
  dsimp only
  split
  · exact .mapError (fun what => .inl rfl) _
  · exact .error (.inr rfl)

omit [YAMLNode ν] in
lemma makeTaskFunctionCallbackPlugin_handled (item : RegistryItem L) (symbolName : String) :
    Handled (makeTaskFunctionCallbackPlugin dll item symbolName) := by
  refine (verifySymbolPresent_handled item symbolName "TaskCb").bind ?_
  rintro ⟨present, symbols⟩ -
  dsimp only
  split
  · refine Errors.bind ?_ fun plugin _ => .ok _
    exact .mapError (fun what => .inl rfl) _
  · exact .error (.inr rfl)

lemma escapes_makeTaskCallback {u : TaskUuid} {taskName : String} {stages : List σ}
    {jsonConfig jsonInitialInputs : Document} :
    Escapes (makeTaskCallback dll u taskName stages callbackNode jsonConfig jsonInitialInputs) ↔
      (∀ libraryName, ¬ TextAt callbackNode libraryNameKey libraryName) ∨
      ∃ libraryName library type, TextAt callbackNode libraryNameKey libraryName ∧
        dll.sharedLibrary libraryName = .ok library ∧ TextAt callbackNode callbackTypeKey type ∧
        callbackTypeFromString type = .dne := by
  constructor
  · intro h
    rcases escapes_bind.mp h with h | ⟨libraryNode, hnode, hrest⟩
    · exact .inl (escapes_text.mp (h.bind _))
    rcases escapes_bind.mp hrest with h | ⟨libraryName, hlibrary, h⟩
    · exact .inl (escapes_text.mp (.after hnode h))
    have hlibrary : TextAt callbackNode libraryNameKey libraryName := ⟨libraryNode, require_eq_ok.mp hnode, hlibrary⟩
    right
    obtain ⟨e, he, hforeign⟩ := h
    dsimp only at he
    split at he
    case h_2 => cases he
    rename_i e' hmade
    split at he
    · rw [← Except.error.inj he] at hforeign
      cases hforeign
    rename_i hruntime
    obtain rfl := Except.error.inj he
    have hno : ¬ (e'.isRuntimeError = true ∨ e'.isDeserializerError = true) := by simp [hruntime, hforeign]
    rcases bind_eq_error.mp hmade with hmade | ⟨item, hitem, hmade⟩
    · exact absurd (registerDynamicLibrary_handled libraryName e' hmade) hno
    rcases bind_eq_error.mp hmade with hmade | ⟨found, hfound, hmade⟩
    · exact absurd ((FromYaml.find callbackNode callbackTypeKey).handled e' hmade) hno
    cases found with
    | none =>
      rcases bind_eq_error.mp hmade with hmade | ⟨found, -, hmade⟩
      · exact absurd ((FromYaml.find callbackNode callbackKey).handled e' hmade) hno
      · exact absurd (.inr (Except.error.inj hmade ▸ rfl)) hno
    | some typeNode =>
      rcases bind_eq_error.mp hmade with hmade | ⟨type, htype, hmade⟩
      · exact absurd ((FromYaml.asString typeNode).handled e' hmade) hno
      split at hmade
      · refine absurd (Errors.bind (FromYaml.require callbackNode symbolNameKey).handled (fun child _ => ?_) e' hmade) hno
        refine Errors.bind (FromYaml.asString child).handled fun symbolName _ => ?_
        exact Errors.bind (makeTaskFunctionCallback_handled item symbolName) fun taskCallback _ => .ok _
      · refine absurd (Errors.bind (FromYaml.require callbackNode symbolNameKey).handled (fun child _ => ?_) e' hmade) hno
        refine Errors.bind (FromYaml.asString child).handled fun symbolName _ => ?_
        refine Errors.bind (makeTaskFunctionCallbackPlugin_handled item symbolName) fun plugin _ => ?_
        cases plugin with
        | none => exact .error (.inr rfl)
        | some taskCallbackPlugin => exact .ok _
      · rename_i hunsupported
        exact ⟨libraryName, item.sharedLibrary, type, hlibrary, (registerDynamicLibrary_eq hitem).2,
          ⟨typeNode, hfound, htype⟩, hunsupported⟩
  · rintro (hlibrary | ⟨libraryName, library, type, hlibrary, hloaded, htype, hunsupported⟩)
    · have h := escapes_text.mpr hlibrary
      rcases escapes_bind.mp h with h | ⟨libraryNode, hnode, h⟩
      · exact h.bind _
      · exact .after hnode (h.bind _)
    · obtain ⟨libraryNode, hnode, hlibrary⟩ := hlibrary
      obtain ⟨typeNode, htypeNode, htype⟩ := htype
      refine .after (require_eq_ok.mpr hnode) (.after hlibrary ?_)
      simp only [registerDynamicLibrary_ok hloaded, htypeNode, htype, hunsupported, bind, Except.bind]
      simp [Exception.isRuntimeError, Exception.isDeserializerError, throw, throwThe, MonadExceptOf.throw]

lemma escapes_makeTask {u : TaskUuid} : Escapes (makeTask dll u taskNode) ↔ TaskDerails dll taskNode := by
  constructor
  · intro h
    rcases escapes_bind.mp h with h | ⟨name, hname, h⟩
    · exact .name ((FromYaml.optionalString taskNode nameKey).escapes_iff.mp h)
    rcases escapes_bind.mp h with h | ⟨stages, hstages, h⟩
    · exact .stages hname (escapes_optionalStages.mp h)
    rcases escapes_bind.mp h with h | ⟨config, hconfig, h⟩
    · exact .configuration hname hstages (escapes_optionalJson.mp h)
    rcases escapes_bind.mp h with h | ⟨inputs, hinputs, h⟩
    · exact .initialInputs hname hstages hconfig (escapes_optionalJson.mp h)
    refine .callback hname hstages hconfig hinputs ?_
    rcases escapes_bind.mp h with h | ⟨found, hfound, h⟩
    · exact .lookup ((FromYaml.find taskNode callbackKey).escapes_iff.mp h)
    cases found with
    | none => exact absurd h escapes_ok
    | some callbackNode =>
      rcases escapes_makeTaskCallback.mp h with hlibrary | ⟨libraryName, library, type, hlibrary, hloaded, htype, hdne⟩
      · exact .libraryName hfound hlibrary
      · exact .type hfound hlibrary hloaded htype hdne
  · intro h
    cases h with
    | name hname => exact ((FromYaml.optionalString taskNode nameKey).escapes_iff.mpr hname).bind _
    | stages hname hstages => exact .after hname ((escapes_optionalStages.mpr hstages).bind _)
    | configuration hname hstages hconfig =>
      exact .after hname (.after hstages ((escapes_optionalJson.mpr hconfig).bind _))
    | initialInputs hname hstages hconfig hinputs =>
      exact .after hname (.after hstages (.after hconfig ((escapes_optionalJson.mpr hinputs).bind _)))
    | callback hname hstages hconfig hinputs hcallback =>
      refine .after hname (.after hstages (.after hconfig (.after hinputs ?_)))
      cases hcallback with
      | lookup hcallback => exact ((FromYaml.find taskNode callbackKey).escapes_iff.mpr hcallback).bind _
      | libraryName hcallback hlibrary =>
        exact .after hcallback (escapes_makeTaskCallback.mpr (.inl hlibrary))
      | type hcallback hlibrary hloaded htype hdne =>
        exact .after hcallback (escapes_makeTaskCallback.mpr (.inr ⟨_, _, _, hlibrary, hloaded, htype, hdne⟩))

/-! The same for a program. -/

def EscapesAt (p : Deserialization σ π α) (m : Memory σ π) : Prop :=
  ∃ e, Stops p m (.exception e) ∧ e.isDeserializerError = false

omit [YAMLNode ν] in
lemma escapesAt_bind {p : Deserialization σ π α} {f : α → Deserialization σ π β} :
    EscapesAt (p >>= f) m ↔ EscapesAt p m ∨ ∃ a m', Returns p m a m' ∧ EscapesAt (f a) m' := by
  simp only [EscapesAt, stops_bind]
  constructor
  · rintro ⟨e, h | ⟨a, m', hp, h⟩, hforeign⟩
    · exact .inl ⟨e, h, hforeign⟩
    · exact .inr ⟨a, m', hp, e, h, hforeign⟩
  · rintro (⟨e, h, hforeign⟩ | ⟨a, m', hp, e, h, hforeign⟩)
    · exact ⟨e, .inl h, hforeign⟩
    · exact ⟨e, .inr ⟨a, m', hp, h⟩, hforeign⟩

@[simp] lemma stops_attempt {r : Except Exception α} {f : Failure} :
    Stops (attempt r) m f ↔ ∃ e, r = .error e ∧ f = .exception e := by
  rw [attempt, stops_ofResult, mapError_eq_error]

@[simp] lemma escapesAt_attempt {r : Except Exception α} : EscapesAt (attempt r) m ↔ Escapes r := by
  simp [EscapesAt, Escapes]

@[simp] lemma escapesAt_mapFault {p : Prog σ π α} : ¬ EscapesAt (mapFault .fault p) m := by
  simp [EscapesAt]

@[simp] lemma escapesAt_pure {a : α} : ¬ EscapesAt (pure a : Deserialization σ π α) m := by
  simp [EscapesAt]

omit [YAMLNode ν] in
lemma EscapesAt.bind {p : Deserialization σ π α} (h : EscapesAt p m) (f : α → Deserialization σ π β) :
    EscapesAt (p >>= f) m := escapesAt_bind.mpr (.inl h)

omit [YAMLNode ν] in
lemma EscapesAt.after {p : Deserialization σ π α} {f : α → Deserialization σ π β} {a : α} (hp : Returns p m a m')
    (h : EscapesAt (f a) m') : EscapesAt (p >>= f) m := escapesAt_bind.mpr (.inr ⟨a, m', hp, h⟩)

lemma escapesAt_attempt_bind {r : Except Exception α} {f : α → Deserialization σ π β} :
    EscapesAt (attempt r >>= f) m ↔ Escapes r ∨ ∃ a, r = .ok a ∧ EscapesAt (f a) m := by
  simp only [escapesAt_bind, escapesAt_attempt, returns_attempt, and_assoc, exists_and_left, exists_eq_left]

lemma generateTaskUuid_total (m : Memory σ π) : ∃ u m', Returns generateTaskUuid m u m' := by
  simp only [generateTaskUuid, returns_bind, returns_mapFault, returns_uuidGenerate, returns_pure]
  exact ⟨_, _, _, _, ⟨rfl, rfl⟩, rfl, rfl⟩

lemma escapesAt_generateTaskUuid : ¬ EscapesAt generateTaskUuid m := by
  rintro ⟨e, h, -⟩
  obtain ⟨u, m', hr⟩ := generateTaskUuid_total m
  exact hr.not_stops h

lemma escapesAt_optionalTask : EscapesAt (optionalTask dll e) m ↔
    (∀ found, find e taskKey ≠ .ok found) ∨ ∃ taskNode, find e taskKey = .ok (some taskNode) ∧ TaskDerails dll taskNode := by
  constructor
  · intro h
    rcases escapesAt_attempt_bind.mp h with h | ⟨found, hfound, h⟩
    · exact .inl ((FromYaml.find e taskKey).escapes_iff.mp h)
    cases found with
    | none => exact absurd h escapesAt_pure
    | some taskNode =>
      rcases escapesAt_bind.mp h with h | ⟨u, m₂, -, h⟩
      · exact absurd h escapesAt_generateTaskUuid
      rcases escapesAt_bind.mp h with h | ⟨task, m₃, -, h⟩
      · exact .inr ⟨taskNode, hfound, escapes_makeTask.mp (escapesAt_attempt.mp h)⟩
      · exact absurd h escapesAt_pure
  · rintro (hfind | ⟨taskNode, hfound, htask⟩)
    · exact (escapesAt_attempt.mpr ((FromYaml.find e taskKey).escapes_iff.mpr hfind)).bind _
    · obtain ⟨u, m', hu⟩ := generateTaskUuid_total m
      refine .after (returns_attempt.mpr ⟨hfound, rfl⟩) (.after hu ?_)
      exact (escapesAt_attempt.mpr (escapes_makeTask.mpr htask)).bind _

lemma parseUuid_eq_ok {text : String} {uuid : UUID} : parseUuid text = .ok uuid ↔ UUID.ofString text = some uuid := by
  unfold parseUuid
  split <;> simp_all [pure, Except.pure, throw, throwThe, MonadExceptOf.throw]

lemma escapes_parseUuid {text : String} : Escapes (parseUuid text) ↔ UUID.ofString text = none := by
  unfold parseUuid
  split <;> simp_all [pure, Except.pure, throw, throwThe, MonadExceptOf.throw, Exception.isDeserializerError]

lemma escapesAt_makeVertex : EscapesAt (makeVertex dll g e) m ↔ EntryDerails dll e := by
  constructor
  · intro h
    rcases escapesAt_attempt_bind.mp h with h | ⟨name, hname, h⟩
    · exact .name ((FromYaml.optionalString e nameKey).escapes_iff.mp h)
    rcases escapesAt_attempt_bind.mp h with h | ⟨text, htext, h⟩
    · exact .uuid hname (escapes_text.mp h)
    rw [text_eq_ok] at htext
    rcases escapesAt_attempt_bind.mp h with h | ⟨uuid, huuid, h⟩
    · exact .malformed hname htext (escapes_parseUuid.mp h)
    rw [parseUuid_eq_ok] at huuid
    rcases escapesAt_bind.mp h with h | ⟨task, m₄, -, h⟩
    · rcases escapesAt_optionalTask.mp h with hfind | ⟨taskNode, hfound, htask⟩
      · exact .lookup hname htext huuid hfind
      · exact .task hname htext huuid hfound htask
    rcases escapesAt_bind.mp h with h | ⟨added, m₅, -, h⟩
    · exact absurd h escapesAt_mapFault
    · exact absurd h escapesAt_pure
  · intro h
    cases h with
    | name hname => exact (escapesAt_attempt.mpr ((FromYaml.optionalString e nameKey).escapes_iff.mpr hname)).bind _
    | uuid hname huuid =>
      exact .after (returns_attempt.mpr ⟨hname, rfl⟩) ((escapesAt_attempt.mpr (escapes_text.mpr huuid)).bind _)
    | malformed hname huuid hmalformed =>
      refine .after (returns_attempt.mpr ⟨hname, rfl⟩) (.after (returns_attempt.mpr ⟨text_eq_ok.mpr huuid, rfl⟩) ?_)
      exact (escapesAt_attempt.mpr (escapes_parseUuid.mpr hmalformed)).bind _
    | lookup hname huuid hparsed htask =>
      refine .after (returns_attempt.mpr ⟨hname, rfl⟩) (.after (returns_attempt.mpr ⟨text_eq_ok.mpr huuid, rfl⟩) ?_)
      refine .after (returns_attempt.mpr ⟨parseUuid_eq_ok.mpr hparsed, rfl⟩) ?_
      exact (escapesAt_optionalTask.mpr (.inl htask)).bind _
    | task hname huuid hparsed hnode htask =>
      refine .after (returns_attempt.mpr ⟨hname, rfl⟩) (.after (returns_attempt.mpr ⟨text_eq_ok.mpr huuid, rfl⟩) ?_)
      refine .after (returns_attempt.mpr ⟨parseUuid_eq_ok.mpr hparsed, rfl⟩) ?_
      exact (escapesAt_optionalTask.mpr (.inr ⟨_, hnode, htask⟩)).bind _

/-! Whether a task can be made does not depend on its identifier. -/

def named (u : TaskUuid) (t : Task σ π) : Task σ π := { t with uuid := u.uuid, uuid_initialized := u.initialized }

/-- The `catch` of the callback path. -/
def caught (libraryName : String) (made : Except Exception (Task σ π)) : Except Exception (Task σ π) :=
  match made with
  | .error e =>
    if e.isRuntimeError then
      throw (Exception.deserializerError ("Could not load library from " ++ libraryName ++ " with " ++ e.what))
    else throw e
  | .ok task => pure task

lemma caught_map (f : Task σ π → Task σ π) (made : Except Exception (Task σ π)) :
    caught libraryName (f <$> made) = f <$> caught libraryName made := by
  cases made with
  | error e =>
    cases h : e.isRuntimeError with
    | true => simp only [caught, Functor.map, Except.map, h, if_true]; rfl
    | false => simp only [caught, Functor.map, Except.map, h, Bool.false_eq_true, if_false]; rfl
  | ok task => rfl

lemma makeTaskCallback_named {u u' : TaskUuid} {taskName : String} {stages : List σ} {config inputs : Document} :
    makeTaskCallback dll u' taskName stages callbackNode config inputs =
      named u' <$> makeTaskCallback dll u taskName stages callbackNode config inputs := by
  unfold makeTaskCallback
  rw [map_bind]
  refine bind_congr fun libraryNode => ?_
  rw [map_bind]
  refine bind_congr fun libraryName => ?_
  change caught libraryName _ = named u' <$> caught libraryName _
  rw [← caught_map]
  refine congrArg (caught libraryName) ?_
  simp only [map_bind]
  refine bind_congr fun item => bind_congr fun found => ?_
  cases found with
  | none => rw [map_bind]; rfl
  | some typeNode =>
    rw [map_bind]
    refine bind_congr fun type => ?_
    cases callbackTypeFromString type with
    | function =>
      simp only [map_bind]
      rfl
    | plugin =>
      simp only [map_bind]
      refine bind_congr fun symbolNode => bind_congr fun symbolName => bind_congr fun plugin => ?_
      cases plugin <;> rfl
    | dne => rfl

lemma makeTask_named {u u' : TaskUuid} : makeTask dll u' taskNode = named u' <$> makeTask dll u taskNode := by
  simp only [makeTask, map_bind]
  refine bind_congr fun name => bind_congr fun stages => bind_congr fun config => bind_congr fun inputs => ?_
  refine bind_congr fun found => ?_
  cases found with
  | none => rfl
  | some callbackNode => exact makeTaskCallback_named

lemma makeTask_total {u : TaskUuid} {t : Task σ π} (h : makeTask dll u taskNode = .ok t) (u' : TaskUuid) :
    ∃ t', makeTask dll u' taskNode = .ok t' := by
  rw [makeTask_named (u := u), h]
  exact ⟨_, rfl⟩

lemma loads_of_returns (hr : Returns (makeVertex dll g e) m g' m') : Loads dll e := by
  simp only [makeVertex, returns_bind, returns_attempt, and_assoc, exists_and_left, exists_eq_left] at hr
  obtain ⟨name, hname, text, htext, uuid, huuid, task, m₁, htask, -⟩ := hr
  refine ⟨⟨name, hname⟩, ⟨text, uuid, htext, huuid⟩, ?_⟩
  obtain ⟨hsome, hmade, -⟩ := returns_optionalTask htask
  cases hfind : find e taskKey with
  | error x =>
    simp only [optionalTask, returns_bind, returns_attempt, hfind] at htask
    obtain ⟨_, _, ⟨h, -⟩, -⟩ := htask
    cases h
  | ok found =>
    cases found with
    | none => exact .inl rfl
    | some taskNode =>
      obtain ⟨u, t, ht, -⟩ := hmade taskNode hfind
      exact .inr ⟨taskNode, rfl, makeTask_total ht⟩

lemma loads_of_foldlM {es : List ν} (hr : Returns (es.foldlM (makeVertex dll) g) m g' m') : ∀ e ∈ es, Loads dll e := by
  induction es generalizing g m with
  | nil => simp
  | cons e es ih =>
    obtain ⟨g₁, m₁, hfirst, hrest⟩ := returns_foldlM_cons.mp hr
    exact List.forall_mem_cons.mpr ⟨loads_of_returns hfirst, ih hrest⟩

lemma escapesAt_entries {es : List ν} {title : String} {config : Document} :
    EscapesAt (es.foldlM (makeVertex dll) ⟨[], title, some config⟩) m ↔
      ∃ before e after, es = before ++ e :: after ∧ (∀ e ∈ before, Loads dll e) ∧ EntryDerails dll e := by
  constructor
  · rintro ⟨x, h, hforeign⟩
    obtain ⟨before, e, after, rfl, g, m', hbefore, he⟩ := stops_foldlM.mp h
    exact ⟨before, e, after, rfl, loads_of_foldlM hbefore, escapesAt_makeVertex.mp ⟨x, he, hforeign⟩⟩
  · rintro ⟨before, e, after, rfl, hbefore, he⟩
    obtain ⟨g, m', hr⟩ := entries_return (m := m) hbefore title config
    obtain ⟨x, h, hforeign⟩ := escapesAt_makeVertex.mpr he
    exact ⟨x, stops_foldlM.mpr ⟨before, e, after, rfl, g, m', hr, h⟩, hforeign⟩

lemma escapesAt_definition {definition : ν} (hroot : find dagNode dagKey = .ok (some definition))
    (hmap : YAMLNode.isMap definition = true) : EscapesAt (makeDag dll dagNode) m ↔
      Escapes (optionalJson definition configurationKey "dag configuration") ∨
      ∃ config, optionalJson definition configurationKey "dag configuration" = .ok config ∧
        (Escapes (optionalString definition titleKey) ∨
        ∃ title, optionalString definition titleKey = .ok title ∧
          (Escapes (find definition verticesKey) ∨
          ∃ verticesNode, find definition verticesKey = .ok (some verticesNode) ∧
            EscapesAt (makeVertices dll verticesNode ⟨[], title, some config⟩) m)) := by
  rw [makeDag, escapesAt_attempt_bind, hroot]
  simp only [escapes_ok, false_or, Except.ok.injEq, exists_eq_left', hmap, Bool.not_true, Bool.false_eq_true, if_false,
    escapesAt_attempt_bind]
  refine or_congr_right (exists_congr fun config => and_congr_right fun _ => or_congr_right ?_)
  refine exists_congr fun title => and_congr_right fun _ => or_congr_right ?_
  constructor
  · rintro ⟨found, hfound, h⟩
    cases found with
    | none => exact absurd h escapesAt_pure
    | some verticesNode => exact ⟨verticesNode, hfound, h⟩
  · rintro ⟨verticesNode, hfound, h⟩
    exact ⟨some verticesNode, hfound, h⟩

lemma escapesAt_makeVertices {verticesNode : ν} {title : String} {config : Document} :
    EscapesAt (makeVertices dll verticesNode ⟨[], title, some config⟩) m ↔ YAMLNode.isSequence verticesNode = true ∧
      ((∀ nodes, asVector verticesNode ≠ .ok nodes) ∨ ∃ before e after,
        asVector verticesNode = .ok (before ++ e :: after) ∧ (∀ e ∈ before, Loads dll e) ∧ EntryDerails dll e) := by
  unfold makeVertices
  split
  · rename_i hsequence
    rw [and_iff_right hsequence, escapesAt_attempt_bind, (FromYaml.asVector verticesNode).escapes_iff]
    simp only [escapesAt_entries]
    refine or_congr_right ⟨?_, ?_⟩
    · rintro ⟨nodes, hnodes, before, e, after, rfl, hbefore, he⟩
      exact ⟨before, e, after, hnodes, hbefore, he⟩
    · rintro ⟨before, e, after, hnodes, hbefore, he⟩
      exact ⟨_, hnodes, before, e, after, rfl, hbefore, he⟩
  · rename_i hsequence
    refine iff_of_false ?_ fun h => hsequence h.1
    simp [throwWrongType, throw, throwThe, MonadExceptOf.throw, Exception.isDeserializerError]

lemma makeDag_escapes_iff : EscapesAt (makeDag dll dagNode) m ↔ Derails dll dagNode := by
  constructor
  · intro h
    cases hroot : find dagNode dagKey with
    | error x => exact .root (by simp [hroot])
    | ok found =>
      cases found with
      | none =>
        rcases escapesAt_attempt_bind.mp h with h | ⟨found, hfound, h⟩
        · exact .root ((FromYaml.find dagNode dagKey).escapes_iff.mp h)
        obtain rfl := Except.ok.inj (hroot.symm.trans hfound)
        simp [throw, throwThe, MonadExceptOf.throw, Exception.isDeserializerError] at h
      | some definition =>
        have hmap : YAMLNode.isMap definition = true := by
          by_contra hno
          rw [makeDag, escapesAt_attempt_bind, hroot] at h
          simp [hno, throwWrongType, throw, throwThe, MonadExceptOf.throw, Exception.isDeserializerError] at h
        rcases (escapesAt_definition hroot hmap).mp h with h | ⟨config, hconfig, h | ⟨title, htitle, h | ⟨verticesNode, hvertices, h⟩⟩⟩
        · exact .configuration hroot hmap (escapes_optionalJson.mp h)
        · exact .title hroot hmap hconfig ((FromYaml.optionalString definition titleKey).escapes_iff.mp h)
        · exact .lookup hroot hmap hconfig htitle ((FromYaml.find definition verticesKey).escapes_iff.mp h)
        · obtain ⟨hsequence, hnodes | ⟨before, e, after, hnodes, hbefore, he⟩⟩ := escapesAt_makeVertices.mp h
          · exact .sequence hroot hmap hconfig htitle hvertices hsequence hnodes
          · exact .entry hroot hmap hconfig htitle hvertices hsequence hnodes hbefore he
  · intro h
    cases h with
    | root hroot => exact (escapesAt_attempt.mpr ((FromYaml.find dagNode dagKey).escapes_iff.mpr hroot)).bind _
    | configuration hroot hmap hconfig =>
      exact (escapesAt_definition hroot hmap).mpr (.inl (escapes_optionalJson.mpr hconfig))
    | title hroot hmap hconfig htitle =>
      have h := (FromYaml.optionalString _ titleKey).escapes_iff.mpr htitle
      exact (escapesAt_definition hroot hmap).mpr (.inr ⟨_, hconfig, .inl h⟩)
    | lookup hroot hmap hconfig htitle hvertices =>
      have h := (FromYaml.find _ verticesKey).escapes_iff.mpr hvertices
      exact (escapesAt_definition hroot hmap).mpr (.inr ⟨_, hconfig, .inr ⟨_, htitle, .inl h⟩⟩)
    | sequence hroot hmap hconfig htitle hvertices hsequence hnodes =>
      refine (escapesAt_definition hroot hmap).mpr (.inr ⟨_, hconfig, .inr ⟨_, htitle, .inr ⟨_, hvertices, ?_⟩⟩⟩)
      exact escapesAt_makeVertices.mpr ⟨hsequence, .inl hnodes⟩
    | entry hroot hmap hconfig htitle hvertices hsequence hnodes hbefore he =>
      refine (escapesAt_definition hroot hmap).mpr (.inr ⟨_, hconfig, .inr ⟨_, htitle, .inr ⟨_, hvertices, ?_⟩⟩⟩)
      exact escapesAt_makeVertices.mpr ⟨hsequence, .inr ⟨_, _, _, hnodes, hbefore, he⟩⟩

/-! `make_dag` runs into no fault: it returns or throws. -/

lemma fault_attempt_bind {r : Except Exception α} {k : α → Deserialization σ π β} {f : Fault} :
    Stops (attempt r >>= k) m (.fault f) ↔ ∃ a, r = .ok a ∧ Stops (k a) m (.fault f) := by
  simp only [stops_bind, stops_attempt, returns_attempt, reduceCtorEq, and_false, exists_false, false_or, and_assoc,
    exists_and_left, exists_eq_left]

lemma optionalTask_no_fault {f : Fault} : ¬ Stops (optionalTask dll e) m (.fault f) := by
  intro h
  obtain ⟨found, -, h⟩ := fault_attempt_bind.mp h
  cases found with
  | none => exact stops_pure h
  | some taskNode =>
    rcases stops_bind.mp h with h | ⟨u, m', -, h⟩
    · obtain ⟨u, m', hr⟩ := generateTaskUuid_total m
      exact hr.not_stops h
    obtain ⟨task, -, h⟩ := fault_attempt_bind.mp h
    exact stops_pure h

lemma makeVertex_no_fault {m₀ : Memory σ π} {read : List ν} {f : Fault} (hl : Loaded m₀ read g m) :
    ¬ Stops (makeVertex dll g e) m (.fault f) := by
  intro h
  obtain ⟨name, -, h⟩ := fault_attempt_bind.mp h
  obtain ⟨text, -, h⟩ := fault_attempt_bind.mp h
  obtain ⟨uuid, -, h⟩ := fault_attempt_bind.mp h
  rcases stops_bind.mp h with h | ⟨task, m', htask, h⟩
  · exact optionalTask_no_fault h
  obtain ⟨-, -, entropy, rfl⟩ := returns_optionalTask htask
  obtain ⟨r, m'', hr⟩ := addVertex_total (v := ⟨uuid, .initialized, name, [], 0, task⟩) (hl.entropy entropy).owned
  rcases stops_bind.mp h with h | ⟨added, m₃, -, h⟩
  · obtain ⟨f', hf, -⟩ := stops_mapFault.mp h
    exact hr.not_stops hf
  · exact stops_pure h

lemma makeDag_no_fault {f : Fault} : ¬ Stops (makeDag dll dagNode) m (.fault f) := by
  intro h
  obtain ⟨found, -, h⟩ := fault_attempt_bind.mp h
  cases found with
  | none => simp at h
  | some definition =>
    dsimp only at h
    split at h
    · simp at h
    obtain ⟨config, -, h⟩ := fault_attempt_bind.mp h
    obtain ⟨title, -, h⟩ := fault_attempt_bind.mp h
    obtain ⟨found, -, h⟩ := fault_attempt_bind.mp h
    cases found with
    | none => exact stops_pure h
    | some verticesNode =>
      dsimp only [makeVertices] at h
      split at h
      · obtain ⟨nodes, -, h⟩ := fault_attempt_bind.mp h
        obtain ⟨before, e, after, rfl, g, m', hbefore, h⟩ := stops_foldlM.mp h
        exact makeVertex_no_fault ((Loaded.start title config).run hbefore) h
      · simp at h

/-! A document that is accepted has no library that cannot be loaded. -/

lemma loadStage_loads {stage : σ} (h : loadStage dll node = .ok stage) (hlibrary : TextAt node libraryNameKey libraryName) :
    ∃ library, dll.sharedLibrary libraryName = .ok library := by
  obtain ⟨⟨name, hname⟩, -, symbolName, hsymbol⟩ := loadStage_complete h
  cases hloaded : dll.sharedLibrary libraryName with
  | ok library => exact ⟨library, rfl⟩
  | error what =>
    have hescapes := (escapes_loadStage_complete hname hlibrary hsymbol).mpr ⟨what, hloaded⟩
    rw [h] at hescapes
    exact absurd hescapes escapes_ok

lemma makeTaskCallback_loads {u : TaskUuid} {taskName : String} {stages : List σ} {config inputs : Document}
    {t : Task σ π} (h : makeTaskCallback dll u taskName stages callbackNode config inputs = .ok t)
    (hlibrary : TextAt callbackNode libraryNameKey libraryName) : ∃ library, dll.sharedLibrary libraryName = .ok library := by
  obtain ⟨libraryNode, hnode, h⟩ := bind_eq_ok.mp h
  obtain ⟨name, hname, h⟩ := bind_eq_ok.mp h
  have hsame : TextAt callbackNode libraryNameKey name := ⟨libraryNode, require_eq_ok.mp hnode, hname⟩
  obtain rfl := hsame.unique hlibrary
  dsimp only at h
  split at h
  · split at h <;> cases h
  · rename_i hmade
    obtain ⟨item, hitem, -⟩ := bind_eq_ok.mp hmade
    exact ⟨item.sharedLibrary, (registerDynamicLibrary_eq hitem).2⟩

lemma makeDag_loads (hmentions : Mentions dagNode libraryName) (hr : Returns (makeDag dll dagNode) m g m') :
    ∃ library, dll.sharedLibrary libraryName = .ok library := by
  obtain ⟨title, config, hr⟩ := makeDag_runs hr
  have hloads : ∀ e ∈ entries dagNode, Loads dll e := loads_of_foldlM hr
  have htask {e taskNode : ν} (hentry : e ∈ entries dagNode) (hfind : find e taskKey = .ok (some taskNode)) :
      ∃ u t, makeTask dll u taskNode = .ok t := by
    rcases (hloads e hentry).task with hnone | ⟨taskNode', hsome, hmade⟩
    · simp [hfind] at hnone
    · rw [hfind, Except.ok.injEq, Option.some.injEq] at hsome
      exact ⟨⟨⟨1⟩, rfl⟩, hsome ▸ hmade ⟨⟨1⟩, rfl⟩⟩
  cases hmentions with
  | stage hentry hfind hstages hnodes hnode hlibrary =>
    obtain ⟨u, t, ht⟩ := htask hentry hfind
    obtain ⟨name, -, ht⟩ := bind_eq_ok.mp ht
    obtain ⟨stages, hloaded, -⟩ := bind_eq_ok.mp ht
    obtain ⟨found, hfound, hloaded⟩ := bind_eq_ok.mp hloaded
    obtain rfl := Except.ok.inj (hstages.symm.trans hfound)
    obtain ⟨stage, hstage⟩ := mapM_eq_ok_mem ((loadStages_eq hnodes).symm.trans hloaded) _ hnode
    exact loadStage_loads hstage hlibrary
  | callback hentry hfind hcallback hlibrary =>
    obtain ⟨u, t, ht⟩ := htask hentry hfind
    obtain ⟨name, -, ht⟩ := bind_eq_ok.mp ht
    obtain ⟨stages, -, ht⟩ := bind_eq_ok.mp ht
    obtain ⟨config, -, ht⟩ := bind_eq_ok.mp ht
    obtain ⟨inputs, -, ht⟩ := bind_eq_ok.mp ht
    obtain ⟨found, hfound, ht⟩ := bind_eq_ok.mp ht
    obtain rfl := Except.ok.inj (hcallback.symm.trans hfound)
    exact makeTaskCallback_loads ht hlibrary

/-- A library that cannot be loaded is reported unless something else stops the document first,
such as a library of a stage. -/
theorem makeDag_reports_iff (dagNode : ν) (m : Memory σ π) (hmentions : Mentions dagNode libraryName)
    (hunloadable : dll.sharedLibrary libraryName = .error what) :
    Reported dll dagNode m ↔ ¬ Derails dll dagNode := by
  rw [← makeDag_escapes_iff (m := m)]
  rcases returns_or_stops (makeDag dll dagNode) m with ⟨g, m', hr⟩ | ⟨x, hx⟩
  · obtain ⟨library, hlibrary⟩ := makeDag_loads hmentions hr
    rw [hunloadable] at hlibrary
    cases hlibrary
  cases x with
  | fault f => exact absurd hx makeDag_no_fault
  | exception e =>
    have honly {e' : Exception} (h : Stops (makeDag dll dagNode) m (.exception e')) : e' = e := by
      have := h.symm.trans hx
      simpa using this
    constructor
    · rintro ⟨e₁, h₁, hreported⟩ ⟨e₂, h₂, hforeign⟩
      obtain rfl := honly h₁
      obtain rfl := honly h₂
      exact Bool.false_ne_true (hforeign.symm.trans hreported)
    · intro h
      refine ⟨e, hx, ?_⟩
      by_contra hforeign
      exact h ⟨e, hx, by simpa using hforeign⟩

omit [YAMLNode ν] in
lemma exists_stops {p : Deserialization σ π α} {q : Exception → Bool} (h : (match p.run m with
    | .error (.exception e) => q e
    | _ => false) = true) : ∃ e, Stops p m (.exception e) ∧ q e = true := by
  split at h
  · rename_i e he
    exact ⟨e, he, h⟩
  · cases h

namespace Sample

def staged : Node := .map [(uuidKey, .scalar "00000000-0000-0000-0000-000000000001"),
  (taskKey, .map [(stagesKey, .sequence [namedStage "first"])])]

lemma calling_mentions (type : String) : Mentions (document [calling type]) "library" := by
  have hentries : entries (document [calling type]) = [calling type] := rfl
  have htask : find (calling type) taskKey = .ok (some (.map [(callbackKey, callbackNode type)])) := rfl
  exact .callback (by simp [hentries]) htask rfl (calling_names type).1

lemma staged_mentions : Mentions (document [staged]) "library" := by
  have hentries : entries (document [staged]) = [staged] := rfl
  have htask : find staged taskKey = .ok (some (.map [(stagesKey, .sequence [namedStage "first"])])) := rfl
  have hnodes : asVector (.sequence [namedStage "first"] : Node) = .ok [namedStage "first"] := rfl
  exact .stage (by simp [hentries]) htask rfl hnodes List.mem_cons_self (namedStage_texts "first").2.1

end Sample

theorem makeDag_reports_iff_sample :
    Reported Sample.noLibrary (Sample.document [Sample.calling "Function"]) Graphs.Sample.memory := by
  refine (makeDag_reports_iff _ _ (Sample.calling_mentions "Function") rfl).mpr fun hderails => ?_
  obtain ⟨e, he, hreported⟩ := exists_stops (p := makeDag Sample.noLibrary (Sample.document [Sample.calling "Function"]))
    (m := Graphs.Sample.memory) (q := Exception.isDeserializerError) (by decide +kernel)
  obtain ⟨e', he', hforeign⟩ := makeDag_escapes_iff.mpr hderails
  obtain rfl : e = e' := by simpa using he.symm.trans he'
  exact Bool.false_ne_true (hforeign.symm.trans hreported)

/-- For the library of a stage the exception of the registry comes through. -/
theorem makeDag_reports_fails : Mentions (Sample.document [Sample.staged]) "library" ∧
    Sample.noLibrary.sharedLibrary "library" = .error "no library" ∧
    (∃ what, Stops (makeDag Sample.noLibrary (Sample.document [Sample.staged])) Graphs.Sample.memory
      (.exception (.runtimeError what))) ∧
    ¬ Reported Sample.noLibrary (Sample.document [Sample.staged]) Graphs.Sample.memory := by
  obtain ⟨e, he, hq⟩ := exists_stops (p := makeDag Sample.noLibrary (Sample.document [Sample.staged]))
    (m := Graphs.Sample.memory) (q := fun e => match e with
      | .runtimeError _ => true
      | _ => false) (by decide +kernel)
  cases e with
  | runtimeError what =>
    refine ⟨Sample.staged_mentions, rfl, ⟨what, he⟩, ?_⟩
    rintro ⟨e', he', hreported⟩
    obtain rfl : .runtimeError what = e' := by simpa using he.symm.trans he'
    cases hreported
  | _ => cases hq

end YAMLDagDeserializer

end DagScheduler.Graphs
