import DagScheduler.GraphProofs.CallbackProofs

/-! The stages of a task. The published format wants a library and a symbol and lets the name be
left out; `load_stages` looks for the name before it reads the library. -/

namespace DagScheduler.Graphs.YAMLDagDeserializer

open Library Library.Results

variable {ν L σ π : Type} [YAMLNode ν] {dll : Dll L σ π} {stagesNode node : ν} {nodes : List ν} {stage : σ}

def Has (node : ν) (key : String) : Prop := ∃ child, find node key = .ok (some child)

def Provides (dll : Dll L σ π) (nodes : List ν) : Prop :=
  ∀ node ∈ nodes, ∀ libraryName symbolName, TextAt node libraryNameKey libraryName →
    TextAt node symbolNameKey symbolName → (∃ library, dll.sharedLibrary libraryName = .ok library) ∧
      (∃ symbols, dll.symbols libraryName "Stages" = .ok symbols ∧ symbolName ∈ symbols) ∧
      ∃ creator, dll.stageCreator libraryName symbolName = .ok creator ∧ ∀ name, ∃ stage, creator name = some stage

/-- The stage is made by the symbol of the node and gets its name, an empty one if it has none. -/
def CreatedBy (dll : Dll L σ π) (node : ν) (stage : σ) : Prop :=
  ∃ name libraryName symbolName creator,
    (TextAt node nameKey name ∨ find node nameKey = .ok none ∧ name = "") ∧
    TextAt node libraryNameKey libraryName ∧ TextAt node symbolNameKey symbolName ∧
    dll.stageCreator libraryName symbolName = .ok creator ∧ creator name = some stage

structure FollowsFormat (dll : Dll L σ π) (stagesNode : ν) (nodes : List ν) : Prop where
  accepts : (∃ stages, loadStages dll stagesNode = .ok stages) ↔
    ∀ node ∈ nodes, Has node libraryNameKey ∧ Has node symbolNameKey
  created : ∀ stages, loadStages dll stagesNode = .ok stages → List.Forall₂ (CreatedBy dll) nodes stages
  rejects : (∃ node ∈ nodes, ¬ Has node libraryNameKey ∨ ¬ Has node symbolNameKey) →
    ∃ node ∈ nodes, ∃ key, (key = libraryNameKey ∨ key = symbolNameKey) ∧ ¬ Has node key ∧
      loadStages dll stagesNode = .error (missingKey key node)

structure Complete (node : ν) : Prop where
  name : ∃ name, TextAt node nameKey name
  libraryName : ∃ libraryName, TextAt node libraryNameKey libraryName
  symbolName : ∃ symbolName, TextAt node symbolNameKey symbolName

/-- What is reported of the node is so: that it has no library, of it or of one that reads the
same, or that it has no symbol. -/
inductive Excused (nodes : List ν) (node : ν) : Prop
  | libraryName {node' : ν} (hname : find node nameKey = .ok none) (hmem : node' ∈ nodes)
      (htext : YAMLNode.text node' = YAMLNode.text node) (hmissing : ¬ Has node' libraryNameKey) : Excused nodes node
  | symbolName (hname : ∃ name, TextAt node nameKey name) (hlibrary : ∃ libraryName, TextAt node libraryNameKey libraryName)
      (hmissing : find node symbolNameKey = .ok none) : Excused nodes node

/-- All nodes are complete, or the first that is not has its excuse. -/
def Accountable (nodes : List ν) : Prop :=
  (∀ node ∈ nodes, Complete node) ∨ ∃ before node after, nodes = before ++ node :: after ∧
    (∀ node ∈ before, Complete node) ∧ Excused nodes node

lemma TextAt.optionalString {key text : String} (h : TextAt node key text) : optionalString node key = .ok text :=
  optionalString_eq_ok.mpr (.inr h)

lemma TextAt.has {key text : String} (h : TextAt node key text) : Has node key := ⟨h.choose, h.choose_spec.1⟩

lemma stageLibraryName_eq_ok {text : String} : stageLibraryName node = .ok text ↔
    Has node nameKey ∧ TextAt node libraryNameKey text := by
  unfold stageLibraryName
  rw [bind_eq_ok]
  constructor
  · rintro ⟨found, hfound, h⟩
    cases found with
    | none => cases h
    | some child =>
      obtain ⟨libraryNode, hnode, htext⟩ := bind_eq_ok.mp h
      exact ⟨⟨child, hfound⟩, libraryNode, require_eq_ok.mp hnode, htext⟩
  · rintro ⟨⟨child, hfound⟩, libraryNode, hnode, htext⟩
    exact ⟨some child, hfound, bind_eq_ok.mpr ⟨libraryNode, require_eq_ok.mpr hnode, htext⟩⟩

lemma stageSymbolName_eq_ok {text : String} : stageSymbolName node = .ok text ↔ TextAt node symbolNameKey text := by
  unfold stageSymbolName
  rw [bind_eq_ok]
  constructor
  · rintro ⟨found, hfound, h⟩
    cases found with
    | none => cases h
    | some child => exact ⟨child, hfound, h⟩
  · rintro ⟨child, hfound, htext⟩
    exact ⟨some child, hfound, htext⟩

lemma missingKey_inj {key key' : String} {node' : ν} (hkey : key = libraryNameKey ∨ key = symbolNameKey)
    (hkey' : key' = libraryNameKey ∨ key' = symbolNameKey) (h : missingKey key node = missingKey key' node') :
    key = key' ∧ YAMLNode.text node = YAMLNode.text node' := by
  simp only [missingKey, Exception.deserializerError.injEq] at h
  have hlist := congrArg String.toList h
  obtain rfl | rfl := hkey <;> obtain rfl | rfl := hkey'
  · exact ⟨rfl, by simpa using h⟩
  · simp [libraryNameKey, symbolNameKey] at hlist
  · simp [libraryNameKey, symbolNameKey] at hlist
  · exact ⟨rfl, by simpa using h⟩

/-! The YAML library throws its own exceptions. -/

def Thrown {α : Type} (r : Except Exception α) : Prop := ∃ what, r = .error (.yamlException what)

lemma thrown_of_error {α : Type} {r : Except String α} {e : Exception} (h : r.mapError .yamlException = .error e) :
    Thrown (r.mapError .yamlException) := by
  obtain ⟨what, -, rfl⟩ := mapError_eq_error.mp h
  exact ⟨what, h⟩

lemma Thrown.bind {α β : Type} {r : Except Exception α} (h : Thrown r) (f : α → Except Exception β) : Thrown (r >>= f) := by
  obtain ⟨what, hr⟩ := h
  exact ⟨what, bind_eq_error.mpr (.inl hr)⟩

lemma bind_thrown {α β : Type} {r : Except Exception α} {f : α → Except Exception β} {a : α} (hr : r = .ok a)
    (h : Thrown (f a)) : Thrown (r >>= f) := by
  obtain ⟨what, hf⟩ := h
  exact ⟨what, bind_eq_error.mpr (.inr ⟨a, hr, hf⟩)⟩

lemma text_cases (node : ν) (key : String) (f : Option ν → Except Exception String)
    (hf : ∀ child, f (some child) = asString child) :
    find node key = .ok none ∨ (∃ text, TextAt node key text) ∨ Thrown (find node key >>= f) := by
  cases hfind : find node key with
  | error e =>
    obtain ⟨what, -, rfl⟩ := mapError_eq_error.mp hfind
    exact .inr (.inr ⟨what, rfl⟩)
  | ok found =>
    cases found with
    | none => exact .inl rfl
    | some child =>
      cases htext : asString child with
      | error e => exact .inr (.inr (bind_thrown rfl (hf child ▸ thrown_of_error htext)))
      | ok text => exact .inr (.inl ⟨text, child, hfind, htext⟩)

lemma optionalString_cases (node : ν) (key : String) :
    find node key = .ok none ∨ (∃ text, TextAt node key text) ∨ Thrown (optionalString node key) :=
  text_cases node key _ fun _ => rfl

lemma stageSymbolName_cases (node : ν) :
    find node symbolNameKey = .ok none ∨ (∃ text, TextAt node symbolNameKey text) ∨ Thrown (stageSymbolName node) :=
  text_cases node symbolNameKey _ fun _ => rfl

lemma stageLibraryName_cases (hname : Has node nameKey) :
    (∃ text, TextAt node libraryNameKey text) ∨ Thrown (stageLibraryName node) := by
  obtain ⟨child, hchild⟩ := hname
  cases hfind : find node libraryNameKey with
  | error e => exact .inr (bind_thrown hchild (((thrown_of_error hfind).bind _).bind _))
  | ok found =>
    cases found with
    | none =>
      have hrequire : Thrown (require node libraryNameKey) := ⟨_, bind_eq_error.mpr (.inr ⟨none, hfind, rfl⟩)⟩
      exact .inr (bind_thrown hchild (hrequire.bind _))
    | some libraryNode =>
      cases htext : asString libraryNode with
      | error e => exact .inr (bind_thrown hchild (bind_thrown (require_eq_ok.mpr hfind) (thrown_of_error htext)))
      | ok text => exact .inl ⟨text, libraryNode, hfind, htext⟩

lemma loadStage_complete (h : loadStage dll node = .ok stage) : Complete node := by
  obtain ⟨name, hname, h⟩ := bind_eq_ok.mp h
  obtain ⟨libraryName, hlibrary, h⟩ := bind_eq_ok.mp h
  obtain ⟨symbolName, hsymbol, -⟩ := bind_eq_ok.mp h
  obtain ⟨⟨child, hchild⟩, hlibrary⟩ := stageLibraryName_eq_ok.mp hlibrary
  refine ⟨?_, ⟨libraryName, hlibrary⟩, symbolName, stageSymbolName_eq_ok.mp hsymbol⟩
  rcases optionalString_eq_ok.mp hname with ⟨hnone, -⟩ | htext
  · simp [hnone] at hchild
  · exact ⟨name, htext⟩

lemma loadStage_unnamed (dll : Dll L σ π) (hname : find node nameKey = .ok none) :
    loadStage dll node = .error (missingKey libraryNameKey node) := by
  have hlibrary : stageLibraryName node = .error (missingKey libraryNameKey node) :=
    bind_eq_error.mpr (.inr ⟨none, hname, rfl⟩)
  exact bind_eq_error.mpr (.inr ⟨"", optionalString_eq_ok.mpr (.inl ⟨hname, rfl⟩), bind_eq_error.mpr (.inl hlibrary)⟩)

lemma loadStage_no_symbol (dll : Dll L σ π) {name libraryName : String} (hname : TextAt node nameKey name)
    (hlibrary : TextAt node libraryNameKey libraryName) (hsymbol : find node symbolNameKey = .ok none) :
    loadStage dll node = .error (missingKey symbolNameKey node) := by
  have hread : stageLibraryName node = .ok libraryName := stageLibraryName_eq_ok.mpr ⟨hname.has, hlibrary⟩
  have hmissing : stageSymbolName node = .error (missingKey symbolNameKey node) :=
    bind_eq_error.mpr (.inr ⟨none, hsymbol, rfl⟩)
  exact bind_eq_error.mpr (.inr ⟨name, hname.optionalString, bind_eq_error.mpr (.inr ⟨libraryName, hread,
    bind_eq_error.mpr (.inl hmissing)⟩)⟩)

lemma loadStage_incomplete (dll : Dll L σ π) (hnode : ¬ Complete node) : find node nameKey = .ok none ∨
    (∃ name libraryName, TextAt node nameKey name ∧ TextAt node libraryNameKey libraryName ∧
      find node symbolNameKey = .ok none) ∨ Thrown (loadStage dll node) := by
  rcases optionalString_cases node nameKey with hnone | ⟨name, hname⟩ | hthrown
  · exact .inl hnone
  · refine .inr ?_
    rcases stageLibraryName_cases hname.has with ⟨libraryName, hlibrary⟩ | hthrown
    · have hread : stageLibraryName node = .ok libraryName := stageLibraryName_eq_ok.mpr ⟨hname.has, hlibrary⟩
      rcases stageSymbolName_cases node with hnone | ⟨symbolName, hsymbol⟩ | hthrown
      · exact .inl ⟨name, libraryName, hname, hlibrary, hnone⟩
      · exact absurd ⟨⟨name, hname⟩, ⟨libraryName, hlibrary⟩, symbolName, hsymbol⟩ hnode
      · exact .inr (bind_thrown hname.optionalString (bind_thrown hread (hthrown.bind _)))
    · exact .inr (bind_thrown hname.optionalString (hthrown.bind _))
  · exact .inr (.inr (hthrown.bind _))

lemma verifySymbolPresent_provided (item : RegistryItem L) {symbols : List String} {symbolName sectionName : String}
    (hsymbols : dll.symbols item.libraryName sectionName = .ok symbols) (hmem : symbolName ∈ symbols) :
    ∃ cbSymbols, verifySymbolPresent dll item symbolName sectionName = .ok (true, cbSymbols) ∧ cbSymbols.isEmpty = false := by
  refine ⟨String.join (symbols.map (· ++ ",")), ?_, ?_⟩
  · simp only [verifySymbolPresent, hsymbols, List.contains_iff_mem.mpr hmem]
    rfl
  · obtain ⟨s, t, rfl⟩ := List.append_of_mem hmem
    simp

lemma loadStage_of_complete (hdll : Provides dll nodes) (hmem : node ∈ nodes) (hnode : Complete node) :
    ∃ stage, loadStage dll node = .ok stage ∧ CreatedBy dll node stage := by
  obtain ⟨⟨name, hname⟩, ⟨libraryName, hlibrary⟩, symbolName, hsymbol⟩ := hnode
  obtain ⟨⟨library, hloaded⟩, ⟨symbols, hsymbols, hprovided⟩, creator, hcreator, htotal⟩ :=
    hdll node hmem libraryName symbolName hlibrary hsymbol
  obtain ⟨stage, hstage⟩ := htotal name
  refine ⟨stage, ?_, name, libraryName, symbolName, creator, .inl hname, hlibrary, hsymbol, hcreator, hstage⟩
  have hregister : registerDynamicLibrary dll libraryName = .ok ⟨libraryName, library⟩ := by
    simp [registerDynamicLibrary, hloaded, pure, Except.pure]
  obtain ⟨cbSymbols, hverify, hsome⟩ := verifySymbolPresent_provided ⟨libraryName, library⟩ hsymbols hprovided
  have hdynamic : dynamicallyLoadStage dll ⟨libraryName, library⟩ symbolName name = .ok (some stage) := by
    refine bind_eq_ok.mpr ⟨(true, cbSymbols), hverify, ?_⟩
    simp only [hsome, Bool.not_false, Bool.and_true, if_true]
    exact bind_eq_ok.mpr ⟨creator, mapError_eq_ok.mpr hcreator, congrArg Except.ok hstage⟩
  refine bind_eq_ok.mpr ⟨name, hname.optionalString, bind_eq_ok.mpr ⟨libraryName, ?_, bind_eq_ok.mpr ⟨symbolName, ?_, ?_⟩⟩⟩
  · exact stageLibraryName_eq_ok.mpr ⟨hname.has, hlibrary⟩
  · exact stageSymbolName_eq_ok.mpr hsymbol
  · simp only [hregister, hdynamic, bind, Except.bind, pure, Except.pure]

lemma loadStages_eq (hnodes : asVector stagesNode = .ok nodes) :
    loadStages dll stagesNode = nodes.mapM (loadStage dll) := by
  rw [loadStages, hnodes]
  rfl

lemma loadStages_eq_error {e : Exception} (hnodes : asVector stagesNode = .ok nodes) :
    loadStages dll stagesNode = .error e ↔ ∃ before node after, nodes = before ++ node :: after ∧
      (∀ node ∈ before, ∃ stage, loadStage dll node = .ok stage) ∧ loadStage dll node = .error e := by
  rw [loadStages_eq hnodes, mapM_eq_error]

lemma Excused.reported (dll : Dll L σ π) (hmem : node ∈ nodes) (h : Excused nodes node) : ∃ node' ∈ nodes, ∃ key,
    (key = libraryNameKey ∨ key = symbolNameKey) ∧ ¬ Has node' key ∧
      loadStage dll node = .error (missingKey key node') := by
  cases h with
  | @libraryName node' hname hmem' htext hmissing =>
    refine ⟨node', hmem', libraryNameKey, .inl rfl, hmissing, ?_⟩
    rw [loadStage_unnamed dll hname, missingKey, missingKey, htext]
  | symbolName hname hlibrary hsymbol =>
    obtain ⟨name, hname⟩ := hname
    obtain ⟨libraryName, hlibrary⟩ := hlibrary
    refine ⟨node, hmem, symbolNameKey, .inr rfl, ?_, loadStage_no_symbol dll hname hlibrary hsymbol⟩
    rintro ⟨symbol, hfound⟩
    simp [hsymbol] at hfound

lemma Excused.of_reported {node' : ν} {key : String} (hnode : ¬ Complete node) (hmem : node' ∈ nodes)
    (hkey : key = libraryNameKey ∨ key = symbolNameKey) (hmissing : ¬ Has node' key)
    (h : loadStage dll node = .error (missingKey key node')) : Excused nodes node := by
  rcases loadStage_incomplete dll hnode with hname | ⟨name, libraryName, hname, hlibrary, hsymbol⟩ | ⟨what, hthrown⟩
  · rw [loadStage_unnamed dll hname, Except.error.injEq] at h
    obtain ⟨rfl, htext⟩ := missingKey_inj (.inl rfl) hkey h
    exact .libraryName hname hmem htext.symm hmissing
  · exact .symbolName ⟨name, hname⟩ ⟨libraryName, hlibrary⟩ hsymbol
  · rw [hthrown] at h
    cases h

lemma FollowsFormat.accountable (h : FollowsFormat dll stagesNode nodes) (hnodes : asVector stagesNode = .ok nodes)
    (hdll : Provides dll nodes) : Accountable nodes := by
  cases hloaded : loadStages dll stagesNode with
  | ok stages =>
    refine .inl fun node hnode => ?_
    obtain ⟨stage, hstage⟩ := mapM_eq_ok_mem (loadStages_eq hnodes ▸ hloaded) node hnode
    exact loadStage_complete hstage
  | error e =>
    obtain ⟨before, node, after, hsplit, hbefore, herror⟩ := (loadStages_eq_error hnodes).mp hloaded
    have hnode : ¬ Complete node := by
      intro hcomplete
      obtain ⟨stage, hstage, -⟩ := loadStage_of_complete hdll (by simp [hsplit]) hcomplete
      rw [hstage] at herror
      cases herror
    have hlacks : ∃ node ∈ nodes, ¬ Has node libraryNameKey ∨ ¬ Has node symbolNameKey := by
      by_contra hnone
      push Not at hnone
      obtain ⟨stages, hstages⟩ := h.accepts.mpr hnone
      rw [hstages] at hloaded
      cases hloaded
    obtain ⟨node', hmem, key, hkey, hmissing, hreport⟩ := h.rejects hlacks
    rw [hloaded, Except.error.injEq] at hreport
    refine .inr ⟨before, node, after, hsplit, ?_, .of_reported hnode hmem hkey hmissing (hreport ▸ herror)⟩
    intro b hb
    obtain ⟨stage, hstage⟩ := hbefore b hb
    exact loadStage_complete hstage

lemma followsFormat_of_complete (hnodes : asVector stagesNode = .ok nodes) (hdll : Provides dll nodes)
    (hall : ∀ node ∈ nodes, Complete node) : FollowsFormat dll stagesNode nodes := by
  have hstage : ∀ node ∈ nodes, ∃ stage, loadStage dll node = .ok stage ∧ CreatedBy dll node stage :=
    fun node hnode => loadStage_of_complete hdll hnode (hall node hnode)
  obtain ⟨stages, hmapM, hcreated⟩ := mapM_succeeds hstage
  have hloaded : loadStages dll stagesNode = .ok stages := (loadStages_eq hnodes).trans hmapM
  have hhas : ∀ node ∈ nodes, Has node libraryNameKey ∧ Has node symbolNameKey := by
    intro node hnode
    obtain ⟨-, ⟨libraryName, hlibrary⟩, symbolName, hsymbol⟩ := hall node hnode
    exact ⟨hlibrary.has, hsymbol.has⟩
  refine ⟨iff_of_true ⟨stages, hloaded⟩ hhas, ?_, ?_⟩
  · intro stages' h
    rw [hloaded, Except.ok.injEq] at h
    rwa [← h]
  · rintro ⟨node, hnode, hlacks⟩
    obtain ⟨hlibrary, hsymbol⟩ := hhas node hnode
    rcases hlacks with hno | hno
    · exact absurd hlibrary hno
    · exact absurd hsymbol hno

lemma followsFormat_of_excused {before after : List ν} (hnodes : asVector stagesNode = .ok nodes)
    (hdll : Provides dll nodes) (hsplit : nodes = before ++ node :: after) (hbefore : ∀ b ∈ before, Complete b)
    (hexcused : Excused nodes node) : FollowsFormat dll stagesNode nodes := by
  have hmem : node ∈ nodes := by simp [hsplit]
  obtain ⟨node', hmem', key, hkey, hmissing, herror⟩ := hexcused.reported dll hmem
  have hloaded : loadStages dll stagesNode = .error (missingKey key node') := by
    refine (loadStages_eq_error hnodes).mpr ⟨before, node, after, hsplit, fun b hb => ?_, herror⟩
    obtain ⟨stage, hstage, -⟩ := loadStage_of_complete hdll (by simp [hsplit, hb]) (hbefore b hb)
    exact ⟨stage, hstage⟩
  refine ⟨?_, ?_, fun _ => ⟨node', hmem', key, hkey, hmissing, hloaded⟩⟩
  · refine iff_of_false (by simp [hloaded]) fun hall => ?_
    obtain ⟨hlibrary, hsymbol⟩ := hall node' hmem'
    rcases hkey with rfl | rfl
    · exact hmissing hlibrary
    · exact hmissing hsymbol
  · simp [hloaded]

theorem loadStages_followsFormat_iff (hnodes : asVector stagesNode = .ok nodes) (hdll : Provides dll nodes) :
    FollowsFormat dll stagesNode nodes ↔ Accountable nodes := by
  constructor
  · exact fun h => h.accountable hnodes hdll
  · rintro (hall | ⟨before, node, after, hsplit, hbefore, hexcused⟩)
    · exact followsFormat_of_complete hnodes hdll hall
    · exact followsFormat_of_excused hnodes hdll hsplit hbefore hexcused

namespace Sample

def stageLibrary : Dll Unit String Unit where
  sharedLibrary _ := .ok ()
  symbols _ _ := .ok ["symbol"]
  stageCreator _ _ := .ok some
  callback _ _ := .error "no callback"
  plugin _ _ := .error "no plugin"
  base := ()

def unnamedStage : Node := .map [(libraryNameKey, .scalar "library"), (symbolNameKey, .scalar "symbol")]

def namedStage (name : String) : Node :=
  .map [(nameKey, .scalar name), (libraryNameKey, .scalar "library"), (symbolNameKey, .scalar "symbol")]

def symbollessStage : Node := .map [(nameKey, .scalar "third"), (libraryNameKey, .scalar "library")]

lemma unnamedStage_texts : find unnamedStage nameKey = .ok none ∧ TextAt unnamedStage libraryNameKey "library" ∧
    TextAt unnamedStage symbolNameKey "symbol" := by
  refine ⟨?_, ⟨.scalar "library", ?_, rfl⟩, .scalar "symbol", ?_, rfl⟩ <;>
    simp [unnamedStage, find, YAMLNode.get, nameKey, libraryNameKey, symbolNameKey, Except.mapError]

lemma namedStage_texts (name : String) : TextAt (namedStage name) nameKey name ∧
    TextAt (namedStage name) libraryNameKey "library" ∧ TextAt (namedStage name) symbolNameKey "symbol" := by
  refine ⟨⟨.scalar name, ?_, rfl⟩, ⟨.scalar "library", ?_, rfl⟩, .scalar "symbol", ?_, rfl⟩ <;>
    simp [namedStage, find, YAMLNode.get, nameKey, libraryNameKey, symbolNameKey, Except.mapError]

lemma symbollessStage_texts : TextAt symbollessStage nameKey "third" ∧ TextAt symbollessStage libraryNameKey "library" ∧
    find symbollessStage symbolNameKey = .ok none := by
  refine ⟨⟨.scalar "third", ?_, rfl⟩, ⟨.scalar "library", ?_, rfl⟩, ?_⟩ <;>
    simp [symbollessStage, find, YAMLNode.get, nameKey, libraryNameKey, symbolNameKey, Except.mapError]

lemma namedStage_complete (name : String) : Complete (namedStage name) := by
  obtain ⟨hname, hlibrary, hsymbol⟩ := namedStage_texts name
  exact ⟨⟨_, hname⟩, ⟨_, hlibrary⟩, _, hsymbol⟩

lemma stageLibrary_provides {nodes : List Node}
    (h : ∀ node ∈ nodes, TextAt node symbolNameKey "symbol" ∨ find node symbolNameKey = .ok none) :
    Provides stageLibrary nodes := by
  intro node hnode libraryName symbolName _ hsymbol
  rcases h node hnode with hnamed | hnone
  · obtain rfl := hsymbol.unique hnamed
    exact ⟨⟨(), rfl⟩, ⟨["symbol"], rfl, by simp⟩, some, rfl, fun name => ⟨name, rfl⟩⟩
  · obtain ⟨child, hchild, -⟩ := hsymbol
    rw [hnone] at hchild
    cases hchild

end Sample

/-- Two stages in their order, and a third one that has no symbol. -/
theorem loadStages_followsFormat_sample :
    FollowsFormat Sample.stageLibrary (Sample.Node.sequence [Sample.namedStage "first", Sample.namedStage "second"])
      [Sample.namedStage "first", Sample.namedStage "second"] ∧
    loadStages Sample.stageLibrary (Sample.Node.sequence [Sample.namedStage "first", Sample.namedStage "second"]) =
      .ok ["first", "second"] ∧
    FollowsFormat Sample.stageLibrary
      (Sample.Node.sequence [Sample.namedStage "first", Sample.namedStage "second", Sample.symbollessStage])
      [Sample.namedStage "first", Sample.namedStage "second", Sample.symbollessStage] := by
  have hnamed (name : String) := Sample.namedStage_texts name
  obtain ⟨hname, hlibrary, hnone⟩ := Sample.symbollessStage_texts
  have hexcused : Excused [Sample.namedStage "first", Sample.namedStage "second", Sample.symbollessStage]
      Sample.symbollessStage := .symbolName ⟨_, hname⟩ ⟨_, hlibrary⟩ hnone
  refine ⟨?_, by rfl, ?_⟩
  · refine (loadStages_followsFormat_iff rfl (Sample.stageLibrary_provides ?_)).mpr (.inl ?_)
    · simp [(hnamed _).2.2]
    · simp [Sample.namedStage_complete]
  · refine (loadStages_followsFormat_iff rfl (Sample.stageLibrary_provides ?_)).mpr
      (.inr ⟨[Sample.namedStage "first", Sample.namedStage "second"], _, [], rfl, ?_, hexcused⟩)
    · simp [(hnamed _).2.2, hnone]
    · simp [Sample.namedStage_complete]

/-- A stage with a library and a symbol is rejected for want of a name. -/
theorem loadStages_followsFormat_fails : Provides Sample.stageLibrary [Sample.unnamedStage] ∧
    Has Sample.unnamedStage libraryNameKey ∧ Has Sample.unnamedStage symbolNameKey ∧
    loadStages Sample.stageLibrary (Sample.Node.sequence [Sample.unnamedStage]) =
      .error (missingKey libraryNameKey Sample.unnamedStage) ∧
    ¬ FollowsFormat Sample.stageLibrary (Sample.Node.sequence [Sample.unnamedStage]) [Sample.unnamedStage] := by
  obtain ⟨hname, hlibrary, hsymbol⟩ := Sample.unnamedStage_texts
  have herror : loadStages Sample.stageLibrary (Sample.Node.sequence [Sample.unnamedStage]) =
      .error (missingKey libraryNameKey Sample.unnamedStage) :=
    (loadStages_eq_error rfl).mpr ⟨[], _, [], rfl, by simp, loadStage_unnamed _ hname⟩
  refine ⟨Sample.stageLibrary_provides (by simp [hsymbol]), hlibrary.has, hsymbol.has, herror, fun h => ?_⟩
  obtain ⟨stages, hstages⟩ := h.accepts.mpr (by simpa using ⟨hlibrary.has, hsymbol.has⟩)
  rw [herror] at hstages
  cases hstages

end DagScheduler.Graphs.YAMLDagDeserializer
