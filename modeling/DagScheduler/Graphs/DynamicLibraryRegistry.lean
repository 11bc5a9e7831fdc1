import DagScheduler.Graphs.Serialization
import DagScheduler.Library.Transitions

/-! `DynamicLibraryRegistry`: what keeps the libraries of stages and callbacks open. -/

namespace DagScheduler.Graphs

open Library.Transitions

/-- A call of `register_dynamic_library`, with what the loader answers during it: to the name, and to the
path of the library that is open by then. -/
structure Registration (L : Type) where
  libraryName : String
  opened : Except String L
  reopened : Except String Unit

/-- `registery_`, and how many items have each library open. -/
structure DynamicLibraryRegistry (L : Type) where
  registery : List (RegistryItem L)
  handles : L → ℕ

namespace DynamicLibraryRegistry

variable {L : Type}

def find (r : DynamicLibraryRegistry L) (libraryName : String) : Option (RegistryItem L) :=
  r.registery.find? fun item => item.libraryName = libraryName

variable [DecidableEq L]

def load (r : DynamicLibraryRegistry L) (library : L) : DynamicLibraryRegistry L :=
  { r with handles := Function.update r.handles library (r.handles library + 1) }

def unload (r : DynamicLibraryRegistry L) (library : L) : DynamicLibraryRegistry L :=
  { r with handles := Function.update r.handles library (r.handles library - 1) }

/-- The copy of an item opens its library once more. -/
def insert (r : DynamicLibraryRegistry L) (item : RegistryItem L) : DynamicLibraryRegistry L :=
  { r.load item.sharedLibrary with registery := r.registery ++ [item] }

/-- The item on the stack is made before the name is looked up, and closes its library at the end. -/
def registerDynamicLibrary (r : DynamicLibraryRegistry L) (call : Registration L) :
    Except Exception (RegistryItem L) × DynamicLibraryRegistry L :=
  match call.opened with
  | .error what =>
    (throw (.runtimeError ("Could not load library from " ++ call.libraryName ++ " with " ++ what ++ " with: " ++
      what)), r)
  | .ok library =>
    let item : RegistryItem L := ⟨call.libraryName, library⟩
    let r := r.load library
    match r.find call.libraryName with
    | some found => (pure found, r.unload library)
    | none =>
      match call.reopened with
      | .error what => (throw (.systemError what), r.unload library)
      | .ok () => (pure item, (r.insert item).unload library)

def system : System (DynamicLibraryRegistry L) (Registration L) where
  start := ⟨[], fun _ => 0⟩
  step r call := some (r.registerDynamicLibrary call).2

def answer (e : DynamicLibraryRegistry L × Registration L) : Except Exception (RegistryItem L) :=
  (e.1.registerDynamicLibrary e.2).1

end DynamicLibraryRegistry

end DagScheduler.Graphs
