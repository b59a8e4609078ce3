import KvServer.Settings.Layer
import KvServer.Text.Utf8
import KvServer.Toml.Document
import KvServer.Value.Convert

/-!
# Loading settings

Settings come from the environment, else from a file, else from the defaults.  A file that is not
there or is not text counts as an empty one.  `Settings.load` fails when the file is no document,
else when a key has an index that is out of place, else when a value cannot be what its setting
asks for, else when the settings do not pass their check.
-/

namespace KvServer

open Text

inductive LoadError
  | malformedFile
  | misplaced (key : String)
  | wrongKind (f : Field)
  | refused (e : SettingsError)
deriving DecidableEq, Repr

def LoadError.message : LoadError → String
  | .malformedFile => "the settings file is malformed"
  | .misplaced key => "an index of the key '" ++ key ++ "' is out of place"
  | .wrongKind f => "the value of '" ++ f.name ++ "' is of a wrong kind"
  | .refused e => e.message

namespace Settings

def read {α : Type} (value? : Field → Option Value) (f : Field) (convert : Value → Option α)
    (default : α) : Except LoadError α :=
  match value? f with
  | none => .ok default
  | some v =>
      match convert v with
      | some a => .ok a
      | none => .error (.wrongKind f)

def ofValues (value? : Field → Option Value) : Except LoadError Settings := do
  let defaults : Settings := {}
  return {
    host := ← read value? .host Value.text? defaults.host
    port := ← read value? .port Value.port? defaults.port
    network := ← read value? .network Value.text? defaults.network
    auth := ← read value? .auth Value.text? defaults.auth
    engine := ← read value? .engine Value.text? defaults.engine
    storagePath := ← read value? .storagePath Value.text? defaults.storagePath
    maxInflightRequests :=
      ← read value? .maxInflightRequests Value.word? defaults.maxInflightRequests
    eventQueueCapacity := ← read value? .eventQueueCapacity Value.word? defaults.eventQueueCapacity
    revokeAuthOnDisconnect :=
      ← read value? .revokeAuthOnDisconnect Value.flag? defaults.revokeAuthOnDisconnect }

def checked (s : Settings) : Except LoadError Settings :=
  match s.validate with
  | .ok () => .ok s
  | .error e => .error (.refused e)

/-- The tree of the values of a file and an environment, where those of the environment come
last. -/
def tree (file environment : Layer) : Except LoadError Value :=
  ((file ++ environment).assign (.table [])).mapError .misplaced

def ofLayers (file environment : Layer) : Except LoadError Settings := do
  let values ← tree file environment
  (← ofValues fun f ↦ values.get? f.name).checked

def fileLayer (content? : Option Bytes) : Except LoadError Layer :=
  match content?.map stringOf with
  | some (.ok text) =>
      match Toml.parse? text.toList with
      | some entries => .ok entries
      | none => .error .malformedFile
  | some (.error _) | none => .ok []

/-- Loads settings from the content of a file and from environment variables. -/
def load (content? : Option Bytes) (env : List (String × String)) :
    Except LoadError Settings := do
  ofLayers (← fileLayer content?) (.ofEnvironment env)

end Settings

end KvServer
