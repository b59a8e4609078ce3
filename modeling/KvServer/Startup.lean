import KvServer.CommandLine.Help
import KvServer.Server.Bind
import KvServer.Server.Serve
import KvServer.Settings.Load
import KvServer.Store.Open

/-!
# Starting up

A command line, the files and the environment decide what the program does.  The settings of file
and environment have to pass their check before options replace some of them, and the settings
with the options have to pass it again; then the store is opened, the address is found and the
session begins.
-/

namespace KvServer

open Text

inductive StartError
  | load (e : LoadError)
  | refused (e : SettingsError)
  | store (e : OpenError)
  | bind (e : BindError)
deriving DecidableEq, Repr

def StartError.message : StartError → String
  | .load e => e.message
  | .refused e => e.message
  | .store e => e.message
  | .bind e => e.message

def Arguments.settings (a : Arguments) (content? : Option Bytes)
    (env : List (String × String)) : Except StartError Settings := do
  let s ← (Settings.load content? env).mapError .load
  let s := s.override a.overrides
  s.validate.mapError .refused
  return s

structure Start where
  settings : Settings
  store : AnyStore
  address : Address

/-- Makes a server ready to listen, with the durable tree that it may use. -/
def Settings.start (settings : Settings) (tree? : Option Tree) : Except StartError Start := do
  let store ← (settings.openStore tree?).mapError .store
  let address ← settings.bind.mapError .bind
  return { settings, store, address }

def Arguments.start (a : Arguments) (files : Files) (env : List (String × String)) :
    Except StartError Start := do
  let settings ← a.settings (files.settingsFile? a.configPath) env
  settings.start (files.newTree? settings.storagePath)

inductive Launch
  | print (text : String)
  | usage (e : UsageError)
  | fail (e : StartError)
  | limit (e : LimitError)
  | serve (start : Start) (session : Session AnyStore)

def launch (args : List String) (files : Files) (env : List (String × String)) : Launch :=
  match CommandLine.parse args with
  | .error e => .usage e
  | .ok .help => .print CommandLine.helpText
  | .ok .version => .print CommandLine.versionText
  | .ok (.run a) =>
      match a.start files env with
      | .error e => .fail e
      | .ok start =>
          match Session.start start.settings.sessionOptions start.store with
          | .error e => .limit e
          | .ok session => .serve start session

/-- The exit code of a program that does not start its server.  An index that is out of place is
as fatal as a limit that is. -/
def StartError.exitCode : StartError → UInt8
  | load (.misplaced _) => 101
  | _ => 1

def Launch.exitCode : Launch → UInt8
  | print _ | serve .. => 0
  | usage _ => 2
  | fail e => e.exitCode
  | limit _ => 101

end KvServer
