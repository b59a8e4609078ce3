import KvServer.Number.Decimal
import KvServer.Settings.Basic

/-!
# Options of the command line

`CommandLine.parse` reads arguments from left to right and stops at the first fault, or at the first
option that asks for the help text or the version.  A value is the rest of its argument, with or
without an equals sign for a short option and with one for a long option, or else the whole next
argument, which may not look like an option itself.
-/

namespace KvServer

inductive CommandOption
  | config
  | host
  | port
  | network
  | auth
  | engine
  | storagePath
  | help
  | version
deriving DecidableEq, Repr

namespace CommandOption

def all : List CommandOption :=
  [config, host, port, network, auth, engine, storagePath, help, version]

def long : CommandOption → String
  | config => "config"
  | host => "host"
  | port => "port"
  | network => "network"
  | auth => "auth"
  | engine => "engine"
  | storagePath => "storage-path"
  | help => "help"
  | version => "version"

def short? : CommandOption → Option Char
  | config => some 'c'
  | port => some 'p'
  | network => some 'n'
  | auth => some 'a'
  | help => some 'h'
  | version => some 'V'
  | host | engine | storagePath => none

def valueName? : CommandOption → Option String
  | config => some "CONFIG"
  | host => some "HOST"
  | port => some "PORT"
  | network => some "NETWORK"
  | auth => some "AUTH"
  | engine => some "ENGINE"
  | storagePath => some "STORAGE_PATH"
  | help | version => none

def purpose : CommandOption → String
  | config => "Path to configuration file [default: kece.toml]"
  | host => "Address to bind to"
  | port => "Port to listen on"
  | network => "Network family: tcp, tcp4 or tcp6"
  | auth => "Shared secret required by AUTH (empty disables auth)"
  | engine => "Storage engine: rwlock or sled"
  | storagePath => "Storage path for the sled engine"
  | help => "Print help"
  | version => "Print version"

def ofLong? (name : List Char) : Option CommandOption :=
  all.find? fun o ↦ o.long.toList = name

def ofShort? (c : Char) : Option CommandOption := all.find? fun o ↦ o.short? = some c

end CommandOption

inductive UsageError
  | unknownOption (arg : String)
  | strayArgument (arg : String)
  | missingValue (o : CommandOption)
  | needlessValue (o : CommandOption)
  | invalidValue (o : CommandOption) (value : String)
  | repeated (o : CommandOption)
deriving DecidableEq, Repr

def UsageError.message : UsageError → String
  | unknownOption arg => "unexpected argument '" ++ arg ++ "' found"
  | strayArgument arg => "unexpected argument '" ++ arg ++ "' found"
  | missingValue o => "a value is required for '--" ++ o.long ++ "' but none was supplied"
  | needlessValue o => "unexpected value for '--" ++ o.long ++ "' found; no more were expected"
  | invalidValue o value => "invalid value '" ++ value ++ "' for '--" ++ o.long ++ "'"
  | repeated o => "the argument '--" ++ o.long ++ "' cannot be used multiple times"

structure Arguments where
  config : Option String := none
  overrides : Overrides := {}
deriving DecidableEq, Repr

def Arguments.configPath (a : Arguments) : String := a.config.getD "kece.toml"

/-- What a command line asks for. -/
inductive CommandLine
  | run (a : Arguments)
  | help
  | version
deriving DecidableEq, Repr

namespace CommandLine

/-- Reads a port: decimal digits, after a sign at most, with a value of 16 bits. -/
def port? (value : List Char) : Option UInt16 :=
  let (negative, digits) := match value with
    | '-' :: ds => (true, ds)
    | '+' :: ds => (false, ds)
    | ds => (false, ds)
  (Number.decimal? digits).bind fun n ↦
    if n = 0 ∨ !negative ∧ n < 0x10000 then some (.ofNat n) else none

def setOnce {α : Type} (o : CommandOption) (old : Option α) (new : α) :
    Except UsageError (Option α) :=
  match old with
  | some _ => .error (.repeated o)
  | none => .ok (some new)

def give (o : CommandOption) (value : List Char) (a : Arguments) : Except UsageError Arguments := do
  let s := String.ofList value
  let v := a.overrides
  match o with
  | .config =>
      if value.isEmpty then .error (.invalidValue o s)
      else return { a with config := ← setOnce o a.config s }
  | .host => return { a with overrides := { v with host := ← setOnce o v.host s } }
  | .port =>
      match port? value with
      | none => .error (.invalidValue o s)
      | some n => return { a with overrides := { v with port := ← setOnce o v.port n } }
  | .network => return { a with overrides := { v with network := ← setOnce o v.network s } }
  | .auth => return { a with overrides := { v with auth := ← setOnce o v.auth s } }
  | .engine => return { a with overrides := { v with engine := ← setOnce o v.engine s } }
  | .storagePath =>
      return { a with overrides := { v with storagePath := ← setOnce o v.storagePath s } }
  | .help | .version => .error (.needlessValue o)

inductive Argument
  /-- The argument that ends all options. -/
  | escape
  | option (o : CommandOption) (value? : Option (List Char))
  | unknown
  | plain
deriving DecidableEq, Repr

def afterEquals : List Char → Option (List Char)
  | '=' :: value => some value
  | _ => none

def Argument.ofText : List Char → Argument
  | ['-', '-'] => escape
  | '-' :: '-' :: cs =>
      match CommandOption.ofLong? (cs.takeWhile (· ≠ '=')) with
      | some o => option o (afterEquals (cs.dropWhile (· ≠ '=')))
      | none => unknown
  | '-' :: c :: cs =>
      match CommandOption.ofShort? c with
      | some o =>
          if o.valueName?.isNone || cs.isEmpty then option o none
          else option o (some ((afterEquals cs).getD cs))
      | none => unknown
  | _ => plain

/-- Reads arguments after those that `a` holds. -/
def parseFrom (a : Arguments) : List String → Except UsageError CommandLine
  | [] => .ok (.run a)
  | arg :: args =>
      match Argument.ofText arg.toList with
      | .escape =>
          match args with
          | [] => .ok (.run a)
          | arg :: _ => .error (.strayArgument arg)
      | .unknown => .error (.unknownOption arg)
      | .plain => .error (.strayArgument arg)
      | .option o (some value) => do parseFrom (← give o value a) args
      | .option .help none => .ok .help
      | .option .version none => .ok .version
      | .option o none =>
          match args with
          | [] => .error (.missingValue o)
          | value :: args =>
              if Argument.ofText value.toList = .plain then do
                parseFrom (← give o value.toList a) args
              else .error (.missingValue o)

def parse (args : List String) : Except UsageError CommandLine := parseFrom {} args

end CommandLine

end KvServer
