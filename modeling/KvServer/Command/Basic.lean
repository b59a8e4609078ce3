import KvServer.Text.Blank
import KvServer.Text.Utf8
import KvServer.Number.Decimal

/-!
# Commands

A frame is one line of bytes.  `Command.parse` reads it: the fields of the line are a verb and its
arguments.  `Command.render` writes a command with single spaces and a line feed.
-/

namespace KvServer

open Text Number

/-- What a client asks for. -/
inductive Command
  | auth (secret : String)
  | set (key value : String) (expiry : Option Nat)
  | get (key : String)
  | del (key : String)
deriving DecidableEq, Repr

inductive FrameError
  | emptyCommand
  | invalidText
  | unknownCommand (token : String)
  | missingArgument (verb what : String)
  | tooManyArguments (verb : String) (most : Nat)
  | invalidExpiry (token : String)
deriving DecidableEq, Repr

def FrameError.message : FrameError → String
  | .emptyCommand => "empty command"
  | .invalidText => "request is not valid utf-8"
  | .unknownCommand token => "unknown command: " ++ token
  | .missingArgument verb what => verb ++ " command requires " ++ what
  | .tooManyArguments verb most =>
      verb ++ " command takes at most " ++ toString most ++ " arguments"
  | .invalidExpiry token =>
      "SET expiry must be a whole number of seconds, got '" ++ token ++ "'"

namespace Command

def onlyArgument (verb what : String) : List (List Char) → Except FrameError String
  | [] => .error (.missingArgument verb what)
  | [arg] => .ok (.ofList arg)
  | _ => .error (.tooManyArguments verb 1)

/-- The number of seconds in an expiry argument; zero seconds stand for no expiry. -/
def expiry? (arg : List Char) : Except FrameError (Option Nat) :=
  match word? arg with
  | none => .error (.invalidExpiry (.ofList arg))
  | some 0 => .ok none
  | some n => .ok (some n)

def ofSetArguments : List (List Char) → Except FrameError Command
  | [] | [_] => .error (.missingArgument "SET" "a key and value")
  | [key, value] => .ok (.set (.ofList key) (.ofList value) none)
  | [key, value, arg] => (expiry? arg).map (.set (.ofList key) (.ofList value))
  | _ => .error (.tooManyArguments "SET" 3)

/-- What the fields of a line say.  No field has a blank, so the secret needs no trimming. -/
def ofFields : List (List Char) → Except FrameError Command
  | [] => .error .emptyCommand
  | verb :: args =>
      match String.ofList verb with
      | "AUTH" => (onlyArgument "AUTH" "a secret" args).map .auth
      | "SET" => ofSetArguments args
      | "GET" => (onlyArgument "GET" "a key" args).map .get
      | "DEL" => (onlyArgument "DEL" "a key" args).map .del
      | other => .error (.unknownCommand other)

/-- The command of one frame, with or without its line end. -/
def parse (frame : Bytes) : Except FrameError Command :=
  match decode frame with
  | .error _ => .error .invalidText
  | .ok line => ofFields (fields line)

def verb : Command → String
  | .auth _ => "AUTH"
  | .set .. => "SET"
  | .get _ => "GET"
  | .del _ => "DEL"

def arguments : Command → List String
  | .auth secret => [secret]
  | .set key value none => [key, value]
  | .set key value (some n) => [key, value, toString n]
  | .get key => [key]
  | .del key => [key]

/-- The canonical line of a command: its fields with single spaces between them. -/
def line (c : Command) : String := " ".intercalate (c.verb :: c.arguments)

def render (c : Command) : Bytes := bytesOf (c.line ++ "\n")

end Command

end KvServer
