import KvServer.Command.Basic

/-!
# Replies

A reply is one line, ended by a carriage return and a line feed.
-/

namespace KvServer

open Text

/-- What a client is told. -/
inductive Reply
  | ok
  | error
  | value (text : String)
  | invalidAuth
  | invalidCommand
  | invalid (message : String)
deriving DecidableEq, Repr

namespace Reply

def text : Reply → String
  | .ok => "OK"
  | .error => "ERROR"
  | .value text => text
  | .invalidAuth => "ERROR invalid auth"
  | .invalidCommand => "ERROR invalid command"
  | .invalid message => "ERROR " ++ message

def bytes (r : Reply) : Bytes := bytesOf (r.text ++ "\r\n")

def ofFrameError : FrameError → Reply
  | .unknownCommand _ => .invalidCommand
  | e => .invalid e.message

end Reply

end KvServer
