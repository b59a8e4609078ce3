/-!
# The shutdown channel

One sender tells everyone else whether to stop.  To stop is the rule while the value sent last is
true, and for ever once the sender is gone.
-/

namespace KvServer

inductive Signal
  | stop
  | resume
  | detach
deriving DecidableEq, Repr

structure Channel where
  value : Bool := false
  attached : Bool := true
deriving DecidableEq, Repr

namespace Channel

/-- Whether everyone has to stop. -/
def stopped (c : Channel) : Bool := c.value || !c.attached

/-- The channel after a signal; nothing is sent once the sender is gone. -/
def after (c : Channel) : Signal → Channel
  | .stop => { c with value := c.value || c.attached }
  | .resume => { c with value := c.value && !c.attached }
  | .detach => { c with attached := false }

end Channel

end KvServer
