import KvServer.Startup
import KvServer.Store.Snapshot
import Std.Async.Signal
import Std.Async.TCP
import Std.Async.Timer
import Std.Internal.UV.System
import Std.Sync.Mutex

/-!
# The program

The program reads its command line, its settings and the durable tree, listens on its address, and
passes on to a session what its sockets and its clock bring.  Everything that the server decides it
decides in the session.
-/

namespace KvServer.Program

open Std.Async
open Std.Net (SocketAddress)
open Text

abbrev Socket := TCP.Socket.Client

/-- The session, the sockets of its connections, and the time that it knows. -/
structure Live where
  session : Session (Recorded AnyStore)
  sockets : List (Nat × Socket)
  clock : Nat
  changed : Bool

structure Order where
  socket : Socket
  output : Bytes
  close : Bool

/-- The orders that lead from one session to another. -/
def Live.orders (live : Live) (s : Session (Recorded AnyStore)) : List Order :=
  live.sockets.map fun (i, socket) ↦
    ⟨socket, s.receivedSince live.session i, s.connections[i]?.any Connection.isClosed⟩

/-- The next session in place of the old, without what no one asks for any more. -/
def Live.become (live : Live) (s : Session (Recorded AnyStore)) : Live :=
  { live with
    session := { s with
      data := { s.data with store := s.data.store.forget }
      connections := s.connections.map fun c ↦ { c with replies := [] } }
    sockets := live.sockets.filter fun (i, _) ↦ !s.connections[i]?.any Connection.isClosed
    changed := live.changed || s.data.store.notes.any fun n ↦ n.call.kind ≠ .get }

def carryOut (o : Order) : Async Unit := do
  try
    unless o.output.isEmpty do o.socket.send (ByteArray.mk o.output.toArray)
    if o.close then o.socket.shutdown
  catch _ => pure ()

/-- Lets the session take a step, after the time that has passed, and carries out what follows. -/
def perform (m : Std.Mutex Live) (st : Session.Step) : Async Session.Answer := do
  let (answer, orders) ← (m.atomically do
    let now ← IO.monoMsNow
    let live : Live ← get
    let (_, s) := live.session.step (.advance (now - live.clock))
    let (answer, s) := s.step st
    set { live.become s with clock := now }
    return (answer, live.orders s) : IO (Session.Answer × List Order))
  orders.forM carryOut
  return answer

partial def readSocket (m : Std.Mutex Live) (i : Nat) (socket : Socket) : Async Unit := do
  let chunk? ← try (some <$> socket.recv? 65536) catch _ => pure none
  match chunk? with
  | none => discard <| perform m (.vanish i [])
  | some none => discard <| perform m (.finish i)
  | some (some chunk) =>
      discard <| perform m (.send i chunk.toList)
      let isOpen ← (m.atomically do
        let live : Live ← get
        return live.sockets.any (·.1 = i) : IO Bool)
      if isOpen then readSocket m i socket

def peerAddress : SocketAddress → Address × UInt16
  | .v4 a =>
      (.v4 (.ofNat 32 (a.addr.octets.toList.foldl (fun n b ↦ n * 0x100 + b.toNat) 0)), a.port)
  | .v6 a =>
      (.v6 (.ofNat 128 (a.addr.segments.toList.foldl (fun n g ↦ n * 0x10000 + g.toNat) 0)),
        a.port)

def socketAddress (port : UInt16) : Address → SocketAddress
  | .v4 bits => .v4 ⟨⟨.ofFn fun i ↦ .ofBitVec (bits.extractLsb' (8 * (3 - i.val)) 8)⟩, port⟩
  | .v6 bits => .v6 ⟨⟨.ofFn fun i ↦ .ofBitVec (bits.extractLsb' (16 * (7 - i.val)) 16)⟩, port⟩

def identity (a : SocketAddress) : String :=
  match peerAddress a with
  | (.v4 bits, port) => (Address.v4 bits).text ++ ":" ++ toString port.toNat
  | (.v6 bits, port) => "[" ++ (Address.v6 bits).text ++ "]:" ++ toString port.toNat

def takeIn (m : Std.Mutex Live) (socket : Socket) : Async Bool := do
  let st : Session.Step := .connect (identity (← socket.getPeerName)) .sound
  match ← perform m st with
  | .event (.error _) => return false
  | _ =>
      let i ← (m.atomically do
        let live : Live ← get
        let i := live.session.connections.length - 1
        set { live with sockets := (i, socket) :: live.sockets }
        return i : IO Nat)
      background (readSocket m i socket)
      return true

partial def acceptLoop (m : Std.Mutex Live) (server : TCP.Socket.Server)
    (interrupt terminate : Signal.Waiter) : Async (Except AcceptError Unit) := do
  let next : Except String (Option Socket) ←
    try
      Except.ok <$> Selectable.one #[
        .case interrupt.selector fun _ ↦ return none,
        .case terminate.selector fun _ ↦ return none,
        .case server.acceptSelector fun socket ↦ return some socket]
    catch e => pure (.error (toString e))
  match next with
  | .error message => return .error (.notAccepted message)
  | .ok none => return .ok ()
  | .ok (some socket) =>
      if ← takeIn m socket then acceptLoop m server interrupt terminate
      else return .error .loopStopped

def snapshotPath (s : Settings) : String := s.storagePath ++ "/entries"

def save (settings : Settings) : AnyStore → IO Unit
  | .memory _ => return
  | .tree t => IO.FS.writeFile (snapshotPath settings) (.ofList t.snapshot)

/-- Lets time pass, and keeps the tree when it has changed. -/
partial def watch (m : Std.Mutex Live) (settings : Settings) : Async Unit := do
  sleep 100
  discard <| perform m .wait
  let running ← (m.atomically do
    let live : Live ← get
    if live.changed then save settings live.session.data.store.store
    set { live with changed := false }
    return live.session.running : IO Bool)
  if running then watch m settings

def serveSockets (start : Start) (session : Session (Recorded AnyStore)) :
    Async (Except AcceptError Unit) := do
  let server ← TCP.Socket.Server.mk
  server.bind (socketAddress start.settings.port start.address)
  server.listen 1024
  let interrupt ← Signal.Waiter.mk .sigint false
  let terminate ← Signal.Waiter.mk .sigterm false
  let m ← Std.Mutex.new { session, sockets := [], clock := ← IO.monoMsNow, changed := false }
  background (watch m start.settings)
  let result ← acceptLoop m server interrupt terminate
  let (orders, store) ← (m.atomically do
    let live : Live ← get
    let served := Accepted.shutdown ⟨[], live.session, result⟩
    set (live.become served.session)
    return (live.orders served.session, served.store.store) : IO (List Order × AnyStore))
  orders.forM carryOut
  save start.settings store
  return result

def firstFile? : List String → IO (Option Bytes)
  | [] => return none
  | path :: paths => do
      match ← (IO.FS.readBinFile path).toBaseIO with
      | .ok content => return some content.toList
      | .error _ => firstFile? paths

def loadTree? (s : Settings) : IO (Option Tree) := do
  try
    IO.FS.createDirAll s.storagePath
    match ← (IO.FS.readFile (snapshotPath s)).toBaseIO with
    | .ok text => return Tree.ofSnapshot? text.toList
    | .error _ => return some {}
  catch _ => return none

def prepare (a : Arguments) : IO (Except StartError Start) := do
  let content? ← firstFile? (settingsPaths a.configPath)
  let env ← Std.Internal.UV.System.osEnviron
  match a.settings content? env.toList with
  | .error e => return .error e
  | .ok s =>
      let tree? ← if s.engine = "sled" then loadTree? s else pure none
      return s.start tree?

def fail (message : String) (exitCode : UInt8) : IO UInt32 := do
  IO.eprintln ("Error: " ++ message)
  return exitCode.toUInt32

def run (a : Arguments) : IO UInt32 := do
  match ← prepare a with
  | .error e => fail e.message e.exitCode
  | .ok start =>
      match Session.start start.settings.sessionOptions { store := start.store } with
      | .error _ =>
          IO.eprintln "a limit is too large"
          return 101
      | .ok session =>
          match ← (serveSockets start session).block.toBaseIO with
          | .ok (.ok ()) => return 0
          | .ok (.error e) => fail e.message 1
          | .error e => fail (toString e) 1

end KvServer.Program

open KvServer in
def main (args : List String) : IO UInt32 := do
  match CommandLine.parse args with
  | .error e =>
      IO.eprintln ("error: " ++ e.message ++ "\n\n" ++ CommandLine.usageText)
      return 2
  | .ok .help =>
      IO.print CommandLine.helpText
      return 0
  | .ok .version =>
      IO.print CommandLine.versionText
      return 0
  | .ok (.run a) => Program.run a
