import Mathlib.Data.List.AList
import Vitamine.Common.TcpServer
import Vitamine.Proxyd.Alike
import Vitamine.Proxyd.Outgoing

/-!
# The server and its connections (`proxyd/proxyserver.hpp`, `common/net/tcpserver.cpp`)

`TcpServerImpl` accepts and reads, `ProxyServer` has a state machine for each connection, and what a
state machine sends goes to the writing side of connections. `main` runs one thread, so that the
handlers of `Boost.Asio` run one at a time. As in `TcpServer`, it is assumed that the other
arguments of `async_accept` and `async_read_some` are evaluated before the handler moves
`connection`.

* `ProxyServer.call`: a call of a state machine, with the calls of `IConnection` that it makes.
* `ProxyServer.next`: a completion handler, a tick or a step of a strand.
* `proxySystem`: the runs of these.
-/

namespace Vitamine

open Wire System

abbrev ConnectionId := BitVec 32

abbrev ConnectionPtr := Nat

/-- A call of `IConnectionHandler`. -/
inductive HandlerCall where
  | onClientConnected
  | onDataReceived (data : Bytes)
  | onClientDisconnected
  deriving DecidableEq

/-- `TcpServerConnection`, with what its writing side is, the number of its outstanding reads and
the calls of the handler about it. `_userPtr` has no initializer. -/
structure Connection where
  id : ConnectionId
  userPointer : Option StateMachinePtr
  writer : TcpServerConnection
  reads : Nat
  calls : List HandlerCall
  deriving DecidableEq

def Connection.new (id : ConnectionId) : Connection := ⟨id, none, .new, 0, []⟩

/-- `TcpServerImpl` and `ProxyServer`. An address of a connection is not used again. -/
structure ProxyServer where
  nextConnectionId : ConnectionId
  /-- The connections of the outstanding `async_accept`s. -/
  accepts : List ConnectionPtr
  created : Finset ConnectionPtr
  connection : ConnectionPtr → Connection
  states : AList fun _ : ConnectionPtr => StateMachinePtr
  world : World

/-- `disconnect()` was called on no connection. -/
def World.calm (w : World) : World := { w with disconnecting := fun _ => false }

/-- The calls of `IConnection` on the connection of `p` that were made between two worlds. -/
def connectionCalls (before after : World) (p : StateMachinePtr) : List ConnectionStep :=
  ((after.sentTo p).drop (before.sentTo p).length).map (fun packet => .send packet.serialize) ++
    if after.disconnecting p then [.disconnect] else []

namespace ProxyServer

variable (s : ProxyServer)

def setConnection (c : ConnectionPtr) (connection : Connection) : ProxyServer :=
  { s with connection := Function.update s.connection c connection }

/-- A call of the handler. -/
def note (c : ConnectionPtr) (call : HandlerCall) : ProxyServer :=
  s.setConnection c { s.connection c with calls := (s.connection c).calls ++ [call] }

/-! ## Calls of state machines -/

/-- The world after a call. The `_connection` of a state machine is what it is stored under; a
packet for a state machine that is gone goes nowhere. -/
def relay (world : World) : ProxyServer :=
  { s with
    world
    connection := fun c =>
      match s.states.lookup c with
      | none => s.connection c
      | some p => { s.connection c with
          writer := connectionSystem.after (s.connection c).writer
            (connectionCalls s.world world p) } }

/-- A call of a function of a state machine. -/
def call (f : World → World) : ProxyServer := s.relay (f s.world.calm)

/-- `StateMachine::onBytesReceived`. -/
def onBytesReceived (this : StateMachinePtr) (data : Bytes) (now : Nat → Int) : ProxyServer :=
  let reader := ((s.world.machine this).reader.onBytesReceived data).1
  let s := (s.world.callsOf this data now).foldl
    (fun s call => s.call fun w => w.onCall this call.2 call.1) s
  { s with world := s.world.setMachine this { s.world.machine this with reader } }

/-! ## `ProxyServer` -/

/-- `this` is the address of the new state machine. `emplace` stores nothing where something is
stored, and then the state machine is destroyed at once. -/
def onClientConnected (c : ConnectionPtr) (this : StateMachinePtr)
    (clientSettings : ClientSettings) (entityId : EntityId) (now : Int) : ProxyServer :=
  let s := s.note c .onClientConnected
  let s := { s with world := s.world.connect this clientSettings entityId now }
  let s := s.setConnection c { s.connection c with userPointer := some this }
  if c ∈ s.states then s.call fun w => w.destroy this
  else { s with states := s.states.insert c this }

/-- Without a user pointer the call is undefined, and here it does nothing. -/
def onDataReceived (c : ConnectionPtr) (data : Bytes) (now : Nat → Int) : ProxyServer :=
  let s := s.note c (.onDataReceived data)
  match (s.connection c).userPointer with
  | none => s
  | some state => s.onBytesReceived state data now

/-- The map owns the state machine. -/
def onClientDisconnected (c : ConnectionPtr) : ProxyServer :=
  let s := s.note c .onClientDisconnected
  match s.states.lookup c with
  | none => s
  | some state => { s with states := s.states.erase c }.call fun w => w.destroy state

/-- The state machines in the order of the iteration, by their connections, each with the time that
it finds. -/
def tickStateMachines (order : List (ConnectionPtr × Int)) : ProxyServer :=
  order.foldl (fun s (c, now) =>
    match s.states.lookup c with
    | none => s
    | some state => s.call fun w => w.onTick state now) s

/-! ## `TcpServerImpl` -/

/-- `c` is the address of the new connection. -/
def startAccept (c : ConnectionPtr) : ProxyServer :=
  { s.setConnection c (.new s.nextConnectionId) with
    nextConnectionId := s.nextConnectionId + 1
    accepts := s.accepts ++ [c]
    created := insert c s.created }

def startRead (c : ConnectionPtr) : ProxyServer :=
  s.setConnection c { s.connection c with reads := (s.connection c).reads + 1 }

/-- An `async_accept` of `c` completes; `next` is the address for the next one, and `noDelay` says
whether the option could be set. -/
def onAccepted (c next : ConnectionPtr) (noDelay : Bool) (this : StateMachinePtr)
    (clientSettings : ClientSettings) (entityId : EntityId) (now : Int) : ProxyServer :=
  let s := { s with accepts := s.accepts.erase c }
  let s := s.startAccept next
  if noDelay then (s.onClientConnected c this clientSettings entityId now).startRead c else s

/-- An `async_read_some` of `c` completes, without data if there was an error. -/
def onRead (c : ConnectionPtr) (data : Option Bytes) (now : Nat → Int) : ProxyServer :=
  let s := s.setConnection c { s.connection c with reads := (s.connection c).reads - 1 }
  match data with
  | none => s.onClientDisconnected c
  | some data =>
    if (s.connection c).writer.disconnectMarker then s.onClientDisconnected c
    else (s.onDataReceived c data now).startRead c

end ProxyServer

/-! ## Runs -/

/-- What happens to the server. The times are readings of the clock. -/
inductive ProxyStep where
  | accepted (c next : ConnectionPtr) (noDelay : Bool) (this : StateMachinePtr)
      (clientSettings : ClientSettings) (entityId : EntityId) (now : Int)
  | acceptAborted (c : ConnectionPtr)
  | read (c : ConnectionPtr) (data : Bytes) (now : Nat → Int)
  | readError (c : ConnectionPtr)
  | tick (order : List (ConnectionPtr × Int))
  | strand (c : ConnectionPtr) (l : ConnectionStep)

namespace ProxyServer

def next (s : ProxyServer) : ProxyStep → ProxyServer
  | .accepted c next noDelay this clientSettings entityId now =>
    s.onAccepted c next noDelay this clientSettings entityId now
  | .acceptAborted c => { s with accepts := s.accepts.erase c }
  | .read c data now => s.onRead c (some data) now
  | .readError c => s.onRead c none fun _ => 0
  | .tick order => s.tickStateMachines order
  | .strand c l =>
    s.setConnection c { s.connection c with writer := (s.connection c).writer.next l }

/-- `asyncServe` on a server without clients. -/
def initial (c : ConnectionPtr) (uuidGenerator : Bytes → Uuid)
    (machine : StateMachinePtr → StateMachine) : ProxyServer :=
  startAccept ⟨1, [], ∅, fun _ => .new 0, ∅, .initial uuidGenerator machine⟩ c

end ProxyServer

/-- The runs of the server. A read gets at most the bytes of `_readBuf`, and an iteration over the
map meets every element once. -/
def proxySystem : System ProxyServer ProxyStep where
  enabled s
    | .accepted c next _ this _ _ _ =>
      c ∈ s.accepts ∧ next ∉ s.created ∧ s.world.life this = .unused
    | .acceptAborted c => c ∈ s.accepts
    | .read c data _ => 0 < (s.connection c).reads ∧ 0 < data.length ∧ data.length ≤ 4096
    | .readError c => 0 < (s.connection c).reads
    | .tick order => (order.map Prod.fst).Perm s.states.keys
    | .strand c l => c ∈ s.created ∧ l.OnStrand ∧ (s.connection c).writer.Enabled l
  next := ProxyServer.next

instance (s : ProxyServer) : (l : ProxyStep) → Decidable (proxySystem.enabled s l)
  | .accepted c next _ this _ _ _ =>
    inferInstanceAs (Decidable (c ∈ s.accepts ∧ next ∉ s.created ∧ s.world.life this = .unused))
  | .acceptAborted c => inferInstanceAs (Decidable (c ∈ s.accepts))
  | .read c data _ => inferInstanceAs
      (Decidable (0 < (s.connection c).reads ∧ 0 < data.length ∧ data.length ≤ 4096))
  | .readError c => inferInstanceAs (Decidable (0 < (s.connection c).reads))
  | .tick order => inferInstanceAs (Decidable ((order.map Prod.fst).Perm s.states.keys))
  | .strand c l => inferInstanceAs
      (Decidable (c ∈ s.created ∧ l.OnStrand ∧ (s.connection c).writer.Enabled l))

/-! ## A client that is refused -/

/-- A server without clients. -/
def proxyStart : ProxyServer :=
  .initial 0 (fun _ => .zero) fun _ => .fresh defaultClientSettings 0 0

/-- The handshake of a client of another version. -/
def oldHandshake : Bytes := [6, 0, 1, 0, 0x63, 0xdd, 2]

/-- The client connects, is refused and reads why; then its socket is closed, and the read of the
server ends. -/
def refusedSteps : List ProxyStep :=
  [.accepted 0 1 true 0 defaultClientSettings 0 0, .read 0 oldHandshake fun _ => 0,
    .strand 0 .sendImpl, .tick [(0, 5)], .strand 0 .disconnectImpl, .strand 0 (.written 0),
    .readError 0]

end Vitamine
