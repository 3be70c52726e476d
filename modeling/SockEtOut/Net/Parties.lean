import SockEtOut.Net.Desktops
import SockEtOut.Server.TcpServer

/-!
# Programs that disconnect and connect again

The programs of all users, each with its socket, and the server with the handlers there
are. Each time a program connects there is a new handler at the other end; what the
program has kept of the last connection is its own business. Nothing is lost, copied or
overtaken on a connection while it lasts. Either end may find at any time that it does
not: what was on the way to a program is lost then, and a handler goes on with what was
sent until it is gone itself.

An exception that a handler lets through leaves a slot in its connection's thread, and
that is the end of the server's process: no handler is there any more, and no connection
is accepted. What is on the way to the programs may still arrive, with what the handler
wrote before it threw.

As in `Desktops`, requests and responses travel as values, and each request is handled as
a whole.

A socket is taken for what `QTcpSocket` says of it. What is written to one that is
connecting waits, and what is written to one that is not goes nowhere. One that is
disconnected while it is connecting is so once it is connected. None is read from once it
has been disconnected.
-/

namespace SockEtOut

open Lib System

/-- The states of a client's `QTcpSocket`. -/
inductive Socket where
  | unconnected
  /-- With what waits to be written, and whether it is to be closed when it is connected. -/
  | connecting (written : List RequestMessage) (pendingClose : Bool)
  /-- To the handler with a number. -/
  | connected (conn : Nat)
  deriving DecidableEq

namespace TcpClient

def connectToServer : Socket → Socket
  | .unconnected => .connecting [] false
  | socket => socket

def disconnectFromServer : Socket → Socket
  | .connecting written _ => .connecting written true
  | .unconnected | .connected _ => .unconnected

end TcpClient

/-- A user's program and its socket. -/
structure Party where
  socket : Socket
  state : Except Fault Application

/-- What is left when something has happened: of a program that has ended, no socket. -/
def Party.after (socket : Socket) : Except Fault Application → Party
  | .error fault => ⟨.unconnected, .error fault⟩
  | .ok a => ⟨socket, .ok a⟩

structure Parties where
  tcp : TcpServer
  /-- Whether the server's process is there. -/
  running : Bool
  /-- What has been sent on each connection and the server has not handled, oldest first. -/
  requests : Nat → List RequestMessage
  /-- What is on the way to the client's end of each connection, oldest first. -/
  frames : Nat → List Response
  party : Nat → Party

namespace Parties

def new : Parties where
  tcp := .new
  running := true
  requests _ := []
  frames _ := []
  party _ := ⟨.unconnected, .ok .new⟩

inductive Event where
  /-- `ConnectionWindow::on_submit`, the fields being valid. -/
  | submit (p : Nat)
  /-- The server accepts the connection that a program is waiting for. -/
  | connected (p : Nat)
  /-- Something happens at a program that is not a response. -/
  | click (p : Nat) (event : Application.Event)
  /-- A handler takes the oldest message of its connection. -/
  | handle (conn : Nat) (draws : Draws)
  /-- A program takes in the oldest frame on the way to it. -/
  | deliver (p : Nat)
  /-- A program's socket finds its connection ended, or that there will be none. -/
  | lost (p : Nat)
  /-- A handler's socket finds its connection ended. -/
  | ended (conn : Nat)

def put (w : Parties) (p : Nat) (x : Party) : Parties :=
  { w with party := Function.update w.party p x }

/-- What a slot has written, if anything: `QTcpSocket::write`. -/
def write (w : Parties) (p : Nat) (m : Option RequestMessage) : Parties :=
  match (w.party p).socket with
  | .unconnected => w
  | .connecting written pendingClose =>
      w.put p { w.party p with socket := .connecting (written ++ m.toList) pendingClose }
  | .connected conn =>
      { w with requests := Function.update w.requests conn (w.requests conn ++ m.toList) }

def click [Qt] (w : Parties) (p : Nat) (event : Application.Event) : Option Parties :=
  match (w.party p).state with
  | .error _ => none
  | .ok a =>
      (a.react event).map fun
        | .error fault => w.put p (.after (w.party p).socket (.error fault))
        | .ok (b, m) =>
            let socket :=
              if Desktops.disconnects event then TcpClient.disconnectFromServer (w.party p).socket
              else (w.party p).socket
            (w.put p (.after socket (.ok b))).write p m

/-- The handler's number is new, and so is what is on the way on its connection. -/
def accept (w : Parties) (p : Nat) (written : List RequestMessage) (pendingClose : Bool) :
    Parties where
  tcp := w.tcp.incomingConnection
  running := w.running
  requests := Function.update w.requests w.tcp.accepted written
  frames := Function.update w.frames w.tcp.accepted []
  party := Function.update w.party p
    { w.party p with
      socket := if pendingClose then .unconnected else .connected w.tcp.accepted }

def call (w : Parties) (conn : Nat) (draws : Draws) : Option Server.Call :=
  (w.requests conn).head?.map fun m => ⟨conn, m.request, draws⟩

/-- Whether a message is printed and handled, and what that writes printed, without an exception. -/
def survives [External] (w : Parties) (conn : Nat) (m : RequestMessage) (draws : Draws) : Bool :=
  let handled := w.tcp.server.receive ⟨conn, m.request, draws⟩
  m.prints && handled.outcome = .returned () && handled.written.all fun p => p.2.prints

/-- What is written before an exception: of a message that does not print, nothing. -/
def written [External] (w : Parties) (conn : Nat) (m : RequestMessage) (draws : Draws) :
    List (Nat × Response) :=
  if m.prints then
    (w.tcp.server.receive ⟨conn, m.request, draws⟩).written.takeWhile fun p => p.2.prints
  else []

/-- The server's process is gone, and its handlers with it. -/
def crash (w : Parties) : Parties :=
  { w with tcp := { w.tcp with handlers := [] }, running := false }

def step [External] [Qt] (w : Parties) : Event → Option Parties
  | .submit p =>
      match (w.party p).state with
      | .error _ => none
      | .ok a => some (w.put p (.after (TcpClient.connectToServer (w.party p).socket) (.ok a)))
  | .connected p =>
      match (w.party p).socket with
      | .connecting written pendingClose =>
          if w.running then some (w.accept p written pendingClose) else none
      | .unconnected | .connected _ => none
  | .click p event => if Desktops.isClick event then w.click p event else none
  | .handle conn draws => do
      let m ← (w.requests conn).head?
      let tcp ← w.tcp.step (.request ⟨conn, m.request, draws⟩)
      let after : Parties :=
        { w with
          tcp
          requests := Function.update w.requests conn (w.requests conn).tail
          frames := fun c => w.frames c ++ framesFor c (w.written conn m draws) }
      pure (if w.survives conn m draws then after else after.crash)
  | .deliver p =>
      match (w.party p).socket, (w.party p).state with
      | .connected conn, .ok a =>
          match w.frames conn with
          | [] => none
          | r :: rs => some
              { w.put p (.after (.connected conn) (a.receive r)) with
                frames := Function.update w.frames conn rs }
      | _, _ => none
  | .lost p => some (w.put p { w.party p with socket := .unconnected })
  | .ended conn => (w.tcp.step (.disconnected conn)).map fun tcp => { w with tcp }

def system [External] [Qt] : System Parties Event where
  init := .new
  step := step

/-- A guard on the calls of the server. -/
def Calls (K : Server → Server.Call → Prop) (w : Parties) : Event → Prop
  | .handle conn draws => ∀ call ∈ w.call conn draws, K w.tcp.server call
  | _ => True

instance decidableCalls {K : Server → Server.Call → Prop} [∀ s call, Decidable (K s call)]
    (w : Parties) (event : Event) : Decidable (Calls K w event) := by
  unfold Calls
  split <;> infer_instance

end Parties

end SockEtOut
