import SockEtOut.Server.Handlers

/-!
# Connections that come and go

`Server` has a handler behind every number from the start and for ever. Here a handler is
there from `incomingConnection`, which starts it with no user on a thread of its own, until
its socket is disconnected and `on_disconnected` has it deleted. With it go its user and
its Qt connections, so that no signal finds it any more. The next connection is another
handler, whoever it is.

What a thread still has to do when its handler goes is left out.
-/

namespace SockEtOut

open Lib

structure TcpServer where
  server : Server
  /-- The handlers there are. -/
  handlers : List Nat
  /-- How many there have been. -/
  accepted : Nat

namespace TcpServer

def new : TcpServer where
  server := .new
  handlers := []
  accepted := 0

/-- `handle_client` starts a handler with no user and none of its slots connected. -/
def incomingConnection (t : TcpServer) : TcpServer where
  server := { t.server with
    authenticatedUser := Function.update t.server.authenticatedUser t.accepted none }
  handlers := t.accepted :: t.handlers
  accepted := t.accepted + 1

/-- `ClientHandler::on_disconnected`, once the handler is deleted. -/
def onDisconnected (t : TcpServer) (conn : Nat) : TcpServer :=
  { t with
    server := { t.server with
      authenticatedUser := Function.update t.server.authenticatedUser conn none
      slots := t.server.slots.filter fun slot => slot.receiver ≠ conn }
    handlers := t.handlers.filter (· ≠ conn) }

inductive Event where
  | incomingConnection
  | request (call : Server.Call)
  | disconnected (conn : Nat)

def step [External] (t : TcpServer) : Event → Option TcpServer
  | .incomingConnection => some t.incomingConnection
  | .request call =>
      if call.conn ∈ t.handlers then (t.server.step call).map fun server => { t with server }
      else none
  | .disconnected conn => if conn ∈ t.handlers then some (t.onDisconnected conn) else none

/-- Any connections, and any requests of those there are. -/
def system [External] : System TcpServer Event where
  init := .new
  step := step

end TcpServer

end SockEtOut
