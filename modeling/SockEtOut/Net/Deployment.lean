import SockEtOut.Client.Session
import SockEtOut.Lib.Inbox

/-!
# The server and its clients

Each connection has a client at its other end, and frames on their way to it. A
request is handled to completion by the server, and the frames it causes are put
in flight; the client takes them in whenever it gets to it, in order. Requests
come from connections, so a client's half of a request is not modelled.

A frame arrives as the response it carries. What the custom build's encoding does
to the snowflakes in a channel is the subject of `Proof.ChannelWire`; a session's
lists of messages start empty whatever those are.
-/

namespace SockEtOut

/-- One server, and behind every connection a client. -/
structure Deployment where
  server : Server
  clients : Nat → Lib.Inbox Exn Session Response

namespace Deployment

def new : Deployment where
  server := .new
  clients _ := ⟨.ok .new, []⟩

inductive Event where
  /-- A connection's request is handled by the server. -/
  | request (call : Server.Call)
  /-- A connection's client takes in one frame. -/
  | deliver (conn : Nat)

def step [External] (d : Deployment) : Event → Option Deployment
  | .request call =>
      (d.server.step call).map fun server =>
        { server
          clients := fun conn =>
            (d.clients conn).send (framesFor conn (d.server.receive call).written) }
  | .deliver conn =>
      ((d.clients conn).deliver Session.handle).map fun client =>
        { d with clients := Function.update d.clients conn client }

/-- Any requests, delivered at any pace. -/
def system [External] : Lib.System Deployment Event where
  init := .new
  step := step

end Deployment

end SockEtOut
