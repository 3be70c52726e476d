import SockEtOut.Lib.Simulation
import SockEtOut.Net.Deployment
import SockEtOut.Wire.Builds

/-!
# Messages in flight both ways

The deployment with the clients' half of the requests: a client writes a message, and
some time later the server handles the oldest one that the client has written and it
has not handled. Nothing is lost, copied or overtaken on a connection, either way.

That is what the two ends of a connection are for. What the program has is bytes.
-/

namespace SockEtOut

open Lib System

structure Exchange where
  server : Server
  /-- What each client has written and the server has not handled, oldest first. -/
  requests : Nat → List RequestMessage
  clients : Nat → Inbox Exn Session Response

namespace Exchange

def new : Exchange where
  server := .new
  requests _ := []
  clients _ := ⟨.ok .new, []⟩

inductive Event where
  /-- A connection's client writes a message. -/
  | write (conn : Nat) (m : RequestMessage)
  /-- The server handles the oldest message of a connection. -/
  | handle (conn : Nat) (draws : Draws)
  /-- A connection's client takes in the oldest frame. -/
  | deliver (conn : Nat)

/-- The call that handling the oldest message of a connection is. -/
def call (x : Exchange) (conn : Nat) (draws : Draws) : Option Server.Call :=
  (x.requests conn).head?.map fun m => ⟨conn, m.request, draws⟩

def step [External] (x : Exchange) : Event → Option Exchange
  | .write conn m =>
      some { x with requests := Function.update x.requests conn (x.requests conn ++ [m]) }
  | .handle conn draws => do
      let call ← x.call conn draws
      let server ← x.server.step call
      pure
        { server
          requests := Function.update x.requests conn (x.requests conn).tail
          clients := fun c => (x.clients c).send (framesFor c (x.server.receive call).written) }
  | .deliver conn =>
      ((x.clients conn).deliver Session.handle).map fun client =>
        { x with clients := Function.update x.clients conn client }

def system [External] : System Exchange Event where
  init := .new
  step := step

/-- A guard on the calls of the server. -/
def Calls (K : Server → Server.Call → Prop) (x : Exchange) : Event → Prop
  | .handle conn draws => ∀ call ∈ x.call conn draws, K x.server call
  | .write .. | .deliver _ => True

end Exchange

namespace Deployment

/-- The same guard on the requests of a deployment. -/
def Calls (K : Server → Server.Call → Prop) (d : Deployment) : Event → Prop
  | .request call => K d.server call
  | .deliver _ => True

end Deployment

/-- The deployment is the exchange without what the clients have written. -/
def Exchange.Forgets (x : Exchange) (d : Deployment) : Prop :=
  x.server = d.server ∧ x.clients = d.clients

/-- **An exchange is a deployment**, whose requests come from somewhere. -/
theorem Exchange.simulates [External] (K : Server → Server.Call → Prop) :
    Simulates Exchange.system (Exchange.Calls K) Deployment.system (Deployment.Calls K)
      Exchange.Forgets where
  init := ⟨rfl, rfl⟩
  step := by
    rintro x x' event ⟨server, clients⟩ - - ⟨hserver, hclients⟩ hg hs
    cases hserver
    cases hclients
    cases event with
    | write conn m =>
        cases hs
        exact ⟨_, .stay, rfl, rfl⟩
    | handle conn draws =>
        obtain ⟨call, hcall, hs⟩ := Option.bind_eq_some_iff.mp hs
        obtain ⟨server, hserver, hs⟩ := Option.bind_eq_some_iff.mp hs
        cases hs
        refine ⟨⟨server, fun c => (x.clients c).send (framesFor c (x.server.receive call).written)⟩,
          .one (b := .request call) (hg call hcall) ?_, rfl, rfl⟩
        show (x.server.step call).map _ = _
        rw [hserver]
        rfl
    | deliver conn =>
        obtain ⟨client, hclient, rfl⟩ := Option.map_eq_some_iff.mp hs
        refine ⟨⟨x.server, Function.update x.clients conn client⟩,
          .one (b := .deliver conn) trivial ?_, rfl, rfl⟩
        show ((x.clients conn).deliver Session.handle).map _ = _
        rw [hclient]
        rfl

end SockEtOut
