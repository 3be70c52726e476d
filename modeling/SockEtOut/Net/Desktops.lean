import SockEtOut.Client.Application
import SockEtOut.Net.Exchange

/-!
# The server and the programs in front of its users

The exchange with the whole program at each client's end. Nobody writes a request any
more: it is written when something is clicked, and it is the one that the slot makes of
what is on the screen at that moment. Everyone clicks whenever they like, and frames wait
in between.

A program stays with its connection here. One that disconnects and connects again, and is
someone else's connection then, is not followed.

Requests and responses travel as values: each frame arrives whole and in an arrival of its
own, and is decoded to what was written, as it is where what is written fits its counts and
its header. A handler runs to its end before another one begins.
-/

namespace SockEtOut

open Lib System

structure Desktops where
  server : Server
  /-- What each program has written and the server has not handled, oldest first. -/
  requests : Nat → List RequestMessage
  clients : Nat → Inbox Fault Application Response

namespace Desktops

def new : Desktops where
  server := .new
  requests _ := []
  clients _ := ⟨.ok .new, []⟩

inductive Event where
  /-- Something happens at a program that is not a response. -/
  | click (conn : Nat) (event : Application.Event)
  /-- The server handles the oldest message of a connection. -/
  | handle (conn : Nat) (draws : Draws)
  /-- A program takes in the oldest frame on the way to it. -/
  | deliver (conn : Nat)

/-- A response comes from the server. -/
def isClick : Application.Event → Bool
  | .received _ => false
  | _ => true

/-- The buttons whose slots call `disconnectFromServer`. -/
def disconnects : Application.Event → Bool
  | .disconnect | .registrationDisconnect => true
  | _ => false

def call (d : Desktops) (conn : Nat) (draws : Draws) : Option Server.Call :=
  (d.requests conn).head?.map fun m => ⟨conn, m.request, draws⟩

/-- The program at a connection is replaced. -/
def put (d : Desktops) (conn : Nat) (state : Except Fault Application) : Desktops :=
  { d with clients := Function.update d.clients conn { d.clients conn with state } }

/-- What a slot has written goes to the end. -/
def write (d : Desktops) (conn : Nat) (m : Option RequestMessage) : Desktops :=
  { d with requests := Function.update d.requests conn (d.requests conn ++ m.toList) }

def click [Qt] (d : Desktops) (conn : Nat) (event : Application.Event) : Option Desktops :=
  match (d.clients conn).state with
  | .error _ => none
  | .ok a =>
      (a.react event).map fun
        | .error fault => d.put conn (.error fault)
        | .ok (b, m) => (d.put conn (.ok b)).write conn m

def step [External] [Qt] (d : Desktops) : Event → Option Desktops
  | .click conn event => if isClick event then d.click conn event else none
  | .handle conn draws => do
      let call ← d.call conn draws
      let server ← d.server.step call
      pure
        { server
          requests := Function.update d.requests conn (d.requests conn).tail
          clients := fun c => (d.clients c).send (framesFor c (d.server.receive call).written) }
  | .deliver conn =>
      ((d.clients conn).deliver Application.receive).map fun client =>
        { d with clients := Function.update d.clients conn client }

def system [External] [Qt] : System Desktops Event where
  init := .new
  step := step

/-- A guard on the calls of the server, while nobody disconnects. -/
def Calls (K : Server → Server.Call → Prop) (d : Desktops) : Event → Prop
  | .click _ event => disconnects event = false
  | .handle conn draws => ∀ call ∈ d.call conn draws, K d.server call
  | .deliver _ => True

instance {K : Server → Server.Call → Prop} [∀ s call, Decidable (K s call)] (d : Desktops)
    (event : Event) : Decidable (Calls K d event) := by
  unfold Calls
  split <;> infer_instance

end Desktops

end SockEtOut
