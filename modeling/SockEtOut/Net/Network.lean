import SockEtOut.Client.Reader
import SockEtOut.Client.Requests
import SockEtOut.Lib.Simulation
import SockEtOut.Net.Deployment
import SockEtOut.Server.Reader

/-!
# The server and its clients, byte by byte

Each connection is two streams of bytes. What one end writes goes to the end of a
stream; some bytes from its front arrive in the buffer of the other end's socket,
where its reader runs once for the arrival. TCP decides how many bytes that are.

At the server a pass takes one frame at most, decodes and prints the message and
handles it to completion. What that writes, to whatever connection, is printed and
encoded first. At the client the loop takes what frames there are. An exception at
either end is the end of the run.
-/

namespace SockEtOut

open Lib System

/--
A client, and the two streams of its connection, each with what is in flight and what
has arrived.
-/
structure Link where
  session : Session
  toServer : List UInt8
  /-- The buffer of the socket that the connection's handler reads. -/
  serverSocket : List UInt8
  toClient : List UInt8
  /-- The buffer of the socket that the client reads. -/
  clientSocket : List UInt8

def Link.new : Link where
  session := .new
  toServer := []
  serverSocket := []
  toClient := []
  clientSocket := []

structure Network where
  server : Server
  links : Nat → Link

variable [Nlohmann]

/-- The bytes for one connection among those for all, in order. -/
def bytesFor (conn : Nat) (written : List (Nat × List UInt8)) : List UInt8 :=
  (written.filter fun p => p.1 = conn).flatMap Prod.snd

namespace Network

def new : Network where
  server := .new
  links _ := .new

inductive Event where
  /-- A connection's client writes a message. -/
  | write (conn : Nat) (m : RequestMessage)
  /-- That many bytes arrive at the server's end of a connection. -/
  | atServer (conn n : Nat) (drawn : UUID) (draws : Draws)
  /-- That many bytes arrive at the client's end. -/
  | atClient (conn n : Nat) (drawn : UUID)

/-- The buffer of a connection's handler behind an arrival. -/
def serverBuffer (w : Network) (conn n : Nat) : List UInt8 :=
  (w.links conn).serverSocket ++ (w.links conn).toServer.take n

/-- The client's buffer behind an arrival. -/
def clientBuffer (w : Network) (conn n : Nat) : List UInt8 :=
  (w.links conn).clientSocket ++ (w.links conn).toClient.take n

/-- The frame that a pass takes at the server, if it takes one, and what it leaves. -/
def serverReads (build : Build) (w : Network) (conn n : Nat) : List Frame × List UInt8 :=
  once (readFrame build) (w.serverBuffer conn n)

/-- The links once a reader at the server has run and left `socket`. -/
def serverRead (w : Network) (conn n : Nat) (socket : List UInt8) : Nat → Link :=
  Function.update w.links conn
    { w.links conn with
      toServer := (w.links conn).toServer.drop n
      serverSocket := socket }

def step [External] (build : Build) (e : Endian) (w : Network) : Event → Option Network
  | .write conn m => do
      let bytes ← m.write build
      pure
        { w with
          links := Function.update w.links conn
            { w.links conn with toServer := (w.links conn).toServer ++ bytes } }
  | .atServer conn n drawn draws =>
      if n = 0 ∨ (w.links conn).toServer.length < n then none
      else do
        let ((server, written), socket) ← (ClientHandler.onReadData build e conn
          ⟨w.server, draws, drawn⟩ (w.serverBuffer conn n)).2
        pure
          { server
            links := fun c =>
              { w.serverRead conn n socket c with
                toClient := (w.serverRead conn n socket c).toClient ++ bytesFor c written } }
  | .atClient conn n drawn =>
      if n = 0 ∨ (w.links conn).toClient.length < n then none
      else do
        let (session, socket) ← (TcpClient.onReadyRead build e drawn (w.links conn).session
          (w.clientBuffer conn n)).2
        pure
          { w with
            links := Function.update w.links conn
              { w.links conn with
                session
                toClient := (w.links conn).toClient.drop n
                clientSocket := socket } }

def system [External] (build : Build) (e : Endian) : System Network Event where
  init := .new
  step := step build e

end Network

end SockEtOut
