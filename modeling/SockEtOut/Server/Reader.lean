import SockEtOut.Net.Readers
import SockEtOut.Server.Handlers
import SockEtOut.Wire.Builds

/-!
# The reader of a connection's handler

`ClientHandler::on_read_data` makes a single pass. What it takes is decoded,
printed and handled, and what the handlers and slots write, to whatever
connection, is printed and encoded first. Nothing is guarded here either: an
exception leaves a slot in the thread of the connection, and that is the end of
the server.
-/

namespace SockEtOut

open Lib

namespace ClientHandler

/-- What an arrival finds: the server as all connections have left it, and what is drawn. -/
structure Found where
  server : Server
  draws : Draws
  drawn : UUID

/-- A server that has just started. -/
def Found.new : Found := ⟨.new, .ofByte 0 [], .ofByte 0⟩

variable [Nlohmann]

/-- The slots and handlers print what they write. -/
def writeData (build : Build) (e : Endian) (written : List (Nat × Response)) :
    Option (List (Nat × List UInt8)) :=
  written.mapM fun p =>
    if p.2.prints then (p.2.write build e).map fun bytes => (p.1, bytes) else none

/--
The body of a case: the server behind it and what has been written, if it comes
back. It does not from a handler that throws or waits for good.
-/
def react [External] (build : Build) (e : Endian) (conn : Nat) (found : Found) (f : Frame) :
    Option (Server × List (Nat × List UInt8)) := do
  let m ← RequestMessage.read build found.drawn f.operation f.payload
  if m.prints then
    let handled := found.server.receive ⟨conn, m.request, found.draws⟩
    match handled.outcome with
    | .returned _ => (writeData build e handled.written).map fun bytes => (handled.server, bytes)
    | _ => none
  else none

/--
A single pass: the frame dispatched, if one is, and the server, what has been
written and what the socket still holds, if it comes back.
-/
def onReadData [External] (build : Build) (e : Endian) (conn : Nat) (found : Found)
    (socket : List UInt8) :
    List Frame × Option ((Server × List (Nat × List UInt8)) × List UInt8) :=
  drainWith (readFrame build) (fun _ f => react build e conn found f) 1 (found.server, []) socket

/-- The reader, called for an arrival. -/
def reads [External] (build : Build) (e : Endian) (conn : Nat) (found : Found)
    (socket : List UInt8) : List Frame × Option (List UInt8) :=
  let read := onReadData build e conn found socket
  (read.1, read.2.map Prod.snd)

/-- It is a single pass, with the body as its reaction. -/
theorem reads_eq [External] (build : Build) (e : Endian) (conn : Nat) :
    reads build e conn = reacting (once (readFrame build))
      (fun found _ f => react build e conn found f) fun found => (found.server, []) := by
  funext found socket
  rw [reads, onReadData, drainWith_eq, reacting, once_eq_drain, Option.map_map]
  rfl

end ClientHandler

end SockEtOut
