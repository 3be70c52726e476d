import SockEtOut.Client.Session
import SockEtOut.Net.Readers
import SockEtOut.Wire.Builds

/-!
# The client's reader and what it calls

`TcpClient::onReadyRead` with the bodies of its cases. A payload is decoded into a
new object of the operation's class, the object is printed, and the handler gets
it. None of this is guarded: an exception leaves the loop and the slot, and what
is still in the socket's buffer stays there.

Behaviour that is undefined counts as not coming back, like an exception.
-/

namespace SockEtOut

open Lib

/-- The frame `serialize_msg` writes, where the payload's length fits the header. -/
def Response.frame (e : Endian) (r : Response) (h : (r.serialize e []).length < 2 ^ 16) :
    Frame where
  operation := r.operation
  payload := r.serialize e []
  handled := by cases r <;> rfl
  length_lt := h

namespace TcpClient

section

variable [Nlohmann]

/-- The body of a case: the session behind it, if it comes back. -/
def react (build : Build) (e : Endian) (drawn : UUID) (session : Session) (f : Frame) :
    Option Session := do
  let response ← Response.read build e drawn f.operation f.payload
  if response.prints then (session.handle response).toOption else none

/-- At most `n` passes of the loop: the frames dispatched, and what it leaves if it comes back. -/
def run (build : Build) (e : Endian) (drawn : UUID) (n : Nat) (session : Session)
    (socket : List UInt8) : List Frame × Option (Session × List UInt8) :=
  drainWith (readFrame build) (react build e drawn) n session socket

/-- Pass after pass until one stops. Each takes bytes, so their number bounds the passes. -/
def onReadyRead (build : Build) (e : Endian) (drawn : UUID) (session : Session)
    (socket : List UInt8) : List Frame × Option (Session × List UInt8) :=
  run build e drawn (socket.length + 1) session socket

end

/--
What an arrival finds at a client: the session, which the windows may have changed
since the last one, and what its new objects draw.
-/
structure Found where
  session : Session
  drawn : UUID

/-- A client that has just started. -/
def Found.new : Found := ⟨.new, .ofByte 0⟩

variable [Nlohmann]

/-- The reader, called for an arrival. -/
def reads (build : Build) (e : Endian) (found : Found) (socket : List UInt8) :
    List Frame × Option (List UInt8) :=
  let read := onReadyRead build e found.drawn found.session socket
  (read.1, read.2.map Prod.snd)

/-- It is the loop over the passes, with the bodies as reactions. -/
theorem reads_eq (build : Build) (e : Endian) :
    reads build e = reacting (drainAll (readFrame build)) (fun found => react build e found.drawn)
      Found.session := by
  funext found socket
  rw [reads, onReadyRead, run, drainWith_eq, reacting, drainAll, Option.map_map]
  rfl

end TcpClient

/-! ## Frames of responses -/

/-- The header is written from `size`, which is the payload's length. -/
theorem Response.serializeMsg_eq (e : Endian) (r : Response)
    (h : (r.serialize e []).length < 2 ^ 16) :
    r.serializeMsg e [] = (r.frame e h).bytes .custom := by
  rw [Response.serializeMsg, SockEtOut.serializeMsg, Frame.bytes, r.serialize_append,
    ← r.length_serialize e]
  rfl

end SockEtOut
