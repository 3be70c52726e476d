import SockEtOut.Client.Reader

/-!
# One connection, from a login on

The server handles a login and then whatever comes, from any connection; what it
writes to the connection of the login is kept, in order. At the other end each
frame is decoded as its build does it, printed and handled. The server prints as
well, before it writes.

Here a frame arrives by itself: one whose payload is longer than a header can say
arrives as none, and neither does anything after it.
-/

namespace SockEtOut

open Lib

/-- The server, and what it has written to one connection. -/
structure Connection where
  server : Server
  written : List Response

namespace Connection

def step [External] (conn : Nat) (k : Connection) (call : Server.Call) : Option Connection :=
  (k.server.step call).map fun server =>
    { server, written := k.written ++ framesFor conn (k.server.receive call).written }

/-- From the login of `conn` on. -/
def system [External] (s : Server) (conn : Nat) (username password : Str) :
    System Connection Server.Call where
  init :=
    { server := (s.onLogin conn username password).server
      written := framesFor conn (s.onLogin conn username password).written }
  step := step conn

end Connection

namespace TcpClient

variable [Nlohmann]

/-- The session behind a frame, if the frame is written and arrives and the loop comes back. -/
def takeIn (build : Build) (e : Endian) (drawn : UUID) (session : Session) (r : Response) :
    Option Session :=
  if r.prints then
    match r.payload build e with
    | none => none
    | some payload =>
        if h : payload.length < 2 ^ 16 then
          react build e drawn session ⟨r.operation, payload, r.operation_handled, h⟩
        else none
  else none

end TcpClient

end SockEtOut
