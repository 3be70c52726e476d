import SockEtOut.Wire.Serializable

/-!
# Messages in either build

`serialize_msg` and `deserialize` of the fourteen classes with the build as an
argument, the payload being what the build makes of it. `none` is the exception
that `to_json` or `from_json` throws, or a read past the end.
-/

namespace SockEtOut

open Lib

/-- What a request asks for: the fields its handler takes. -/
def RequestMessage.request : RequestMessage → Request
  | .registerAccount m => .registerAccount m.username m.password m.displayName
  | .login m => .login m.username m.password
  | .listAccounts m => .listAccounts m.regex
  | .deleteAccount m => .deleteAccount m.username m.password
  | .createChannel m => .createChannel m.channelName m.members
  | .sendMessage m => .sendMessage m.senderUid m.channelUid m.text
  | .deleteMessage m => .deleteMessage m.messageSnowflake

section

variable [Nlohmann]

/-- `serialize_msg` into an empty buffer: a header with `size()`, and the payload behind it. -/
def Object.serializeMsg (build : Build) (e : Endian) (operation : Operation) (o : Object) :
    Option (List UInt8) := do
  let size ← (Serializable.object o).size build
  let header : Header := ⟨build.protocolVersion, operation.code, UInt16.ofNat size⟩
  (Serializable.object o).serialize build e (header.serialize [])

/-- What is behind the header. -/
def Object.payload (build : Build) (e : Endian) (o : Object) : Option (List UInt8) :=
  (Serializable.object o).serialize build e []

namespace RequestMessage

/-- No request has a field whose bytes depend on the machine. -/
def payload (build : Build) (m : RequestMessage) : Option (List UInt8) :=
  (Object.request m).payload build .little

def write (build : Build) (m : RequestMessage) : Option (List UInt8) :=
  (Object.request m).serializeMsg build .little m.operation

/-- A new object of the class that the server's switch has for an operation, read into. -/
def read (build : Build) (drawn : UUID) (operation : Operation) (payload : List UInt8) :
    Option RequestMessage :=
  match build with
  | .custom => (deserialize operation payload 0).map Prod.fst
  | .json => fromJson drawn operation payload

end RequestMessage

namespace Response

def payload (build : Build) (e : Endian) (r : Response) : Option (List UInt8) :=
  (Object.response r).payload build e

def write (build : Build) (e : Endian) (r : Response) : Option (List UInt8) :=
  (Object.response r).serializeMsg build e r.operation

/-- A new object of the class that the client's switch has for an operation, read into. -/
def read (build : Build) (e : Endian) (drawn : UUID) (operation : Operation)
    (payload : List UInt8) : Option Response :=
  match build with
  | .custom => (deserialize e drawn operation payload 0).map Prod.fst
  | .json => fromJson drawn operation payload

/-- What of a response arrives. -/
def arrived (r : Response) : Build → Response
  | .custom => r.wire
  | .json => r.profiles

end Response

/-! ## The frame that is written -/

/-- The header is written from `size`, which is the payload's length. -/
theorem Object.serializeMsg_eq {build : Build} {e : Endian} {o : Object} {p : List UInt8}
    (operation : Operation) (ho : ∀ c, o ≠ .channel c) (hp : o.payload build e = some p) :
    o.serializeMsg build e operation
      = some (Header.serialize ⟨build.protocolVersion, operation.code, UInt16.ofNat p.length⟩ []
          ++ p) := by
  cases build with
  | custom =>
      obtain rfl := Option.some.inj hp
      show some (o.serializeCustom e _) = _
      rw [o.serializeCustom_append, o.length_serializeCustom e]
  | json =>
      have hjson : o.toJson = some p := by
        obtain ⟨msg, hmsg, hnil⟩ := Option.map_eq_some_iff.mp hp
        rw [hmsg, ← hnil]
        rfl
      have hsize : (Serializable.object o).size .json = some p.length := by
        cases o with
        | channel c => exact absurd rfl (ho c)
        | user u | message m | request m | response r =>
            exact (congrArg (Option.map List.length) hjson).trans rfl
      unfold Object.serializeMsg
      rw [hsize]
      show o.toJson.map _ = _
      rw [hjson]
      rfl

theorem Object.payload_of_serializeMsg {build : Build} {e : Endian} {o : Object}
    {operation : Operation} {bytes : List UInt8}
    (h : o.serializeMsg build e operation = some bytes) : ∃ p, o.payload build e = some p := by
  cases build with
  | custom => exact ⟨_, rfl⟩
  | json =>
      obtain ⟨size, -, hwritten⟩ := Option.bind_eq_some_iff.mp h
      obtain ⟨msg, hmsg, -⟩ := Option.map_eq_some_iff.mp hwritten
      exact ⟨msg, by rw [Object.payload, Serializable.serialize, hmsg]; rfl⟩

/-- A frame with an operation and the payload of an object. -/
theorem Object.write_frame {build : Build} {e : Endian} {o : Object} (f : Frame)
    (ho : ∀ c, o ≠ .channel c) (hp : o.payload build e = some f.payload) :
    o.serializeMsg build e f.operation = some (f.bytes build) :=
  Object.serializeMsg_eq f.operation ho hp

end

theorem RequestMessage.operation_handled (m : RequestMessage) : m.operation.handled = true := by
  cases m <;> rfl

theorem Response.operation_handled (r : Response) : r.operation.handled = true := by
  cases r <;> rfl

end SockEtOut
