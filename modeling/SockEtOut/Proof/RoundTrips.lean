import SockEtOut.Wire.Packets

/-!
# Round trips of the binary encoding

What is decoded from the bytes of a request or a response, class by class, put
together over the seven classes of each. A request comes back as it was; of a
response comes back what `Response.wire` says travels, which is all of it but the
channels of a user and the upper bytes of a channel's snowflakes.
-/

namespace SockEtOut.Proof

open Lib Reader

/-! ## A decoder makes objects of its own class -/

theorem operation_of_deserialize {operation : Operation} {buf : List UInt8} {m : RequestMessage}
    {offset offset' : Nat}
    (h : Yields (RequestMessage.deserialize operation) buf offset m offset') :
    m.operation = operation := by
  cases operation with
  | registerAccount | login | listAccounts | deleteAccount | createChannel | sendMessage
  | deleteMessage =>
      obtain ⟨m, o, -, hpure⟩ := Yields.of_bind h
      cases hpure
      rfl
  | _ => cases h

theorem operation_of_deserialize_response {e : Endian} {drawn : UUID} {operation : Operation}
    {buf : List UInt8} {r : Response} {offset offset' : Nat}
    (h : Yields (Response.deserialize e drawn operation) buf offset r offset') :
    r.operation = operation := by
  cases operation with
  | registerAccount | login | listAccounts | deleteAccount | createChannel | sendMessage
  | deleteMessage =>
      obtain ⟨r, o, -, hpure⟩ := Yields.of_bind h
      cases hpure
      rfl
  | _ => cases h

/-! ## Requests -/

theorem decodes_request (m : RequestMessage) (h : m.Counted) :
    Decodes (RequestMessage.deserialize m.operation) (m.serialize []) m := by
  cases m with
  | registerAccount m => exact (decodes_registerAccount m h.1 h.2.1 h.2.2).map _
  | login m => exact (decodes_login m h.1 h.2).map _
  | listAccounts m => exact (decodes_listAccounts m h).map _
  | deleteAccount m => exact (decodes_deleteAccount m h.1 h.2).map _
  | createChannel m => exact (decodes_createChannel m h.1 h.2).map _
  | sendMessage m => exact (decodes_sendMessage m h).map _
  | deleteMessage m => exact (decodes_deleteMessage m).map _

/--
**Requests round-trip.** Whatever follows its bytes, a request of any class comes
back as it was, and nothing behind its bytes is read.
-/
theorem request_round_trips (m : RequestMessage) (h : m.Counted) (t : List UInt8) :
    RequestMessage.deserialize m.operation (m.serialize [] ++ t) 0
      = some (m, (m.serialize []).length) :=
  decodes_request m h t

/-- A deletion of the largest snowflake there is, in front of a stray byte. -/
theorem request_round_trips_deletion :
    RequestMessage.deserialize .deleteMessage
        ((RequestMessage.deleteMessage ⟨.ofByte 7, 0xFFFFFFFFFFFFFFFF⟩).serialize [] ++ [9]) 0
      = some (.deleteMessage ⟨.ofByte 7, 0xFFFFFFFFFFFFFFFF⟩, 24) :=
  request_round_trips (.deleteMessage ⟨.ofByte 7, 0xFFFFFFFFFFFFFFFF⟩) trivial [9]

/-! ## Responses -/

/-- The error case of a new channel, next to `reads_success`. -/
theorem reads_createChannelError (drawn : UUID) {error : Str} (h : error.length ≤ 255) :
    Reads (CreateChannelResponse.deserialize drawn)
      ((CreateChannelResponse.mk (.error error)).serialize []) ⟨.error error⟩ := by
  have hbytes : (CreateChannelResponse.mk (.error error)).serialize []
      = [1] ++ ([UInt8.ofNat error.length] ++ error) := rfl
  rw [hbytes]
  refine (reads_next 1).bind ?_
  rw [if_neg (by decide)]
  refine (reads_next _).bind ?_
  exact (reads_range (toNat_count h)).map _

/-- What is decoded from a response, for every class and in both cases. -/
theorem decodes_response (e : Endian) (drawn : UUID) (r : Response) (h : r.Counted) :
    Decodes (Response.deserialize e drawn r.operation) (r.serialize e []) r.wire := by
  cases r with
  | registerAccount data =>
      have hdata : Reads (deserializeData (pure ())) (serializeData (fun _ buf => buf) data [])
          (data.map id) :=
        reads_data (fun _ buf => (List.append_nil buf).symm) (fun _ _ => reads_pure ())
          (by rintro error rfl; exact h)
      rw [Except.map_id, id] at hdata
      exact ((hdata.map RegisterAccountResponse.mk).map _).decodes
  | login data =>
      have hdata : Reads (deserializeData (User.default drawn).deserialize)
          (serializeData User.serialize data []) (data.map User.profile) :=
        reads_data User.serialize_append (by rintro user rfl; exact reads_user drawn user h)
          (by rintro error rfl; exact h)
      exact ((hdata.map LoginResponse.mk).map _).decodes
  | listAccounts data =>
      have hdata : Reads (deserializeData (ListAccountsResponse.deserializeUsers drawn))
          (serializeData ListAccountsResponse.serializeUsers data [])
          (data.map (List.map User.profile)) :=
        reads_data ListAccountsResponse.serializeUsers_append
          (by rintro users rfl; exact reads_users drawn h.1 h.2) (by rintro error rfl; exact h)
      exact ((hdata.map ListAccountsResponse.mk).map _).decodes
  | deleteAccount data =>
      have hdata : Decodes (deserializeDataAt (User.default drawn).deserialize)
          (serializeData User.serialize data []) (data.map User.profile) :=
        decodes_dataAt User.serialize_append (by rintro user rfl; exact reads_user drawn user h)
          (by rintro error rfl; exact h)
      exact (hdata.map DeleteAccountResponse.mk).map _
  | createChannel data =>
      cases data with
      | ok channel => exact ((reads_success drawn channel h.1 h.2.1 h.2.2).map _).decodes
      | error error => exact ((reads_createChannelError drawn h).map _).decodes
  | sendMessage data =>
      have hdata : Reads (deserializeData (Message.deserialize e))
          (serializeData (Message.serialize e) data []) (data.map id) :=
        reads_data (Message.serialize_append e)
          (by rintro message rfl; exact reads_message e message h) (by rintro error rfl; exact h)
      rw [Except.map_id, id] at hdata
      exact ((hdata.map SendMessageResponse.mk).map _).decodes
  | deleteMessage data =>
      have hdata : Decodes (deserializeDataAt (Message.deserialize e))
          (serializeData (Message.serialize e) data []) (data.map id) :=
        decodes_dataAt (Message.serialize_append e)
          (by rintro message rfl; exact reads_message e message h) (by rintro error rfl; exact h)
      rw [Except.map_id, id] at hdata
      exact (hdata.map DeleteMessageResponse.mk).map _

/--
**Responses round-trip.** Between machines of one byte order, a response of any
class comes back as what travels of it: the same case with the same error, users
or message. (Only a channel loses something: the upper bytes of its snowflakes.)
-/
theorem response_round_trips (e : Endian) (drawn : UUID) (r : Response) (h : r.Counted) :
    Response.deserialize e drawn r.operation (r.serialize e []) 0
      = some (r.wire, (r.serialize e []).length) := by
  have hdecodes := decodes_response e drawn r h []
  rwa [List.append_nil] at hdecodes

/-- Two users, one of them without a display name. -/
def twoUsers : List User :=
  [⟨.ofByte 1, lit "ada", lit "Ada", lit "pic", [.ofByte 9]⟩,
    ⟨.ofByte 2, lit "bob", [], lit "p", []⟩]

theorem response_round_trips_twoUsers :
    Response.deserialize .little (.ofByte 0) .listAccounts
        ((Response.listAccounts (.ok twoUsers)).serialize .little []) 0
      = some (.listAccounts (.ok (twoUsers.map User.profile)), 53) :=
  response_round_trips .little (.ofByte 0) (.listAccounts (.ok twoUsers))
    ⟨by decide, by decide⟩

end SockEtOut.Proof
