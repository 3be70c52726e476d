import SockEtOut.Proof.RoundTrips

/-!
# Responses between machines of different byte order

The lengths, the header and the snowflake of a deletion are written a byte at a time
and mean the same everywhere. The three numbers of a message are copied from memory.
A machine of the other order takes them in backwards, and nothing else: every length
is one byte, so it finds all the other fields where they are.
-/

namespace SockEtOut

open Lib Reader

/-- A message whose three numbers have been through the memory of the other kind of machine. -/
def Message.swapped (m : Message) : Message :=
  { m with
    snowflake := Word.swap m.snowflake
    createdAt := Word.swap m.createdAt
    modifiedAt := Word.swap m.modifiedAt }

namespace Response

/-- The message in a response, if there is one. -/
def message? : Response → Option Message
  | .sendMessage (.ok message) | .deleteMessage (.ok message) => some message
  | _ => none

def swapped : Response → Response
  | .sendMessage data => .sendMessage (data.map Message.swapped)
  | .deleteMessage data => .deleteMessage (data.map Message.swapped)
  | r => r

end Response

namespace Proof

/-- The numbers of a message in the order of its fields. -/
def numbers (m : Message) : List UInt64 := [m.snowflake, m.createdAt, m.modifiedAt]

theorem swapped_eq_self_iff (m : Message) :
    m.swapped = m ↔ ∀ n ∈ numbers m, (Word.toBytes n).reverse = Word.toBytes n := by
  have hfields : m.swapped = m ↔ Word.swap m.snowflake = m.snowflake
      ∧ Word.swap m.createdAt = m.createdAt ∧ Word.swap m.modifiedAt = m.modifiedAt := by
    cases m
    simp [Message.swapped]
  rw [hfields, numbers]
  simp [Word.swap_eq_self_iff]

theorem response_swapped_eq_self_iff (r : Response) :
    r.swapped = r ↔ ∀ m, r.message? = some m → m.swapped = m := by
  cases r with
  | sendMessage data | deleteMessage data =>
      cases data with
      | ok message => simp [Response.swapped, Response.message?, Except.map]
      | error error => simp [Response.swapped, Response.message?, Except.map]
  | _ => simp [Response.swapped, Response.message?]

/-! ## What the other machine reads -/

theorem reads_swapped_word {e e' : Endian} (hne : e ≠ e') (n : UInt64) :
    Reads (Message.readWord e') (e.bytes n) (Word.swap n) := by
  have hbytes := (reads_range (e.length_bytes n)).map e'.word
  rwa [Endian.word_bytes_of_ne hne] at hbytes

theorem reads_swapped_message {e e' : Endian} (hne : e ≠ e') (m : Message) (h : m.Counted) :
    Reads (Message.deserialize e') (m.serialize e []) m.swapped := by
  obtain ⟨htext, hreadBy⟩ := h
  have hreadBy' := reads_times (toNat_count hreadBy) fun u _ => reads_uuid u
  rw [List.map_id'] at hreadBy'
  rw [Message.serialize_eq, List.nil_append]
  refine (reads_uuid m.senderId).bind ?_
  refine (reads_uuid m.channelId).bind ?_
  refine (reads_swapped_word hne m.snowflake).bind ?_
  refine (reads_swapped_word hne m.createdAt).bind ?_
  refine (reads_swapped_word hne m.modifiedAt).bind ?_
  refine (reads_next _).bind ?_
  refine (reads_range (toNat_count htext)).bind ?_
  refine (reads_next _).bind ?_
  exact hreadBy'.map _

/-- The classes without a message have the same bytes and the same decoder on both machines. -/
theorem decodes_swapped {e e' : Endian} (hne : e ≠ e') (drawn : UUID) (r : Response)
    (h : r.Counted) :
    Decodes (Response.deserialize e' drawn r.operation) (r.serialize e []) r.swapped.wire := by
  cases r with
  | registerAccount data => exact decodes_response e' drawn (.registerAccount data) h
  | login data => exact decodes_response e' drawn (.login data) h
  | listAccounts data => exact decodes_response e' drawn (.listAccounts data) h
  | deleteAccount data => exact decodes_response e' drawn (.deleteAccount data) h
  | createChannel data => exact decodes_response e' drawn (.createChannel data) h
  | sendMessage data =>
      have hdata : Reads (deserializeData (Message.deserialize e'))
          (serializeData (Message.serialize e) data []) (data.map Message.swapped) :=
        reads_data (Message.serialize_append e)
          (by rintro message rfl; exact reads_swapped_message hne message h)
          (by rintro error rfl; exact h)
      exact ((hdata.map SendMessageResponse.mk).map _).decodes
  | deleteMessage data =>
      have hdata : Decodes (deserializeDataAt (Message.deserialize e'))
          (serializeData (Message.serialize e) data []) (data.map Message.swapped) :=
        decodes_dataAt (Message.serialize_append e)
          (by rintro message rfl; exact reads_swapped_message hne message h)
          (by rintro error rfl; exact h)
      exact (hdata.map DeleteMessageResponse.mk).map _

/-- What does not travel has nothing to do with the byte order. -/
theorem wire_swapped (r : Response) : r.swapped.wire = r.wire ↔ r.swapped = r := by
  cases r <;> simp [Response.swapped, Response.wire]

/--
**Byte orders.** Between machines of different byte order, of a response comes back what
comes back between machines of one order, but for the three numbers of its message, each
with its bytes in the other order. So it makes no difference exactly when it carries no
message or each of these numbers reads the same from both ends.
-/
theorem response_between_byte_orders {e e' : Endian} (hne : e ≠ e') (drawn : UUID) (r : Response)
    (h : r.Counted) :
    Response.deserialize e' drawn r.operation (r.serialize e []) 0
        = some (r.swapped.wire, (r.serialize e []).length)
      ∧ (Response.deserialize e' drawn r.operation (r.serialize e []) 0
          = Response.deserialize e drawn r.operation (r.serialize e []) 0
        ↔ ∀ m, r.message? = some m →
            ∀ n ∈ numbers m, (Word.toBytes n).reverse = Word.toBytes n) := by
  have hother := decodes_swapped hne drawn r h []
  have hsame := decodes_response e drawn r h []
  rw [List.append_nil] at hother hsame
  refine ⟨hother, ?_⟩
  rw [Yields] at hother hsame
  rw [hother, hsame, Option.some.injEq, Prod.mk.injEq, wire_swapped, response_swapped_eq_self_iff]
  simp only [swapped_eq_self_iff, and_true]

/-- A message of snowflake 1 and of the time 256, between a little and a big endian machine. -/
theorem response_between_byte_orders_one :
    Response.deserialize .big (.ofByte 0) .sendMessage
        ((Response.sendMessage (.ok ⟨1, .ofByte 1, .ofByte 2, 256, 256, [], lit "hi"⟩)).serialize
          .little []) 0
      = some (.sendMessage (.ok ⟨0x0100000000000000, .ofByte 1, .ofByte 2, 0x0001000000000000,
          0x0001000000000000, [], lit "hi"⟩), 61) :=
  (@response_between_byte_orders .little .big (by decide) (.ofByte 0)
    (.sendMessage (.ok ⟨1, .ofByte 1, .ofByte 2, 256, 256, [], lit "hi"⟩))
    ⟨by decide, by decide⟩).1

end Proof

end SockEtOut
