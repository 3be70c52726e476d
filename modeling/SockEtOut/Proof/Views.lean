import SockEtOut.Proof.ClientView
import SockEtOut.Proof.JsonRoundTrips
import SockEtOut.Wire.Builds

/-!
# What a decoded response is to a session

On its way a response loses the channels of its users, and in the custom build most
of each snowflake in a channel. No handler looks at either: they end up in the session
as they arrived, and nothing else in it depends on them. So a session that is given
what arrives and one that is given what was written stay alike.
-/

namespace SockEtOut.Proof

open Lib Reader

variable {build : Build} {e : Endian} {s t s' : Session} {r : Response}

/-! ## Reading what was written -/

section

variable [Nlohmann]

theorem request_payload_json (m : RequestMessage) : m.payload .json = m.toJson := by
  show m.toJson.map (fun msg => [] ++ msg) = m.toJson
  cases m.toJson <;> rfl

theorem response_payload_json (r : Response) : r.payload .json e = r.toJson := by
  show r.toJson.map (fun msg => [] ++ msg) = r.toJson
  cases r.toJson <;> rfl

/-- A request is read as it was. -/
theorem read_request (hlib : DumpsAndParses) (drawn : UUID) {m : RequestMessage} {p : List UInt8}
    (hprints : m.prints = true) (hcounted : build = .custom → m.Counted)
    (hp : m.payload build = some p) : RequestMessage.read build drawn m.operation p = some m := by
  cases build with
  | custom =>
      obtain rfl := Option.some.inj hp
      have hread := decodes_request m (hcounted rfl) []
      rw [List.append_nil, Yields] at hread
      show (RequestMessage.deserialize m.operation (m.serialize []) 0).map Prod.fst = some m
      rw [hread]
      rfl
  | json =>
      rw [request_payload_json] at hp
      exact (request_survives hlib drawn m hprints).read hp

/-- A response is read as what arrives of it. -/
theorem read_response (hlib : DumpsAndParses) (drawn : UUID) {p : List UInt8}
    (hprints : r.prints = true) (hcounted : build = .custom → r.Counted)
    (hp : r.payload build e = some p) :
    Response.read build e drawn r.operation p = some (r.arrived build) := by
  cases build with
  | custom =>
      obtain rfl := Option.some.inj hp
      have hread := decodes_response e drawn r (hcounted rfl) []
      rw [List.append_nil, Yields] at hread
      show (Response.deserialize e drawn r.operation (r.serialize e []) 0).map Prod.fst
        = some r.wire
      rw [hread]
      rfl
  | json =>
      rw [response_payload_json] at hp
      exact (response_survives hlib drawn r hprints).read hp

end

/-! ## Sessions that are alike -/

/-- A channel without its list of snowflakes. -/
def outline (c : Channel) : Channel := { c with messageSnowflakes := [] }

/-- The same but for what does not arrive. -/
structure Alike (s t : Session) : Prop where
  user : s.authenticatedUser.map User.profile = t.authenticatedUser.map User.profile
  opened : s.openChannel = t.openChannel
  channels : ∀ c, (s.channels.lookup c).map outline = (t.channels.lookup c).map outline
  messages : s.channelMessages = t.channelMessages

theorem alike_refl (s : Session) : Alike s s := ⟨rfl, rfl, fun _ => rfl, rfl⟩

/-- A channel that one of them has the other has, under the same name and with the same members. -/
theorem Alike.channel (h : Alike s t) {c : UUID} {ch : Channel}
    (hc : s.channels.lookup c = some ch) :
    ∃ ch', t.channels.lookup c = some ch' ∧ outline ch = outline ch' := by
  have heq := h.channels c
  rw [hc] at heq
  obtain ⟨ch', hc', hout⟩ := Option.map_eq_some_iff.mp heq.symm
  exact ⟨ch', hc', hout.symm⟩

/-- Channels of one outline, stored under one key. -/
theorem outline_assign (h : Alike s t) (k : UUID) {ch ch' : Channel}
    (hout : outline ch = outline ch') (c : UUID) :
    ((s.channels.assign k ch).lookup c).map outline
      = ((t.channels.assign k ch').lookup c).map outline := by
  rw [Table.lookup_assign, Table.lookup_assign]
  split
  · exact congrArg some hout
  · exact h.channels c

theorem alike_createChannel (h : Alike s t) {ch ch' : Channel} (huid : ch.uid = ch'.uid)
    (hout : outline ch = outline ch') (hs : s.onCreateChannelResponse ch = .ok s') :
    ∃ t', t.onCreateChannelResponse ch' = .ok t' ∧ Alike s' t' := by
  have huser := h.user
  unfold Session.onCreateChannelResponse at hs ⊢
  split at hs
  · cases hs
  · rename_i user hsome
    cases hs
    rw [hsome] at huser
    obtain ⟨user', huser', hprofile⟩ := Option.map_eq_some_iff.mp huser.symm
    rw [huser']
    refine ⟨_, rfl, ?_⟩
    constructor
    · exact congrArg some hprofile.symm
    · exact congrArg some huid
    · intro c
      show ((s.channels.assign ch.uid ch).lookup c).map outline = _
      rw [huid]
      exact outline_assign h ch'.uid hout c
    · show s.channelMessages.assign ch.uid [] = t.channelMessages.assign ch'.uid []
      rw [h.messages, huid]

theorem alike_addMessage (h : Alike s t) (m : Message) (hs : s.addMessage m = .ok s') :
    ∃ t', t.addMessage m = .ok t' ∧ Alike s' t' := by
  unfold Session.addMessage at hs ⊢
  rw [← h.messages]
  split at hs
  · cases hs
    exact ⟨t, rfl, h⟩
  · split at hs
    · cases hs
    · rename_i messages hmessages ch hc
      cases hs
      obtain ⟨ch', hc', hout⟩ := h.channel hc
      rw [hc']
      exact ⟨_, rfl, h.user, h.opened, outline_assign h m.channelId hout, rfl⟩

theorem alike_removeMessage (h : Alike s t) (m : Message) (hs : s.removeMessage m = .ok s') :
    ∃ t', t.removeMessage m = .ok t' ∧ Alike s' t' := by
  unfold Session.removeMessage at hs ⊢
  rw [← h.messages]
  split at hs
  · cases hs
    exact ⟨t, rfl, h⟩
  · split at hs
    · cases hs
    · rename_i messages hmessages ch hc
      cases hs
      obtain ⟨ch', hc', hout⟩ := h.channel hc
      rw [hc']
      exact ⟨_, rfl, h.user, h.opened, outline_assign h m.channelId hout, rfl⟩

/-- What arrives of a new channel is in outline what was written. -/
theorem arrived_createChannel (channel : Channel) (build : Build) :
    ∃ ch, (Response.createChannel (.ok channel)).arrived build = .createChannel (.ok ch)
      ∧ ch.uid = channel.uid ∧ outline ch = outline channel := by
  cases build with
  | custom => exact ⟨_, rfl, rfl, rfl⟩
  | json => exact ⟨channel, rfl, rfl, rfl⟩

/-- **Handling what has arrived is, to a session, handling what was written.** -/
theorem alike_handle (h : Alike s t) (hs : s.handle (r.arrived build) = .ok s') :
    ∃ t', t.handle r = .ok t' ∧ Alike s' t' := by
  cases r with
  | registerAccount data =>
      cases build <;> cases hs <;> exact ⟨t, rfl, h⟩
  | listAccounts data =>
      cases build <;> cases hs <;> exact ⟨t, rfl, h⟩
  | login data =>
      cases data with
      | error error => cases build <;> cases hs <;> exact ⟨t, rfl, h⟩
      | ok user =>
          have hs' : s' = { s with authenticatedUser := some user.profile } := by
            cases build <;> cases hs <;> rfl
          subst hs'
          exact ⟨_, rfl, rfl, h.opened, h.channels, h.messages⟩
  | deleteAccount data =>
      cases data with
      | error error => cases build <;> cases hs <;> exact ⟨t, rfl, h⟩
      | ok user => cases build <;> cases hs <;> exact ⟨_, rfl, alike_refl _⟩
  | createChannel data =>
      cases data with
      | error error => cases build <;> cases hs <;> exact ⟨t, rfl, h⟩
      | ok channel =>
          obtain ⟨ch, harrived, huid, hout⟩ := arrived_createChannel channel build
          rw [harrived] at hs
          exact alike_createChannel h huid hout hs
  | sendMessage data =>
      cases data with
      | error error => cases build <;> cases hs <;> exact ⟨t, rfl, h⟩
      | ok message => cases build <;> exact alike_addMessage h message hs
  | deleteMessage data =>
      cases data with
      | error error => cases build <;> cases hs <;> exact ⟨t, rfl, h⟩
      | ok message => cases build <;> exact alike_removeMessage h message hs

end SockEtOut.Proof
