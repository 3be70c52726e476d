import SockEtOut.Net.Connection
import SockEtOut.Proof.ChatTexts
import SockEtOut.Proof.ClientView
import SockEtOut.Proof.Confidentiality
import SockEtOut.Proof.Histories
import SockEtOut.Proof.JsonRoundTrips

/-!
# The client's two lists of a channel

A session keeps a channel's messages and, in the channel itself, their snowflakes.
Both handlers treat the lists alike: a new channel's list of messages is empty, and
a message goes to the end of both. But the channel comes with the list that it has
on the server. That list is empty when the channel has just been created, and at a
login it is the history, whose messages then follow.

So at any time a channel's own list is what its frame announced, followed by the
snowflakes of the messages (`Booked`).
-/

namespace SockEtOut.Proof

open Lib System Reader Nlohmann

variable {build : Build} {db : Database} {session session' : Session}

/-! ## Channels as they arrive -/

/-- How many snowflakes are read from a frame whose channel has `n`. -/
def counted : Build → Nat → Nat
  | .custom, n => n % 256
  | .json, n => n

/-- The snowflakes that are read. -/
def arriving : Build → List UInt64 → List UInt64
  | .custom, ss => (ss.take (ss.length % 256)).map fun s => s.toUInt8.toUInt64
  | .json, ss => ss

theorem arriving_eq_nil_iff (build : Build) (ss : List UInt64) :
    arriving build ss = [] ↔ counted build ss.length = 0 := by
  cases build with
  | json => exact List.length_eq_zero_iff.symm
  | custom =>
      rw [arriving, counted, List.map_eq_nil_iff, List.take_eq_nil_iff]
      constructor
      · rintro (h | rfl)
        · exact h
        · rfl
      · exact Or.inl

/-- What a build's counts of names and members can say. -/
def NameAndMembersFit (build : Build) (channelName : Str) (members : List UUID) : Prop :=
  build = .custom → channelName.length ≤ 255 ∧ members.length ≤ 255

instance (build : Build) (channelName : Str) (members : List UUID) :
    Decidable (NameAndMembersFit build channelName members) :=
  inferInstanceAs (Decidable (_ → _ ∧ _))

/-- What a channel with any number of messages is read as: the bytes that are left are not read. -/
theorem yields_announced (drawn : UUID) (c : Channel) (hname : c.name.length ≤ 255)
    (husers : c.userUids.length ≤ 255) :
    ∃ offset, Yields (CreateChannelResponse.deserialize drawn)
      ((CreateChannelResponse.mk (.ok c)).serialize []) 0
      ⟨.ok { c with messageSnowflakes := arriving .custom c.messageSnowflakes }⟩ offset := by
  obtain ⟨ss, hss⟩ : ∃ ss, ss = c.messageSnowflakes := ⟨_, rfl⟩
  have hlt : ss.length % 256 < 256 := Nat.mod_lt _ (by decide)
  have hle : ss.length % 256 ≤ ss.length := Nat.mod_le _ _
  have htake : (ss.take (ss.length % 256)).length = ss.length % 256 := by
    rw [List.length_take, Nat.min_eq_left hle]
  -- it is read as the channel with only so many snowflakes, the others being behind it
  have hread := (reads_success drawn { c with messageSnowflakes := ss.take (ss.length % 256) }
    hname husers (by dsimp only; omega)).decodes
      ((ss.drop (ss.length % 256)).flatMap fun s => [s.toUInt8])
  have hcount : UInt8.ofNat (ss.length % 256) = UInt8.ofNat ss.length := UInt8.ofNat_mod_size
  have hbytes : (CreateChannelResponse.mk (.ok c)).serialize []
      = (CreateChannelResponse.mk
          (.ok { c with messageSnowflakes := ss.take (ss.length % 256) })).serialize []
        ++ (ss.drop (ss.length % 256)).flatMap fun s => [s.toUInt8] := by
    show c.serialize ([] ++ [0]) = Channel.serialize _ ([] ++ [0]) ++ _
    rw [Channel.serialize_eq, Channel.serialize_eq, htake, hcount, ← hss]
    conv_lhs => rw [← List.take_append_drop (ss.length % 256) ss]
    rw [List.flatMap_append, List.take_append_drop]
    simp only [List.append_assoc]
  rw [← hbytes] at hread
  rw [arriving, ← hss]
  exact ⟨_, hread⟩

/-- A decoder makes objects of the operation's class only. -/
theorem operation_of_responseJson [Nlohmann] {drawn : UUID} {op : Operation} {json : Str}
    {r : Response} (h : Response.fromJson drawn op json = some r) : r.operation = op := by
  cases op with
  | registerAccount | login | listAccounts | deleteAccount | createChannel | sendMessage
  | deleteMessage =>
      obtain ⟨data, -, rfl⟩ := Option.map_eq_some_iff.mp h
      rfl
  | _ => cases h

/-! ## A frame, taken in -/

theorem ok_of_toOption {result : Except Exn Session} (h : result.toOption = some session) :
    result = .ok session := by
  cases result with
  | ok session' => exact congrArg Except.ok (Option.some.inj h)
  | error e => cases h

theorem operation_of_read [Nlohmann] {e : Endian} {drawn : UUID} {op : Operation}
    {payload : List UInt8} {r : Response} (h : Response.read build e drawn op payload = some r) :
    r.operation = op := by
  cases build with
  | custom =>
      obtain ⟨⟨r', offset⟩, hread, rfl⟩ := Option.map_eq_some_iff.mp h
      exact operation_of_deserialize_response hread
  | json => exact operation_of_responseJson h

/-- A channel is read with the history that arrives. -/
theorem read_announced [Nlohmann] (hlib : DumpsAndParses) {e : Endian} {drawn : UUID}
    {channel : Channel} {payload : List UInt8} {r : Response}
    (hprints : (Response.createChannel (.ok channel)).prints = true)
    (hpayload : (Response.createChannel (.ok channel)).payload build e = some payload)
    (hchannel : NameAndMembersFit build channel.name channel.userUids)
    (hread : Response.read build e drawn .createChannel payload = some r) :
    r = .createChannel (.ok { channel with
      messageSnowflakes := arriving build channel.messageSnowflakes }) := by
  cases build with
  | custom =>
      obtain rfl := Option.some.inj hpayload
      obtain ⟨hname, husers⟩ := hchannel rfl
      obtain ⟨offset, hyields⟩ := yields_announced drawn channel hname husers
      have hresponse : Yields (Response.deserialize e drawn .createChannel)
          ((Response.createChannel (.ok channel)).serialize e []) 0 (.createChannel (.ok
            { channel with
              messageSnowflakes := arriving .custom channel.messageSnowflakes })) offset :=
        hyields.bind (yields_pure _ rfl)
      obtain ⟨⟨r', offset'⟩, hread', rfl⟩ := Option.map_eq_some_iff.mp hread
      exact (Prod.mk.inj (Option.some.inj (hread'.symm.trans hresponse))).1
  | json =>
      have hjson : (Response.createChannel (.ok channel)).toJson = some payload := by
        obtain ⟨json, hjson, rfl⟩ := Option.map_eq_some_iff.mp hpayload
        exact hjson
      have hsurvives := (response_survives hlib drawn _ hprints).read hjson
      exact Option.some.inj (hread.symm.trans hsurvives)

/-- A response of the same class is handled, and of a new channel the one that arrives. -/
theorem takeIn_cases [Nlohmann] (hlib : DumpsAndParses) {e : Endian} {drawn : UUID} {r : Response}
    (h : TcpClient.takeIn build e drawn session r = some session') :
    ∃ r', session.handle r' = .ok session' ∧ r'.operation = r.operation
      ∧ ∀ channel, r = .createChannel (.ok channel) →
          NameAndMembersFit build channel.name channel.userUids →
          r' = .createChannel (.ok { channel with
            messageSnowflakes := arriving build channel.messageSnowflakes }) := by
  unfold TcpClient.takeIn at h
  split at h
  · rename_i hprints
    split at h
    · cases h
    · rename_i payload hpayload
      split at h
      · obtain ⟨r', hread, h⟩ := Option.bind_eq_some_iff.mp h
        split at h
        · refine ⟨r', ok_of_toOption h, operation_of_read hread, ?_⟩
          rintro channel rfl hchannel
          exact read_announced hlib hprints hpayload hchannel hread
        · cases h
      · cases h
  · cases h

/-! ## The two lists -/

/-- A channel's own list is what it came with and the snowflakes of its messages. -/
structure Booked (build : Build) (db : Database) (session : Session) : Prop where
  tracks : Tracks session
  lists : ∀ c channel messages, session.channels.lookup c = some channel →
    session.channelMessages.lookup c = some messages →
    channel.messageSnowflakes
      = arriving build ((storeHistory db c).getD []) ++ messages.map Message.snowflake

theorem booked_new : Booked build db .new where
  tracks c hc := absurd hc (by simp [Session.new])
  lists c channel messages hc := absurd hc (by simp [Session.new])

/-- Of frames that delete nothing: channels come with the history they have in `db`. -/
def Announces (build : Build) (db : Database) : Response → Prop
  | .createChannel (.ok channel) =>
      NameAndMembersFit build channel.name channel.userUids
        ∧ channel.messageSnowflakes = (storeHistory db channel.uid).getD []
  | .createChannel (.error _) | .deleteAccount _ | .deleteMessage _ => False
  | _ => True

theorem booked_createChannel (h : Booked build db session) {channel : Channel}
    (hchannel : channel.messageSnowflakes = arriving build ((storeHistory db channel.uid).getD []))
    (hs : session.handle (.createChannel (.ok channel)) = .ok session') :
    Booked build db session' := by
  refine ⟨tracks_handle h.tracks hs, ?_⟩
  rw [Session.handle, Session.onCreateChannelResponse] at hs
  split at hs
  · cases hs
  · cases hs
    intro c channel' messages hc hm
    simp only [Session.addChannel, Session.setActiveChannel, Table.lookup_assign] at hc hm
    split at hc
    · rename_i heq
      rw [if_pos heq] at hm
      cases hc
      cases hm
      -- the list of messages is empty, the channel's own is not touched
      rw [heq, hchannel]
      exact (List.append_nil _).symm
    · rename_i hne
      rw [if_neg hne] at hm
      exact h.lists c channel' messages hc hm

theorem booked_addMessage (h : Booked build db session) {message : Message}
    (hs : session.handle (.sendMessage (.ok message)) = .ok session') :
    Booked build db session' := by
  refine ⟨tracks_handle h.tracks hs, ?_⟩
  rw [Session.handle, Session.addMessage] at hs
  split at hs
  · cases hs
    exact h.lists
  · rename_i messages hmessages
    split at hs
    · cases hs
    · rename_i channel hchannel
      cases hs
      intro c channel' messages' hc hm
      simp only [Table.lookup_assign] at hc hm
      split at hc
      · rename_i heq
        rw [if_pos heq] at hm
        cases hc
        cases hm
        -- both lists grow by the one snowflake
        rw [Channel.addMessage, h.lists _ channel messages hchannel hmessages, heq, List.map_append,
          List.append_assoc]
        rfl
      · rename_i hne
        rw [if_neg hne] at hm
        exact h.lists c channel' messages' hc hm

/-- **One frame keeps the books.** -/
theorem booked_takeIn [Nlohmann] (hlib : DumpsAndParses) {e : Endian} {drawn : UUID} {r : Response}
    (h : Booked build db session) (hr : Announces build db r)
    (hs : TcpClient.takeIn build e drawn session r = some session') : Booked build db session' := by
  obtain ⟨r', hhandle, hoperation, hchannel⟩ := takeIn_cases hlib hs
  -- what is handled decides, and no frame but that of a new channel is handled as one
  cases r' with
  | createChannel data =>
      cases r with
      | createChannel data' =>
          cases data' with
          | error error => exact hr.elim
          | ok channel =>
              obtain ⟨hfit, hhistory⟩ := hr
              rw [hchannel channel rfl hfit] at hhandle
              exact booked_createChannel h (by rw [hhistory]) hhandle
      | _ => cases hoperation
  | sendMessage data =>
      cases data with
      | ok message => exact booked_addMessage h hhandle
      | error error =>
          cases hhandle
          exact h
  | login data =>
      cases data with
      | error error =>
          cases hhandle
          exact h
      | ok user =>
          cases hhandle
          exact ⟨h.tracks, h.lists⟩
  | registerAccount data | listAccounts data =>
      cases hhandle
      exact h
  | deleteAccount data | deleteMessage data =>
      cases r with
      | deleteAccount data' | deleteMessage data' => exact hr.elim
      | _ => cases hoperation

/-- And so do any number of them. -/
theorem booked_foldlM [Nlohmann] (hlib : DumpsAndParses) {e : Endian} {drawn : UUID}
    {rs : List Response} (hrs : ∀ r ∈ rs, Announces build db r) :
    ∀ {session : Session}, Booked build db session →
      rs.foldlM (TcpClient.takeIn build e drawn) session = some session' →
      Booked build db session' := by
  induction rs with
  | nil =>
      intro session h hs
      cases hs
      exact h
  | cons r rs ih =>
      intro session h hs
      rw [List.foldlM_cons] at hs
      obtain ⟨session₁, hr, hrest⟩ := Option.bind_eq_some_iff.mp hs
      exact ih (fun r' hr' => hrs r' (List.mem_cons_of_mem _ hr'))
        (booked_takeIn hlib h (hrs r List.mem_cons_self) hr) hrest

/-! ## What the server announces -/

/-- Channels are created with names and members that their counts can say. -/
def CreatesFitting (build : Build) (_ : Database) : Database.Op → Prop
  | .addChannel _ channelName members => NameAndMembersFit build channelName members
  | .addUserToChannel .. => False
  | _ => True

instance (build : Build) (db : Database) :
    (op : Database.Op) → Decidable (CreatesFitting build db op)
  | .addChannel _ channelName members =>
      inferInstanceAs (Decidable (NameAndMembersFit build channelName members))
  | .addUserToChannel .. => inferInstanceAs (Decidable False)
  | .addUser .. | .addMessage .. | .removeMessage _ | .removeChannel _ | .removeUser _ =>
      inferInstanceAs (Decidable True)

/-- As any are that the server has decoded. -/
theorem createsFitting_of_deserialize {buf : List UInt8} {m : CreateChannelMessage} {offset : Nat}
    (h : Yields (CreateChannelMessage.mk [] []).deserialize buf 0 m offset) (build : Build)
    (uid : UUID) : CreatesFitting build db (.addChannel uid m.channelName m.members) := by
  intro _
  refine ⟨name_le_of_deserialize h, ?_⟩
  obtain ⟨nl, o₁, -, h⟩ := h.of_bind
  obtain ⟨channelName, o₂, -, h⟩ := h.of_bind
  obtain ⟨count, o₃, -, h⟩ := h.of_bind
  obtain ⟨members, o₄, hmembers, hpure⟩ := h.of_bind
  cases hpure
  have hlength := hmembers.length_of_times
  have hcount := count.toNat_lt
  dsimp only
  rw [List.nil_append]
  omega

/-- Every channel is under its own uid and has the name and members of some creation. -/
def StoresFitting (build : Build) (db : Database) : Prop :=
  ∀ (c : UUID) (ch : Channel), db.channels.lookup c = some ch →
    ch.uid = c ∧ NameAndMembersFit build ch.name ch.userUids

theorem storesFitting_init : StoresFitting build Database.new := by
  intro c ch h
  exact absurd h (by simp [Database.new])

theorem storesFitting_step {db' : Database} {op : Database.Op} (h : StoresFitting build db)
    (hg : CreatesFitting build db op) (he : Effect db op db') : StoresFitting build db' := by
  intro c ch hc
  cases he with
  | nothing => exact h c ch hc
  | userAdded => exact h c ch hc
  | channelAdded =>
      rcases Table.lookup_of_emplace hc with hold | ⟨rfl, rfl⟩
      · exact h c ch hold
      · exact ⟨rfl, hg⟩
  | userJoined => exact hg.elim
  | messageAdded => exact Table.holds_modify h hc fun _ _ hold => hold
  | messageRemoved => exact Table.holds_modify h hc fun _ _ hold => hold
  | channelRemoved =>
      exact h c ch (Table.lookup_of_erase hc).2
  | @userRemoved u user hu =>
      obtain ⟨old, hold, hleft, hsame⟩ := leaveChannels_some hc
      obtain ⟨huid, hfit⟩ := h c old hold
      by_cases hin : c ∈ user.channels
      · -- the user's channels lose members, and nothing else that is counted
        have hgone := hleft hin
        refine ⟨hgone.uid.trans huid, fun hbuild => ?_⟩
        obtain ⟨hname, husers⟩ := hfit hbuild
        rw [hgone.name, hgone.userUids]
        exact ⟨hname, (List.length_filter_le _ _).trans husers⟩
      · rw [hsame hin]
        exact ⟨huid, hfit⟩

theorem storesFitting_reachable [External] {s : Server}
    (h : Server.system.Reachable (Asks (CreatesFitting build)) s) : StoresFitting build s.db := by
  refine h.invariant (P := fun s => StoresFitting build s.db) storesFitting_init ?_
  intro s₀ call s₁ _ hi hg hs
  exact db_step storesFitting_step hi hg hs

/-- A replay announces the histories as they are. -/
theorem announces_replay (h : StoresFitting build db) {user : User} {r : Response}
    (hr : r ∈ Server.replay db user) : Announces build db r := by
  obtain ⟨c, -, ch, hch, rfl | ⟨t, -, m, -, rfl⟩⟩ := Server.mem_replay hr
  · obtain ⟨huid, hfit⟩ := h c ch hch
    refine ⟨hfit, ?_⟩
    rw [huid, storeHistory, hch]
    rfl
  · trivial

/-! ## After the login -/

/-- What may follow a login: channels, messages, and what others do short of deleting. -/
def Follows (build : Build) (conn : Nat) (k : Connection) (call : Server.Call) : Prop :=
  match call.request with
  | .createChannel .. =>
      call.draws.uid ∉ k.server.db.uids ∧ Asks (CreatesFitting build) k.server call
  | .login .. => call.conn ≠ conn
  | .sendMessage .. | .registerAccount .. | .listAccounts _ => True
  | .deleteAccount .. | .deleteMessage _ => False

instance (build : Build) (conn : Nat) (k : Connection) :
    (call : Server.Call) → Decidable (Follows build conn k call)
  | ⟨c, .createChannel channelName members, draws⟩ =>
      inferInstanceAs (Decidable (draws.uid ∉ k.server.db.uids
        ∧ Asks (CreatesFitting build) k.server ⟨c, .createChannel channelName members, draws⟩))
  | ⟨c, .login .., _⟩ => inferInstanceAs (Decidable (c ≠ conn))
  | ⟨_, .sendMessage .., _⟩ | ⟨_, .registerAccount .., _⟩ | ⟨_, .listAccounts _, _⟩ =>
      inferInstanceAs (Decidable True)
  | ⟨_, .deleteAccount .., _⟩ | ⟨_, .deleteMessage _, _⟩ => inferInstanceAs (Decidable False)

/-- What has been written announces the histories of `db`, whose channels are all there still. -/
structure Following (build : Build) (db : Database) (k : Connection) : Prop where
  announces : ∀ r ∈ k.written, Announces build db r
  keeps : ∀ c, (db.channels.lookup c).isSome → (k.server.db.channels.lookup c).isSome

/-- A login is answered to its own connection, with the login and with a replay. -/
theorem mem_onLogin_written [External] {s : Server} {conn : Nat} {username password : Str}
    {p : Nat × Response} (hp : p ∈ (s.onLogin conn username password).written) :
    p.1 = conn ∧ ((∃ data, p.2 = .login data) ∨ ∃ user, p.2 ∈ Server.replay s.db user) := by
  unfold Server.onLogin at hp
  split at hp
  · cases hp
  · split at hp
    · rw [List.mem_singleton.mp hp]
      exact ⟨rfl, Or.inl ⟨_, rfl⟩⟩
    · rw [List.mem_singleton.mp hp]
      exact ⟨rfl, Or.inl ⟨_, rfl⟩⟩
    · split at hp
      · cases hp
      · rename_i user hu
        rcases List.mem_cons.mp hp with rfl | hp
        · exact ⟨rfl, Or.inl ⟨_, rfl⟩⟩
        · obtain ⟨r, hr, rfl⟩ := List.mem_map.mp hp
          exact ⟨rfl, Or.inr ⟨user, hr⟩⟩

theorem onLogin_db [External] (s : Server) (conn : Nat) (username password : Str) :
    (s.onLogin conn username password).server.db = s.db := by
  unfold Server.onLogin
  split
  · rfl
  · split
    · rfl
    · rfl
    · split
      · rfl
      · rfl

theorem following_login [External] {s : Server} (h : StoresFitting build s.db) (conn : Nat)
    (username password : Str) :
    Following build s.db (Connection.system s conn username password).init where
  announces r hr := by
    obtain ⟨-, ⟨data, rfl⟩ | ⟨user, hin⟩⟩ := mem_onLogin_written (mem_framesFor.mp hr)
    · trivial
    · exact announces_replay h hin
  keeps c hc := by
    show ((s.onLogin conn username password).server.db.channels.lookup c).isSome
    rw [onLogin_db]
    exact hc

variable {conn : Nat} {k k' : Connection} {call : Server.Call}

/-- Where nothing is deleted every channel stays. -/
theorem keeps_step [External] {s' : Server} (hg : Follows build conn k call)
    (hs : k.server.step call = some s') {c : UUID}
    (hc : (k.server.db.channels.lookup c).isSome) : (s'.db.channels.lookup c).isSome := by
  rcases step_cases hs with rfl | ⟨uid, user, -, rfl⟩ | ⟨op, hop, db', heffect, rfl⟩
  · exact hc
  · exact hc
  · obtain ⟨conn', request, draws⟩ := call
    cases request with
    | registerAccount username password displayName =>
        cases hop
        cases heffect with
        | nothing => exact hc
        | userAdded => exact hc
    | createChannel channelName members =>
        cases hop
        cases heffect with
        | nothing => exact hc
        | channelAdded =>
            obtain ⟨ch, hch⟩ := Option.isSome_iff_exists.mp hc
            dsimp only
            rw [Table.lookup_emplace_of_some hch]
            rfl
    | sendMessage senderUid channelUid text =>
        cases hop
        cases heffect with
        | nothing => exact hc
        | messageAdded =>
            dsimp only
            rw [Table.isSome_lookup_modify]
            exact hc
    | login username password => cases hop
    | listAccounts regex => cases hop
    | deleteAccount username password => exact hg.elim
    | deleteMessage messageSnowflake => exact hg.elim

/-- What a slot writes is the response of a signal that was emitted. -/
theorem response_of_deliver {s : Server} {sig : Signal} {p : Nat × Response}
    (h : p ∈ s.deliver sig) : p.2 = sig.response := by
  obtain ⟨slot, -, rfl⟩ := List.mem_map.mp h
  rfl

/-- **What follows a login announces no history, but the empty one of a new channel.** -/
theorem announces_receive [External] (h : Following build db k) (hg : Follows build conn k call)
    {r : Response} (hr : r ∈ framesFor conn (k.server.receive call).written) :
    Announces build db r := by
  have hp := mem_framesFor.mp hr
  obtain ⟨conn', request, draws⟩ := call
  cases request with
  | registerAccount username password displayName =>
      change _ ∈
        (k.server.onRegisterAccount conn' draws username password displayName).written at hp
      unfold Server.onRegisterAccount at hp
      split at hp
      · obtain ⟨-, rfl⟩ := Prod.mk.inj (List.mem_singleton.mp hp)
        trivial
      · rcases mem_conclude_written hp with ⟨sig, hsig, -⟩ | ⟨res, hres⟩
        · rw [addUser_emitted] at hsig
          cases hsig
        · obtain ⟨-, rfl⟩ := Prod.mk.inj (List.mem_singleton.mp hres)
          trivial
  | listAccounts regex =>
      change _ ∈ (k.server.onListAccounts conn' regex).written at hp
      unfold Server.onListAccounts at hp
      split at hp
      · obtain ⟨-, rfl⟩ := Prod.mk.inj (List.mem_singleton.mp hp)
        trivial
      · obtain ⟨-, rfl⟩ := Prod.mk.inj (List.mem_singleton.mp hp)
        trivial
  | login username password =>
      -- it is answered to another connection
      exact absurd (mem_onLogin_written hp).1.symm hg
  | createChannel channelName members =>
      obtain ⟨hfresh, hfit⟩ := hg
      rcases mem_conclude_written hp with ⟨sig, hsig, hdeliver⟩ | ⟨res, hres⟩
      · obtain ⟨u, -, -, rfl⟩ := mem_notify hsig
        obtain rfl := response_of_deliver hdeliver
        -- the channel was not there at the login, or it would be there still
        have hnone : db.channels.lookup draws.uid = none := by
          by_contra hsome
          have hkept := h.keeps draws.uid (Option.isSome_iff_ne_none.mpr hsome)
          rw [lookup_channels_fresh hfresh] at hkept
          cases hkept
        refine ⟨hfit _ rfl, ?_⟩
        show [] = (Option.map _ (db.channels.lookup draws.uid)).getD []
        rw [hnone]
        rfl
      · cases hres
  | sendMessage senderUid channelUid text =>
      rcases mem_conclude_written hp with ⟨sig, hsig, hdeliver⟩ | ⟨res, hres⟩
      · obtain ⟨ch, id, -, -, u, -, rfl⟩ := mem_addMessage_emitted hsig
        obtain rfl := response_of_deliver hdeliver
        trivial
      · cases hres
  | deleteAccount username password => exact hg.elim
  | deleteMessage messageSnowflake => exact hg.elim

theorem following_step [External] (h : Following build db k) (hg : Follows build conn k call)
    (hs : Connection.step conn k call = some k') : Following build db k' := by
  obtain ⟨server, hserver, rfl⟩ := Option.map_eq_some_iff.mp hs
  refine ⟨fun r hr => ?_, fun c hc => keeps_step hg hserver (h.keeps c hc)⟩
  rcases List.mem_append.mp hr with hold | hnew
  · exact h.announces r hold
  · exact announces_receive h hg hnew

theorem following_reachable [External] {s : Server} (h : StoresFitting build s.db)
    {username password : Str}
    (hk : (Connection.system s conn username password).Reachable (Follows build conn) k) :
    Following build s.db k := by
  refine hk.invariant (following_login h conn username password) ?_
  intro k call k' _ hi hg hs
  exact following_step hi hg hs

/-! ## The bookkeeping -/

/-- The list in the channel is that of its messages. -/
def BooksAgree (session : Session) (c : UUID) : Prop :=
  ∃ channel messages, session.channels.lookup c = some channel
    ∧ session.channelMessages.lookup c = some messages
    ∧ channel.messageSnowflakes = messages.map Message.snowflake

theorem booksAgree_iff (h : Booked build db session) {c : UUID}
    (hc : (session.channels.lookup c).isSome) :
    BooksAgree session c
      ↔ ∀ ch, db.channels.lookup c = some ch → counted build ch.messageSnowflakes.length = 0 := by
  obtain ⟨channel, hchannel⟩ := Option.isSome_iff_exists.mp hc
  obtain ⟨messages, hmessages⟩ := Option.isSome_iff_exists.mp (h.tracks c hc)
  have hlists := h.lists c channel messages hchannel hmessages
  have hagree : BooksAgree session c ↔ arriving build ((storeHistory db c).getD []) = [] := by
    constructor
    · rintro ⟨channel', messages', hchannel', hmessages', heq⟩
      rw [hchannel] at hchannel'
      rw [hmessages] at hmessages'
      cases hchannel'
      cases hmessages'
      rw [heq] at hlists
      exact List.self_eq_append_left.mp hlists
    · intro hnil
      rw [hnil] at hlists
      exact ⟨channel, messages, hchannel, hmessages, hlists⟩
  rw [hagree, arriving_eq_nil_iff, storeHistory]
  cases hdb : db.channels.lookup c with
  | none =>
      refine iff_of_true ?_ (fun ch hch => by cases hch)
      cases build with
      | custom => rfl
      | json => rfl
  | some ch =>
      constructor
      · intro hzero ch' hch'
        cases hch'
        exact hzero
      · intro hall
        exact hall ch rfl

/--
**When the two lists agree.** The server handles a login and then any requests that
delete nothing, and the client takes in its frames in order, as far as it has come.
Then a channel it knows lists the snowflakes of the messages it keeps for it exactly
if the channel had no history to be announced with when the login was handled: it is
new since, or its messages were none, or in the custom build, where one byte counts
them, a multiple of 256.
-/
theorem books_agree_iff [External] [Nlohmann] (hlib : DumpsAndParses) {s : Server}
    (hs : Server.system.Reachable (Asks (CreatesFitting build)) s) {username password : Str}
    (hk : (Connection.system s conn username password).Reachable (Follows build conn) k)
    {e : Endian} {drawn : UUID} {frames : List Response} (hframes : frames <+: k.written)
    (hsession : frames.foldlM (TcpClient.takeIn build e drawn) .new = some session) {c : UUID}
    (hc : (session.channels.lookup c).isSome) :
    BooksAgree session c
      ↔ ∀ ch, s.db.channels.lookup c = some ch →
          counted build ch.messageSnowflakes.length = 0 := by
  have hfollowing := following_reachable (storesFitting_reachable hs) hk
  have hbooked := booked_foldlM hlib
    (fun r hr => hfollowing.announces r (hframes.subset hr)) booked_new hsession
  exact booksAgree_iff hbooked hc

/-- Alice (1) has a channel with one message. -/
def aliceHasWritten : List Server.Call :=
  [⟨0, .registerAccount (lit "alice") (lit "secret") (lit "Alice"), .ofByte 1 []⟩,
    ⟨0, .login (lit "alice") (lit "secret"), .ofByte 0 []⟩,
    ⟨0, .createChannel (lit "plans") [.ofByte 1], .ofByte 7 []⟩,
    ⟨0, .sendMessage (.ofByte 1) (.ofByte 7) (lit "hi"), .ofByte 0 [epoch + 5]⟩]

theorem aliceHasWritten_runs :
    ((@Server.system .sample).exec (Asks (CreatesFitting .custom)) Server.new
      aliceHasWritten).isSome := by
  decide

def aliceHasWritten_server : Server :=
  ((@Server.system .sample).exec (Asks (CreatesFitting .custom)) Server.new aliceHasWritten).get
    aliceHasWritten_runs

/-- She logs in on a second connection, and in the first one makes and uses another channel. -/
abbrev secondLogin : System Connection Server.Call :=
  @Connection.system .sample aliceHasWritten_server 1 (lit "alice") (lit "secret")

def aliceGoesOn : List Server.Call :=
  [⟨0, .createChannel (lit "more") [.ofByte 1], .ofByte 8 []⟩,
    ⟨0, .sendMessage (.ofByte 1) (.ofByte 8) (lit "you"), .ofByte 0 [epoch + 5]⟩]

theorem aliceGoesOn_runs :
    (secondLogin.exec (Follows .custom 1) secondLogin.init aliceGoesOn).isSome := by
  decide

def aliceGoesOn_connection : Connection :=
  (secondLogin.exec (Follows .custom 1) secondLogin.init aliceGoesOn).get aliceGoesOn_runs

/-- The session of a build's client on that connection. -/
def secondSession (build : Build) : Option Session :=
  aliceGoesOn_connection.written.foldlM
    (@TcpClient.takeIn plainJson build .little (.ofByte 0)) .new

/-- The two lists of a channel. -/
def books (session : Session) (c : UUID) : Option (List UInt64 × List UInt64) := do
  let channel ← session.channels.lookup c
  let messages ← session.channelMessages.lookup c
  pure (channel.messageSnowflakes, messages.map Message.snowflake)

theorem booksAgree_of_books {c : UUID} {ss ts : List UInt64}
    (h : books session c = some (ss, ts)) :
    (session.channels.lookup c).isSome ∧ (BooksAgree session c ↔ ss = ts) := by
  obtain ⟨channel, hchannel, h⟩ := Option.bind_eq_some_iff.mp h
  obtain ⟨messages, hmessages, h⟩ := Option.bind_eq_some_iff.mp h
  cases h
  refine ⟨Option.isSome_of_mem hchannel, ?_,
    fun heq => ⟨channel, messages, hchannel, hmessages, heq⟩⟩
  rintro ⟨channel', messages', hchannel', hmessages', heq⟩
  rw [hchannel] at hchannel'
  rw [hmessages] at hmessages'
  cases hchannel'
  cases hmessages'
  exact heq

theorem secondSession_custom :
    (secondSession .custom).map
        (fun session => (books session (.ofByte 7), books session (.ofByte 8)))
      = some (some ([0, 41951488], [41951488]), some ([41951489], [41951489])) := by
  decide +kernel

theorem secondSession_json :
    (secondSession .json).map (fun session => books session (.ofByte 7))
      = some (some ([41951488, 41951488], [41951488])) := by
  decide +kernel

/-- The new channel's lists agree, as there is none of that uid when she logs in. -/
theorem books_agree_iff_aliceGoesOn :
    ∃ session, secondSession .custom = some session ∧ BooksAgree session (.ofByte 8) := by
  obtain ⟨session, hsession, hbooks⟩ := Option.map_eq_some_iff.mp secondSession_custom
  obtain ⟨hnew, -⟩ := booksAgree_of_books (Prod.mk.inj hbooks).2
  have hnone : (aliceHasWritten_server.db.channels.lookup (.ofByte 8)).isNone := by decide
  refine ⟨session, hsession, (@books_agree_iff .custom session 1 aliceGoesOn_connection .sample
    plainJson plainJson_dumpsAndParses aliceHasWritten_server
    (Reachable.exec_get aliceHasWritten_runs) (lit "alice") (lit "secret")
    (Reachable.exec_get aliceGoesOn_runs) .little (.ofByte 0) aliceGoesOn_connection.written
    (List.prefix_refl _) hsession (.ofByte 8) hnew).mpr ?_⟩
  intro ch hch
  rw [hch] at hnone
  cases hnone

/-- The message that was there is listed twice, in either build. -/
theorem history_is_listed_twice :
    (@Server.system .sample).Reachable (Asks (CreatesFitting .custom)) aliceHasWritten_server
      ∧ secondLogin.Reachable (Follows .custom 1) aliceGoesOn_connection
      ∧ (∃ session, secondSession .custom = some session ∧ ¬ BooksAgree session (.ofByte 7)
          ∧ books session (.ofByte 7) = some ([0, 41951488], [41951488]))
      ∧ ∃ session, secondSession .json = some session ∧ ¬ BooksAgree session (.ofByte 7)
          ∧ books session (.ofByte 7) = some ([41951488, 41951488], [41951488]) := by
  obtain ⟨custom, hcustom, hbooks⟩ := Option.map_eq_some_iff.mp secondSession_custom
  obtain ⟨json, hjson, hbooks'⟩ := Option.map_eq_some_iff.mp secondSession_json
  have htwice := (Prod.mk.inj hbooks).1
  refine ⟨Reachable.exec_get aliceHasWritten_runs, Reachable.exec_get aliceGoesOn_runs,
    ⟨custom, hcustom, ?_, htwice⟩, json, hjson, ?_, hbooks'⟩
  · rw [(booksAgree_of_books htwice).2]
    decide
  · rw [(booksAgree_of_books hbooks').2]
    decide

end SockEtOut.Proof
