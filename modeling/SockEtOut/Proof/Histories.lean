import SockEtOut.Client.Session
import SockEtOut.Proof.History

/-!
# Histories, on both sides

Forget everything but which channels there are and which snowflakes each lists.
On that view a response is an instruction: a channel starts an empty history, a
message goes to the end of its channel's, and to nowhere when there is no such
channel.

The client's handlers carry these instructions out (`handle_ready`), and so do the
server's operations, on the very responses they announce (`storeHistory_*`). A
login replays the server's histories as instructions that rebuild them, from
whatever the client had (`record_replay`).
-/

namespace SockEtOut.Proof

open Lib

variable {db db' : Database}

/-- For each channel there is, the snowflakes it lists. -/
abbrev Histories := UUID → Option (List UInt64)

/-- What a response does to histories. -/
def record (h : Histories) : Response → Histories
  | .createChannel (.ok channel) => Function.update h channel.uid (some [])
  | .sendMessage (.ok message) =>
      Function.update h message.channelId ((h message.channelId).map (· ++ [message.snowflake]))
  | _ => h

theorem record_createChannel (h : Histories) (channel : Channel) (c : UUID) :
    record h (.createChannel (.ok channel)) c = if c = channel.uid then some [] else h c :=
  Function.update_apply ..

theorem record_sendMessage (h : Histories) (message : Message) (c : UUID) :
    record h (.sendMessage (.ok message)) c
      = if c = message.channelId then (h c).map (· ++ [message.snowflake]) else h c := by
  refine (Function.update_apply ..).trans ?_
  split
  · rename_i heq
    rw [heq]
  · rfl

/-- What a response does to one history depends on that history alone. -/
theorem record_congr {h h' : Histories} {c : UUID} (heq : h c = h' c) (r : Response) :
    record h r c = record h' r c := by
  cases r with
  | createChannel data =>
      cases data with
      | error e => exact heq
      | ok channel => rw [record_createChannel, record_createChannel, heq]
  | sendMessage data =>
      cases data with
      | error e => exact heq
      | ok message => rw [record_sendMessage, record_sendMessage, heq]
  | _ => exact heq

/-! ## The client -/

/-- What the client's message lists say. -/
def viewHistory (session : Session) : Histories :=
  fun c => (session.channelMessages.lookup c).map fun ms => ms.map Message.snowflake

/-- A session that can take any channel or message: a user, and no list without its channel. -/
structure Ready (session : Session) : Prop where
  user : session.authenticatedUser.isSome
  keys : ∀ c, (session.channels.lookup c).isSome = (session.channelMessages.lookup c).isSome

/-- Storing under one key on both sides keeps the keys the same. -/
theorem keys_assign {session : Session} (h : Ready session) (c : UUID) (channel : Channel)
    (messages : List Message) (d : UUID) :
    ((session.channels.assign c channel).lookup d).isSome
      = ((session.channelMessages.assign c messages).lookup d).isSome := by
  rw [Table.lookup_assign, Table.lookup_assign]
  split
  · rfl
  · exact h.keys d

theorem addMessage_ready {session : Session} (h : Ready session) (message : Message) :
    ∃ session', session.addMessage message = .ok session' ∧ Ready session'
      ∧ viewHistory session' = record (viewHistory session) (.sendMessage (.ok message)) := by
  unfold Session.addMessage
  cases hms : session.channelMessages.lookup message.channelId with
  | none =>
      refine ⟨session, rfl, h, funext fun c => ?_⟩
      rw [record_sendMessage]
      split
      · rename_i heq
        unfold viewHistory
        rw [heq, hms]
        rfl
      · rfl
  | some messages =>
      have hchannel : (session.channels.lookup message.channelId).isSome := by
        rw [h.keys, hms]
        rfl
      obtain ⟨channel, hch⟩ := Option.isSome_iff_exists.mp hchannel
      rw [hch]
      refine ⟨_, rfl, ⟨h.user, keys_assign h _ _ _⟩, ?_⟩
      funext c
      rw [record_sendMessage]
      unfold viewHistory
      dsimp only
      rw [Table.lookup_assign]
      split
      · rename_i heq
        rw [heq, hms]
        exact congrArg some List.map_append
      · rfl

theorem onCreateChannelResponse_ready {session : Session} (h : Ready session)
    (channel : Channel) :
    ∃ session', session.onCreateChannelResponse channel = .ok session' ∧ Ready session'
      ∧ viewHistory session' = record (viewHistory session) (.createChannel (.ok channel)) := by
  obtain ⟨user, huser⟩ := Option.isSome_iff_exists.mp h.user
  unfold Session.onCreateChannelResponse
  rw [huser]
  refine ⟨_, rfl, ⟨rfl, keys_assign h _ _ _⟩, ?_⟩
  funext c
  rw [record_createChannel]
  unfold viewHistory
  show ((session.channelMessages.assign channel.uid []).lookup c).map _ = _
  rw [Table.lookup_assign]
  split <;> rfl

theorem removeMessage_ready {session : Session} (h : Ready session) (message : Message) :
    ∃ session', session.removeMessage message = .ok session' ∧ Ready session'
      ∧ viewHistory session' = viewHistory session := by
  unfold Session.removeMessage
  cases hms : session.channelMessages.lookup message.channelId with
  | none => exact ⟨session, rfl, h, rfl⟩
  | some messages =>
      have hchannel : (session.channels.lookup message.channelId).isSome := by
        rw [h.keys, hms]
        rfl
      obtain ⟨channel, hch⟩ := Option.isSome_iff_exists.mp hchannel
      rw [hch]
      refine ⟨_, rfl, ⟨h.user, ?_⟩, rfl⟩
      intro c
      show ((session.channels.assign message.channelId _).lookup c).isSome = _
      rw [Table.lookup_assign]
      split
      · rename_i heq
        rw [heq, hms]
        rfl
      · exact h.keys c

/-- A response that leaves the client logged in. -/
def Keeps : Response → Prop
  | .deleteAccount (.ok _) => False
  | _ => True

/-- **The client records what it is told**, and is ready for more. -/
theorem handle_ready {session : Session} (h : Ready session) {r : Response} (hr : Keeps r) :
    ∃ session', session.handle r = .ok session' ∧ Ready session'
      ∧ viewHistory session' = record (viewHistory session) r := by
  cases r with
  | registerAccount data => exact ⟨session, rfl, h, rfl⟩
  | listAccounts data => exact ⟨session, rfl, h, rfl⟩
  | login data =>
      cases data with
      | error e => exact ⟨session, rfl, h, rfl⟩
      | ok user => exact ⟨_, rfl, ⟨rfl, h.keys⟩, rfl⟩
  | deleteAccount data =>
      cases data with
      | error e => exact ⟨session, rfl, h, rfl⟩
      | ok user => exact hr.elim
  | createChannel data =>
      cases data with
      | error e => exact ⟨session, rfl, h, rfl⟩
      | ok channel => exact onCreateChannelResponse_ready h channel
  | sendMessage data =>
      cases data with
      | error e => exact ⟨session, rfl, h, rfl⟩
      | ok message => exact addMessage_ready h message
  | deleteMessage data =>
      cases data with
      | error e => exact ⟨session, rfl, h, rfl⟩
      | ok message => exact removeMessage_ready h message

/-- And so for any number of responses in a row. -/
theorem foldlM_handle_ready (rs : List Response) (hrs : ∀ r ∈ rs, Keeps r) :
    ∀ {session : Session}, Ready session →
      ∃ session', rs.foldlM Session.handle session = .ok session' ∧ Ready session'
        ∧ viewHistory session' = rs.foldl record (viewHistory session) := by
  induction rs with
  | nil => intro session h; exact ⟨session, rfl, h, rfl⟩
  | cons r rs ih =>
      intro session h
      obtain ⟨session₁, hok, hready, hview⟩ := handle_ready h (hrs r (List.mem_cons_self ..))
      obtain ⟨session₂, hok₂, hready₂, hview₂⟩ :=
        ih (fun r' hr' => hrs r' (List.mem_cons_of_mem _ hr')) hready
      refine ⟨session₂, ?_, hready₂, ?_⟩
      · rw [List.foldlM_cons, hok]
        exact hok₂
      · rw [hview₂, hview]
        rfl

/-! ## The server -/

/-- What the server's channel table says. -/
def storeHistory (db : Database) : Histories :=
  fun c => (db.channels.lookup c).map Channel.messageSnowflakes

/-- A new channel is recorded as it is announced. -/
theorem storeHistory_addChannel {uid : UUID} {channelName : Str} {members : List UUID}
    (h : db.channels.lookup uid = none) :
    storeHistory (db.addChannel uid channelName members).db
      = record (storeHistory db) (.createChannel (.ok (.new uid channelName members))) := by
  funext c
  rw [record_createChannel]
  show ((db.channels.emplace uid (.new uid channelName members)).lookup c).map _ = _
  rw [Table.lookup_emplace h]
  show _ = if c = uid then _ else _
  split <;> rfl

/-- A new message is recorded as it is announced. -/
theorem storeHistory_addMessage {message : Message}
    (h : db'.channels = db.channels.modify message.channelId (·.addMessage message.snowflake)) :
    storeHistory db' = record (storeHistory db) (.sendMessage (.ok message)) := by
  funext c
  rw [record_sendMessage]
  unfold storeHistory
  rw [h, Table.lookup_modify]
  split
  · rename_i heq
    rw [heq, Option.map_map, Option.map_map]
    rfl
  · rfl

/-- Each message is stored under its own snowflake. -/
def Keyed (db : Database) : Prop :=
  ∀ (s : UInt64) (m : Message), db.messages.lookup s = some m → m.snowflake = s

theorem keyed_init : Keyed Database.new := by
  intro s m h
  exact absurd h (by simp [Database.new])

theorem keyed_step {op : Database.Op} (h : Keyed db) (he : Effect db op db') : Keyed db' := by
  intro s m hs
  cases he with
  | nothing => exact h s m hs
  | userAdded => exact h s m hs
  | channelAdded => exact h s m hs
  | userJoined => exact h s m hs
  | userRemoved => exact h s m hs
  | @messageAdded sender c content readings now ch id generator hc hid =>
      rcases Table.lookup_of_emplace hs with hold | ⟨rfl, rfl⟩
      · exact h s m hold
      · rfl
  | messageRemoved =>
      exact h s m (Table.lookup_of_erase hs).2
  | @channelRemoved c ch messages hc hm =>
      dsimp only at hs
      rw [hm] at hs
      split at hs
      · exact absurd hs (by simp)
      · exact h s m hs

/-! ## Replay -/

/-- Replaying part of a history after what has been replayed of it. -/
theorem record_messages {c : UUID} {ss : List UInt64}
    (hss : ∀ s ∈ ss, ∃ m, db.messages.lookup s = some m ∧ m.channelId = c ∧ m.snowflake = s) :
    ∀ {h : Histories} {before : List UInt64}, h c = some before →
      (ss.filterMap fun s => (db.messages.lookup s).map fun m =>
          Response.sendMessage (.ok m)).foldl record h
        = Function.update h c (some (before ++ ss)) := by
  induction ss with
  | nil =>
      intro h before hbefore
      rw [List.append_nil, ← hbefore]
      exact (Function.update_eq_self c h).symm
  | cons s ss ih =>
      intro h before hbefore
      obtain ⟨m, hm, hchan, hkey⟩ := hss s (List.mem_cons_self ..)
      -- the message goes to the end of what is there, and the rest after it
      rw [List.filterMap_cons, hm]
      show (_ : List Response).foldl record (record h (.sendMessage (.ok m))) = _
      have hrecord : record h (.sendMessage (.ok m))
          = Function.update h c (some (before ++ [s])) := by
        show Function.update h m.channelId _ = _
        rw [hchan, hbefore, hkey]
        rfl
      rw [hrecord, ih (fun s' hs' => hss s' (List.mem_cons_of_mem _ hs'))
        (Function.update_self c _ h), Function.update_idem, List.append_assoc]
      rfl

/-- Replaying a channel makes its history the server's. -/
theorem record_replayChannel (howned : HistoryOwned db) (hkeyed : Keyed db) {c : UUID}
    {ch : Channel} (hc : db.channels.lookup c = some ch) (h : Histories) :
    (Server.replayChannel db c).foldl record h = Function.update h c (storeHistory db c) := by
  obtain ⟨huid, hown⟩ := howned c ch hc
  have hstored : ∀ s ∈ ch.messageSnowflakes,
      ∃ m, db.messages.lookup s = some m ∧ m.channelId = c ∧ m.snowflake = s := by
    intro s hs
    obtain ⟨m, hm, hchan⟩ := hown s hs
    exact ⟨m, hm, hchan, hkeyed s m hm⟩
  have hfirst : record h (.createChannel (.ok ch)) = Function.update h c (some []) := by
    show Function.update h ch.uid _ = _
    rw [huid]
  have hstore : storeHistory db c = some ch.messageSnowflakes := by
    unfold storeHistory
    rw [hc]
    rfl
  unfold Server.replayChannel
  rw [hc]
  dsimp only
  rw [List.foldl_cons, hfirst, record_messages hstored (Function.update_self c _ h),
    Function.update_idem, hstore]
  rfl

/-- **A replay makes the histories of the channels it visits the server's**, and no others. -/
theorem record_replay (howned : HistoryOwned db) (hkeyed : Keyed db) {cs : List UUID}
    (hcs : ∀ c ∈ cs, ∃ ch, db.channels.lookup c = some ch) :
    ∀ (h : Histories) (c : UUID),
      (cs.flatMap (Server.replayChannel db)).foldl record h c
        = if c ∈ cs then storeHistory db c else h c := by
  induction cs with
  | nil => intro h c; rfl
  | cons d cs ih =>
      intro h c
      obtain ⟨ch, hch⟩ := hcs d (List.mem_cons_self ..)
      rw [List.flatMap_cons, List.foldl_append, record_replayChannel howned hkeyed hch,
        ih (fun c' hc' => hcs c' (List.mem_cons_of_mem _ hc')), Function.update_apply]
      by_cases hin : c ∈ cs
      · rw [if_pos hin, if_pos (List.mem_cons_of_mem _ hin)]
      · by_cases heq : c = d
        · rw [if_neg hin, if_pos heq, if_pos (heq ▸ List.mem_cons_self ..), heq]
        · rw [if_neg hin, if_neg heq, if_neg (by simp [hin, heq])]

/-- A replay logs nobody out. -/
theorem keeps_of_replay {user : User} {r : Response} (h : r ∈ Server.replay db user) :
    Keeps r := by
  obtain ⟨c, -, ch, -, rfl | ⟨t, -, m, -, rfl⟩⟩ := Server.mem_replay h
  · trivial
  · trivial

end SockEtOut.Proof
