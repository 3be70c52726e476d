import SockEtOut.Net.Deployment
import SockEtOut.Proof.Histories
import SockEtOut.Proof.Serving

/-!
# The client's replica

Registrations, logins, channels and messages, in any order and from any
connections. When a client that has logged in has worked off the frames on their
way to it, its lists of messages are the server's histories of its user's
channels.

The invariant is about what each client will come to, so delivery keeps it by
`Lib.Inbox.settled_deliver` and only requests are left to look at. A request that
changes a history announces the change to exactly the members of the channel, and
both sides record an announcement the same way; a login rebuilds the histories
from nothing.
-/

namespace SockEtOut.Proof

open Lib System

variable {s s' : Server} {call : Server.Call} {db db' : Database}

/-! ## The requests -/

/-- A password that the server accepts for a username. -/
def accepts [External] (s : Server) (username password : Str) : Bool :=
  match s.db.users.getUidFromUsername username with
  | none => false
  | some uid =>
      match s.db.passwords.verifyPassword uid password with
      | .ok matching => matching
      | .error _ => false

/--
Registrations, logins, channels and messages. Drawn UUIDs and snowflakes are new, a
login names a registered user, member lists have no duplicates, and a client does
not log in a second time.
-/
def Admissible [External] (s : Server) (call : Server.Call) : Prop :=
  match call.request with
  | .registerAccount .. => call.draws.uid ∉ s.db.uids
  | .login username password =>
      (s.db.users.getUidFromUsername username).isSome
        ∧ (s.authenticatedUser call.conn = none ∨ accepts s username password = false)
  | .createChannel _ members =>
      call.draws.uid ∉ s.db.uids ∧ call.draws.uid ∉ members ∧ members.Nodup
  | .sendMessage senderUid channelUid text =>
      FreshSnowflake s.db
        (.addMessage senderUid channelUid text call.draws.readings call.draws.now)
  | .listAccounts _ | .deleteAccount .. | .deleteMessage _ => False

instance [External] (s : Server) : (call : Server.Call) → Decidable (Admissible s call)
  | ⟨_, .registerAccount .., draws⟩ => inferInstanceAs (Decidable (draws.uid ∉ s.db.uids))
  | ⟨conn, .login username password, _⟩ =>
      inferInstanceAs (Decidable ((s.db.users.getUidFromUsername username).isSome
        ∧ (s.authenticatedUser conn = none ∨ accepts s username password = false)))
  | ⟨_, .createChannel _ members, draws⟩ =>
      inferInstanceAs (Decidable (draws.uid ∉ s.db.uids ∧ draws.uid ∉ members ∧ members.Nodup))
  | ⟨_, .sendMessage senderUid channelUid text, draws⟩ =>
      inferInstanceAs (Decidable (FreshSnowflake s.db
        (.addMessage senderUid channelUid text draws.readings draws.now)))
  | ⟨_, .listAccounts _, _⟩ | ⟨_, .deleteAccount .., _⟩ | ⟨_, .deleteMessage _, _⟩ =>
      inferInstanceAs (Decidable False)

/-- Nobody is listed in a channel twice by this operation. -/
def ListsOnce (_ : Database) : Database.Op → Prop
  | .addChannel _ _ members => members.Nodup
  | .addUserToChannel .. => False
  | _ => True

theorem asks_of_admissible [External] (h : Admissible s call) :
    Asks Database.FreshUids s call ∧ Asks FreshSnowflake s call ∧ Asks ListsOnce s call := by
  obtain ⟨conn, request, draws⟩ := call
  cases request with
  | registerAccount username password displayName =>
      refine ⟨?_, ?_, ?_⟩ <;> intro op hop <;> cases hop
      · exact h
      · trivial
      · trivial
  | createChannel channelName members =>
      obtain ⟨hfresh, hnew, hnd⟩ := h
      refine ⟨?_, ?_, ?_⟩ <;> intro op hop <;> cases hop
      · exact ⟨hfresh, hnew⟩
      · trivial
      · exact hnd
  | sendMessage senderUid channelUid text =>
      refine ⟨?_, ?_, ?_⟩ <;> intro op hop <;> cases hop
      · trivial
      · exact h
      · trivial
  | login username password => exact ⟨by simp [Asks, operation], by simp [Asks, operation],
      by simp [Asks, operation]⟩
  | listAccounts regex => exact h.elim
  | deleteAccount username password => exact h.elim
  | deleteMessage messageSnowflake => exact h.elim

/-! ## What the server keeps -/

/-- No channel lists anybody twice. -/
def MembersNodup (db : Database) : Prop :=
  ∀ (c : UUID) (ch : Channel), db.channels.lookup c = some ch → ch.userUids.Nodup

theorem membersNodup_init : MembersNodup Database.new := by
  intro c ch h
  exact absurd h (by simp [Database.new])

theorem membersNodup_step {op : Database.Op} (h : MembersNodup db) (hg : ListsOnce db op)
    (he : Effect db op db') : MembersNodup db' := by
  intro c ch hc
  cases he with
  | nothing => exact h c ch hc
  | userAdded => exact h c ch hc
  | channelAdded =>
      rcases Table.lookup_of_emplace hc with hold | ⟨-, rfl⟩
      · exact h c ch hold
      · exact hg
  | userJoined => exact hg.elim
  | messageAdded => exact Table.holds_modify h hc fun _ _ hold => hold
  | messageRemoved => exact Table.holds_modify h hc fun _ _ hold => hold
  | channelRemoved =>
      exact h c ch (Table.lookup_of_erase hc).2
  | @userRemoved u user hu =>
      obtain ⟨old, hold, hleft, hsame⟩ := leaveChannels_some hc
      by_cases hin : c ∈ user.channels
      · rw [(hleft hin).userUids]
        exact (h c old hold).filter _
      · rw [hsame hin]
        exact h c old hold

/-- What the argument needs of the server. -/
structure StoreInv (s : Server) : Prop where
  server : ServerInv s
  keyed : Keyed s.db
  once : MembersNodup s.db

theorem storeInv_init : StoreInv Server.new where
  server := serverInv_init
  keyed := keyed_init
  once := membersNodup_init

theorem storeInv_step [External] (h : StoreInv s) (hg : Admissible s call)
    (hs : s.step call = some s') : StoreInv s' := by
  obtain ⟨hu, hm, hl⟩ := asks_of_admissible hg
  exact
    { server := serverInv_step h.server hu hm hs
      keyed := db_step (G := fun _ _ => True) (fun hk _ he => keyed_step hk he) h.keyed
        (fun _ _ => trivial) hs
      once := db_step membersNodup_step h.once hl hs }

/-! ## What a client will come to -/

/-- A session of `u` whose histories are the server's, for each channel of the user. -/
def Mirrors (db : Database) (u : UUID) (session : Session) : Prop :=
  Ready session ∧ ∃ user, db.users.lookup u = some user
    ∧ ∀ c ∈ user.channels, viewHistory session c = storeHistory db c

/-- A client starts with nothing, and from its login on mirrors the server. -/
def ClientInv (s : Server) (conn : Nat) (settled : Except Exn Session) : Prop :=
  match s.authenticatedUser conn with
  | none => settled = .ok .new
  | some u => ∃ session, settled = .ok session ∧ Mirrors s.db u session

theorem clientInv_none {conn : Nat} {settled : Except Exn Session}
    (hauth : s.authenticatedUser conn = none) :
    ClientInv s conn settled ↔ settled = .ok .new := by
  unfold ClientInv
  rw [hauth]

theorem clientInv_some {conn : Nat} {settled : Except Exn Session} {u : UUID}
    (hauth : s.authenticatedUser conn = some u) :
    ClientInv s conn settled ↔ ∃ session, settled = .ok session ∧ Mirrors s.db u session := by
  unfold ClientInv
  rw [hauth]

/-- Take in frames on top of what a client will come to. -/
def after (settled : Except Exn Session) (rs : List Response) : Except Exn Session :=
  settled >>= fun session => rs.foldlM Session.handle session

theorem after_nil (settled : Except Exn Session) : after settled [] = settled :=
  bind_pure settled

/-- A response a client only shows to its user. -/
def Inert : Response → Prop
  | .registerAccount _ | .login (.error _) => True
  | _ => False

theorem foldlM_inert {rs : List Response} (h : ∀ r ∈ rs, Inert r) (session : Session) :
    rs.foldlM Session.handle session = .ok session := by
  induction rs with
  | nil => rfl
  | cons r rs ih =>
      have hone : session.handle r = .ok session := by
        have hr := h r (List.mem_cons_self ..)
        cases r with
        | registerAccount data => rfl
        | login data =>
            cases data with
            | error e => rfl
            | ok user => exact hr.elim
        | _ => exact hr.elim
      rw [List.foldlM_cons, hone]
      exact ih fun r' hr' => h r' (List.mem_cons_of_mem _ hr')

theorem after_inert {rs : List Response} (h : ∀ r ∈ rs, Inert r) (settled : Except Exn Session) :
    after settled rs = settled := by
  unfold after
  rw [funext (foldlM_inert h)]
  exact bind_pure settled

/-- Users may be added without any client noticing. -/
theorem clientInv_mono {conn : Nat} {settled : Except Exn Session} (h : ClientInv s conn settled)
    (hauth : s'.authenticatedUser conn = s.authenticatedUser conn)
    (husers : ∀ u user, s.db.users.lookup u = some user → s'.db.users.lookup u = some user)
    (hchannels : s'.db.channels = s.db.channels) : ClientInv s' conn settled := by
  cases hu : s.authenticatedUser conn with
  | none =>
      rw [clientInv_none hu] at h
      rw [clientInv_none (hauth.trans hu)]
      exact h
  | some u =>
      rw [clientInv_some hu] at h
      rw [clientInv_some (hauth.trans hu)]
      obtain ⟨session, hsettled, hready, user, huser, hview⟩ := h
      refine ⟨session, hsettled, hready, user, husers u user huser, ?_⟩
      intro c hc
      rw [hview c hc]
      unfold storeHistory
      rw [hchannels]

/-! ## Registration and login -/

theorem clientInv_register [External] {conn : Nat} {draws : Draws}
    {username password displayName : Str} {conn' : Nat} {settled : Except Exn Session}
    (h : ClientInv s conn' settled) :
    ClientInv (s.onRegisterAccount conn draws username password displayName).server conn'
      (after settled (framesFor conn'
        (s.onRegisterAccount conn draws username password displayName).written)) := by
  have hown : ∀ r ∈ framesFor conn'
      (s.onRegisterAccount conn draws username password displayName).written, Inert r := by
    intro r hr
    rw [mem_framesFor] at hr
    unfold Server.onRegisterAccount at hr
    split at hr
    · obtain ⟨-, rfl⟩ := Prod.mk.inj (List.mem_singleton.mp hr)
      trivial
    · obtain ⟨-, rfl⟩ := Prod.mk.inj (List.mem_singleton.mp hr)
      trivial
  rw [after_inert hown]
  unfold Server.onRegisterAccount
  split
  · exact h
  · refine clientInv_mono h rfl ?_ rfl
    intro u user hu
    exact Table.lookup_emplace_of_some hu _ _

/-- The frames of a login take a client from nothing to the server's histories. -/
theorem mirrors_of_login (h : StoreInv s) {u : UUID} {user : User}
    (hu : s.db.users.lookup u = some user) :
    ∃ session, (Response.login (.ok user) :: Server.replay s.db user).foldlM Session.handle
        Session.new = .ok session ∧ Mirrors s.db u session := by
  have hready : Ready { Session.new with authenticatedUser := some user } :=
    ⟨rfl, fun c => by simp [Session.new]⟩
  obtain ⟨session, hok, hready', hview⟩ :=
    foldlM_handle_ready (Server.replay s.db user) (fun r hr => keeps_of_replay hr) hready
  refine ⟨session, hok, hready', user, hu, ?_⟩
  intro c hc
  rw [hview]
  unfold Server.replay
  rw [record_replay h.server.owned h.keyed
    (fun d hd => (channel_found h.server.members hu hd).imp fun _ => And.left), if_pos hc]

theorem clientInv_login [External] (hinv : StoreInv s) {conn : Nat} {username password : Str}
    (hg : s.authenticatedUser conn = none ∨ accepts s username password = false)
    {conn' : Nat} {settled : Except Exn Session} (h : ClientInv s conn' settled) :
    ClientInv (s.onLogin conn username password).server conn'
      (after settled (framesFor conn' (s.onLogin conn username password).written)) := by
  -- a refusal is shown to the user and changes nothing
  have hrefused : ∀ e, ClientInv (s.respond conn (.login (.error e))).server conn'
      (after settled (framesFor conn' (s.respond conn (.login (.error e))).written)) := by
    intro e
    rw [after_inert]
    · exact h
    · intro r hr
      rw [mem_framesFor] at hr
      obtain ⟨-, rfl⟩ := Prod.mk.inj (List.mem_singleton.mp hr)
      trivial
  -- a password is accepted only on a connection that has no user yet
  have haccepts : ∀ uid, s.db.users.getUidFromUsername username = some uid →
      s.db.passwords.verifyPassword uid password = .ok true →
      s.authenticatedUser conn = none := by
    intro uid huid hverify
    refine hg.resolve_right ?_
    unfold accepts
    rw [huid]
    dsimp only
    rw [hverify]
    simp
  unfold Server.onLogin
  split
  · exact (after_nil settled).symm ▸ h
  · rename_i uid huid
    split
    · exact hrefused _
    · exact hrefused _
    · rename_i hverify
      split
      · exact (after_nil settled).symm ▸ h
      · rename_i user hu
        have hnone := haccepts uid huid hverify
        have hframes : framesFor conn' ((conn, Response.login (.ok user)) ::
              (Server.replay s.db user).map fun r => (conn, r))
            = if conn' = conn then .login (.ok user) :: Server.replay s.db user else [] :=
          framesFor_own conn conn' (.login (.ok user) :: Server.replay s.db user)
        dsimp only
        rw [hframes]
        by_cases hc : conn' = conn
        · -- everything on the way to this client leaves it as new as it was
          subst hc
          rw [clientInv_none hnone] at h
          have hauth : (s.setAuthenticatedUser conn' uid).authenticatedUser conn' = some uid :=
            Function.update_self _ _ _
          rw [if_pos rfl, clientInv_some hauth, h]
          exact mirrors_of_login hinv hu
        · have hauth : (s.setAuthenticatedUser conn uid).authenticatedUser conn'
              = s.authenticatedUser conn' := Function.update_of_ne hc _ _
          rw [if_neg hc, after_nil]
          exact clientInv_mono h hauth (fun _ _ hu => hu) rfl

/-! ## Channels and messages -/

theorem mirrors_view {u : UUID} {user : User} {session : Session} (h : Mirrors db u session)
    (hu : db.users.lookup u = some user) {c : UUID} (hc : c ∈ user.channels) :
    viewHistory session c = storeHistory db c := by
  obtain ⟨-, user₀, hu₀, hview⟩ := h
  have hsame : user₀ = user := Option.some.inj (hu₀.symm.trans hu)
  exact hview c (hsame ▸ hc)

/-- An announced change is recorded by a session as it is by the store. -/
theorem mirrors_record {u : UUID} {user user' : User} {session : Session}
    (h : Mirrors db u session) (hu : db.users.lookup u = some user)
    (hu' : db'.users.lookup u = some user') {r : Response} (hkeeps : Keeps r)
    (hstore : storeHistory db' = record (storeHistory db) r)
    (hchannels : ∀ c ∈ user'.channels,
      c ∈ user.channels ∨ record (viewHistory session) r c = storeHistory db' c) :
    ∃ session', [r].foldlM Session.handle session = .ok session' ∧ Mirrors db' u session' := by
  obtain ⟨session', hok, hready', hview'⟩ :=
    foldlM_handle_ready [r] (by simpa using hkeeps) h.1
  refine ⟨session', hok, hready', user', hu', ?_⟩
  intro c hc
  rw [hview']
  show record (viewHistory session) r c = _
  rcases hchannels c hc with hold | hnew
  · rw [hstore]
    exact record_congr (mirrors_view h hu hold) r
  · exact hnew

/-- A change to a channel of others goes unnoticed. -/
theorem mirrors_other {u : UUID} {user : User} {session : Session} (h : Mirrors db u session)
    (hu : db.users.lookup u = some user) (hu' : db'.users.lookup u = some user)
    (hstore : ∀ c ∈ user.channels, storeHistory db' c = storeHistory db c) :
    Mirrors db' u session := by
  refine ⟨h.1, user, hu', ?_⟩
  intro c hc
  rw [mirrors_view h hu hc, hstore c hc]

theorem clientInv_createChannel (hinv : StoreInv s) {draws : Draws} {channelName : Str}
    {members : List UUID} (hfresh : draws.uid ∉ s.db.uids) (hnd : members.Nodup) {conn : Nat}
    {settled : Except Exn Session} (h : ClientInv s conn settled) :
    ClientInv (s.onCreateChannel draws channelName members).server conn
      (after settled (framesFor conn (s.onCreateChannel draws channelName members).written)) := by
  have hslots := hinv.server.slots
  have hnone : s.db.channels.lookup draws.uid = none := lookup_channels_fresh hfresh
  have hstore := @storeHistory_addChannel s.db draws.uid channelName members hnone
  have hwritten : (s.onCreateChannel draws channelName members).written
      = (s.db.notify members
          (.channelAdded · (.new draws.uid channelName members))).flatMap s.deliver :=
    List.append_nil _
  rw [hwritten]
  cases hauth : s.authenticatedUser conn with
  | none =>
      have hauth' : (s.onCreateChannel draws channelName members).server.authenticatedUser conn
          = none := hauth
      rw [clientInv_none hauth] at h
      rw [framesFor_notified_none hslots hauth, after_nil, clientInv_none hauth']
      exact h
  | some u =>
      have hauth' : (s.onCreateChannel draws channelName members).server.authenticatedUser conn
          = some u := hauth
      rw [clientInv_some hauth] at h
      obtain ⟨session, rfl, hmirrors⟩ := h
      obtain ⟨user, hu, -⟩ := hmirrors.2
      have husers : (s.onCreateChannel draws channelName members).server.db.users.lookup u
          = some ((fun v : User => v.addChannel draws.uid)^[members.count u] user) := by
        refine (Table.lookup_foldl_modify _ _ _ _).trans ?_
        rw [hu]
        rfl
      rw [framesFor_notify hslots hauth hu hnd (fun v => rfl), clientInv_some hauth']
      by_cases hin : u ∈ members
      · rw [if_pos hin]
        rw [List.count_eq_one_of_mem hnd hin] at husers
        refine mirrors_record hmirrors hu husers trivial hstore ?_
        intro c hc
        -- one of the user's channels, or the new one
        rcases List.mem_append.mp hc with hold | hnew
        · exact Or.inl hold
        · refine Or.inr ?_
          rw [List.mem_singleton.mp hnew]
          show record _ (.createChannel (.ok _)) _
            = storeHistory (s.db.addChannel draws.uid channelName members).db draws.uid
          rw [hstore, record_createChannel, record_createChannel]
          exact (if_pos rfl).trans (if_pos rfl).symm
      · rw [if_neg hin, after_nil]
        rw [List.count_eq_zero_of_not_mem hin] at husers
        -- the user's channels are all older than this one
        refine ⟨session, rfl, mirrors_other hmirrors hu husers ?_⟩
        intro c hc
        obtain ⟨ch, hch, -⟩ := channel_found hinv.server.members hu hc
        have hne : c ≠ draws.uid := by
          rintro rfl
          rw [hch] at hnone
          exact absurd hnone (by simp)
        show storeHistory (s.db.addChannel draws.uid channelName members).db c = _
        rw [hstore, record_createChannel]
        exact if_neg hne

theorem clientInv_sendMessage (hinv : StoreInv s) {draws : Draws} {senderUid channelUid : UUID}
    {text : Str} {conn : Nat} {settled : Except Exn Session} (h : ClientInv s conn settled) :
    ClientInv (s.onSendMessage draws senderUid channelUid text).server conn
      (after settled (framesFor conn
        (s.onSendMessage draws senderUid channelUid text).written)) := by
  have hslots := hinv.server.slots
  unfold Server.onSendMessage
  rcases addMessage_cases s.db senderUid channelUid text draws.readings draws.now with
    ⟨e, heq⟩ | ⟨e, heq⟩ | ⟨generator, heq⟩ | ⟨ch, id, generator, hch, hid, heq⟩
  · rw [heq]
    exact (after_nil settled).symm ▸ h
  · rw [heq]
    exact (after_nil settled).symm ▸ h
  · rw [heq]
    exact (after_nil settled).symm ▸ clientInv_mono h rfl (fun _ _ hu => hu) rfl
  · rw [heq]
    generalize hm : Message.new senderUid channelUid text (.ofBitVec id) draws.now = message
    have hchan : message.channelId = channelUid := by rw [← hm]; rfl
    have hkey : message.snowflake = .ofBitVec id := by rw [← hm]; rfl
    rw [← hchan, ← hkey]
    dsimp only [Server.conclude]
    rw [List.append_nil]
    have hstore : storeHistory
          { s.db with
            messages := s.db.messages.emplace message.snowflake message
            generator
            channels := s.db.channels.modify message.channelId (·.addMessage message.snowflake) }
        = record (storeHistory s.db) (.sendMessage (.ok message)) := storeHistory_addMessage rfl
    cases hauth : s.authenticatedUser conn with
    | none =>
        rw [clientInv_none hauth] at h
        rw [framesFor_notified_none hslots hauth, after_nil, clientInv_none (by exact hauth)]
        exact h
    | some u =>
        rw [clientInv_some hauth] at h
        obtain ⟨session, rfl, hmirrors⟩ := h
        obtain ⟨user, hu, -⟩ := hmirrors.2
        rw [framesFor_notify hslots hauth hu (hinv.once _ ch hch) (fun v => rfl),
          clientInv_some (by exact hauth)]
        by_cases hin : u ∈ ch.userUids
        · rw [if_pos hin]
          exact mirrors_record hmirrors hu (by exact hu) trivial hstore fun c hc => Or.inl hc
        · rw [if_neg hin, after_nil]
          refine ⟨session, rfl, mirrors_other hmirrors hu (by exact hu) ?_⟩
          intro c hc
          -- the user's channels list the user, and this one does not
          obtain ⟨ch', hch', hlisted⟩ := channel_found hinv.server.members hu hc
          have hne : c ≠ message.channelId := by
            rintro rfl
            rw [hchan, hch] at hch'
            cases hch'
            exact hin hlisted
          rw [hstore, record_sendMessage]
          exact if_neg hne

/-! ## Whole runs -/

theorem clientInv_receive [External] (hinv : StoreInv s) (hg : Admissible s call) {conn : Nat}
    {settled : Except Exn Session} (h : ClientInv s conn settled) :
    ClientInv (s.receive call).server conn
      (after settled (framesFor conn (s.receive call).written)) := by
  obtain ⟨conn', request, draws⟩ := call
  cases request with
  | registerAccount username password displayName => exact clientInv_register h
  | login username password => exact clientInv_login hinv hg.2 h
  | createChannel channelName members => exact clientInv_createChannel hinv hg.1 hg.2.2 h
  | sendMessage senderUid channelUid text => exact clientInv_sendMessage hinv h
  | listAccounts regex => exact hg.elim
  | deleteAccount username password => exact hg.elim
  | deleteMessage messageSnowflake => exact hg.elim

/-- Requests are admissible; when a client takes in a frame is up to the client. -/
def AdmissibleEvent [External] (d : Deployment) : Deployment.Event → Prop
  | .request call => Admissible d.server call
  | .deliver _ => True

instance [External] (d : Deployment) :
    (event : Deployment.Event) → Decidable (AdmissibleEvent d event)
  | .request call => inferInstanceAs (Decidable (Admissible d.server call))
  | .deliver _ => inferInstanceAs (Decidable True)

/-- The server's tables are in order, and every client is on its way to mirror them. -/
structure DeploymentInv (d : Deployment) : Prop where
  store : StoreInv d.server
  clients : ∀ conn, ClientInv d.server conn ((d.clients conn).settled Session.handle)

theorem deploymentInv_init : DeploymentInv Deployment.new where
  store := storeInv_init
  clients _ := rfl

/-- **Preserved by every admissible request and by every delivery.** -/
theorem deploymentInv_step [External] {d d' : Deployment} {event : Deployment.Event}
    (h : DeploymentInv d) (hg : AdmissibleEvent d event) (hs : d.step event = some d') :
    DeploymentInv d' := by
  cases event with
  | request call =>
      obtain ⟨server, hserver, rfl⟩ := Option.map_eq_some_iff.mp hs
      refine ⟨storeInv_step h.store hg hserver, ?_⟩
      intro conn
      have hreceive : (d.server.receive call).server = server := by
        unfold Server.step at hserver
        split at hserver
        · exact absurd hserver (by simp)
        · exact Option.some.inj hserver
      have hclient := clientInv_receive h.store hg (h.clients conn)
      rw [hreceive] at hclient
      dsimp only
      rw [Inbox.settled_send]
      exact hclient
  | deliver conn =>
      obtain ⟨client, hclient, rfl⟩ := Option.map_eq_some_iff.mp hs
      refine ⟨h.store, ?_⟩
      intro conn'
      dsimp only
      by_cases hc : conn' = conn
      · subst hc
        rw [Function.update_self, Inbox.settled_deliver Session.handle hclient]
        exact h.clients conn'
      · rw [Function.update_of_ne hc]
        exact h.clients conn'

theorem deploymentInv_reachable [External] {d : Deployment}
    (h : Deployment.system.Reachable AdmissibleEvent d) : DeploymentInv d := by
  refine h.invariant deploymentInv_init ?_
  intro d event d' _ hinv hg hs
  exact deploymentInv_step hinv hg hs

/--
**The client's replica agrees with the server.** In any admissible run, when all
frames written to a logged-in client have been taken in, the client has every
channel on its user's list at the server, and its list of that channel's messages
carries exactly the snowflakes of the server's history, in order.
-/
theorem replica_agrees [External] {d : Deployment}
    (h : Deployment.system.Reachable AdmissibleEvent d) {conn : Nat} {u : UUID}
    (hauth : d.server.authenticatedUser conn = some u) (hqueue : (d.clients conn).queue = []) :
    ∃ session user, (d.clients conn).state = .ok session
      ∧ d.server.db.users.lookup u = some user
      ∧ ∀ c ∈ user.channels, (session.channels.lookup c).isSome
          ∧ ∃ ch ms, d.server.db.channels.lookup c = some ch
              ∧ session.channelMessages.lookup c = some ms
              ∧ ms.map Message.snowflake = ch.messageSnowflakes := by
  obtain ⟨hstore, hclients⟩ := deploymentInv_reachable h
  have hclient := hclients conn
  rw [Inbox.settled_of_queue_nil Session.handle hqueue, clientInv_some hauth] at hclient
  obtain ⟨session, hstate, hready, user, hu, hview⟩ := hclient
  refine ⟨session, user, hstate, hu, ?_⟩
  intro c hc
  obtain ⟨ch, hch, -⟩ := channel_found hstore.server.members hu hc
  have hsame := hview c hc
  unfold viewHistory storeHistory at hsame
  rw [hch] at hsame
  obtain ⟨ms, hms, hlist⟩ := Option.map_eq_some_iff.mp hsame
  refine ⟨?_, ch, ms, hch, hms, hlist⟩
  rw [hready.keys, hms]
  rfl

/--
Alice (1) says something to Bob (2) before he logs in and something after. Frames
are taken in now and then.
-/
def lateLogin : List Deployment.Event :=
  [.request ⟨0, .registerAccount (lit "alice") (lit "secret") (lit "Alice"), .ofByte 1 []⟩,
    .request ⟨1, .registerAccount (lit "bob") (lit "secret") (lit "Bob"), .ofByte 2 []⟩,
    .request ⟨0, .login (lit "alice") (lit "secret"), .ofByte 0 []⟩,
    .deliver 0,
    .request ⟨0, .createChannel (lit "plans") [.ofByte 1, .ofByte 2], .ofByte 7 []⟩,
    .request ⟨0, .sendMessage (.ofByte 1) (.ofByte 7) (lit "hi"), .ofByte 0 [epoch + 5]⟩,
    .request ⟨1, .login (lit "bob") (lit "secret"), .ofByte 0 []⟩,
    .deliver 1,
    .deliver 1,
    .request ⟨0, .sendMessage (.ofByte 1) (.ofByte 7) (lit "you"), .ofByte 0 [epoch + 5]⟩,
    .deliver 1,
    .deliver 1,
    .deliver 1]

theorem lateLogin_runs :
    ((@Deployment.system .sample).exec (@AdmissibleEvent .sample) Deployment.new
      lateLogin).isSome := by
  decide

/-- Bob's client has both messages, one from the replay and one as it was sent. -/
theorem replica_agrees_lateLogin :
    ∃ d session ms, (@Deployment.system .sample).Reachable (@AdmissibleEvent .sample) d
      ∧ (d.clients 1).state = .ok session
      ∧ session.channelMessages.lookup (.ofByte 7) = some ms
      ∧ ms.map Message.snowflake = [41951488, 41951489] := by
  obtain ⟨d, hd⟩ : ∃ d, d = ((@Deployment.system .sample).exec (@AdmissibleEvent .sample)
    Deployment.new lateLogin).get lateLogin_runs := ⟨_, rfl⟩
  have hr : (@Deployment.system .sample).Reachable (@AdmissibleEvent .sample) d :=
    hd ▸ Reachable.exec_get lateLogin_runs
  have hauth : d.server.authenticatedUser 1 = some (.ofByte 2) := by subst hd; decide
  have hqueue : (d.clients 1).queue.isEmpty := by subst hd; decide
  have hlisted : (d.server.db.users.lookup (.ofByte 2)).map (·.channels) = some [.ofByte 7] := by
    subst hd; decide
  have hhistory : (d.server.db.channels.lookup (.ofByte 7)).map (·.messageSnowflakes)
      = some [41951488, 41951489] := by subst hd; decide
  obtain ⟨session, user, hstate, hu, hagrees⟩ :=
    @replica_agrees .sample d hr 1 (.ofByte 2) hauth (List.isEmpty_iff.mp hqueue)
  have hchannels : user.channels = [.ofByte 7] := by
    rw [hu] at hlisted
    exact Option.some.inj hlisted
  obtain ⟨-, ch, ms, hch, hms, hlist⟩ := hagrees (.ofByte 7) (by rw [hchannels]; exact .head _)
  rw [hch] at hhistory
  exact ⟨d, session, ms, hr, hstate, hms, hlist.trans (Option.some.inj hhistory)⟩

end SockEtOut.Proof
