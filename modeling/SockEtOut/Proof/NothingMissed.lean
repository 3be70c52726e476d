import SockEtOut.Net.Exchange
import SockEtOut.Proof.Following

/-!
# A client misses nothing

Any client's requests, of all seven kinds, in any order. When a client whose user is
registered has worked off its frames, each channel on its user's list shows the server's
history, and besides it only what is gone.

A request changes the database by one operation and announces it; `abreast_effect` says
what that is to a client that hears nothing of a message or a channel, `abreast_heard`
what it is to one that hears of it, and a login starts again from what is stored.
-/

namespace SockEtOut.Proof

open Lib System

variable {k : Int} {db db' : Database} {s s' : Server} {call : Server.Call}

/-! ## The requests -/

/--
Any request. Drawn UUIDs are new, also to the connections, member lists have no
duplicates, the clock stays in one span, and who is logged in deletes no account but
its own.
-/
def Ordinary [External] (k : Int) (s : Server) (call : Server.Call) : Prop :=
  match call.request with
  | .registerAccount .. =>
      call.draws.uid ∉ s.db.uids ∧ ∀ slot ∈ s.slots, slot.sender ≠ call.draws.uid
  | .createChannel _ members =>
      call.draws.uid ∉ s.db.uids ∧ call.draws.uid ∉ members ∧ members.Nodup
  | .sendMessage .. => ∀ r ∈ call.draws.readings, spanStart k ≤ r ∧ r < spanStart k + idSpan
  | .deleteAccount username password =>
      accepts s username password = true → ∀ u ∈ s.authenticatedUser call.conn,
        (s.db.users.lookup u).isSome → s.db.users.getUidFromUsername username = some u
  | .login .. | .listAccounts _ | .deleteMessage _ => True

instance [External] (k : Int) (s : Server) : (call : Server.Call) → Decidable (Ordinary k s call)
  | ⟨_, .registerAccount .., draws⟩ => inferInstanceAs
      (Decidable (draws.uid ∉ s.db.uids ∧ ∀ slot ∈ s.slots, slot.sender ≠ draws.uid))
  | ⟨_, .createChannel _ members, draws⟩ =>
      inferInstanceAs (Decidable (draws.uid ∉ s.db.uids ∧ draws.uid ∉ members ∧ members.Nodup))
  | ⟨_, .sendMessage .., draws⟩ => inferInstanceAs
      (Decidable (∀ r ∈ draws.readings, spanStart k ≤ r ∧ r < spanStart k + idSpan))
  | ⟨conn, .deleteAccount username password, _⟩ => inferInstanceAs
      (Decidable (accepts s username password = true → ∀ u ∈ s.authenticatedUser conn,
        (s.db.users.lookup u).isSome → s.db.users.getUidFromUsername username = some u))
  | ⟨_, .login .., _⟩ | ⟨_, .listAccounts _, _⟩ | ⟨_, .deleteMessage _, _⟩ =>
      inferInstanceAs (Decidable True)

theorem asks_of_ordinary [External] (h : Ordinary k s call) :
    Asks Database.FreshUids s call ∧ Asks (fun _ => ReadingsWithin (spanStart k)) s call
      ∧ Asks ListsOnce s call := by
  obtain ⟨conn, request, draws⟩ := call
  cases request with
  | registerAccount username password displayName =>
      refine ⟨?_, ?_, ?_⟩ <;> intro op hop <;> cases hop
      · exact h.1
      · trivial
      · trivial
  | createChannel channelName members =>
      obtain ⟨hfresh, hnew, hnd⟩ := h
      refine ⟨?_, ?_, ?_⟩ <;> intro op hop <;> cases hop
      · exact ⟨hfresh, hnew⟩
      · trivial
      · exact hnd
  | sendMessage senderUid channelUid text =>
      refine ⟨?_, ?_, ?_⟩ <;> intro op hop <;> cases hop
      · trivial
      · exact h
      · trivial
  | deleteMessage messageSnowflake =>
      refine ⟨?_, ?_, ?_⟩ <;> intro op hop <;> cases hop <;> trivial
  | deleteAccount username password =>
      refine ⟨?_, ?_, ?_⟩ <;> intro op hop <;>
        obtain ⟨uid, -, rfl⟩ := Option.map_eq_some_iff.mp hop <;> trivial
  | login username password =>
      exact ⟨by simp [Asks, operation], by simp [Asks, operation], by simp [Asks, operation]⟩
  | listAccounts regex =>
      exact ⟨by simp [Asks, operation], by simp [Asks, operation], by simp [Asks, operation]⟩

/-- What the argument needs of the server. -/
structure LastingInv (k : Int) (s : Server) : Prop where
  server : ServerInv s
  keyed : Keyed s.db
  once : MembersNodup s.db
  stamped : Stamped (spanStart k) s.db
  sorted : HistorySorted s.db

theorem lastingInv_init : LastingInv k Server.new where
  server := serverInv_init
  keyed := keyed_init
  once := membersNodup_init
  stamped := stamped_init _
  sorted := historySorted_init

theorem lastingInv_step [External] (h : LastingInv k s) (hg : Ordinary k s call)
    (hs : s.step call = some s') : LastingInv k s' := by
  obtain ⟨hf, hr, hl⟩ := asks_of_ordinary hg
  have hfresh : Asks FreshSnowflake s call := fun op hop =>
    freshSnowflake_of_stamped h.stamped (hr op hop)
  have hhistories := db_step
    (P := fun db => Stamped (spanStart k) db ∧ HistoryOwned db ∧ HistorySorted db)
    (G := fun _ op => ReadingsWithin (spanStart k) op)
    (fun h hr he => ⟨stamped_step h.1 hr he,
      historyOwned_step h.2.1 (freshSnowflake_of_stamped h.1 hr) he,
      historySorted_step h.2.2 h.2.1 h.1 hr he⟩)
    ⟨h.stamped, h.server.owned, h.sorted⟩ hr hs
  exact
    { server := serverInv_step h.server hf hfresh hs
      keyed := db_step (G := fun _ _ => True) (fun hk _ he => keyed_step hk he) h.keyed
        (fun _ _ => trivial) hs
      once := db_step membersNodup_step h.once hl hs
      stamped := hhistories.1
      sorted := hhistories.2.2 }

/-! ## What a client will come to -/

/-- A session in order, with the channels of the user that is logged in, if it is registered. -/
structure Abreast (k : Int) (s : Server) (conn : Nat) (session : Session) : Prop where
  order : InOrder k s.db session
  current : ∀ u user, s.authenticatedUser conn = some u → s.db.users.lookup u = some user →
    session.authenticatedUser.isSome ∧ ∀ c ∈ user.channels, Reflects s.db (viewHistory session) c

variable {conn : Nat} {session session' : Session}

/-- Only the lists count, and whether there is a user. -/
theorem abreast_congr (h : Abreast k s conn session)
    (hlists : session'.channelMessages = session.channelMessages)
    (hkeys : ∀ c, (session'.channels.lookup c).isSome = (session.channels.lookup c).isSome)
    (huser : session.authenticatedUser.isSome → session'.authenticatedUser.isSome) :
    Abreast k s conn session' where
  order :=
    { keys := fun c => by rw [hkeys, hlists]; exact h.order.keys c
      ascend := fun c ss hview =>
        h.order.ascend c ss (by unfold viewHistory at hview ⊢; rw [← hlists]; exact hview)
      genuine := fun c ms hms => h.order.genuine c ms (by rw [← hlists]; exact hms) }
  current u user hauth hu := by
    obtain ⟨hsome, hchannels⟩ := h.current u user hauth hu
    refine ⟨huser hsome, fun c hc => ?_⟩
    obtain ⟨ch, ss, hch, hview, hrest⟩ := hchannels c hc
    exact ⟨ch, ss, hch, by unfold viewHistory at hview ⊢; rw [hlists]; exact hview, hrest⟩

/-- An operation that a client hears nothing of, or of deletions only. -/
theorem abreast_effect {op : Database.Op} (hf : s.db.FreshUids op)
    (hr : ReadingsWithin (spanStart k) op) (he : Effect s.db op db') (hmembers : MembershipInv db')
    (hheld : ∀ u user', s.authenticatedUser conn = some u → db'.users.lookup u = some user' →
      ∃ user, s.db.users.lookup u = some user
        ∧ ∀ c ∈ user'.channels, c ∈ user.channels ∧ SpareOf c op)
    (h : Abreast k s conn session) : Abreast k { s with db := db' } conn session where
  order := inOrder_effect hr he h.order
  current u user' hauth hu' := by
    obtain ⟨user, hu, hheld⟩ := hheld u user' hauth hu'
    obtain ⟨hsome, hchannels⟩ := h.current u user hauth hu
    refine ⟨hsome, fun c hc => ?_⟩
    obtain ⟨hold, hspare⟩ := hheld c hc
    obtain ⟨ch, hch, -⟩ := channel_found hmembers hu' hc
    refine reflects_effect hf hr he h.order hspare ?_ (hchannels c hold)
    rw [hch]
    rfl

/-! ## Frames that change no list -/

/-- A response that leaves lists and user as they are. -/
def Harmless : Response → Prop
  | .registerAccount _ | .login (.error _) | .listAccounts _ | .deleteAccount (.error _)
  | .deleteMessage (.ok _) => True
  | _ => False

/-- Deletions and what is only shown to the user. -/
theorem abreast_harmless {rs : List Response} (hrs : ∀ r ∈ rs, Harmless r) :
    ∀ {session : Session}, Abreast k s conn session →
      ∃ session', rs.foldlM Session.handle session = .ok session' ∧ Abreast k s conn session' := by
  induction rs with
  | nil => exact fun h => ⟨_, rfl, h⟩
  | cons r rs ih =>
      intro session h
      have hone : ∃ session₁, session.handle r = .ok session₁ ∧ Abreast k s conn session₁ := by
        have hr := hrs r (List.mem_cons_self ..)
        cases r with
        | registerAccount data | listAccounts data => exact ⟨session, rfl, h⟩
        | login data | deleteAccount data =>
            cases data with
            | error e => exact ⟨session, rfl, h⟩
            | ok user => exact hr.elim
        | deleteMessage data =>
            cases data with
            | error e => exact hr.elim
            | ok message =>
                simp only [Session.handle, Session.removeMessage]
                cases hms : session.channelMessages.lookup message.channelId with
                | none => exact ⟨session, rfl, h⟩
                | some messages =>
                    have hchannel := h.order.keys message.channelId
                    rw [hms] at hchannel
                    obtain ⟨channel, hch⟩ := Option.isSome_iff_exists.mp hchannel
                    rw [hch]
                    refine ⟨_, rfl, abreast_congr h rfl (fun c => ?_) id⟩
                    dsimp only
                    rw [Table.lookup_assign]
                    split
                    · rename_i heq
                      rw [heq, hch]
                      rfl
                    · rfl
        | _ => exact hr.elim
      obtain ⟨session₁, hok, habreast⟩ := hone
      obtain ⟨session', hok', habreast'⟩ :=
        ih (fun r' hr' => hrs r' (List.mem_cons_of_mem _ hr')) habreast
      refine ⟨session', ?_, habreast'⟩
      rw [List.foldlM_cons, hok]
      exact hok'

/-- A client comes to a session that follows. -/
def Follower (k : Int) (s : Server) (conn : Nat) (settled : Except Exn Session) : Prop :=
  ∃ session, settled = .ok session ∧ Abreast k s conn session

variable {settled : Except Exn Session}

/-- Nothing changes for a client whose frames change nothing. -/
theorem follower_after {rs : List Response} (hrs : ∀ r ∈ rs, Harmless r)
    (h : Follower k s conn settled) : Follower k s conn (after settled rs) := by
  obtain ⟨session, rfl, habreast⟩ := h
  exact abreast_harmless hrs habreast

/-- A reply that is only shown. -/
theorem follower_respond {conn' : Nat} {r : Response} (hr : Harmless r)
    (h : Follower k s conn' settled) : Follower k (s.respond conn r).server conn'
      (after settled (framesFor conn' (s.respond conn r).written)) := by
  refine follower_after ?_ h
  intro r' hr'
  rw [mem_framesFor] at hr'
  obtain ⟨-, rfl⟩ := Prod.mk.inj (List.mem_singleton.mp hr')
  exact hr

/-! ## Frames that do -/

/-- An announcement reaches a connection of a registered user on the list, once, and no other. -/
theorem framesFor_notify_cases (hslots : SlotsInv s) (conn : Nat) {userUids : List UUID}
    (hnd : userUids.Nodup) (signal : UUID → Signal) (hsignal : ∀ v, (signal v).user = v) :
    (framesFor conn ((s.db.notify userUids signal).flatMap s.deliver) = []
        ∧ ∀ u user, s.authenticatedUser conn = some u → s.db.users.lookup u = some user →
          u ∉ userUids)
      ∨ ∃ u user, s.authenticatedUser conn = some u ∧ s.db.users.lookup u = some user
          ∧ u ∈ userUids
          ∧ framesFor conn ((s.db.notify userUids signal).flatMap s.deliver)
              = [(signal u).response] := by
  cases hauth : s.authenticatedUser conn with
  | none =>
      refine Or.inl ⟨framesFor_notified_none hslots hauth _, ?_⟩
      rintro u user ⟨⟩
  | some u =>
      cases hu : s.db.users.lookup u with
      | none =>
          refine Or.inl ⟨?_, ?_⟩
          · -- signals are emitted on registered users only
            rw [framesFor_notified hslots, List.map_eq_nil_iff, List.filter_eq_nil_iff]
            intro sig hsig hsame
            obtain ⟨v, -, ⟨user, hv⟩, rfl⟩ := mem_notify hsig
            rw [hauth, hsignal] at hsame
            obtain rfl : u = v := by simpa using hsame
            rw [hu] at hv
            cases hv
          · rintro v user ⟨⟩ hv
            rw [hu] at hv
            cases hv
      | some user =>
          by_cases hin : u ∈ userUids
          · refine Or.inr ⟨u, user, rfl, hu, hin, ?_⟩
            rw [framesFor_notify hslots hauth hu hnd hsignal, if_pos hin]
          · refine Or.inl ⟨?_, ?_⟩
            · rw [framesFor_notify hslots hauth hu hnd hsignal, if_neg hin]
            · rintro v user' ⟨⟩ -
              exact hin

/-- An operation whose announcement a client hears. -/
theorem abreast_heard {op : Database.Op} (hf : s.db.FreshUids op)
    (hr : ReadingsWithin (spanStart k) op) (he : Effect s.db op db') (hmembers : MembershipInv db')
    {u : UUID} {user user' : User} (hauth : s.authenticatedUser conn = some u)
    (hu : s.db.users.lookup u = some user) (hu' : db'.users.lookup u = some user') {r : Response}
    (hkeeps : Keeps r) (hgenuine : ∀ m, r = .sendMessage (.ok m) → Genuine k db' m)
    (h : Abreast k s conn session)
    (hascend : ∀ c ss, record (viewHistory session) r c = some ss → ss.Pairwise (· < ·))
    (hheld : ∀ c ∈ user'.channels,
      (c ∈ user.channels ∧ SpareOf c op ∧ record (viewHistory session) r c = viewHistory session c)
        ∨ Reflects db' (record (viewHistory session) r) c) :
    ∃ session', session.handle r = .ok session'
      ∧ Abreast k { s with db := db' } conn session' := by
  obtain ⟨hsome, hchannels⟩ := h.current u user hauth hu
  obtain ⟨session', hok, hready, hview⟩ := handle_ready ⟨hsome, h.order.keys⟩ hkeeps
  have hone : [r].foldlM Session.handle session = .ok session' := by
    rw [List.foldlM_cons, hok]
    rfl
  refine ⟨session', hok, ⟨hready.keys, ?_, ?_⟩, ?_⟩
  · rw [hview]
    exact hascend
  · refine genuine_foldlM (fun m hm => hgenuine m (List.mem_singleton.mp hm).symm) hone ?_
    exact (inOrder_effect hr he h.order).genuine
  · intro v user₁ hauth₁ hu₁
    obtain rfl : u = v := Option.some.inj (hauth.symm.trans hauth₁)
    obtain rfl : user' = user₁ := Option.some.inj (hu'.symm.trans hu₁)
    refine ⟨hready.user, fun c hc => ?_⟩
    rcases hheld c hc with ⟨hold, hspare, hsame⟩ | ⟨ch, ss, hch, hss, hrest⟩
    · -- a channel that the frame is not about
      obtain ⟨ch, hch, -⟩ := channel_found hmembers hu₁ hc
      obtain ⟨ch', ss, hch', hss, hrest⟩ := reflects_effect hf hr he h.order hspare
        (by rw [hch]; rfl) (hchannels c hold)
      exact ⟨ch', ss, hch', by rw [hview, hsame]; exact hss, hrest⟩
    · exact ⟨ch, ss, hch, by rw [hview]; exact hss, hrest⟩

/-! ## Request by request -/

variable {conn' : Nat} {draws : Draws}

/-- A connection that has a user has slots on it. -/
theorem exists_slot (hslots : SlotsInv s) {u : UUID} (hauth : s.authenticatedUser conn = some u) :
    ∃ slot ∈ s.slots, slot.sender = u := by
  have hcount := hslots conn u .onChannelAdded
  rw [if_pos hauth] at hcount
  exact ⟨_, List.count_pos_iff.mp (hcount ▸ Nat.one_pos), rfl⟩

theorem follower_register [External] (hinv : LastingInv k s)
    {username password displayName : Str} (hfresh : draws.uid ∉ s.db.uids)
    (hnew : ∀ slot ∈ s.slots, slot.sender ≠ draws.uid)
    (hmembers : MembershipInv
      (s.onRegisterAccount conn draws username password displayName).server.db)
    (h : Follower k s conn' settled) :
    Follower k (s.onRegisterAccount conn draws username password displayName).server conn'
      (after settled (framesFor conn'
        (s.onRegisterAccount conn draws username password displayName).written)) := by
  unfold Server.onRegisterAccount at hmembers ⊢
  split
  · exact follower_respond trivial h
  · rename_i hnone
    rw [hnone] at hmembers
    refine follower_after ?_ ?_
    · intro r hr
      rw [mem_framesFor] at hr
      obtain ⟨-, rfl⟩ := Prod.mk.inj (List.mem_singleton.mp hr)
      trivial
    · obtain ⟨session, hsettled, habreast⟩ := h
      have hf : s.db.FreshUids
          (.addUser draws.uid username displayName password draws.salt) := hfresh
      refine ⟨session, hsettled,
        abreast_effect hf trivial (.userAdded _) hmembers ?_ habreast⟩
      intro u user' hauth hu'
      rcases Table.lookup_of_emplace hu' with hold | ⟨rfl, -⟩
      · exact ⟨user', hold, fun c hc => ⟨hc, trivial⟩⟩
      · -- no connection is waiting for this UUID
        obtain ⟨slot, hslot, hsender⟩ := exists_slot hinv.server.slots hauth
        exact absurd hsender (hnew slot hslot)

/-- What a login leaves a client with, whatever it had. -/
theorem abreast_login (hinv : LastingInv k s) {uid : UUID} {user : User}
    (hu : s.db.users.lookup uid = some user) (h : Abreast k s conn session) :
    ∃ session', (Response.login (.ok user) :: Server.replay s.db user).foldlM Session.handle
        session = .ok session'
      ∧ Abreast k (s.setAuthenticatedUser conn uid) conn session' := by
  have howned := hinv.server.owned
  have hready : Ready { session with authenticatedUser := some user } := ⟨rfl, h.order.keys⟩
  obtain ⟨session', hok, hready', hview⟩ :=
    foldlM_handle_ready (Server.replay s.db user) (fun r hr => keeps_of_replay hr) hready
  have hfound : ∀ c ∈ user.channels, ∃ ch, s.db.channels.lookup c = some ch := fun c hc =>
    (channel_found hinv.server.members hu hc).imp fun _ => And.left
  have hreplayed : ∀ c, viewHistory session' c
      = if c ∈ user.channels then storeHistory s.db c else viewHistory session c := by
    intro c
    rw [hview]
    exact record_replay howned hinv.keyed hfound (viewHistory session) c
  refine ⟨session', hok, ⟨hready'.keys, ?_, ?_⟩, ?_⟩
  · intro c ss hss
    rw [hreplayed] at hss
    split at hss
    · obtain ⟨ch, hch, rfl⟩ := Option.map_eq_some_iff.mp hss
      exact hinv.sorted c ch hch
    · exact h.order.ascend c ss hss
  · -- a replay is of stored messages
    refine genuine_foldlM ?_ hok h.order.genuine
    intro m hm
    obtain ⟨c, -, ch, -, hr | ⟨t, -, m', hm', hr⟩⟩ := Server.mem_replay hm
    · cases hr
    · cases hr
      have hkey := hinv.keyed t m hm'
      refine ⟨hkey ▸ hinv.stamped t m hm', fun m₀ hm₀ => ?_⟩
      rw [hkey] at hm₀
      exact Option.some.inj (hm₀.symm.trans hm')
  · intro u user' hauth hu'
    have hsame : (s.setAuthenticatedUser conn uid).authenticatedUser conn = some uid :=
      Function.update_self _ _ _
    obtain rfl : uid = u := Option.some.inj (hsame.symm.trans hauth)
    obtain rfl : user = user' := Option.some.inj (hu.symm.trans hu')
    refine ⟨hready'.user, fun c hc => ?_⟩
    obtain ⟨ch, hch⟩ := hfound c hc
    refine ⟨ch, ch.messageSnowflakes, hch, ?_, List.Sublist.refl _, fun t ht hnot => absurd ht hnot⟩
    rw [hreplayed, if_pos hc, storeHistory, hch]
    rfl

theorem follower_login [External] (hinv : LastingInv k s) {username password : Str}
    (h : Follower k s conn' settled) :
    Follower k (s.onLogin conn username password).server conn'
      (after settled (framesFor conn' (s.onLogin conn username password).written)) := by
  have hsilent : Follower k s conn' (after settled []) := (after_nil settled).symm ▸ h
  unfold Server.onLogin
  split
  · exact hsilent
  · rename_i uid huid
    split
    · exact follower_respond trivial h
    · exact follower_respond trivial h
    · split
      · exact hsilent
      · rename_i user hu
        have hframes : framesFor conn' ((conn, Response.login (.ok user)) ::
              (Server.replay s.db user).map fun r => (conn, r))
            = if conn' = conn then .login (.ok user) :: Server.replay s.db user else [] :=
          framesFor_own conn conn' (.login (.ok user) :: Server.replay s.db user)
        dsimp only
        rw [hframes]
        obtain ⟨session, rfl, habreast⟩ := h
        by_cases hc : conn' = conn
        · subst hc
          rw [if_pos rfl]
          exact abreast_login hinv hu habreast
        · rw [if_neg hc]
          refine ⟨session, after_nil _, habreast.order, ?_⟩
          intro u user' hauth hu'
          have hsame : (s.setAuthenticatedUser conn uid).authenticatedUser conn'
              = s.authenticatedUser conn' := Function.update_of_ne hc _ _
          exact habreast.current u user' (hsame ▸ hauth) hu'

theorem follower_createChannel (hinv : LastingInv k s) {channelName : Str} {members : List UUID}
    (hfresh : draws.uid ∉ s.db.uids) (hnew : draws.uid ∉ members) (hnd : members.Nodup)
    (hmembers : MembershipInv (s.onCreateChannel draws channelName members).server.db)
    (h : Follower k s conn' settled) :
    Follower k (s.onCreateChannel draws channelName members).server conn'
      (after settled (framesFor conn' (s.onCreateChannel draws channelName members).written)) := by
  have hnone : s.db.channels.lookup draws.uid = none := lookup_channels_fresh hfresh
  have hwritten : (s.onCreateChannel draws channelName members).written
      = (s.db.notify members
          (.channelAdded · (.new draws.uid channelName members))).flatMap s.deliver :=
    List.append_nil _
  have hf : s.db.FreshUids (.addChannel draws.uid channelName members) := ⟨hfresh, hnew⟩
  have hr : ReadingsWithin (spanStart k) (.addChannel draws.uid channelName members) := trivial
  have he : Effect s.db (.addChannel draws.uid channelName members)
      (s.db.addChannel draws.uid channelName members).db := .channelAdded
  have husers : ∀ u, (s.db.addChannel draws.uid channelName members).db.users.lookup u
      = (s.db.users.lookup u).map (fun v : User => v.addChannel draws.uid)^[members.count u] :=
    fun u => Table.lookup_foldl_modify _ _ _ _
  obtain ⟨session, rfl, habreast⟩ := h
  rw [hwritten]
  rcases framesFor_notify_cases hinv.server.slots conn' hnd
      (.channelAdded · (.new draws.uid channelName members)) (fun _ => rfl) with
    ⟨hframes, hnot⟩ | ⟨u, user, hauth, hu, hin, hframes⟩
  · -- nobody at this connection is a member
    rw [hframes]
    refine ⟨session, rfl, abreast_effect hf hr he hmembers ?_ habreast⟩
    intro u user' hauth hu'
    rw [husers] at hu'
    obtain ⟨user, hu, hsame⟩ := Option.map_eq_some_iff.mp hu'
    rw [List.count_eq_zero_of_not_mem (hnot u user hauth hu)] at hsame
    obtain rfl : user = user' := hsame
    exact ⟨user, hu, fun c hc => ⟨hc, trivial⟩⟩
  · -- a member hears of it once, being listed once
    rw [hframes]
    have hu' := husers u
    rw [hu, List.count_eq_one_of_mem hnd hin] at hu'
    have hrecord := record_createChannel (viewHistory session) (.new draws.uid channelName members)
    obtain ⟨session', hok, habreast'⟩ := abreast_heard hf hr he hmembers hauth hu hu'
      (r := .createChannel (.ok (.new draws.uid channelName members))) trivial
      (by rintro m ⟨⟩) habreast
      (by
        intro c ss hss
        rw [hrecord] at hss
        split at hss
        · cases hss
          exact .nil
        · exact habreast.order.ascend c ss hss)
      (by
        intro c hc
        rcases List.mem_append.mp hc with hold | hlast
        · refine Or.inl ⟨hold, trivial, ?_⟩
          rw [hrecord, if_neg]
          rintro rfl
          obtain ⟨ch, hch, -⟩ := channel_found hinv.server.members hu hold
          rw [show (Channel.new draws.uid channelName members).uid = draws.uid from rfl, hnone]
            at hch
          cases hch
        · refine Or.inr ⟨.new draws.uid channelName members, [], ?_, ?_, .slnil, by simp⟩
          · rw [List.mem_singleton.mp hlast]
            exact (Table.lookup_emplace hnone _ _).trans (if_pos rfl)
          · rw [hrecord, List.mem_singleton.mp hlast]
            exact if_pos rfl)
    refine ⟨session', ?_, habreast'⟩
    show [_].foldlM Session.handle session = _
    rw [List.foldlM_cons]
    show session.handle (.createChannel (.ok (.new draws.uid channelName members))) >>= _ = _
    rw [hok]
    rfl

/-- A message that goes to the end of its channel, at the server and at a member. -/
theorem abreast_sent {op : Database.Op} (hf : s.db.FreshUids op)
    (hr : ReadingsWithin (spanStart k) op) (he : Effect s.db op db') (hmembers : MembershipInv db')
    (message : Message) {ch : Channel} (hspare : ∀ c, c ≠ message.channelId → SpareOf c op)
    (hch : s.db.channels.lookup message.channelId = some ch)
    (hch' : db'.channels.lookup message.channelId = some (ch.addMessage message.snowflake))
    (hlater : ∀ t, Issued (spanStart k) s.db.generator t → t < message.snowflake)
    (hgenuine : Genuine k db' message) {u : UUID} {user : User}
    (hauth : s.authenticatedUser conn = some u) (hu : s.db.users.lookup u = some user)
    (hu' : db'.users.lookup u = some user) (h : Abreast k s conn session) :
    ∃ session', session.handle (.sendMessage (.ok message)) = .ok session'
      ∧ Abreast k { s with db := db' } conn session' := by
  have hrecord := record_sendMessage (viewHistory session) message
  refine abreast_heard hf hr he hmembers hauth hu hu' (r := .sendMessage (.ok message)) trivial
    (by rintro m ⟨⟩; exact hgenuine) h ?_ ?_
  · intro c ss hss
    rw [hrecord] at hss
    split at hss
    · obtain ⟨old, hold, rfl⟩ := Option.map_eq_some_iff.mp hss
      refine List.pairwise_append.mpr ⟨h.order.ascend c old hold, List.pairwise_singleton _ _, ?_⟩
      intro t ht t' ht'
      rw [List.mem_singleton.mp ht']
      exact hlater t (issued_of_view h.order hold ht)
    · exact h.order.ascend c ss hss
  · intro c hc
    by_cases heq : c = message.channelId
    · subst heq
      obtain ⟨-, hchannels⟩ := h.current u user hauth hu
      obtain ⟨ch₀, ss, hch₀, hss, hsub, hextra⟩ := hchannels _ hc
      obtain rfl : ch = ch₀ := Option.some.inj (hch.symm.trans hch₀)
      refine Or.inr ⟨_, ss ++ [message.snowflake], hch', ?_, ?_, ?_⟩
      · rw [hrecord, if_pos rfl, hss]
        rfl
      · exact hsub.append (List.Sublist.refl _)
      · intro t ht hnot
        rcases List.mem_append.mp ht with hold | hnew
        · refine gone_effect hf hr he (issued_of_view h.order hss hold) ?_
          exact hextra t hold fun hin => hnot (List.mem_append_left _ hin)
        · rw [List.mem_singleton.mp hnew] at hnot
          exact absurd (List.mem_append_right _ (List.mem_singleton_self _)) hnot
    · refine Or.inl ⟨hc, hspare c heq, ?_⟩
      rw [hrecord, if_neg heq]

theorem follower_sendMessage (hinv : LastingInv k s) {senderUid channelUid : UUID} {text : Str}
    (hreadings : ∀ r ∈ draws.readings, spanStart k ≤ r ∧ r < spanStart k + idSpan)
    (hreturns : (s.onSendMessage draws senderUid channelUid text).outcome ≠ .waiting)
    (hmembers : MembershipInv (s.onSendMessage draws senderUid channelUid text).server.db)
    (h : Follower k s conn' settled) :
    Follower k (s.onSendMessage draws senderUid channelUid text).server conn'
      (after settled (framesFor conn'
        (s.onSendMessage draws senderUid channelUid text).written)) := by
  have hsilent : Follower k s conn' (after settled []) := (after_nil settled).symm ▸ h
  unfold Server.onSendMessage at hreturns hmembers ⊢
  rcases addMessage_cases s.db senderUid channelUid text draws.readings draws.now with
    ⟨e, heq⟩ | ⟨e, heq⟩ | ⟨generator, heq⟩ | ⟨ch, id, generator, hch, hid, heq⟩
  · rw [heq]
    exact hsilent
  · rw [heq]
    exact hsilent
  · rw [heq] at hreturns
    exact absurd rfl hreturns
  · rw [heq] at hmembers ⊢
    have hf : s.db.FreshUids
        (.addMessage senderUid channelUid text draws.readings draws.now) := trivial
    have hr : ReadingsWithin (spanStart k)
        (.addMessage senderUid channelUid text draws.readings draws.now) := hreadings
    have he : Effect s.db (.addMessage senderUid channelUid text draws.readings draws.now) _ :=
      .messageAdded hch hid
    have hfree := nextId_fresh hinv.stamped hid hreadings
    dsimp only [Server.conclude] at hmembers ⊢
    rw [List.append_nil]
    obtain ⟨session, rfl, habreast⟩ := h
    rcases framesFor_notify_cases hinv.server.slots conn' (hinv.once _ ch hch)
        (.messageReceived · (.new senderUid channelUid text (.ofBitVec id) draws.now))
        (fun _ => rfl) with
      ⟨hframes, hnot⟩ | ⟨u, user, hauth, hu, hin, hframes⟩
    · -- nobody at this connection is a member
      rw [hframes]
      refine ⟨session, rfl, abreast_effect hf hr he hmembers ?_ habreast⟩
      intro u user' hauth hu'
      refine ⟨user', hu', fun c hc => ⟨hc, ?_⟩⟩
      rintro rfl
      obtain ⟨ch', hch', hlisted⟩ := channel_found hinv.server.members hu' hc
      obtain rfl : ch = ch' := Option.some.inj (hch.symm.trans hch')
      exact hnot u user' hauth hu' hlisted
    · -- a member hears of it once, being listed once
      rw [hframes]
      have hgenuine : Genuine k { s.db with
            messages := s.db.messages.emplace (.ofBitVec id)
              (.new senderUid channelUid text (.ofBitVec id) draws.now)
            generator
            channels := s.db.channels.modify channelUid (·.addMessage (.ofBitVec id)) }
          (.new senderUid channelUid text (.ofBitVec id) draws.now) := by
        refine ⟨(issued_nextId hid hreadings).1, fun m' hm' => ?_⟩
        have hnew := (Table.lookup_emplace hfree (.ofBitVec id)
          (.new senderUid channelUid text (.ofBitVec id) draws.now)).trans (if_pos rfl)
        exact Option.some.inj (hm'.symm.trans hnew)
      obtain ⟨session', hok, habreast'⟩ := abreast_sent hf hr he hmembers
        (.new senderUid channelUid text (.ofBitVec id) draws.now) (fun c hc => Ne.symm hc) hch
        ((Table.lookup_modify _ _ _ _).trans ((if_pos rfl).trans (congrArg _ hch)))
        (fun t ht => issued_lt hid hreadings ht) hgenuine hauth hu hu habreast
      refine ⟨session', ?_, habreast'⟩
      show [Response.sendMessage (.ok _)].foldlM Session.handle session = _
      rw [List.foldlM_cons, hok]
      rfl

/-- Deletions are announced by frames that change no list. -/
theorem harmless_deletions {sigs : List Signal}
    (hsigs : ∀ sig ∈ sigs, ∃ v m, sig = .messageDeleted v m) :
    ∀ r ∈ framesFor conn (sigs.flatMap s.deliver), Harmless r := by
  intro r hr
  rw [mem_framesFor] at hr
  obtain ⟨sig, hsig, hin⟩ := List.mem_flatMap.mp hr
  obtain ⟨v, m, rfl⟩ := hsigs sig hsig
  obtain ⟨slot, -, heq⟩ := List.mem_map.mp hin
  cases heq
  trivial

theorem follower_deleteMessage {messageSnowflake : UInt64}
    (hmembers : MembershipInv (s.onDeleteMessage messageSnowflake).server.db)
    (h : Follower k s conn' settled) :
    Follower k (s.onDeleteMessage messageSnowflake).server conn'
      (after settled (framesFor conn' (s.onDeleteMessage messageSnowflake).written)) := by
  unfold Server.onDeleteMessage at hmembers ⊢
  rcases removeMessage_cases s.db messageSnowflake with ⟨e, heq⟩ | ⟨m, ch, hm, hch, heq⟩
  · rw [heq]
    exact (after_nil settled).symm ▸ h
  · rw [heq] at hmembers ⊢
    dsimp only [Server.conclude] at hmembers ⊢
    rw [List.append_nil]
    have hf : s.db.FreshUids (.removeMessage messageSnowflake) := trivial
    have hr : ReadingsWithin (spanStart k) (.removeMessage messageSnowflake) := trivial
    refine follower_after (harmless_deletions ?_) ?_
    · intro sig hsig
      obtain ⟨v, -, -, rfl⟩ := mem_notify hsig
      exact ⟨v, m, rfl⟩
    · obtain ⟨session, rfl, habreast⟩ := h
      exact ⟨session, rfl, abreast_effect hf hr (.messageRemoved hm hch) hmembers
        (fun u user' _ hu' => ⟨user', hu', fun c hc => ⟨hc, trivial⟩⟩) habreast⟩

/-- An account is deleted: the other members hear of messages, and who asked starts anew. -/
theorem follower_removeUser {uid : UUID} {user : User}
    (hu : s.db.users.lookup uid = some user)
    (hown : ∀ u, s.authenticatedUser conn = some u → (s.db.users.lookup u).isSome → u = uid)
    (hmembers : MembershipInv (s.db.removeUser uid).db) (h : Follower k s conn' settled) :
    Follower k { s with db := (s.db.removeUser uid).db } conn'
      (after settled (framesFor conn' ((s.db.removeUser uid).emitted.flatMap s.deliver
        ++ [(conn, .deleteAccount (.ok user))]))) := by
  have hf : s.db.FreshUids (.removeUser uid) := trivial
  have hr : ReadingsWithin (spanStart k) (.removeUser uid) := trivial
  rw [removeUser_some hu] at hmembers ⊢
  have hharmless : ∀ r ∈ framesFor conn'
      ((s.db.leaveChannels uid user.channels).2.flatMap s.deliver), Harmless r := by
    refine harmless_deletions fun sig hsig => ?_
    obtain ⟨-, -, -, v, -, -, -, -, m, -, rfl⟩ := mem_leaveChannels_emitted hsig
    exact ⟨v, m, rfl⟩
  obtain ⟨session, rfl, habreast⟩ := h
  have habreast := abreast_effect hf hr (.userRemoved hu) hmembers
    (fun u user' _ hu' => ⟨user', (Table.lookup_of_erase hu').2, fun c hc => ⟨hc, trivial⟩⟩)
    habreast
  obtain ⟨session₁, hok, habreast₁⟩ := abreast_harmless hharmless habreast
  rw [framesFor_append]
  by_cases hc : conn' = conn
  · subst hc
    refine ⟨.new, ?_, inOrder_new, ?_⟩
    · show (_ ++ framesFor conn' [(conn', Response.deleteAccount (.ok user))]).foldlM
        Session.handle session = _
      rw [List.foldlM_append, hok, framesFor, List.filter_cons_of_pos (by simp)]
      rfl
    · -- the one account it can have been logged in to is no more
      intro u user' hauth hu'
      obtain ⟨hne, hold⟩ := Table.lookup_of_erase hu'
      exact absurd (hown u hauth (by rw [hold]; rfl)) hne
  · refine ⟨session₁, ?_, habreast₁⟩
    rw [framesFor, framesFor, List.filter_cons_of_neg (by simpa using Ne.symm hc), List.filter_nil,
      List.map_nil, List.append_nil]
    exact hok

theorem follower_deleteAccount [External] {username password : Str}
    (hown : accepts s username password = true → ∀ u ∈ s.authenticatedUser conn,
      (s.db.users.lookup u).isSome → s.db.users.getUidFromUsername username = some u)
    (hmembers : MembershipInv (s.onDeleteAccount conn username password).server.db)
    (h : Follower k s conn' settled) :
    Follower k (s.onDeleteAccount conn username password).server conn'
      (after settled (framesFor conn' (s.onDeleteAccount conn username password).written)) := by
  unfold Server.onDeleteAccount at hmembers ⊢
  split
  · exact follower_respond trivial h
  · rename_i uid huid
    split
    · exact follower_respond trivial h
    · exact follower_respond trivial h
    · rename_i hverify
      have haccepts : accepts s username password = true := by
        unfold accepts
        rw [huid]
        dsimp only
        rw [hverify]
      obtain ⟨user, hu, -⟩ := UserTable.getUidFromUsername_some huid
      have hremoved : s.conclude (s.db.removeUser uid)
            (fun res => [(conn, Response.deleteAccount res)])
          = ⟨.returned (), { s with db := (s.db.removeUser uid).db },
              (s.db.removeUser uid).emitted.flatMap s.deliver
                ++ [(conn, .deleteAccount (.ok user))]⟩ := by
        unfold Server.conclude
        rw [removeUser_some hu]
      rw [huid] at hmembers
      dsimp only at hmembers
      rw [hverify] at hmembers
      dsimp only at hmembers
      rw [hremoved] at hmembers ⊢
      refine follower_removeUser hu (fun u hauth hsome => ?_) hmembers h
      exact Option.some.inj ((hown haccepts u hauth hsome).symm.trans huid)

theorem follower_listAccounts [External] {regex : Str} (h : Follower k s conn' settled) :
    Follower k (s.onListAccounts conn regex).server conn'
      (after settled (framesFor conn' (s.onListAccounts conn regex).written)) := by
  unfold Server.onListAccounts
  split
  · exact follower_respond trivial h
  · exact follower_respond trivial h

/-! ## Whole runs -/

theorem follower_step [External] (hinv : LastingInv k s) (hg : Ordinary k s call)
    (hs : s.step call = some s') (h : Follower k s conn' settled) :
    Follower k s' conn' (after settled (framesFor conn' (s.receive call).written)) := by
  have hmembers := (lastingInv_step hinv hg hs).server.members
  obtain ⟨hreturns, rfl⟩ : (s.receive call).outcome ≠ .waiting ∧ (s.receive call).server = s' := by
    unfold Server.step at hs
    split at hs
    · cases hs
    · rename_i hne
      exact ⟨hne, Option.some.inj hs⟩
  obtain ⟨conn, request, draws⟩ := call
  cases request with
  | registerAccount username password displayName =>
      exact follower_register hinv hg.1 hg.2 hmembers h
  | login username password => exact follower_login hinv h
  | listAccounts regex => exact follower_listAccounts h
  | deleteAccount username password => exact follower_deleteAccount hg hmembers h
  | createChannel channelName members =>
      exact follower_createChannel hinv hg.1 hg.2.1 hg.2.2 hmembers h
  | sendMessage senderUid channelUid text =>
      exact follower_sendMessage hinv hg hreturns hmembers h
  | deleteMessage messageSnowflake => exact follower_deleteMessage hmembers h

/-- The server's tables are in order, and every client is on its way to follow them. -/
structure FollowedInv (k : Int) (d : Deployment) : Prop where
  store : LastingInv k d.server
  clients : ∀ conn, Follower k d.server conn ((d.clients conn).settled Session.handle)

theorem followedInv_init : FollowedInv k Deployment.new where
  store := lastingInv_init
  clients _ := ⟨.new, rfl, inOrder_new, by rintro u user ⟨⟩⟩

/-- **Preserved by every ordinary request and by every delivery.** -/
theorem followedInv_step [External] {d d' : Deployment} {event : Deployment.Event}
    (h : FollowedInv k d) (hg : Deployment.Calls (Ordinary k) d event)
    (hs : d.step event = some d') : FollowedInv k d' := by
  cases event with
  | request call =>
      obtain ⟨server, hserver, rfl⟩ := Option.map_eq_some_iff.mp hs
      refine ⟨lastingInv_step h.store hg hserver, fun conn => ?_⟩
      dsimp only
      rw [Inbox.settled_send]
      exact follower_step h.store hg hserver (h.clients conn)
  | deliver conn =>
      obtain ⟨client, hclient, rfl⟩ := Option.map_eq_some_iff.mp hs
      refine ⟨h.store, fun conn' => ?_⟩
      dsimp only
      by_cases hc : conn' = conn
      · subst hc
        rw [Function.update_self, Inbox.settled_deliver Session.handle hclient]
        exact h.clients conn'
      · rw [Function.update_of_ne hc]
        exact h.clients conn'

theorem followedInv_reachable [External] {d : Deployment}
    (h : Deployment.system.Reachable (Deployment.Calls (Ordinary k)) d) : FollowedInv k d := by
  refine h.invariant followedInv_init ?_
  intro d event d' _ hinv hg hs
  exact followedInv_step hinv hg hs

/--
**A client misses nothing.** In any run of ordinary requests of all seven kinds, when
the frames written to a client have been taken in and the user that its connection has
authenticated is registered, then for each channel on the user's list the client's list
of messages has the server's history within it, in ascending order of snowflakes; a
message on it that the server stores is the one stored, and one that the server's
history lacks is not stored any more, or its sender is not registered.
-/
theorem client_misses_nothing [External] {d : Deployment}
    (h : Deployment.system.Reachable (Deployment.Calls (Ordinary k)) d) {u : UUID} {user : User}
    (hauth : d.server.authenticatedUser conn = some u)
    (hu : d.server.db.users.lookup u = some user) (hqueue : (d.clients conn).queue = []) :
    ∃ session, (d.clients conn).state = .ok session ∧ ∀ c ∈ user.channels,
      ∃ ch ms, d.server.db.channels.lookup c = some ch
        ∧ session.channelMessages.lookup c = some ms
        ∧ List.Sublist ch.messageSnowflakes (ms.map Message.snowflake)
        ∧ (ms.map Message.snowflake).Pairwise (· < ·)
        ∧ ∀ m ∈ ms, m.channelId = c
          ∧ (∀ m', d.server.db.messages.lookup m.snowflake = some m' → m' = m)
          ∧ (m.snowflake ∉ ch.messageSnowflakes →
              d.server.db.messages.lookup m.snowflake = none
                ∨ d.server.db.users.lookup m.senderId = none) := by
  obtain ⟨session, hstate, habreast⟩ := (followedInv_reachable h).clients conn
  rw [Inbox.settled_of_queue_nil Session.handle hqueue] at hstate
  refine ⟨session, hstate, fun c hc => ?_⟩
  obtain ⟨ch, ss, hch, hss, hsub, hextra⟩ := (habreast.current u user hauth hu).2 c hc
  have hascend := habreast.order.ascend c ss hss
  obtain ⟨ms, hms, rfl⟩ := Option.map_eq_some_iff.mp hss
  refine ⟨ch, ms, hch, hms, hsub, hascend, fun m hm => ?_⟩
  obtain ⟨hchan, hgenuine⟩ := habreast.order.genuine c ms hms m hm
  refine ⟨hchan, hgenuine.same, fun hnot => ?_⟩
  have hgone := hextra m.snowflake (List.mem_map_of_mem hm) hnot
  cases hstored : d.server.db.messages.lookup m.snowflake with
  | none => exact Or.inl rfl
  | some m' =>
      obtain rfl := hgenuine.same m' hstored
      exact Or.inr (hgone _ hstored)

instance {K : Server → Server.Call → Prop} [∀ s call, Decidable (K s call)] (d : Deployment) :
    (event : Deployment.Event) → Decidable (Deployment.Calls K d event)
  | .request call => inferInstanceAs (Decidable (K d.server call))
  | .deliver _ => inferInstanceAs (Decidable True)

/--
Alice (1) and Bob (2) each say something; Alice takes hers back, logs in once more and
deletes her account.
-/
def comeAndGo : List Deployment.Event :=
  [.request ⟨0, .registerAccount (lit "alice") (lit "secret") (lit "Alice"), .ofByte 1 []⟩,
    .request ⟨1, .registerAccount (lit "bob") (lit "secret") (lit "Bob"), .ofByte 2 []⟩,
    .request ⟨0, .login (lit "alice") (lit "secret"), .ofByte 0 []⟩,
    .request ⟨0, .createChannel (lit "plans") [.ofByte 1, .ofByte 2], .ofByte 7 []⟩,
    .request ⟨0, .sendMessage (.ofByte 1) (.ofByte 7) (lit "hi"), .ofByte 0 [epoch + 5]⟩,
    .request ⟨1, .login (lit "bob") (lit "secret"), .ofByte 0 []⟩,
    .request ⟨1, .sendMessage (.ofByte 2) (.ofByte 7) (lit "you"), .ofByte 0 [epoch + 5]⟩,
    .request ⟨0, .deleteMessage 41951488, .ofByte 0 []⟩,
    .request ⟨0, .login (lit "alice") (lit "secret"), .ofByte 0 []⟩,
    .request ⟨0, .deleteAccount (lit "alice") (lit "secret"), .ofByte 0 []⟩]
    ++ List.replicate 6 (.deliver 1)

theorem comeAndGo_runs :
    ((@Deployment.system .sample).exec (Deployment.Calls (@Ordinary .sample 0)) Deployment.new
      comeAndGo).isSome := by
  decide

/-- Bob's client shows both messages, the one that the server has not because it is gone. -/
theorem client_misses_nothing_comeAndGo :
    ∃ d session ms, (@Deployment.system .sample).Reachable
        (Deployment.Calls (@Ordinary .sample 0)) d
      ∧ (d.clients 1).state = .ok session
      ∧ session.channelMessages.lookup (.ofByte 7) = some ms
      ∧ ms.map Message.snowflake = [41951488, 41951489]
      ∧ List.Sublist [41951489] (ms.map Message.snowflake)
      ∧ ∃ m ∈ ms, m.snowflake = 41951488
        ∧ (d.server.db.messages.lookup m.snowflake = none
          ∨ d.server.db.users.lookup m.senderId = none) := by
  obtain ⟨d, hd⟩ : ∃ d, d = ((@Deployment.system .sample).exec
    (Deployment.Calls (@Ordinary .sample 0)) Deployment.new comeAndGo).get comeAndGo_runs :=
    ⟨_, rfl⟩
  have hr : (@Deployment.system .sample).Reachable (Deployment.Calls (@Ordinary .sample 0)) d :=
    hd ▸ Reachable.exec_get comeAndGo_runs
  have hauth : d.server.authenticatedUser 1 = some (.ofByte 2) := by subst hd; decide
  have hqueue : (d.clients 1).queue.isEmpty := by subst hd; decide
  have hlisted : (d.server.db.users.lookup (.ofByte 2)).map (·.channels) = some [.ofByte 7] := by
    subst hd; decide
  have hhistory : (d.server.db.channels.lookup (.ofByte 7)).map (·.messageSnowflakes)
      = some [41951489] := by subst hd; decide
  have hshown : ((d.clients 1).state.toOption.bind fun session =>
      session.channelMessages.lookup (.ofByte 7)).map (·.map Message.snowflake)
        = some [41951488, 41951489] := by subst hd; decide
  obtain ⟨user, hu, hchannels⟩ := Option.map_eq_some_iff.mp hlisted
  obtain ⟨session, hstate, hmissed⟩ :=
    @client_misses_nothing 0 1 .sample d hr _ user hauth hu (List.isEmpty_iff.mp hqueue)
  obtain ⟨ch, ms, hch, hms, hsub, -, hgone⟩ :=
    hmissed (.ofByte 7) (by rw [hchannels]; exact .head _)
  rw [hch] at hhistory
  have hlist : ch.messageSnowflakes = [41951489] := Option.some.inj hhistory
  rw [hstate] at hshown
  change (session.channelMessages.lookup (.ofByte 7)).map _ = _ at hshown
  rw [hms] at hshown
  have hboth : ms.map Message.snowflake = [41951488, 41951489] := Option.some.inj hshown
  obtain ⟨m, hm, hkey⟩ := List.mem_map.mp
    (show (41951488 : UInt64) ∈ ms.map Message.snowflake by rw [hboth]; exact .head _)
  refine ⟨d, session, ms, hr, hstate, hms, hboth, hlist ▸ hsub, m, hm, hkey, ?_⟩
  exact (hgone m hm).2.2 (by rw [hkey, hlist]; decide)

end SockEtOut.Proof
