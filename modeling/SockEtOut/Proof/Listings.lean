import SockEtOut.Proof.Replica

/-!
# One notification per member

Nothing checks a list of members for duplicates, and the announcement loops go
over the list as it is: a connection hears of a message as often as its user is
listed. So each member hears once as long as each channel is created with a list
that names nobody twice, and `noDuplicates_step_iff` says that no other request
can break it.
-/

namespace SockEtOut.Proof

open Lib System

variable {s s' : Server} {call : Server.Call} {db : Database}

/-- No channel lists a user twice, and no registered user a channel. -/
structure NoDuplicates (db : Database) : Prop where
  members : MembersNodup db
  channels : ∀ (u : UUID) (user : User), db.users.lookup u = some user → user.channels.Nodup

/-- UUIDs are drawn fresh, and a channel's initial members are named once each. -/
def NamesMembersOnce (s : Server) (call : Server.Call) : Prop :=
  Asks Database.FreshUids s call ∧ ∀ channelName members,
    call.request = .createChannel channelName members → members.Nodup

instance (s : Server) : (call : Server.Call) → Decidable (NamesMembersOnce s call)
  | ⟨conn, .createChannel channelName members, draws⟩ =>
      decidable_of_iff
        (Asks Database.FreshUids s ⟨conn, .createChannel channelName members, draws⟩
          ∧ members.Nodup) (by
        refine and_congr Iff.rfl ⟨?_, ?_⟩
        · intro h _ _ heq
          cases heq
          exact h
        · intro h
          exact h _ _ rfl)
  | ⟨conn, .registerAccount username password displayName, draws⟩ =>
      decidable_of_iff
        (Asks Database.FreshUids s ⟨conn, .registerAccount username password displayName, draws⟩)
        (by simp [NamesMembersOnce])
  | ⟨_, .login .., _⟩ | ⟨_, .listAccounts _, _⟩ | ⟨_, .deleteAccount .., _⟩
  | ⟨_, .sendMessage .., _⟩ | ⟨_, .deleteMessage _, _⟩ =>
      .isTrue ⟨by simp [Asks, operation, Database.FreshUids], by simp⟩

/-! ## How often a member hears -/

/-- A message is written to a member's connection as often as its channel lists the member. -/
theorem sendMessage_frames (hslots : SlotsInv s) {conn : Nat} {u : UUID} {user : User}
    (hauth : s.authenticatedUser conn = some u) (hu : s.db.users.lookup u = some user)
    {draws : Draws} {senderUid channelUid : UUID} {text : Str} {m : Message}
    (hok : (s.db.addMessage senderUid channelUid text draws.readings draws.now).outcome
      = .returned (.ok m)) :
    ∃ ch, s.db.channels.lookup channelUid = some ch
      ∧ framesFor conn (s.onSendMessage draws senderUid channelUid text).written
        = List.replicate (ch.userUids.count u) (.sendMessage (.ok m)) := by
  unfold Server.onSendMessage
  rcases addMessage_cases s.db senderUid channelUid text draws.readings draws.now with
    ⟨e, heq⟩ | ⟨e, heq⟩ | ⟨generator, heq⟩ | ⟨ch, id, generator, hch, hid, heq⟩
  · rw [heq] at hok
    exact absurd hok (by simp)
  · rw [heq] at hok
    exact absurd hok (by simp)
  · rw [heq] at hok
    exact absurd hok (by simp)
  · rw [heq] at hok ⊢
    cases hok
    refine ⟨ch, hch, ?_⟩
    dsimp only [Server.conclude]
    rw [List.append_nil]
    exact framesFor_notify_count hslots hauth hu ch.userUids fun v => rfl

/-- A channel is announced to a member's connection as often as it lists the member. -/
theorem createChannel_frames (hslots : SlotsInv s) {conn : Nat} {u : UUID} {user : User}
    (hauth : s.authenticatedUser conn = some u) (hu : s.db.users.lookup u = some user)
    {draws : Draws} {channelName : Str} {members : List UUID} {ch : Channel}
    (hok : (s.db.addChannel draws.uid channelName members).outcome = .returned (.ok ch)) :
    ch.userUids = members ∧ framesFor conn (s.onCreateChannel draws channelName members).written
      = List.replicate (members.count u) (.createChannel (.ok ch)) := by
  have hch : ch = .new draws.uid channelName members :=
    (Except.ok.inj (Outcome.returned.inj hok)).symm
  subst hch
  refine ⟨rfl, ?_⟩
  show framesFor conn (List.flatMap s.deliver (s.db.notify members _) ++ []) = _
  rw [List.append_nil]
  exact framesFor_notify_count hslots hauth hu members fun v => rfl

/-! ## Duplicates -/

/-- A user lists a channel as often as the channel lists the user, so at most once. -/
theorem channels_nodup (hagree : MembershipInv db) (honce : MembersNodup db) {u : UUID}
    {user : User} (hu : db.users.lookup u = some user) : user.channels.Nodup := by
  rw [List.nodup_iff_count_le_one]
  intro c
  rw [hagree u user hu c]
  cases hc : db.channels.lookup c with
  | none =>
      rw [memberCount_none hc]
      exact Nat.zero_le 1
  | some ch =>
      rw [memberCount_some hc]
      exact List.nodup_iff_count_le_one.mp (honce c ch hc) u

/-- What the requests keep when they name members once. -/
structure ListingsInv (s : Server) : Prop where
  slots : SlotsInv s
  agree : MembershipInv s.db
  once : MembersNodup s.db

theorem ListingsInv.noDuplicates (h : ListingsInv s) : NoDuplicates s.db where
  members := h.once
  channels _ _ hu := channels_nodup h.agree h.once hu

theorem listingsInv_init : ListingsInv Server.new where
  slots := slotsInv_new
  agree := membershipInv_init
  once := membersNodup_init

/-- The one operation with a list of members is the creation of a channel. -/
theorem asks_listsOnce (h : ∀ channelName members,
    call.request = .createChannel channelName members → members.Nodup) :
    Asks ListsOnce s call := by
  obtain ⟨conn, request, draws⟩ := call
  intro op hop
  cases request with
  | createChannel channelName members =>
      cases hop
      exact h channelName members rfl
  | deleteAccount username password =>
      obtain ⟨uid, -, rfl⟩ := Option.map_eq_some_iff.mp hop
      trivial
  | login username password => exact absurd hop (by simp [operation])
  | listAccounts regex => exact absurd hop (by simp [operation])
  | registerAccount username password displayName =>
      cases hop
      trivial
  | sendMessage senderUid channelUid text =>
      cases hop
      trivial
  | deleteMessage messageSnowflake =>
      cases hop
      trivial

theorem listingsInv_step [External] (h : ListingsInv s) (hg : NamesMembersOnce s call)
    (hs : s.step call = some s') : ListingsInv s' where
  slots := slotsInv_step h.slots hs
  agree := db_step membershipInv_step h.agree hg.1 hs
  once := db_step membersNodup_step h.once (asks_listsOnce hg.2) hs

theorem listingsInv_reachable [External] (h : Server.system.Reachable NamesMembersOnce s) :
    ListingsInv s := by
  refine h.invariant listingsInv_init ?_
  intro s call s' _ hi hg hs
  exact listingsInv_step hi hg hs

/-- **Of all requests only one that names a member twice lists a user twice.** -/
theorem noDuplicates_step_iff [External] (h : ListingsInv s)
    (hfresh : Asks Database.FreshUids s call) (hs : s.step call = some s') :
    NoDuplicates s'.db ↔ NamesMembersOnce s call := by
  constructor
  · rintro ⟨hmembers, -⟩
    refine ⟨hfresh, ?_⟩
    intro channelName members hrequest
    obtain ⟨conn, request, draws⟩ := call
    cases hrequest
    cases hs
    -- the channel is new, and is stored with the list as it came
    have hnone : s.db.channels.lookup draws.uid = none := lookup_channels_fresh (hfresh _ rfl).1
    refine hmembers draws.uid (.new draws.uid channelName members) ?_
    show (s.db.channels.emplace draws.uid _).lookup draws.uid = _
    rw [Table.lookup_emplace hnone, if_pos rfl]
  · intro hg
    exact (listingsInv_step h hg hs).noDuplicates

/--
**One notification per member.** In every state of every run whose channels are
created with lists that name nobody twice, nobody is listed twice, and a new
message or channel is written once to each connection of each registered member.
The next request lists somebody twice exactly when it creates a channel with a
list that does.
-/
theorem notified_once [External] (h : Server.system.Reachable NamesMembersOnce s) :
    (∀ (c : UUID) (ch : Channel), s.db.channels.lookup c = some ch → ch.userUids.Nodup)
      ∧ (∀ (u : UUID) (user : User), s.db.users.lookup u = some user → user.channels.Nodup)
      ∧ (∀ (conn : Nat) (u : UUID) (user : User), s.authenticatedUser conn = some u →
          s.db.users.lookup u = some user → ∀ draws : Draws,
            (∀ (senderUid c : UUID) (text : Str) (m : Message) (ch : Channel),
              (s.db.addMessage senderUid c text draws.readings draws.now).outcome
                = .returned (.ok m) →
              s.db.channels.lookup c = some ch → u ∈ ch.userUids →
              framesFor conn (s.onSendMessage draws senderUid c text).written
                = [.sendMessage (.ok m)])
            ∧ ∀ (channelName : Str) (members : List UUID) (ch : Channel), members.Nodup →
              (s.db.addChannel draws.uid channelName members).outcome = .returned (.ok ch) →
              u ∈ ch.userUids →
              framesFor conn (s.onCreateChannel draws channelName members).written
                = [.createChannel (.ok ch)])
      ∧ ∀ call s', Asks Database.FreshUids s call → s.step call = some s' →
          (NoDuplicates s'.db ↔ NamesMembersOnce s call) := by
  have hinv := listingsInv_reachable h
  refine ⟨hinv.once, hinv.noDuplicates.channels, ?_,
    fun call s' hfresh hs => noDuplicates_step_iff hinv hfresh hs⟩
  intro conn u user hauth hu draws
  refine ⟨?_, ?_⟩
  · intro senderUid c text m ch hok hc hin
    obtain ⟨ch', hc', hframes⟩ := sendMessage_frames hinv.slots hauth hu hok
    rw [hc] at hc'
    cases hc'
    rw [hframes, List.count_eq_one_of_mem (hinv.once c ch hc) hin]
    rfl
  · intro channelName members ch hnd hok hin
    obtain ⟨hmembers, hframes⟩ := createChannel_frames hinv.slots hauth hu hok
    rw [hframes, List.count_eq_one_of_mem hnd (hmembers ▸ hin)]
    rfl

/-- Alice (1) and Bob (2) register and log in, and Alice creates a channel for the two of them. -/
def twoMembers : List Server.Call :=
  [⟨0, .registerAccount (lit "alice") (lit "secret") (lit "Alice"), .ofByte 1 []⟩,
    ⟨1, .registerAccount (lit "bob") (lit "secret") (lit "Bob"), .ofByte 2 []⟩,
    ⟨0, .login (lit "alice") (lit "secret"), .ofByte 0 []⟩,
    ⟨1, .login (lit "bob") (lit "secret"), .ofByte 0 []⟩,
    ⟨0, .createChannel (lit "plans") [.ofByte 1, .ofByte 2], .ofByte 7 []⟩]

theorem twoMembers_runs :
    ((@Server.system .sample).exec NamesMembersOnce Server.new twoMembers).isSome := by
  decide

/-- Bob hears once of what Alice writes. -/
theorem notified_once_twoMembers :
    ∃ s m, (@Server.system .sample).Reachable NamesMembersOnce s
      ∧ framesFor 1 (s.onSendMessage (.ofByte 0 [epoch + 5]) (.ofByte 1) (.ofByte 7)
          (lit "hi")).written = [.sendMessage (.ok m)] := by
  obtain ⟨s, hs⟩ : ∃ s, s = ((@Server.system .sample).exec NamesMembersOnce Server.new
    twoMembers).get twoMembers_runs := ⟨_, rfl⟩
  have hr : (@Server.system .sample).Reachable NamesMembersOnce s :=
    hs ▸ Reachable.exec_get twoMembers_runs
  have hauth : s.authenticatedUser 1 = some (.ofByte 2) := by subst hs; decide
  have hbob : (s.db.users.lookup (.ofByte 2)).isSome := by subst hs; decide
  have hlisted : (s.db.channels.lookup (.ofByte 7)).map (·.userUids)
      = some [.ofByte 1, .ofByte 2] := by subst hs; decide
  have hok : (s.db.addMessage (.ofByte 1) (.ofByte 7) (lit "hi") [epoch + 5] 0).outcome
      = .returned (.ok (.new (.ofByte 1) (.ofByte 7) (lit "hi") 41951488 0)) := by
    subst hs; decide
  obtain ⟨user, hu⟩ := Option.isSome_iff_exists.mp hbob
  obtain ⟨ch, hch, hmembers⟩ := Option.map_eq_some_iff.mp hlisted
  obtain ⟨-, -, hnotified, -⟩ := @notified_once s .sample hr
  refine ⟨s, _, hr, (hnotified 1 _ user hauth hu (.ofByte 0 [epoch + 5])).1 _ _ _ _ ch hok hch ?_⟩
  rw [hmembers]
  decide

/-- Alice (1) creates a channel with herself, found in her own search. -/
def withHerself : List Server.Call :=
  [⟨0, .registerAccount (lit "alice") (lit "secret") (lit "Alice"), .ofByte 1 []⟩,
    ⟨0, .login (lit "alice") (lit "secret"), .ofByte 0 []⟩,
    ⟨0, .createChannel (lit "Alice, Alice") [.ofByte 1, .ofByte 1], .ofByte 7 []⟩]

theorem withHerself_runs :
    ((@Server.system .sample).exec Always Server.new withHerself).isSome := by
  decide

/-- She is listed twice, lists the channel twice, and gets her own message twice. -/
theorem notified_twice_withHerself :
    ∃ s, (@Server.system .sample).Reachable Always s
      ∧ (s.db.channels.lookup (.ofByte 7)).map (·.userUids) = some [.ofByte 1, .ofByte 1]
      ∧ (s.db.users.lookup (.ofByte 1)).map (·.channels) = some [.ofByte 7, .ofByte 7]
      ∧ s.authenticatedUser 0 = some (.ofByte 1)
      ∧ (framesFor 0 (s.onSendMessage (.ofByte 0 [epoch + 5]) (.ofByte 1) (.ofByte 7)
          (lit "hi")).written).length = 2 :=
  ⟨_, Reachable.exec_get withHerself_runs, by decide, by decide, by decide, by decide⟩

end SockEtOut.Proof
