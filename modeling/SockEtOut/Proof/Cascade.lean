import SockEtOut.Proof.Steps

/-!
# What deleting an account takes with it

The database is documented to remove, with a user, all of its messages from the
message table and every channel it was the only member of. `Cascades` is that
sentence together with its other half, that nothing else goes.

The code keeps the second half always. It never touches the message table, and it
never removes a channel, so it keeps the first half exactly when there was
nothing to do: `removeUser_cascades_iff`.
-/

namespace SockEtOut.Proof

open Lib System

variable {db db' : Database}

/-- The channel has members, and they are all `u`. -/
def OnlyMember (u : UUID) (ch : Channel) : Prop :=
  ch.userUids ≠ [] ∧ ∀ v ∈ ch.userUids, v = u

instance (u : UUID) (ch : Channel) : Decidable (OnlyMember u ch) :=
  inferInstanceAs (Decidable (ch.userUids ≠ [] ∧ ∀ v ∈ ch.userUids, v = u))

/-- `db'` is `db` without the account `u` and all that hangs on it. -/
structure Cascades (db : Database) (u : UUID) (db' : Database) : Prop where
  /-- The user is gone. -/
  userGone : db'.users.lookup u = none
  /-- No message of the user's is stored. -/
  messagesGone : ∀ (s : UInt64) (m : Message), db'.messages.lookup s = some m → m.senderId ≠ u
  /-- A channel with no other member is gone. -/
  channelsGone : ∀ (c : UUID) (ch : Channel), db.channels.lookup c = some ch → OnlyMember u ch →
    db'.channels.lookup c = none
  /-- Every other user is as it was. -/
  usersKept : ∀ v, v ≠ u → db'.users.lookup v = db.users.lookup v
  /-- A channel with another member is there, and lists the others as before. -/
  channelsKept : ∀ (c : UUID) (ch : Channel), db.channels.lookup c = some ch →
    (∃ v ∈ ch.userUids, v ≠ u) →
    ∃ ch', db'.channels.lookup c = some ch' ∧ ch'.uid = ch.uid ∧ ch'.name = ch.name
      ∧ ∀ v, v ≠ u → ch'.userUids.count v = ch.userUids.count v
  /-- Anyone else's message in a channel that is still there is stored as it was. -/
  messagesKept : ∀ (s : UInt64) (m : Message), db.messages.lookup s = some m → m.senderId ≠ u →
    (db'.channels.lookup m.channelId).isSome → db'.messages.lookup s = some m
  /-- It is also still listed wherever it was listed. -/
  listingsKept : ∀ (c : UUID) (ch ch' : Channel), db.channels.lookup c = some ch →
    db'.channels.lookup c = some ch' →
    ∀ s ∈ ch.messageSnowflakes, NotSentBy db u s → s ∈ ch'.messageSnowflakes

/-- A channel never goes with the account, and whoever else it lists stays listed. -/
theorem leaveChannels_kept (u : UUID) (cs : List UUID) {c : UUID} {ch : Channel}
    (hc : db.channels.lookup c = some ch) :
    ∃ ch', (db.leaveChannels u cs).1.channels.lookup c = some ch'
      ∧ ch'.uid = ch.uid ∧ ch'.name = ch.name
      ∧ (∀ v, v ≠ u → ch'.userUids.count v = ch.userUids.count v)
      ∧ ∀ s ∈ ch.messageSnowflakes, NotSentBy db u s → s ∈ ch'.messageSnowflakes := by
  by_cases hin : c ∈ cs
  · obtain ⟨ch', hch', hleft⟩ := leaveChannels_mem (u := u) hin hc
    exact ⟨ch', hch', hleft.uid, hleft.name, fun _ hv => hleft.count hv, hleft.keeps⟩
  · exact ⟨ch, (leaveChannels_other hin).trans hc, rfl, rfl, fun _ _ => rfl, fun _ hs _ => hs⟩

/--
**Account deletion cascades as documented exactly when there is nothing to
cascade to**: no stored message is the user's, and the user is nowhere the only
member.
-/
theorem removeUser_cascades_iff {u : UUID} {user : User} (hu : db.users.lookup u = some user) :
    (db.removeUser u).outcome = .returned (.ok user)
      ∧ (Cascades db u (db.removeUser u).db ↔
          (∀ m ∈ db.messages.values, m.senderId ≠ u)
            ∧ ∀ ch ∈ db.channels.values, ¬ OnlyMember u ch) := by
  rw [removeUser_some hu]
  refine ⟨rfl, ?_, ?_⟩
  · intro h
    refine ⟨?_, ?_⟩
    · intro m hm
      obtain ⟨s, hs⟩ := Table.mem_values_iff.mp hm
      exact h.messagesGone s m hs
    · intro ch hch honly
      obtain ⟨c, hc⟩ := Table.mem_values_iff.mp hch
      obtain ⟨ch', hch', -⟩ := leaveChannels_kept u user.channels hc
      have hgone := h.channelsGone c ch hc honly
      rw [hch'] at hgone
      exact absurd hgone (by simp)
  · rintro ⟨hmsg, hchan⟩
    exact
      { userGone := by
          rw [Table.lookup_erase, if_pos rfl]
        messagesGone := by
          intro s m hm
          exact hmsg m (Table.mem_values_iff.mpr ⟨s, hm⟩)
        channelsGone := by
          intro c ch hc honly
          exact absurd honly (hchan ch (Table.mem_values_iff.mpr ⟨c, hc⟩))
        usersKept := by
          intro v hv
          rw [Table.lookup_erase, if_neg hv]
        channelsKept := by
          intro c ch hc _
          obtain ⟨ch', hch', huid, hname, hcount, -⟩ := leaveChannels_kept u user.channels hc
          exact ⟨ch', hch', huid, hname, hcount⟩
        messagesKept := by
          intro s m hm _ _
          exact hm
        listingsKept := by
          intro c ch ch' hc hc' s hs hns
          obtain ⟨ch₁, hch₁, -, -, -, hkeeps⟩ := leaveChannels_kept u user.channels hc
          have heq : ch₁ = ch' := Option.some.inj (hch₁.symm.trans hc')
          exact heq ▸ hkeeps s hs hns }

/-- Alice (1) writes in a channel she shares with Bob (2), who also has an empty one of his own. -/
def sharedAndOwn : List Database.Op :=
  [.addUser (.ofByte 1) (lit "alice") (lit "Alice") (lit "secret") (lit "saltsaltsaltsalt"),
    .addUser (.ofByte 2) (lit "bob") (lit "Bob") (lit "secret") (lit "saltsaltsaltsalt"),
    .addUser (.ofByte 3) (lit "carol") (lit "Carol") (lit "secret") (lit "saltsaltsaltsalt"),
    .addChannel (.ofByte 7) (lit "plans") [.ofByte 1, .ofByte 2, .ofByte 3],
    .addChannel (.ofByte 8) (lit "notes") [.ofByte 2],
    .addMessage (.ofByte 1) (.ofByte 7) (lit "hi") [epoch + 5] 0]

theorem sharedAndOwn_runs :
    ((@Database.system .sample).exec Always Database.new sharedAndOwn).isSome := by
  decide

/-- Carol, who wrote nothing and owns nothing, can be deleted as documented. -/
theorem removeUser_cascades_carol :
    ∃ db, (@Database.system .sample).Reachable Always db
      ∧ Cascades db (.ofByte 3) (db.removeUser (.ofByte 3)).db := by
  have hsome : ((((@Database.system .sample).exec Always Database.new sharedAndOwn).get
      sharedAndOwn_runs).users.lookup (.ofByte 3)).isSome := by decide
  obtain ⟨user, hu⟩ := Option.isSome_iff_exists.mp hsome
  exact ⟨_, Reachable.exec_get sharedAndOwn_runs,
    (removeUser_cascades_iff hu).2.mpr ⟨by decide, by decide⟩⟩

/-- Alice's message stays in the table, and Bob's own channel stays without a member. -/
theorem not_cascades_alice_bob :
    ∃ db, (@Database.system .sample).Reachable Always db
      ∧ (db.users.lookup (.ofByte 1)).isSome
      ∧ ¬ Cascades db (.ofByte 1) (db.removeUser (.ofByte 1)).db
      ∧ (db.users.lookup (.ofByte 2)).isSome
      ∧ ¬ Cascades db (.ofByte 2) (db.removeUser (.ofByte 2)).db := by
  refine ⟨_, Reachable.exec_get sharedAndOwn_runs, by decide, ?_, by decide, ?_⟩
  · intro h
    have hstored : (((((@Database.system .sample).exec Always Database.new sharedAndOwn).get
        sharedAndOwn_runs).removeUser (.ofByte 1)).db.messages.lookup 41951488).map (·.senderId)
          = some (.ofByte 1) := by decide
    obtain ⟨m, hm, hsender⟩ := Option.map_eq_some_iff.mp hstored
    exact h.messagesGone _ m hm hsender
  · intro h
    have hlisted : ((((@Database.system .sample).exec Always Database.new sharedAndOwn).get
        sharedAndOwn_runs).channels.lookup (.ofByte 8)).map (·.userUids)
          = some [.ofByte 2] := by decide
    obtain ⟨ch, hch, hmem⟩ := Option.map_eq_some_iff.mp hlisted
    have hgone := h.channelsGone _ ch hch
      ⟨by rw [hmem]; simp, by intro v hv; rw [hmem] at hv; simpa using hv⟩
    exact absurd hgone (by decide)

end SockEtOut.Proof
