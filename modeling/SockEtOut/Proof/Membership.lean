import SockEtOut.Proof.Steps

/-!
# The two sides of membership agree

A user keeps a list of its channels and a channel a list of its members. That the
two name each other is not preserved by the operations: deleting a channel takes
one occurrence out of the user's list for each time the user is listed, deleting
a user takes all of its occurrences out of the channel's list at once, and
neither checks for duplicates. What is preserved is that the *multiplicities*
agree, for users that are registered.

Two facts about fresh UUIDs carry it: a new user is not in a member list yet, and
a new channel is not in the table yet.
-/

namespace SockEtOut.Proof

open Lib System

variable {db db' : Database}

/-- How often channel `c` lists `u`; never, when there is no such channel. -/
def memberCount (channels : ChannelTable) (c u : UUID) : Nat :=
  ((channels.lookup c).map fun ch => ch.userUids.count u).getD 0

/-- Each registered user lists each channel exactly as often as the channel lists the user. -/
def MembershipInv (db : Database) : Prop :=
  ∀ (u : UUID) (user : User), db.users.lookup u = some user →
    ∀ c, user.channels.count c = memberCount db.channels c u

theorem memberCount_none {t : ChannelTable} {c u : UUID} (h : t.lookup c = none) :
    memberCount t c u = 0 := by
  unfold memberCount
  rw [h]
  rfl

theorem memberCount_some {t : ChannelTable} {c u : UUID} {ch : Channel}
    (h : t.lookup c = some ch) : memberCount t c u = ch.userUids.count u := by
  unfold memberCount
  rw [h]
  rfl

theorem memberCount_congr {t t' : ChannelTable} {c u : UUID} (h : t'.lookup c = t.lookup c) :
    memberCount t' c u = memberCount t c u := by
  unfold memberCount
  rw [h]

/-- An update that leaves member lists alone leaves the counts alone. -/
theorem memberCount_modify (t : ChannelTable) (c d u : UUID) {f : Channel → Channel}
    (h : ∀ ch, (f ch).userUids = ch.userUids) :
    memberCount (t.modify d f) c u = memberCount t c u := by
  unfold memberCount
  rw [Table.map_lookup_modify]
  intro ch
  rw [h]

/-- A UUID that occurs nowhere is in no member list. -/
theorem memberCount_fresh {c u : UUID} (h : u ∉ db.uids) :
    memberCount db.channels c u = 0 := by
  cases hc : db.channels.lookup c with
  | none => exact memberCount_none hc
  | some ch =>
      rw [memberCount_some hc, List.count_eq_zero]
      intro hin
      refine h ?_
      simp only [Database.uids, List.mem_append, List.mem_flatMap]
      exact Or.inl (Or.inr ⟨ch, Table.mem_values_iff.mpr ⟨c, hc⟩, hin⟩)

theorem lookup_channels_fresh {c : UUID} (h : c ∉ db.uids) : db.channels.lookup c = none := by
  cases hc : db.channels.lookup c with
  | none => rfl
  | some ch =>
      refine absurd ?_ h
      simp only [Database.uids, List.mem_append]
      exact Or.inl (Or.inl (Or.inl (Or.inl (Or.inr (Table.mem_keys_iff.mpr ⟨ch, hc⟩)))))

/-! ## Repeated additions and removals -/

theorem count_iterate_addChannel (c d : UUID) (n : Nat) (user : User) :
    ((fun u : User => u.addChannel c)^[n] user).channels.count d
      = user.channels.count d + if c = d then n else 0 := by
  induction n generalizing user with
  | zero => simp
  | succ n ih =>
      rw [Function.iterate_succ_apply, ih, User.count_addChannel]
      split <;> omega

theorem count_iterate_removeChannel (c d : UUID) (n : Nat) (user : User) :
    ((fun u : User => u.removeChannel c)^[n] user).channels.count d
      = user.channels.count d - if c = d then n else 0 := by
  induction n generalizing user with
  | zero => simp
  | succ n ih =>
      rw [Function.iterate_succ_apply, ih, User.count_removeChannel]
      split <;> omega

/-! ## The invariant -/

theorem membershipInv_init : MembershipInv Database.new := by
  intro u user h
  exact absurd h (by simp [Database.new])

/-- **Preserved by every operation that draws fresh UUIDs.** -/
theorem membershipInv_step {op : Database.Op} (h : MembershipInv db) (hf : db.FreshUids op)
    (he : Effect db op db') : MembershipInv db' := by
  intro u user hu d
  cases he with
  | nothing => exact h u user hu d
  | @userAdded uid username displayName _ _ passwords =>
      rcases Table.lookup_of_emplace hu with hold | ⟨rfl, rfl⟩
      · exact h u user hold d
      · exact (memberCount_fresh hf).symm
  | @channelAdded uid channelName members =>
      have hnone : db.channels.lookup uid = none := lookup_channels_fresh hf.1
      dsimp only at hu
      rw [Table.lookup_foldl_modify] at hu
      obtain ⟨old, hold, rfl⟩ := Option.map_eq_some_iff.mp hu
      rw [count_iterate_addChannel, h u old hold d]
      by_cases hd : uid = d
      · subst hd
        have hnew : (db.channels.emplace uid (.new uid channelName members)).lookup uid
            = some (.new uid channelName members) := by
          rw [Table.lookup_emplace hnone, if_pos rfl]
        rw [memberCount_none hnone, memberCount_some hnew, if_pos rfl, Nat.zero_add]
        rfl
      · rw [if_neg hd, Nat.add_zero]
        refine (memberCount_congr ?_).symm
        exact (Table.lookup_emplace hnone d _).trans (if_neg (Ne.symm hd))
  | @userJoined v c joined ch hv hc =>
      dsimp only at hu
      rw [Table.lookup_modify] at hu
      by_cases hd : d = c
      · subst hd
        have hch : (db.channels.modify d (·.addUser v)).lookup d = some (ch.addUser v) := by
          rw [Table.lookup_modify, if_pos rfl, hc]
          rfl
        rw [memberCount_some hch]
        show _ = (ch.userUids ++ [v]).count u
        rw [List.count_append, List.count_singleton, ← memberCount_some hc]
        split at hu
        · rename_i heq
          subst heq
          rw [hv] at hu
          cases hu
          rw [User.count_addChannel, h u joined hv d]
          simp
        · rename_i hne
          rw [h u user hu d]
          simp [Ne.symm hne]
      · have hch : (db.channels.modify c (·.addUser v)).lookup d = db.channels.lookup d := by
          rw [Table.lookup_modify, if_neg hd]
        rw [memberCount_congr hch]
        split at hu
        · rename_i heq
          subst heq
          rw [hv] at hu
          cases hu
          rw [User.count_addChannel, if_neg (Ne.symm hd), Nat.add_zero]
          exact h u joined hv d
        · exact h u user hu d
  | messageAdded hc hid =>
      rw [h u user hu d]
      refine (memberCount_modify db.channels _ _ _ ?_).symm
      intro ch
      rfl
  | messageRemoved hm hc =>
      rw [h u user hu d]
      refine (memberCount_modify db.channels _ _ _ ?_).symm
      intro ch
      rfl
  | @channelRemoved c ch messages hc hm =>
      dsimp only at hu
      rw [Table.lookup_foldl_modify] at hu
      obtain ⟨old, hold, rfl⟩ := Option.map_eq_some_iff.mp hu
      rw [count_iterate_removeChannel, h u old hold d]
      by_cases hd : c = d
      · subst hd
        have hgone : (db.channels.erase c).lookup c = none := by
          rw [Table.lookup_erase, if_pos rfl]
        rw [if_pos rfl, memberCount_some hc, memberCount_none hgone, Nat.sub_self]
      · have hkept : (db.channels.erase c).lookup d = db.channels.lookup d := by
          rw [Table.lookup_erase, if_neg (Ne.symm hd)]
        rw [if_neg hd, Nat.sub_zero, memberCount_congr hkept]
  | @userRemoved v gone hv =>
      obtain ⟨hne, hu⟩ := Table.lookup_of_erase hu
      rw [h u user hu d]
      -- the sweep takes `v` out of lists, and `u` is someone else
      cases hd : db.channels.lookup d with
      | none => rw [memberCount_none hd, memberCount_none (leaveChannels_none hd)]
      | some ch =>
          by_cases hin : d ∈ gone.channels
          · obtain ⟨ch', hch', hleft⟩ := leaveChannels_mem (u := v) hin hd
            rw [memberCount_some hd, ← hleft.count hne]
            exact (memberCount_some hch').symm
          · exact (memberCount_congr (leaveChannels_other hin)).symm

theorem membershipInv_reachable [External]
    (h : Database.system.Reachable Database.FreshUids db) : MembershipInv db := by
  refine h.invariant membershipInv_init ?_
  intro s op s' _ hi hf hs
  exact membershipInv_step hi hf (step_effect hs)

/-- A channel that a user lists is there, and lists the user. -/
theorem channel_found (h : MembershipInv db) {u : UUID} {user : User}
    (hu : db.users.lookup u = some user) {c : UUID} (hc : c ∈ user.channels) :
    ∃ ch, db.channels.lookup c = some ch ∧ u ∈ ch.userUids := by
  have hcount := h u user hu c
  have hpos : 0 < user.channels.count c := List.count_pos_iff.mpr hc
  cases hch : db.channels.lookup c with
  | none =>
      rw [memberCount_none hch] at hcount
      omega
  | some ch =>
      rw [memberCount_some hch] at hcount
      exact ⟨ch, rfl, List.count_pos_iff.mp (by omega)⟩

/-- Once the sweep has run, no channel lists the user it ran for. -/
theorem not_mem_of_userRemoved (h : MembershipInv db) {u : UUID} {user : User}
    (hu : db.users.lookup u = some user) {c : UUID} {ch : Channel}
    (hc : (db.removeUser u).db.channels.lookup c = some ch) : u ∉ ch.userUids := by
  rw [removeUser_some hu] at hc
  obtain ⟨old, hold, hleft, hsame⟩ := leaveChannels_some hc
  by_cases hin : c ∈ user.channels
  · exact (hleft hin).not_mem
  · have hzero : old.userUids.count u = 0 := by
      rw [← memberCount_some hold, ← h u user hu c, List.count_eq_zero]
      exact hin
    rw [hsame hin]
    exact List.count_eq_zero.mp hzero

/--
**Membership agreement.** Whatever the operations and their arguments, as long as
drawn UUIDs are fresh, a registered user lists a channel as often as the channel
lists the user; so nobody is left listed after a successful `removeUser`.
-/
theorem membership_agrees [External]
    (h : Database.system.Reachable Database.FreshUids db) :
    (∀ (u : UUID) (user : User), db.users.lookup u = some user →
        ∀ c, user.channels.count c = memberCount db.channels c u)
      ∧ ∀ (u : UUID) (user : User), (db.removeUser u).outcome = .returned (.ok user) →
          ∀ (c : UUID) (ch : Channel),
            (db.removeUser u).db.channels.lookup c = some ch → u ∉ ch.userUids := by
  refine ⟨membershipInv_reachable h, ?_⟩
  intro u user hok c ch hc
  exact not_mem_of_userRemoved (membershipInv_reachable h) (registered_of_removeUser_ok hok) hc

/-- Alice (1) is listed twice when channel 7 is created, and Bob (2) joins it a second time. -/
def duplicateMembers : List Database.Op :=
  [.addUser (.ofByte 1) (lit "alice") (lit "Alice") (lit "secret") (lit "saltsaltsaltsalt"),
    .addUser (.ofByte 2) (lit "bob") (lit "Bob") (lit "secret") (lit "saltsaltsaltsalt"),
    .addChannel (.ofByte 7) (lit "plans") [.ofByte 1, .ofByte 2, .ofByte 9, .ofByte 1],
    .addUserToChannel (.ofByte 2) (.ofByte 7)]

theorem duplicateMembers_runs :
    ((@Database.system .sample).exec Database.FreshUids Database.new duplicateMembers).isSome := by
  decide

theorem membership_agrees_duplicates :
    ∃ db, (@Database.system .sample).Reachable Database.FreshUids db
      ∧ (db.users.lookup (.ofByte 1)).map (·.channels) = some [.ofByte 7, .ofByte 7]
      ∧ memberCount db.channels (.ofByte 7) (.ofByte 1) = 2 := by
  have hr := Reachable.exec_get duplicateMembers_runs
  have hlisted : ((((@Database.system .sample).exec Database.FreshUids Database.new
      duplicateMembers).get duplicateMembers_runs).users.lookup (.ofByte 1)).map (·.channels)
        = some [.ofByte 7, .ofByte 7] := by decide
  obtain ⟨user, hu, hcs⟩ := Option.map_eq_some_iff.mp hlisted
  have hcount := (@membership_agrees _ .sample hr).1 _ user hu (.ofByte 7)
  refine ⟨_, hr, hlisted, ?_⟩
  rw [← hcount, hcs]
  decide

end SockEtOut.Proof
