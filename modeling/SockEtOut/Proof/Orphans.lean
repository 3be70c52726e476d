import SockEtOut.Proof.Steps

/-!
# Stored messages and the histories that list them

A message is stored and listed in one operation. Two operations take it away
again together: `removeMessage` and `removeChannel`, the second by walking the
channel's history. Account deletion does only half of it. It takes the account's
messages out of the histories of its channels and leaves them in the table, where
nothing lists them any more; when the channel goes too, they stay behind under
the name of a channel that does not exist.

So the invariant holds of every run in which no account deletion meets a message
of the account, and `orphaned_after_removeUser` is a run in which one does.
-/

namespace SockEtOut.Proof

open Lib System

variable {db db' : Database}

/-- Every stored message is in the history of its channel, which exists. -/
def NoOrphans (db : Database) : Prop :=
  ∀ (s : UInt64) (m : Message), db.messages.lookup s = some m →
    ∃ ch, db.channels.lookup m.channelId = some ch ∧ s ∈ ch.messageSnowflakes

/--
The step is not the deletion of an account one of whose stored messages is in the
history of a channel on the account's list.
-/
def SparesMessages (db : Database) : Database.Op → Prop
  | .removeUser u =>
      ∀ user ∈ db.users.lookup u, ∀ c ∈ user.channels, ∀ ch ∈ db.channels.lookup c,
        ∀ s ∈ ch.messageSnowflakes, ∀ m ∈ db.messages.lookup s, m.senderId ≠ u
  | _ => True

/-- Checked along the list; there are too many snowflakes to check them all. -/
instance (db : Database) (u : UUID) (ss : List UInt64) :
    Decidable (∀ s ∈ ss, ∀ m ∈ db.messages.lookup s, m.senderId ≠ u) :=
  List.decidableBAll _ ss

instance (db : Database) : (op : Database.Op) → Decidable (SparesMessages db op)
  | .removeUser u => inferInstanceAs (Decidable
      (∀ user ∈ db.users.lookup u, ∀ c ∈ user.channels, ∀ ch ∈ db.channels.lookup c,
        ∀ s ∈ ch.messageSnowflakes, ∀ m ∈ db.messages.lookup s, m.senderId ≠ u))
  | .addUser .. | .addChannel .. | .addUserToChannel .. | .addMessage .. | .removeMessage _
  | .removeChannel _ => inferInstanceAs (Decidable True)

theorem noOrphans_init : NoOrphans Database.new := by
  intro s m h
  exact absurd h (by simp [Database.new])

/-- A history that only grows keeps its messages. -/
theorem noOrphans_modify (h : NoOrphans db) {c : UUID} {f : Channel → Channel}
    (hf : ∀ ch s, s ∈ ch.messageSnowflakes → s ∈ (f ch).messageSnowflakes)
    {s : UInt64} {m : Message} (hm : db.messages.lookup s = some m) :
    ∃ ch, (db.channels.modify c f).lookup m.channelId = some ch ∧ s ∈ ch.messageSnowflakes := by
  obtain ⟨ch, hch, hs⟩ := h s m hm
  by_cases hc : m.channelId = c
  · subst hc
    refine ⟨f ch, ?_, hf ch s hs⟩
    rw [Table.lookup_modify, if_pos rfl, hch]
    rfl
  · refine ⟨ch, ?_, hs⟩
    rw [Table.lookup_modify, if_neg hc]
    exact hch

/-- **Preserved by every operation that spares the messages of the accounts it deletes.** -/
theorem noOrphans_step {op : Database.Op} (h : NoOrphans db) (hg : SparesMessages db op)
    (he : Effect db op db') : NoOrphans db' := by
  intro s m hm
  cases he with
  | nothing => exact h s m hm
  | userAdded => exact h s m hm
  | @channelAdded uid channelName members =>
      obtain ⟨ch, hch, hs⟩ := h s m hm
      exact ⟨ch, Table.lookup_emplace_of_some hch _ _, hs⟩
  | userJoined =>
      refine noOrphans_modify h ?_ hm
      intro ch s hs
      exact hs
  | @messageAdded sender c content readings now ch id generator hc hid =>
      dsimp only at hm ⊢
      have hgrow : ∀ (ch : Channel) (s : UInt64), s ∈ ch.messageSnowflakes →
          s ∈ (ch.addMessage (.ofBitVec id)).messageSnowflakes := by
        intro ch s hs
        exact List.mem_append_left _ hs
      rcases Table.lookup_of_emplace hm with hold | ⟨rfl, rfl⟩
      · exact noOrphans_modify h hgrow hold
      · refine ⟨ch.addMessage (.ofBitVec id), ?_, ?_⟩
        · show (db.channels.modify c _).lookup c = _
          rw [Table.lookup_modify, if_pos rfl, hc]
          rfl
        · exact List.mem_append_right _ (List.mem_singleton_self _)
  | @messageRemoved t gone ch hgone hc =>
      obtain ⟨hne, hm⟩ := Table.lookup_of_erase hm
      obtain ⟨chm, hchm, hs⟩ := h s m hm
      by_cases hcm : m.channelId = gone.channelId
      · refine ⟨chm.removeMessage t, ?_, ?_⟩
        · dsimp only
          rw [Table.lookup_modify, if_pos hcm, ← hcm, hchm]
          rfl
        · rw [Channel.removeMessage_messageSnowflakes, List.mem_filter]
          exact ⟨hs, by simpa using hne⟩
      · exact ⟨chm, by rw [Table.lookup_modify, if_neg hcm]; exact hchm, hs⟩
  | @channelRemoved c ch messages hc hmsg =>
      dsimp only at hm ⊢
      rw [hmsg] at hm
      split at hm
      · exact absurd hm (by simp)
      · rename_i hnot
        obtain ⟨chm, hchm, hs⟩ := h s m hm
        -- a message of `c` is in its history, and those have just been erased
        have hne : m.channelId ≠ c := by
          intro heq
          rw [heq, hc] at hchm
          cases hchm
          exact hnot hs
        exact ⟨chm, by rw [Table.lookup_erase, if_neg hne]; exact hchm, hs⟩
  | @userRemoved u user hu =>
      dsimp only at hm ⊢
      obtain ⟨ch, hch, hs⟩ := h s m hm
      by_cases hin : m.channelId ∈ user.channels
      · obtain ⟨ch', hch', hleft⟩ := leaveChannels_mem (u := u) hin hch
        exact ⟨ch', hch', hleft.keeps s hs (hg user hu _ hin ch hch s hs)⟩
      · exact ⟨ch, by rw [leaveChannels_other hin]; exact hch, hs⟩

/-- With no orphans about, deleting a stored message cannot fail. -/
theorem removeMessage_ok (h : NoOrphans db) {s : UInt64} {m : Message}
    (hm : db.messages.lookup s = some m) :
    (db.removeMessage s).outcome = .returned (.ok ()) := by
  obtain ⟨ch, hch, -⟩ := h s m hm
  unfold Database.removeMessage
  rw [hm]
  dsimp only
  rw [hch]
  rfl

/--
**No orphaned messages**, in every state of every run whose account deletions
meet no stored message of the account in the account's channels.
-/
theorem noOrphans_reachable [External] (h : Database.system.Reachable SparesMessages db) :
    (∀ (s : UInt64) (m : Message), db.messages.lookup s = some m →
        ∃ ch, db.channels.lookup m.channelId = some ch ∧ s ∈ ch.messageSnowflakes)
      ∧ ∀ (s : UInt64) (m : Message), db.messages.lookup s = some m →
          (db.removeMessage s).outcome = .returned (.ok ()) := by
  have hinv : NoOrphans db := by
    refine h.invariant noOrphans_init ?_
    intro s op s' _ hi hg hs
    exact noOrphans_step hi hg (step_effect hs)
  exact ⟨hinv, fun s m hm => removeMessage_ok hinv hm⟩

/-- Alice writes in a channel she shares with Bob, and Bob, who wrote nothing, leaves. -/
def silentMemberLeaves : List Database.Op :=
  [.addUser (.ofByte 1) (lit "alice") (lit "Alice") (lit "secret") (lit "saltsaltsaltsalt"),
    .addUser (.ofByte 2) (lit "bob") (lit "Bob") (lit "secret") (lit "saltsaltsaltsalt"),
    .addChannel (.ofByte 7) (lit "plans") [.ofByte 1, .ofByte 2],
    .addMessage (.ofByte 1) (.ofByte 7) (lit "hi") [epoch + 5] 0,
    .removeUser (.ofByte 2)]

theorem silentMemberLeaves_runs :
    ((@Database.system .sample).exec SparesMessages Database.new silentMemberLeaves).isSome := by
  decide

theorem noOrphans_silentMemberLeaves :
    ∃ db, (@Database.system .sample).Reachable SparesMessages db
      ∧ (db.messages.lookup 41951488).isSome
      ∧ (db.removeMessage 41951488).outcome = .returned (.ok ()) := by
  have hr := Reachable.exec_get silentMemberLeaves_runs
  have hstored : ((((@Database.system .sample).exec SparesMessages Database.new
      silentMemberLeaves).get silentMemberLeaves_runs).messages.lookup 41951488).isSome := by
    decide
  obtain ⟨m, hm⟩ := Option.isSome_iff_exists.mp hstored
  exact ⟨_, hr, hstored, (@noOrphans_reachable _ .sample hr).2 _ m hm⟩

/-- Alice writes in her channel and deletes her account; then the channel is deleted. -/
def authorLeaves : List Database.Op :=
  [.addUser (.ofByte 1) (lit "alice") (lit "Alice") (lit "secret") (lit "saltsaltsaltsalt"),
    .addChannel (.ofByte 7) (lit "plans") [.ofByte 1],
    .addMessage (.ofByte 1) (.ofByte 7) (lit "hi") [epoch + 5] 0,
    .removeUser (.ofByte 1), .removeChannel (.ofByte 7)]

theorem authorLeaves_runs :
    ((@Database.system .sample).exec Always Database.new authorLeaves).isSome := by
  decide

/-- The message outlives its channel, and `removeMessage` cannot remove it. -/
theorem orphaned_after_removeUser :
    ∃ db, (@Database.system .sample).Reachable Always db
      ∧ (db.messages.lookup 41951488).map (·.channelId) = some (.ofByte 7)
      ∧ db.channels.lookup (.ofByte 7) = none
      ∧ (db.removeMessage 41951488).outcome
          = .returned (.error (lit "Channel does not exist")) :=
  ⟨_, Reachable.exec_get authorLeaves_runs, by decide, by decide, by decide⟩

end SockEtOut.Proof
