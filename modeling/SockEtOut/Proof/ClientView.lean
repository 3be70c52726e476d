import SockEtOut.Proof.Frames

/-!
# Deletions in the client's view

A session keeps two lists for a channel: the channel's own, of snowflakes, and
that of the messages it shows. A deletion takes the snowflake out of the first by
comparing values. Out of the second it takes every pointer that equals the one it
was handed, and that one has just been made by the decoder.
-/

namespace SockEtOut.Proof

open Lib

/-- A session has a list of messages for each channel it knows. -/
def Tracks (s : Session) : Prop :=
  ∀ c, (s.channels.lookup c).isSome → (s.channelMessages.lookup c).isSome

/-- A message handler replaces what is there, and adds nothing. -/
theorem tracks_assign {s : Session} (h : Tracks s) {k : UUID} {messages : List Message}
    {channel : Channel} (hk : s.channelMessages.lookup k = some messages) :
    ∀ c, ((s.channels.assign k channel).lookup c).isSome →
      (s.channelMessages.lookup c).isSome := by
  intro c hc
  by_cases hck : c = k
  · subst hck
    rw [hk]
    rfl
  · rw [Table.lookup_assign, if_neg hck] at hc
    exact h c hc

theorem tracks_handle {s s' : Session} {r : Response} (htracks : Tracks s)
    (h : s.handle r = .ok s') : Tracks s' := by
  cases r with
  | registerAccount data | listAccounts data =>
      cases h
      exact htracks
  | login data =>
      cases data with
      | error error => cases h; exact htracks
      | ok user => cases h; exact htracks
  | deleteAccount data =>
      cases data with
      | error error => cases h; exact htracks
      | ok user =>
          cases h
          exact fun c hc => absurd hc (by simp [Session.reset, Session.new])
  | createChannel data =>
      cases data with
      | error error => cases h; exact htracks
      | ok channel =>
          rw [Session.handle, Session.onCreateChannelResponse] at h
          split at h
          · cases h
          · cases h
            exact keysAgree_assign htracks
  | sendMessage data =>
      cases data with
      | error error => cases h; exact htracks
      | ok message =>
          rw [Session.handle, Session.addMessage] at h
          split at h
          · cases h
            exact htracks
          · rename_i messages hmessages
            split at h
            · cases h
            · cases h
              exact keysAgree_assign htracks
  | deleteMessage data =>
      cases data with
      | error error => cases h; exact htracks
      | ok message =>
          rw [Session.handle, Session.removeMessage] at h
          split at h
          · cases h
            exact htracks
          · rename_i messages hmessages
            split at h
            · cases h
            · cases h
              exact tracks_assign htracks hmessages

theorem tracks_reached {s : Session} (h : SessionReached s) : Tracks s :=
  h.invariant (fun c hc => absurd hc (by simp [Session.new])) fun _ _ _ htracks hr =>
    tracks_handle htracks hr

/-- `m` is gone from both of its channel's lists, and nothing else has changed in any. -/
structure Deleted (s s' : Session) (m : Message) : Prop where
  messages : ∃ messages, s.channelMessages.lookup m.channelId = some messages
    ∧ s'.channelMessages.lookup m.channelId
      = some (messages.filter fun x => !(x.snowflake == m.snowflake))
  snowflakes : ∃ channel, s'.channels.lookup m.channelId = some channel
    ∧ m.snowflake ∉ channel.messageSnowflakes
  others : ∀ c, c ≠ m.channelId → s'.channelMessages.lookup c = s.channelMessages.lookup c
    ∧ s'.channels.lookup c = s.channels.lookup c

/-- The messages a session shows in a channel. -/
def shown (s : Session) (c : UUID) : List Message := (s.channelMessages.lookup c).getD []

/-- What a deletion does to a channel the session knows. -/
theorem removeMessage_eq {s : Session} {m : Message} {messages : List Message} {channel : Channel}
    (hmessages : s.channelMessages.lookup m.channelId = some messages)
    (hchannel : s.channels.lookup m.channelId = some channel) :
    s.removeMessage m = .ok { s with
      channels := s.channels.assign m.channelId (channel.removeMessage m.snowflake) } := by
  rw [Session.removeMessage, hmessages]
  dsimp only
  rw [hchannel]

/--
**Deletions in the client's view.** A deletion of a message of a known channel
takes it out of the client's view exactly if the client was not showing it.
-/
theorem deletion_seen_iff {s : Session} (h : SessionReached s) {m : Message}
    (hknown : (s.channels.lookup m.channelId).isSome) :
    ∃ s', s.handle (.deleteMessage (.ok m)) = .ok s'
      ∧ (Deleted s s' m ↔ ∀ x ∈ shown s m.channelId, x.snowflake ≠ m.snowflake) := by
  obtain ⟨channel, hchannel⟩ := Option.isSome_iff_exists.mp hknown
  obtain ⟨messages, hmessages⟩ :=
    Option.isSome_iff_exists.mp (tracks_reached h m.channelId hknown)
  have hshown : shown s m.channelId = messages := by rw [shown, hmessages, Option.getD_some]
  refine ⟨_, removeMessage_eq hmessages hchannel, fun hdeleted x hx heq => ?_, fun hnone => ?_⟩
  · -- the list is as it was, so it was without `m` before
    obtain ⟨before, hbefore, hafter⟩ := hdeleted.messages
    rw [hmessages] at hbefore hafter
    cases hbefore
    rw [hshown, Option.some.inj hafter] at hx
    have hne := (List.mem_filter.mp hx).2
    rw [heq, beq_self_eq_true] at hne
    cases hne
  · rw [hshown] at hnone
    refine ⟨⟨messages, hmessages, ?_⟩, ⟨_, by rw [Table.lookup_assign, if_pos rfl], ?_⟩,
      fun c hc => ⟨rfl, by rw [Table.lookup_assign, if_neg hc]⟩⟩
    · have hkeep : messages.filter (fun x => !(x.snowflake == m.snowflake)) = messages :=
        List.filter_eq_self.mpr fun x hx => by simpa using hnone x hx
      rw [hkeep]
      exact hmessages
    · rw [Channel.removeMessage_messageSnowflakes]
      simp

/-! ## A conversation of one message -/

/-- Alice, whose uid is 7, in the channel 9. -/
def aliceSeven : User := .new (.ofByte 7) (lit "alice") (lit "Alice")

def plansNine : Channel := .new (.ofByte 9) (lit "plans") [.ofByte 7]

def hiThere : Message := .new (.ofByte 7) (.ofByte 9) (lit "hi") 41951488 0

/-- Alice's client once she has logged in and been sent the channel and one message. -/
def showingHi : Session where
  authenticatedUser := some (aliceSeven.addChannel (.ofByte 9))
  openChannel := some (.ofByte 9)
  channels := (Table.empty.assign (.ofByte 9) plansNine).assign (.ofByte 9)
    (plansNine.addMessage 41951488)
  channelMessages := (Table.empty.assign (.ofByte 9) []).assign (.ofByte 9) [hiThere]

theorem showingHi_reached : SessionReached showingHi :=
  ⟨[.login (.ok aliceSeven), .createChannel (.ok plansNine), .sendMessage (.ok hiThere)], rfl⟩

theorem showingHi_known : (showingHi.channels.lookup (UUID.ofByte 9)).isSome := rfl

/-- A deletion of another message of the channel, which the client does not show. -/
theorem deletion_seen_iff_other :
    ∃ s', showingHi.handle (.deleteMessage (.ok { hiThere with snowflake := 5 })) = .ok s'
      ∧ (Deleted showingHi s' { hiThere with snowflake := 5 }
        ↔ ∀ x ∈ shown showingHi (.ofByte 9), x.snowflake ≠ 5) :=
  deletion_seen_iff showingHi_reached showingHi_known

/-- Alice's message is deleted, and stays in the list that her client shows. -/
theorem deletion_not_seen :
    ¬ ∀ (s s' : Session) (m : Message), SessionReached s →
      (s.channels.lookup m.channelId).isSome → s.handle (.deleteMessage (.ok m)) = .ok s' →
        Deleted s s' m := by
  intro h
  have hgone := h showingHi _ hiThere showingHi_reached showingHi_known rfl
  obtain ⟨messages, hbefore, hafter⟩ := hgone.messages
  have hshown : messages = [hiThere] := (Option.some.inj hbefore).symm
  subst hshown
  exact absurd (Option.some.inj hafter) (by decide)

end SockEtOut.Proof
