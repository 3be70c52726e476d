import SockEtOut.Client.Windows
import SockEtOut.Proof.ClientView

/-!
# The open channel is backed

A session keeps a channel and its messages in two maps, and the list of chats keeps
channels that one of them may be opened from. The maps are filled and cleared
together, a channel is listed when it is put into them, and only a listed channel or
one just put there is opened; `reset` clears everything. So what is open or can be
opened is always there, and neither `at` throws nor a null pointer is followed.

All it takes is that channels arrive while a user is logged in.
-/

namespace SockEtOut.Proof

open Lib

/-- Channels arrive while a user is authenticated. -/
def WhileAuthenticated (c : Client) : Client.Input → Prop
  | .response (.createChannel (.ok _)) => c.session.authenticatedUser.isSome = true
  | _ => True

instance (c : Client) (input : Client.Input) : Decidable (WhileAuthenticated c input) := by
  unfold WhileAuthenticated
  split <;> infer_instance

/-- What is listed or open is in both maps. -/
structure Backed (c : Client) : Prop where
  keys : ∀ uid, (c.session.channels.lookup uid).isSome
    ↔ (c.session.channelMessages.lookup uid).isSome
  listed : ∀ channel ∈ c.activeChats, (c.session.channels.lookup channel.uid).isSome
  opened : ∀ uid, c.session.openChannel = some uid → (c.session.channels.lookup uid).isSome

theorem backed_new : Backed { session := .new, activeChats := [] } where
  keys uid := by simp [Session.new]
  listed channel h := absurd h List.not_mem_nil
  opened uid h := by cases h

/-! ## What a response does -/

/-- No handler but that of a new channel touches the open one, and none forgets a channel. -/
theorem handle_kept {s s' : Session} {r : Response} (h : s.handle r = .ok s')
    (hcreate : ∀ channel, r ≠ .createChannel (.ok channel))
    (hreset : ∀ user, r ≠ .deleteAccount (.ok user)) :
    s'.openChannel = s.openChannel
      ∧ ∀ uid, (s.channels.lookup uid).isSome → (s'.channels.lookup uid).isSome := by
  have hassign : ∀ (k : UUID) (channel : Channel) (uid : UUID), (s.channels.lookup uid).isSome →
      ((s.channels.assign k channel).lookup uid).isSome := by
    intro k channel uid huid
    rw [Table.lookup_assign]
    split
    · rfl
    · exact huid
  cases r with
  | registerAccount data | listAccounts data =>
      cases h
      exact ⟨rfl, fun _ h => h⟩
  | login data => cases data <;> cases h <;> exact ⟨rfl, fun _ h => h⟩
  | deleteAccount data =>
      cases data with
      | ok user => exact absurd rfl (hreset user)
      | error error =>
          cases h
          exact ⟨rfl, fun _ h => h⟩
  | createChannel data =>
      cases data with
      | ok channel => exact absurd rfl (hcreate channel)
      | error error =>
          cases h
          exact ⟨rfl, fun _ h => h⟩
  | sendMessage data =>
      cases data with
      | error error =>
          cases h
          exact ⟨rfl, fun _ h => h⟩
      | ok message =>
          rw [Session.handle, Session.addMessage] at h
          split at h
          · cases h
            exact ⟨rfl, fun _ h => h⟩
          · split at h
            · cases h
            · cases h
              exact ⟨rfl, hassign _ _⟩
  | deleteMessage data =>
      cases data with
      | error error =>
          cases h
          exact ⟨rfl, fun _ h => h⟩
      | ok message =>
          rw [Session.handle, Session.removeMessage] at h
          split at h
          · cases h
            exact ⟨rfl, fun _ h => h⟩
          · split at h
            · cases h
            · cases h
              exact ⟨rfl, hassign _ _⟩

/-- A new channel is put into both maps, opened and listed. -/
theorem backed_create {c : Client} {session : Session} {channel : Channel} (h : Backed c)
    (hhandle : c.session.handle (.createChannel (.ok channel)) = .ok session) :
    Backed { session, activeChats := c.activeChats ++ [channel] } := by
  have hsession : session.channels = c.session.channels.assign channel.uid channel
      ∧ session.channelMessages = c.session.channelMessages.assign channel.uid []
      ∧ session.openChannel = some channel.uid := by
    rw [Session.handle, Session.onCreateChannelResponse] at hhandle
    split at hhandle
    · cases hhandle
    · cases hhandle
      exact ⟨rfl, rfl, rfl⟩
  obtain ⟨hchannels, hmessages, hopen⟩ := hsession
  constructor
  · intro uid
    show (session.channels.lookup uid).isSome ↔ (session.channelMessages.lookup uid).isSome
    rw [hchannels, hmessages, Table.lookup_assign, Table.lookup_assign]
    split
    · exact Iff.rfl
    · exact h.keys uid
  · intro listed hlisted
    show (session.channels.lookup listed.uid).isSome
    rw [hchannels, Table.lookup_assign]
    split
    · rfl
    · rename_i hne
      -- what is listed besides the new channel was listed before
      rcases List.mem_append.mp hlisted with hlisted | hlisted
      · exact h.listed listed hlisted
      · rw [List.mem_singleton.mp hlisted] at hne
        exact absurd rfl hne
  · intro uid huid
    show (session.channels.lookup uid).isSome
    obtain rfl : channel.uid = uid := Option.some.inj (hopen.symm.trans huid)
    rw [hchannels, Table.lookup_assign, if_pos rfl]
    rfl

theorem backed_response {c : Client} {session : Session} {r : Response} (h : Backed c)
    (hhandle : c.session.handle r = .ok session) :
    Backed { session, activeChats := ActiveChatsTab.after c.activeChats r } := by
  by_cases hcreate : ∃ channel, r = .createChannel (.ok channel)
  · obtain ⟨channel, rfl⟩ := hcreate
    exact backed_create h hhandle
  by_cases hreset : ∃ user, r = .deleteAccount (.ok user)
  · obtain ⟨user, rfl⟩ := hreset
    cases hhandle
    exact backed_new
  -- no other response changes the list of chats
  have hlist : ActiveChatsTab.after c.activeChats r = c.activeChats := by
    unfold ActiveChatsTab.after
    split
    · exact absurd ⟨_, rfl⟩ hcreate
    · exact absurd ⟨_, rfl⟩ hreset
    · rfl
  obtain ⟨hopen, hkept⟩ := handle_kept hhandle (fun channel hr => hcreate ⟨channel, hr⟩)
    fun user hr => hreset ⟨user, hr⟩
  rw [hlist]
  refine ⟨fun uid => ⟨?_, ?_⟩, fun channel hchannel => hkept _ (h.listed channel hchannel),
    fun uid huid => hkept uid (h.opened uid (hopen ▸ huid))⟩
  · exact tracks_handle (fun uid => (h.keys uid).mp) hhandle uid
  · exact keysAgree_handle (fun uid => (h.keys uid).mpr) hhandle uid

/-- **Preserved by every input.** -/
theorem backed_step {c c' : Client} {input : Client.Input} (h : Backed c)
    (hs : c.step input = some c') : Backed c' := by
  cases input with
  | response r =>
      rw [Client.step] at hs
      split at hs
      · rename_i session hhandle
        cases hs
        exact backed_response h hhandle
      · cases hs
  | select item =>
      obtain ⟨channel, hitem, rfl⟩ := Option.map_eq_some_iff.mp hs
      -- only listed channels can be selected
      refine ⟨h.keys, h.listed, fun uid huid => ?_⟩
      obtain rfl : channel.uid = uid := Option.some.inj huid
      exact h.listed channel (List.mem_of_getElem? hitem)
  | reset =>
      cases hs
      exact backed_new

theorem backed_reachable {c : Client} (h : Client.system.Reachable WhileAuthenticated c) :
    Backed c :=
  h.invariant (P := Backed) backed_new fun _ _ _ _ hbacked _ hs => backed_step hbacked hs

/-! ## The result -/

/--
**The open channel is always backed.** The two maps have the same keys, what is listed
and what is open is among them, the messages of the open channel can be shown, and
messages come and go without a missing channel being followed.
-/
theorem open_channel_backed {c : Client} (h : Client.system.Reachable WhileAuthenticated c) :
    Backed c
      ∧ c.session.getActiveChannelMessages.isSome
      ∧ (∀ message, (∃ s, c.session.addMessage message = .ok s)
        ∧ ∃ s, c.session.removeMessage message = .ok s)
      ∧ ∀ r, WhileAuthenticated c (.response r) → (c.step (.response r)).isSome := by
  have hbacked := backed_reachable h
  have hkeys : KeysAgree c.session := fun uid => (hbacked.keys uid).mpr
  refine ⟨hbacked, ?_, fun message => ?_, fun r hr => ?_⟩
  · rw [Session.getActiveChannelMessages]
    cases hopen : c.session.openChannel with
    | none => rfl
    | some uid => exact (hbacked.keys uid).mp (hbacked.opened uid hopen)
  · obtain ⟨⟨s, hs, -⟩, s', hs', -⟩ := messages_returns hkeys message
    exact ⟨⟨s, hs⟩, s', hs'⟩
  · have hauth : ∀ channel, r = .createChannel (.ok channel) →
        c.session.authenticatedUser.isSome = true := by
      rintro channel rfl
      exact hr
    obtain ⟨s, hs, -⟩ := handle_returns hkeys hauth
    rw [Client.step, hs]
    rfl

/-- A user logs in, two channels are created, a message is sent and the first one is opened. -/
def openingPlans : List Client.Input :=
  [.response (.login (.ok (.new (.ofByte 1) (lit "ada") (lit "Ada")))),
    .response (.createChannel (.ok (.new (.ofByte 7) (lit "plans") [.ofByte 1]))),
    .response (.createChannel (.ok (.new (.ofByte 8) (lit "notes") [.ofByte 1]))),
    .response (.sendMessage (.ok (.new (.ofByte 1) (.ofByte 7) (lit "hi") 5 5))),
    .select 0]

theorem openingPlans_runs :
    (Client.system.exec WhileAuthenticated Client.system.init openingPlans).isSome := by
  decide

/-- It is there, with the message. -/
theorem open_channel_backed_plans :
    ((Client.system.exec WhileAuthenticated Client.system.init openingPlans).get
      openingPlans_runs).session.getActiveChannelMessages.isSome :=
  (open_channel_backed (System.Reachable.exec_get openingPlans_runs)).2.1

end SockEtOut.Proof
