import SockEtOut.Proof.Answers

/-!
# Acting in one's own name

A connection remembers whom it has authenticated, and the handlers of messages do
not ask. A message is stored under whatever sender the request names, and deleted
for anyone. `InOwnName` is what the client's windows see to: they offer writing in
one's own channels and the deletion of one's own messages. A server whose clients
all keep to it holds no message that its sender did not send.
-/

namespace SockEtOut.Proof

open Lib System

variable {s s' : Server} {call : Server.Call}

/-- The connection has authenticated this user, who is registered and a member of the channel. -/
def SpeaksIn (s : Server) (conn : Nat) (senderUid channelUid : UUID) : Prop :=
  s.authenticatedUser conn = some senderUid ∧ (s.db.users.lookup senderUid).isSome
    ∧ ∃ channel ∈ s.db.channels.lookup channelUid, senderUid ∈ channel.userUids

instance (s : Server) (conn : Nat) (senderUid channelUid : UUID) :
    Decidable (SpeaksIn s conn senderUid channelUid) :=
  inferInstanceAs (Decidable (_ ∧ _ ∧ _))

/-- What a handled request has done, it has done for the sender of the message. -/
def ActsForSender (s : Server) (call : Server.Call) (s' : Server) : Prop :=
  match call.request with
  | .sendMessage senderUid channelUid _ =>
      s'.db ≠ s.db → SpeaksIn s call.conn senderUid channelUid
  | .deleteMessage _ =>
      ∀ (t : UInt64) (m : Message), s.db.messages.lookup t = some m →
        s'.db.messages.lookup t = none → s.authenticatedUser call.conn = some m.senderId
  | .registerAccount .. | .login .. | .listAccounts _ | .deleteAccount .. | .createChannel .. =>
      True

/-- A request that will store or delete a message comes from its sender. -/
def InOwnName (s : Server) (call : Server.Call) : Prop :=
  match call.request with
  | .sendMessage senderUid channelUid _ =>
      (s.db.channels.lookup channelUid).isSome →
        Returns (s.db.generator.nextId call.draws.readings).1 →
          SpeaksIn s call.conn senderUid channelUid
  | .deleteMessage messageSnowflake =>
      ∀ m ∈ s.db.messages.lookup messageSnowflake, (s.db.channels.lookup m.channelId).isSome →
        s.authenticatedUser call.conn = some m.senderId
  | .registerAccount .. | .login .. | .listAccounts _ | .deleteAccount .. | .createChannel .. =>
      True

instance (s : Server) : (call : Server.Call) → Decidable (InOwnName s call)
  | ⟨conn, .sendMessage senderUid channelUid _, draws⟩ =>
      inferInstanceAs (Decidable ((s.db.channels.lookup channelUid).isSome →
        Returns (s.db.generator.nextId draws.readings).1 →
          SpeaksIn s conn senderUid channelUid))
  | ⟨conn, .deleteMessage messageSnowflake, _⟩ =>
      inferInstanceAs (Decidable (∀ m ∈ s.db.messages.lookup messageSnowflake,
        (s.db.channels.lookup m.channelId).isSome → s.authenticatedUser conn = some m.senderId))
  | ⟨_, .registerAccount .., _⟩ | ⟨_, .login .., _⟩ | ⟨_, .listAccounts _, _⟩
  | ⟨_, .deleteAccount .., _⟩ | ⟨_, .createChannel .., _⟩ => .isTrue trivial

/-! ## One request -/

theorem channels_ne_addMessage {db : Database} {c : UUID} {ch : Channel} {t : UInt64}
    (hc : db.channels.lookup c = some ch) :
    db.channels.modify c (·.addMessage t) ≠ db.channels := by
  intro h
  have hlookup := Table.lookup_modify db.channels c c (·.addMessage t)
  rw [h, hc, if_pos rfl, Option.map_some, Option.some.injEq] at hlookup
  have hlength := congrArg (fun ch => ch.messageSnowflakes.length) hlookup
  simp [Channel.addMessage] at hlength

/-- The database behind a handled request that ends with an operation of it. -/
theorem db_of_conclude [External] {α : Type} (ret : Ret α)
    (reply : Except Str α → List (Nat × Response)) (hs : s.step call = some s')
    (hreceive : s.receive call = s.conclude ret reply) :
    s'.db = ret.db ∧ ret.outcome ≠ .waiting := by
  unfold Server.step at hs
  split at hs
  · cases hs
  · rename_i hnot
    cases hs
    rw [hreceive] at hnot ⊢
    rw [conclude_server]
    refine ⟨rfl, fun hwaiting => hnot ?_⟩
    unfold Server.conclude
    rw [hwaiting]

theorem sendMessage_acts_iff [External] {conn : Nat} {draws : Draws} {senderUid channelUid : UUID}
    {text : Str} (hs : s.step ⟨conn, .sendMessage senderUid channelUid text, draws⟩ = some s') :
    ActsForSender s ⟨conn, .sendMessage senderUid channelUid text, draws⟩ s'
      ↔ InOwnName s ⟨conn, .sendMessage senderUid channelUid text, draws⟩ := by
  obtain ⟨hdb, hends⟩ := db_of_conclude
    (s.db.addMessage senderUid channelUid text draws.readings draws.now) (fun _ => []) hs rfl
  unfold ActsForSender InOwnName
  dsimp only
  rw [hdb]
  unfold Database.addMessage MessageTable.addMessage at hends ⊢
  cases hc : s.db.channels.lookup channelUid with
  | none => exact ⟨fun _ h => absurd h (by simp), fun _ h => absurd rfl h⟩
  | some channel =>
      rw [hc] at hends
      cases hid : s.db.generator.nextId draws.readings with
      | mk outcome generator =>
          rw [hid] at hends
          cases outcome with
          | returned id =>
              refine ⟨fun h _ _ => h fun heq => ?_, fun h _ => h rfl ⟨id, rfl⟩⟩
              exact channels_ne_addMessage hc (congrArg Database.channels heq)
          | raised e =>
              have hg := SnowflakeIDGenerator.nextId_raised hid
              subst hg
              refine ⟨fun _ _ h => ?_, fun _ h => absurd rfl h⟩
              obtain ⟨id, hreturned⟩ := h
              cases hreturned
          | waiting =>
              exact absurd rfl hends

theorem deleteMessage_acts_iff [External] {conn : Nat} {draws : Draws} {messageSnowflake : UInt64}
    (hs : s.step ⟨conn, .deleteMessage messageSnowflake, draws⟩ = some s') :
    ActsForSender s ⟨conn, .deleteMessage messageSnowflake, draws⟩ s'
      ↔ InOwnName s ⟨conn, .deleteMessage messageSnowflake, draws⟩ := by
  obtain ⟨hdb, -⟩ := db_of_conclude (s.db.removeMessage messageSnowflake) (fun _ => []) hs rfl
  unfold ActsForSender InOwnName
  dsimp only
  rw [hdb]
  rcases removeMessage_cases s.db messageSnowflake with ⟨e, heq⟩ | ⟨m, ch, hm, hc, heq⟩
  · rw [heq]
    refine ⟨fun _ m hm hc => ?_, fun _ t m hm hgone => absurd (hm.symm.trans hgone) (by simp)⟩
    -- had both been found, the removal would have succeeded
    obtain ⟨ch, hch⟩ := Option.isSome_iff_exists.mp hc
    unfold Database.removeMessage at heq
    rw [Option.mem_def.mp hm] at heq
    dsimp only at heq
    rw [hch] at heq
    cases heq
  · rw [heq]
    dsimp only
    constructor
    · intro h m' hm' _
      refine h messageSnowflake m' hm' ?_
      rw [Table.lookup_erase, if_pos rfl]
    · intro h t m' hm' hgone
      rw [Table.lookup_erase] at hgone
      split at hgone
      · rename_i ht
        subst ht
        rw [hm] at hm'
        cases hm'
        exact h m hm (by rw [hc]; rfl)
      · rw [hm'] at hgone
        cases hgone

/-- **What one request does.** It acts for the sender exactly if it comes from the sender. -/
theorem acts_iff [External] (hs : s.step call = some s') :
    ActsForSender s call s' ↔ InOwnName s call := by
  obtain ⟨conn, request, draws⟩ := call
  cases request with
  | sendMessage senderUid channelUid text => exact sendMessage_acts_iff hs
  | deleteMessage messageSnowflake => exact deleteMessage_acts_iff hs
  | registerAccount username password displayName => exact Iff.rfl
  | login username password => exact Iff.rfl
  | listAccounts regex => exact Iff.rfl
  | deleteAccount username password => exact Iff.rfl
  | createChannel channelName members => exact Iff.rfl

/-! ## Where messages come from -/

/-- The request that stores a message in this state. -/
def Stores [External] (s : Server) (call : Server.Call) (m : Message) : Prop :=
  call.request = .sendMessage m.senderId m.channelId m.text
    ∧ (s.db.addMessage m.senderId m.channelId m.text call.draws.readings call.draws.now).outcome
      = .returned (.ok m)

/-- Only a request to send a message stores one. -/
theorem messages_of_step [External] (hs : s.step call = some s') {t : UInt64} {m : Message}
    (hm : s'.db.messages.lookup t = some m) :
    s.db.messages.lookup t = some m ∨ Stores s call m := by
  rcases step_cases hs with rfl | ⟨uid, user, -, rfl⟩ | ⟨op, hop, db', heffect, rfl⟩
  · exact Or.inl hm
  · exact Or.inl hm
  · cases heffect with
    | nothing | userAdded | channelAdded | userJoined | userRemoved => exact Or.inl hm
    | messageRemoved => exact Or.inl (Table.lookup_of_erase hm).2
    | channelRemoved messages hc hmessages =>
        dsimp only at hm
        rw [hmessages] at hm
        split at hm
        · cases hm
        · exact Or.inl hm
    | @messageAdded sender c content readings now ch id generator hc hid =>
        rcases Table.lookup_of_emplace hm with hm | ⟨-, rfl⟩
        · exact Or.inl hm
        · right
          obtain ⟨conn, request, draws⟩ := call
          unfold operation at hop
          cases request with
          | sendMessage senderUid channelUid text =>
              cases hop
              refine ⟨rfl, ?_⟩
              dsimp only [Message.new]
              rw [Database.addMessage, hc]
              dsimp only
              rw [MessageTable.addMessage, hid]
              rfl
          | deleteAccount username password =>
              obtain ⟨uid, -, heq⟩ := Option.map_eq_some_iff.mp hop
              cases heq
          | registerAccount | login | listAccounts | createChannel | deleteMessage => cases hop

/--
Some time before, a connection that had authenticated the message's sender, then
registered and a member of the channel, asked for the message to be stored.
-/
def Sent [External] (G : Server → Server.Call → Prop) (s : Server) (m : Message) : Prop :=
  ∃ s₀ call s₁, Server.system.Reachable G s₀ ∧ Stores s₀ call m
    ∧ SpeaksIn s₀ call.conn m.senderId m.channelId
    ∧ s₀.step call = some s₁ ∧ (Server.system.resume s₁).Reachable G s

theorem Sent.tail [External] {G : Server → Server.Call → Prop} {m : Message} (h : Sent G s m)
    (hg : G s call) (hs : s.step call = some s') : Sent G s' m := by
  obtain ⟨s₀, call₀, s₁, hreach, hstores, hspeaks, hfirst, hrest⟩ := h
  exact ⟨s₀, call₀, s₁, hreach, hstores, hspeaks, hfirst, hrest.tail hg hs⟩

/-- A message that is stored in its sender's own name. -/
theorem speaksIn_of_stores [External] {m : Message} (hg : InOwnName s call)
    (h : Stores s call m) : SpeaksIn s call.conn m.senderId m.channelId := by
  obtain ⟨hrequest, hok⟩ := h
  unfold InOwnName at hg
  rw [hrequest] at hg
  rcases addMessage_cases s.db m.senderId m.channelId m.text call.draws.readings call.draws.now with
    ⟨e, heq⟩ | ⟨e, heq⟩ | ⟨generator, heq⟩ | ⟨ch, id, generator, hc, hid, heq⟩
  · rw [heq] at hok
    cases hok
  · rw [heq] at hok
    cases hok
  · rw [heq] at hok
    cases hok
  · exact hg (by rw [hc]; rfl) ⟨id, by rw [hid]⟩

theorem sent_reachable [External] (h : Server.system.Reachable InOwnName s) :
    ∀ (t : UInt64) (m : Message), s.db.messages.lookup t = some m → Sent InOwnName s m := by
  induction h with
  | init =>
      intro t m hm
      cases hm
  | @tail s s' call hreach hg hs ih =>
      intro t m hm
      rcases messages_of_step hs hm with hm | hstores
      · exact (ih t m hm).tail hg hs
      · exact ⟨s, call, s', hreach, hstores, speaksIn_of_stores hg hstores, hs, .init⟩

/--
**Requests act for the authenticated sender.** In every run whose requests to send
or delete a message all come from its sender, each handled request has acted for
the sender, and every stored message was sent by the member it names. A request
acts for the sender exactly if it comes from the sender.
-/
theorem acts_for_sender [External] (h : Server.system.Reachable InOwnName s) :
    (∀ (t : UInt64) (m : Message), s.db.messages.lookup t = some m → Sent InOwnName s m)
      ∧ ∀ call s', s.step call = some s' → (ActsForSender s call s' ↔ InOwnName s call) :=
  ⟨sent_reachable h, fun _ _ hs => acts_iff hs⟩

/-- Alice (1), logged in, creates a channel (7) for herself. -/
def aliceWithNotes : List Server.Call :=
  aliceAlone ++ [⟨0, .createChannel (lit "notes") [.ofByte 1], .ofByte 7 []⟩]

/-- And writes in it. -/
def aliceWrites : List Server.Call :=
  aliceWithNotes ++ [⟨0, .sendMessage (.ofByte 1) (.ofByte 7) (lit "hi"), .ofByte 0 [epoch + 5]⟩]

theorem aliceWithNotes_runs :
    ((@Server.system .sample).exec Always Server.new aliceWithNotes).isSome := by
  decide

theorem aliceWrites_runs :
    ((@Server.system .sample).exec InOwnName Server.new aliceWrites).isSome := by
  decide

theorem acts_for_sender_alice : ∃ s, @Sent .sample InOwnName s
    (.new (.ofByte 1) (.ofByte 7) (lit "hi") 41951488 0) :=
  ⟨_, (@acts_for_sender _ .sample (Reachable.exec_get aliceWrites_runs)).1 41951488 _ (by decide)⟩

/-- A connection that nobody has logged in on writes as alice. -/
theorem acts_for_anyone :
    ¬ ∀ (s : Server) (call : Server.Call) (s' : Server),
      (@Server.system .sample).Reachable Always s → @Server.step .sample s call = some s' →
        ActsForSender s call s' := by
  intro h
  obtain ⟨s, hs⟩ : ∃ s, s = ((@Server.system .sample).exec Always Server.new
    aliceWithNotes).get aliceWithNotes_runs := ⟨_, rfl⟩
  have hreach : (@Server.system .sample).Reachable Always s :=
    hs ▸ Reachable.exec_get aliceWithNotes_runs
  have hsteps : (@Server.step .sample s
      ⟨5, .sendMessage (.ofByte 1) (.ofByte 7) (lit "hi"), .ofByte 0 [epoch + 5]⟩).isSome := by
    subst hs
    decide
  obtain ⟨s', hs'⟩ := Option.isSome_iff_exists.mp hsteps
  have hown := (@acts_iff _ _ _ .sample hs').mp (h s _ s' hreach hs')
  have hnot : ¬ InOwnName s
      ⟨5, .sendMessage (.ofByte 1) (.ofByte 7) (lit "hi"), .ofByte 0 [epoch + 5]⟩ := by
    subst hs
    decide
  exact hnot hown

end SockEtOut.Proof
