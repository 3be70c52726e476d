import SockEtOut.Proof.ByteLevel
import SockEtOut.Proof.Services

/-!
# What is said is seen

The way of a text from the input of one user to the screens of the others. A click
writes a request, which waits its turn and is not lost on the way; the channel it names
is there, since every channel that a program knows of is one of the server's; the message
is stored and listed; and from then on it is listed or gone. What `Between` says of the
screens does the rest.

A text has to survive its own encoding first, for a length goes into one byte: these are
runs in which all that is written fits its counts and its header, so that it is read as it
was written. And a handler can still throw on the way (the clock runs backwards, a username
is unknown), and then the program of the server has ended. So these are runs in which it has
not.
-/

namespace SockEtOut.Proof

open Lib System

variable {k : Int} {db db' : Database} {op : Database.Op} {s s' : Server} {call : Server.Call}

/-! ## Messages that are kept -/

/-- A message that has been issued, and is stored and listed unless it is gone. -/
structure Kept (k : Int) (db : Database) (m : Message) : Prop where
  issued : Issued (spanStart k) db.generator m.snowflake
  listed : Gone db m.snowflake
    ∨ db.messages.lookup m.snowflake = some m
      ∧ ∃ ch, db.channels.lookup m.channelId = some ch ∧ m.snowflake ∈ ch.messageSnowflakes

/-- A change to channels that takes a snowflake off none of them. -/
theorem listed_modify {channels : ChannelTable} {c d : UUID} {t : UInt64} {f : Channel → Channel}
    (hf : ∀ ch, t ∈ ch.messageSnowflakes → t ∈ (f ch).messageSnowflakes)
    (h : ∃ ch, channels.lookup c = some ch ∧ t ∈ ch.messageSnowflakes) :
    ∃ ch, (channels.modify d f).lookup c = some ch ∧ t ∈ ch.messageSnowflakes := by
  obtain ⟨ch, hc, hin⟩ := h
  rw [Table.lookup_modify]
  split
  · rename_i heq
    exact ⟨f ch, by rw [← heq, hc]; rfl, hf ch hin⟩
  · exact ⟨ch, hc, hin⟩

/-- **No operation loses a message**: it is listed as before, or gone. -/
theorem kept_effect (hf : db.FreshUids op) (hr : ReadingsWithin (spanStart k) op)
    (he : Effect db op db') {m : Message} (h : Kept k db m) : Kept k db' m where
  issued := issued_effect hr he h.issued
  listed := by
    rcases h.listed with hgone | ⟨hm, ch, hc, hin⟩
    · exact Or.inl (gone_effect hf hr he h.issued hgone)
    have hlisted : ∃ ch, db.channels.lookup m.channelId = some ch
        ∧ m.snowflake ∈ ch.messageSnowflakes := ⟨ch, hc, hin⟩
    cases he with
    | nothing => exact Or.inr ⟨hm, hlisted⟩
    | userAdded => exact Or.inr ⟨hm, hlisted⟩
    | channelAdded => exact Or.inr ⟨hm, ch, Table.lookup_emplace_of_some hc _ _, hin⟩
    | userJoined hu hd => exact Or.inr ⟨hm, listed_modify (fun _ h => h) hlisted⟩
    | messageAdded hd hid =>
        exact Or.inr ⟨Table.lookup_emplace_of_some hm _ _,
          listed_modify (fun _ h => List.mem_append_left _ h) hlisted⟩
    | @messageRemoved t gone ch₀ hgone hd =>
        by_cases heq : m.snowflake = t
        · refine Or.inl fun m' hm' => ?_
          dsimp only at hm'
          rw [heq, Table.lookup_erase, if_pos rfl] at hm'
          cases hm'
        · refine Or.inr ⟨?_, listed_modify (fun ch h => ?_) hlisted⟩
          · dsimp only
            rw [Table.lookup_erase, if_neg heq]
            exact hm
          · rw [Channel.removeMessage_messageSnowflakes, List.mem_filter]
            exact ⟨h, by simpa using heq⟩
    | @channelRemoved d ch₀ messages hd hmsg =>
        by_cases hswept : m.snowflake ∈ ch₀.messageSnowflakes
        · refine Or.inl fun m' hm' => ?_
          dsimp only at hm'
          rw [hmsg, if_pos hswept] at hm'
          cases hm'
        · refine Or.inr ⟨?_, ch, ?_, hin⟩
          · dsimp only
            rw [hmsg, if_neg hswept]
            exact hm
          · have hne : m.channelId ≠ d := by
              rintro rfl
              rw [hc] at hd
              cases hd
              exact hswept hin
            dsimp only
            rw [Table.lookup_erase, if_neg hne]
            exact hc
    | @userRemoved u user hu =>
        by_cases hsender : m.senderId = u
        · -- the sender has left
          refine Or.inl fun m' hm' => ?_
          obtain rfl : m = m' := Option.some.inj (hm.symm.trans hm')
          dsimp only
          rw [hsender, Table.lookup_erase, if_pos rfl]
        · refine Or.inr ⟨hm, ?_⟩
          by_cases hleaves : m.channelId ∈ user.channels
          · obtain ⟨ch', hc', hleft⟩ := leaveChannels_mem (u := u) hleaves hc
            refine ⟨ch', hc', hleft.keeps _ hin fun m' hm' => ?_⟩
            obtain rfl : m = m' := Option.some.inj (hm.symm.trans hm')
            exact hsender
          · exact ⟨ch, (leaveChannels_other hleaves).trans hc, hin⟩

theorem kept_step [External] (hg : Ordinary k s call) (hs : s.step call = some s') {m : Message}
    (h : Kept k s.db m) : Kept k s'.db m := by
  obtain ⟨hf, hr, -⟩ := asks_of_ordinary hg
  exact db_step (P := fun db => Kept k db m)
    (G := fun db op => db.FreshUids op ∧ ReadingsWithin (spanStart k) op)
    (fun h hg he => kept_effect hg.1 hg.2 he h) h (fun op hop => ⟨hf op hop, hr op hop⟩) hs

/-! ## The request -/

/-- What is sent to a channel that there is, is stored if the clock lets it. -/
theorem addMessage_stores {sender c : UUID} {content : Str} {readings : List Int} {now : UInt64}
    {ch : Channel} {res : Except Str Message} (hc : db.channels.lookup c = some ch)
    (h : (db.addMessage sender c content readings now).outcome = .returned res) :
    ∃ id generator, db.generator.nextId readings = (.returned id, generator)
      ∧ (db.addMessage sender c content readings now).db =
        { db with
          messages := db.messages.emplace (.ofBitVec id) (.new sender c content (.ofBitVec id) now)
          generator
          channels := db.channels.modify c (·.addMessage (.ofBitVec id)) } := by
  unfold Database.addMessage MessageTable.addMessage at h ⊢
  rw [hc] at h ⊢
  cases hid : db.generator.nextId readings with
  | mk outcome generator =>
      rw [hid] at h
      cases outcome with
      | returned id => exact ⟨id, generator, rfl, rfl⟩
      | raised e => cases h
      | waiting => cases h

/-- **A text that is handled is a message that is kept.** -/
theorem kept_of_sent [External] (hinv : LastingInv k s) {sender c : UUID} {text : Str}
    {draws : Draws} (hr : ∀ r ∈ draws.readings, spanStart k ≤ r ∧ r < spanStart k + idSpan)
    (hc : (s.db.channels.lookup c).isSome)
    (hreturns : (s.onSendMessage draws sender c text).outcome = .returned ()) :
    ∃ m, m.senderId = sender ∧ m.channelId = c ∧ m.text = text
      ∧ (∀ t, Issued (spanStart k) s.db.generator t → t < m.snowflake)
      ∧ s.db.messages.lookup m.snowflake = none
      ∧ (s.onSendMessage draws sender c text).server.db.messages.lookup m.snowflake = some m
      ∧ Kept k (s.onSendMessage draws sender c text).server.db m := by
  obtain ⟨ch, hch⟩ := Option.isSome_iff_exists.mp hc
  unfold Server.onSendMessage at hreturns ⊢
  rw [conclude_server]
  have hdone : ∃ res,
      (s.db.addMessage sender c text draws.readings draws.now).outcome = .returned res := by
    unfold Server.conclude at hreturns
    dsimp only at hreturns
    split at hreturns
    · rename_i res hres
      exact ⟨res, hres⟩
    · cases hreturns
    · cases hreturns
  obtain ⟨res, hres⟩ := hdone
  obtain ⟨id, generator, hid, hdb⟩ := addMessage_stores hch hres
  have hfree := nextId_fresh hinv.stamped hid hr
  have hnew := (Table.lookup_emplace hfree (.ofBitVec id)
    (.new sender c text (.ofBitVec id) draws.now)).trans (if_pos rfl)
  dsimp only
  rw [hdb]
  refine ⟨.new sender c text (.ofBitVec id) draws.now, rfl, rfl, rfl,
    fun t ht => issued_lt hid hr ht, hfree, hnew, (issued_nextId hid hr).1,
    Or.inr ⟨hnew, ch.addMessage (.ofBitVec id), ?_, ?_⟩⟩
  · show (s.db.channels.modify c _).lookup c = _
    rw [Table.lookup_modify, if_pos rfl, hch]
    rfl
  · exact List.mem_append_right _ (List.mem_singleton_self _)

/-! ## What is said -/

variable {a b : Application} {event : Application.Event} {d d₁ d' : Desktops} {conn : Nat}

/-- A text is sent by the click that sends it, from the input to the open chat. -/
theorem sent_of_react [Qt] {m : SendMessageMessage}
    (hreact : a.react event = some (.ok (b, some (.sendMessage m)))) :
    ChatArea.sendMessage a.session a.chatArea.messageInput = .ok (some m) := by
  cases event with
  | connected | disconnected | disconnect | registrationDisconnect | turnTab | turnSidebarTab
  | typeText | search => cases hreact
  | received r =>
      obtain ⟨c, -, heq⟩ := map_eq_ok (Option.some.inj hreact)
      cases heq
  | select item =>
      obtain ⟨channel, -, hopened⟩ := Option.map_eq_some_iff.mp hreact
      obtain ⟨c, -, heq⟩ := map_eq_ok hopened
      cases heq
  | submitLogin username password =>
      simp only [Application.react] at hreact
      split at hreact
      · cases hreact
      · split at hreact <;> cases hreact
  | submitRegistration username displayName password =>
      simp only [Application.react] at hreact
      split at hreact
      · cases hreact
      · split at hreact <;> cases hreact
  | deleteAccount username password =>
      simp only [Application.react] at hreact
      split at hreact <;> cases hreact
  | messageUser item =>
      simp only [Application.react] at hreact
      split at hreact
      · cases hreact
      · obtain ⟨account, -, hclick⟩ := Option.map_eq_some_iff.mp hreact
        split at hclick <;> cases hclick
  | send =>
      simp only [Application.react, Option.some.injEq] at hreact
      split at hreact
      · cases hreact
      · cases hreact
      · rename_i hsent
        cases hreact
        exact hsent
  | deleteMessage item =>
      simp only [Application.react] at hreact
      split at hreact
      · cases hreact
      · split at hreact <;> cases hreact

/-- What is said is said in the chat that is open. -/
theorem opened_of_wrote [Qt] {step : Desktops.Event} {m : SendMessageMessage}
    (h : .sendMessage m ∈ wrote conn d step) :
    ∃ a, (d.clients conn).state = .ok a ∧ a.session.openChannel = some m.channelUid := by
  cases step with
  | handle | deliver => cases h
  | click conn' event =>
      dsimp only [wrote] at h
      split at h
      · split at h
        · rename_i a hstate
          split at h
          · rename_i b sent hreact
            rw [Option.mem_toList.mp h] at hreact
            have hsent := sent_of_react hreact
            unfold ChatArea.sendMessage at hsent
            split at hsent
            · cases hsent
            · rename_i hopen
              split at hsent
              · cases hsent
              · split at hsent <;> cases hsent
                exact ⟨a, hstate, hopen⟩
          · cases h
        · cases h
      · cases h

/-! ## The channels that programs know of -/

/-- A request removes no channel. -/
theorem channels_stay [External] (hs : s.step call = some s') {c : UUID}
    (hc : (s.db.channels.lookup c).isSome) : (s'.db.channels.lookup c).isSome := by
  rcases step_cases hs with rfl | ⟨uid, user, -, rfl⟩ | ⟨op, hop, db', heffect, rfl⟩
  · exact hc
  · exact hc
  cases heffect with
  | nothing => exact hc
  | userAdded => exact hc
  | channelAdded =>
      obtain ⟨ch, hch⟩ := Option.isSome_iff_exists.mp hc
      dsimp only
      rw [Table.lookup_emplace_of_some hch]
      rfl
  | userJoined | messageAdded | messageRemoved =>
      dsimp only
      rw [Table.isSome_lookup_modify]
      exact hc
  | channelRemoved =>
      obtain ⟨conn, request, draws⟩ := call
      cases request with
      | deleteAccount username password =>
          obtain ⟨uid, -, huid⟩ := Option.map_eq_some_iff.mp hop
          cases huid
      | _ => cases hop
  | @userRemoved u user hu =>
      obtain ⟨ch, hch⟩ := Option.isSome_iff_exists.mp hc
      dsimp only
      by_cases hin : c ∈ user.channels
      · obtain ⟨ch', hch', -⟩ := leaveChannels_mem (u := u) hin hch
        rw [hch']
        rfl
      · rw [leaveChannels_other hin, hch]
        rfl

/-- What is announced of a user who leaves are deletions. -/
theorem deleted_of_removeUser {uid : UUID} {sig : Signal} (h : sig ∈ (db.removeUser uid).emitted) :
    ∃ v m, sig = .messageDeleted v m := by
  cases hu : db.users.lookup uid with
  | none =>
      rw [removeUser_none hu] at h
      exact absurd h List.not_mem_nil
  | some user =>
      rw [removeUser_some hu] at h
      obtain ⟨-, m, v, -, -, rfl⟩ := sender_of_leaveChannels h
      exact ⟨v, m, rfl⟩

/-- A channel that is announced is there. -/
theorem channel_of_written [External] (howned : HistoryOwned s.db) {conn : Nat} {ch : Channel}
    (h : (conn, Response.createChannel (.ok ch)) ∈ (s.receive call).written) :
    ((s.receive call).server.db.channels.lookup ch.uid).isSome := by
  obtain hquiet | ⟨user, hreplay, hdb⟩ | ⟨sig, heq, hemitted⟩ := emitted_of_written h
  · exact hquiet.elim
  · rw [hdb]
    obtain ⟨c, -, ch', hch, hkind | ⟨t, -, m, -, hkind⟩⟩ := Server.mem_replay hreplay
    · cases hkind
      rw [(howned c ch hch).1, hch]
      rfl
    · cases hkind
  · generalize (s.receive call).server.db = db' at hemitted ⊢
    cases hemitted with
    | @channelAdded uid channelName members _ hsig =>
        obtain ⟨v, -, -, rfl⟩ := mem_notify hsig
        cases heq
        -- if the uid was taken, the channel that has it stays
        show ((s.db.channels.emplace uid _).lookup uid).isSome
        cases hold : s.db.channels.lookup uid with
        | none =>
            rw [Table.lookup_emplace hold, if_pos rfl]
            rfl
        | some old =>
            rw [Table.lookup_emplace_of_some hold]
            rfl
    | messageAdded hsig =>
        obtain ⟨-, id, -, -, v, -, rfl⟩ := mem_addMessage_emitted hsig
        cases heq
    | @messageRemoved t _ hsig =>
        obtain ⟨e, hfailed⟩ | ⟨m, ch', -, -, hdone⟩ := removeMessage_cases s.db t
        · rw [hfailed] at hsig
          exact absurd hsig List.not_mem_nil
        · rw [hdone] at hsig
          obtain ⟨v, -, -, rfl⟩ := mem_notify hsig
          cases heq
    | userRemoved hsig =>
        obtain ⟨v, m, rfl⟩ := deleted_of_removeUser hsig
        cases heq

/-- Where the lists of a session come from. -/
theorem lists_of_turn {e e' : Desk} (hturn : Turn e event e') {c : UUID}
    (h : (e'.session.channelMessages.lookup c).isSome) :
    (e.session.channelMessages.lookup c).isSome
      ∨ ∃ ch, event = .received (.createChannel (.ok ch)) ∧ ch.uid = c := by
  cases hturn with
  | still | typed | loggedIn => exact Or.inl h
  | reset => cases h
  | opened hopening hshown =>
      cases hopening with
      | selected => exact Or.inl h
      | created hcreate =>
          -- a list begins when its channel is announced
          unfold Session.onCreateChannelResponse at hcreate
          split at hcreate
          · cases hcreate
          · cases hcreate
            dsimp only [Session.setActiveChannel, Session.addChannel] at h
            rw [Table.lookup_assign] at h
            split at h
            · rename_i heq
              exact Or.inr ⟨_, rfl, heq.symm⟩
            · exact Or.inl h
  | @added message session chatArea hadd hshown =>
      obtain ⟨-, -, hmessages⟩ := session_of_addMessage hadd
      dsimp only at h
      rw [hmessages] at h
      split at h
      · rw [Option.isSome_map] at h
        exact Or.inl h
      · exact Or.inl h
  | removed hremove =>
      obtain ⟨-, -, hmessages⟩ := session_of_removeMessage hremove
      dsimp only at h
      rw [hmessages] at h
      exact Or.inl h

/-- Every channel that a program knows of, or is about to, is one of the server's. -/
structure KnownInv (d : Desktops) : Prop where
  programs : ∀ conn a, (d.clients conn).state = .ok a →
    ∀ c, (a.session.channelMessages.lookup c).isSome → (d.server.db.channels.lookup c).isSome
  announced : ∀ conn ch, Response.createChannel (.ok ch) ∈ (d.clients conn).queue →
    (d.server.db.channels.lookup ch.uid).isSome
  addressed : ∀ conn m, .sendMessage m ∈ d.requests conn →
    (d.server.db.channels.lookup m.channelUid).isSome

theorem knownInv_init : KnownInv .new where
  programs conn a h := by
    cases h
    intro c hc
    cases hc
  announced conn ch h := absurd h List.not_mem_nil
  addressed conn m h := absurd h List.not_mem_nil

theorem knownInv_step [External] [Qt] {step : Desktops.Event} (hinv : LastingInv k d.server)
    (hviews : ViewsInv k d) (h : KnownInv d) (hg : Desktops.Calls (Ordinary k) d step)
    (hs : d.step step = some d') : KnownInv d' := by
  have hstay : ∀ c, (d.server.db.channels.lookup c).isSome →
      (d'.server.db.channels.lookup c).isSome := by
    intro c hc
    obtain heq | ⟨call, -, hserver⟩ := server_of_step hg hs
    · rw [heq]
      exact hc
    · exact channels_stay hserver hc
  refine ⟨fun conn b hb c hc => ?_, fun conn ch hch => ?_, fun conn m hm => ?_⟩
  · obtain ⟨a, ha, rfl | ⟨event, m, hreact, hcause⟩⟩ := program_of_step hs hb
    · exact hstay c (h.programs conn a ha c hc)
    · -- it knew the channel, or has just been told
      obtain hold | ⟨ch, rfl, rfl⟩ := lists_of_turn (turn_of_react hreact) hc
      · exact hstay c (h.programs conn a ha c hold)
      · obtain hclick | ⟨r, hr, heq⟩ := hcause
        · cases hclick
        · cases heq
          exact hstay _ (h.announced conn ch hr)
  · obtain hold | ⟨call, hserver, hwritten⟩ := queue_of_step hs hch
    · exact hstay _ (h.announced conn ch hold)
    · rw [← receive_of_step hserver]
      exact channel_of_written hinv.server.owned hwritten
  · obtain hrequests | ⟨draws, r, -, hrequests⟩ := requests_of_step conn hs
    · rw [hrequests] at hm
      rcases List.mem_append.mp hm with hold | hnew
      · exact hstay _ (h.addressed conn m hold)
      · obtain ⟨a, ha, hopen⟩ := opened_of_wrote hnew
        obtain ⟨ms, hms, -⟩ := (onScreen_reachable (hviews.programs conn a ha)).shown _ hopen
        refine hstay _ (h.programs conn a ha _ ?_)
        show ((desk a).session.channelMessages.lookup _).isSome
        rw [hms]
        rfl
    · refine hstay _ (h.addressed conn m ?_)
      rw [hrequests]
      exact List.mem_cons_of_mem r hm

theorem lasting_of_reachable [External] [Qt]
    (h : Desktops.system.Reachable (Desktops.Calls (Ordinary k)) d) : LastingInv k d.server := by
  obtain ⟨e, hfollowed, hsame, -⟩ := followed_behind h
  exact hsame ▸ hfollowed.store

theorem knownInv_reachable [External] [Qt]
    (h : Desktops.system.Reachable (Desktops.Calls (Ordinary k)) d) : KnownInv d :=
  h.invariant (P := KnownInv) knownInv_init
    fun _ _ _ hreach hknown hg hs =>
      knownInv_step (lasting_of_reachable hreach) (viewsInv_reachable hreach) hknown hg hs

/-! ## What is written is read -/

section

variable [Nlohmann]

/-- A request whose bytes are read as it was written, whatever the reader's new object draws. -/
def ReadBack (build : Build) (m : RequestMessage) : Prop :=
  ∃ p, m.payload build = some p ∧ p.length < 2 ^ 16
    ∧ ∀ drawn, RequestMessage.read build drawn m.operation p = some m

/-- The same of a response, but for what does not travel: users' channels and old snowflakes. -/
def ResponseReadBack (build : Build) (e : Endian) (r : Response) : Prop :=
  ∃ p, r.payload build e = some p ∧ p.length < 2 ^ 16
    ∧ ∀ drawn, Response.read build e drawn r.operation p = some (r.arrived build)

theorem readBack_of_fits {build : Build} (hlib : DumpsAndParses) {m : RequestMessage}
    (h : RequestFits build m) : ReadBack build m := by
  obtain ⟨p, hp⟩ : ∃ p, m.payload build = some p := by
    cases build with
    | custom => exact ⟨_, rfl⟩
    | json =>
        obtain ⟨text, htext, -⟩ := request_survives hlib (.ofByte 0) m h.prints
        exact ⟨text, (request_payload_json m).trans htext⟩
  exact ⟨p, hp, h.short p hp, fun drawn => read_request hlib drawn h.prints h.counted hp⟩

theorem responseReadBack_of_fits {build : Build} {e : Endian} (hlib : DumpsAndParses)
    {r : Response} (h : ResponseFits build e r) (hprints : r.prints = true) :
    ResponseReadBack build e r := by
  obtain ⟨p, hp⟩ : ∃ p, r.payload build e = some p := by
    cases build with
    | custom => exact ⟨_, rfl⟩
    | json =>
        obtain ⟨text, htext, -⟩ := response_survives hlib (.ofByte 0) r hprints
        exact ⟨text, (response_payload_json r).trans htext⟩
  exact ⟨p, hp, h.short p hp, fun drawn => read_response hlib drawn hprints h.counted hp⟩

/-! ## From the input to the screens -/

/-- An ordinary request that is handled to its end, and whose answers can be written. -/
def Served [External] (build : Build) (e : Endian) (k : Int) (s : Server) (call : Server.Call) :
    Prop :=
  Ordinary k s call ∧ (s.receive call).outcome = .returned ()
    ∧ ∀ p ∈ (s.receive call).written, ResponseFits build e p.2 ∧ p.2.prints = true

instance decidableServed [External] (build : Build) (e : Endian) (k : Int) (s : Server)
    (call : Server.Call) : Decidable (Served build e k s call) :=
  inferInstanceAs (Decidable (_ ∧ _ ∧ _))

/-- What is clicked can be written, too. -/
def Conversing [External] [Qt] (build : Build) (e : Endian) (k : Int) (d : Desktops)
    (step : Desktops.Event) : Prop :=
  Desktops.Calls (Served build e k) d step
    ∧ ∀ conn event, step = .click conn event → ∀ m ∈ wrote conn d step, RequestFits build m

instance decidableConversing [External] [Qt] (build : Build) (e : Endian) (k : Int) (d : Desktops)
    (step : Desktops.Event) : Decidable (Conversing build e k d step) :=
  match step with
  | .click conn event =>
      decidable_of_iff (Desktops.Calls (Served build e k) d (.click conn event)
          ∧ ∀ m ∈ wrote conn d (.click conn event), RequestFits build m)
        (and_congr_right fun _ => ⟨by rintro h _ _ ⟨⟩; exact h, fun h => h conn event rfl⟩)
  | .handle conn draws =>
      decidable_of_iff (Desktops.Calls (Served build e k) d (.handle conn draws))
        (iff_self_and.mpr fun _ => nofun)
  | .deliver conn =>
      decidable_of_iff (Desktops.Calls (Served build e k) d (.deliver conn))
        (iff_self_and.mpr fun _ => nofun)

end

section

variable [Nlohmann] [External] [Qt] {build : Build} {e : Endian}

theorem ordinary_of_conversing
    (h : Desktops.system.Reachable (Conversing build e k) d) :
    Desktops.system.Reachable (Desktops.Calls (Ordinary k)) d := by
  refine h.mono fun d event hg => ?_
  cases event with
  | click conn event => exact hg.1
  | handle conn draws => exact fun call hcall => (hg.1 call hcall).1
  | deliver conn => trivial

end

/-- A request to send a text. -/
def Service.isText (h : Service) : Bool :=
  match h.request with
  | .sendMessage _ => true
  | _ => false

/-- The message that a text becomes when it is handled. -/
structure StoredBy [External] (h : Service) (m : Message) : Prop where
  request : h.request = .sendMessage ⟨m.channelId, m.senderId, m.text⟩
  before : h.server.db.messages.lookup m.snowflake = none
  after : h.result.server.db.messages.lookup m.snowflake = some m

/-- What has been said at a connection and handled: messages, in the order in which it was said. -/
structure Conversation [External] [Qt] (k : Int) (conn : Nat)
    (past : List (Desktops × Desktops.Event)) (d : Desktops) (messages : List Message) :
    Prop where
  stored : List.Forall₂ StoredBy ((toldBy (services conn) past).filter Service.isText) messages
  ascend : messages.Pairwise fun m m' => m.snowflake < m'.snowflake
  kept : ∀ m ∈ messages, Kept k d.server.db m

section

variable [Nlohmann] [External] [Qt] {build : Build} {e : Endian}
  {past : List (Desktops × Desktops.Event)}

/-- **A text that is handled becomes the latest message; nothing else changes what there is.** -/
theorem conversation_step {step : Desktops.Event}
    (hreach : Desktops.system.Reachable (Conversing build e k) d)
    (h : ∃ messages, Conversation k conn past d messages)
    (hg : Conversing build e k d step) (hs : d.step step = some d') :
    ∃ messages, Conversation k conn (past ++ steps d step) d' messages := by
  obtain ⟨messages, h⟩ := h
  have hordinary := ordinary_of_conversing hreach
  have hinv := lasting_of_reachable hordinary
  have hkept : ∀ m ∈ messages, Kept k d'.server.db m := by
    intro m hm
    obtain heq | ⟨call, hcall, hserver⟩ := server_of_step hg.1 hs
    · rw [heq]
      exact h.kept m hm
    · exact kept_step hcall.1 hserver (h.kept m hm)
  have hstored := h.stored
  obtain hrequests | ⟨draws, r, rfl, hrequests⟩ := requests_of_step conn hs
  · refine ⟨messages, ?_, h.ascend, hkept⟩
    rwa [toldBy_step, services_of_wrote hs hrequests, List.append_nil]
  obtain ⟨hservice, hserver⟩ := services_of_handle hs hrequests
  have hpast : toldBy (services conn) (past ++ steps d (.handle conn draws))
      = toldBy (services conn) past ++ [⟨conn, d.server, r, draws⟩] := by
    rw [toldBy_step, hservice]
  have hold : Service.isText ⟨conn, d.server, r, draws⟩ = false →
      Conversation k conn (past ++ steps d (.handle conn draws)) d' messages := by
    intro hnot
    refine ⟨?_, h.ascend, hkept⟩
    rwa [hpast, List.filter_append, List.filter_cons_of_neg (by rw [hnot]; exact nofun),
      List.filter_nil, List.append_nil]
  cases r with
  | sendMessage text =>
      -- the text is stored under a snowflake above all that have been issued
      obtain ⟨hasked, hreturns, -⟩ := hg.1 ⟨conn, _, draws⟩ (by
        unfold Desktops.call
        rw [hrequests]
        rfl)
      have hchannel := (knownInv_reachable hordinary).addressed conn text (by
        rw [hrequests]
        exact List.mem_cons_self)
      obtain ⟨m, hsender, hchan, htext, habove, hfree, hlookup, hnew⟩ :=
        kept_of_sent hinv hasked hchannel hreturns
      have hserver' : d'.server = (d.server.onSendMessage draws text.senderUid text.channelUid
          text.text).server := hserver
      refine ⟨messages ++ [m], ?_, ?_, fun m' hm' => ?_⟩
      · rw [hpast, List.filter_append]
        refine List.rel_append hstored (.cons ⟨?_, hfree, hlookup⟩ .nil)
        rw [hsender, hchan, htext]
      · refine List.pairwise_append.mpr
          ⟨h.ascend, List.pairwise_singleton _ _, fun m₀ hm₀ m' hm' => ?_⟩
        rw [List.mem_singleton.mp hm']
        exact habove _ (h.kept m₀ hm₀).issued
      · rcases List.mem_append.mp hm' with hm' | hm'
        · exact hkept m' hm'
        · rw [List.mem_singleton.mp hm', hserver']
          exact hnew
  | _ => exact ⟨messages, hold rfl⟩

/-- **What is said is handled in order**, or waits. -/
theorem conversation_recorded
    (h : Desktops.system.Records (Conversing build e k) steps past d) :
    ∃ messages, Conversation k conn past d messages := by
  refine h.invariant (P := fun past d => ∃ messages, Conversation k conn past d messages) ?_
    fun _ _ _ _ hreach hold hg hs => conversation_step hreach hold hg hs
  exact ⟨[], .nil, .nil, fun m hm => absurd hm List.not_mem_nil⟩

/-- A request that has been handled is read as it was clicked. -/
theorem readBack_of_service (hlib : DumpsAndParses)
    (h : Desktops.system.Records (Conversing build e k) steps past d) {service : Service}
    (hservice : service ∈ toldBy (services conn) past) : ReadBack build service.request := by
  have hwritten : service.request ∈ toldBy (wrote conn) past := by
    rw [written_handled conn h]
    exact List.mem_append_left _ (List.mem_map_of_mem hservice)
  obtain ⟨d₀, step, hp, hwrote⟩ := mem_toldBy hwritten
  obtain ⟨⟨-, hfits⟩, -⟩ := h.taken hp
  cases step with
  | click conn' event =>
      -- what is written there is written by a click there
      obtain rfl : conn' = conn := by
        by_contra hne
        rw [wrote, if_neg hne] at hwrote
        exact absurd hwrote List.not_mem_nil
      exact readBack_of_fits hlib (hfits conn' event rfl _ hwrote)
  | handle | deliver => cases hwrote

/-- And so is what the server writes. -/
theorem responseReadBack_of_service (hlib : DumpsAndParses)
    (h : Desktops.system.Records (Conversing build e k) steps past d) {service : Service}
    (hservice : service ∈ toldBy (services conn) past) {p : Nat × Response}
    (hp : p ∈ service.result.written) : ResponseReadBack build e p.2 := by
  obtain ⟨d₀, step, hin, htold⟩ := mem_toldBy hservice
  obtain ⟨⟨hcalls, -⟩, -⟩ := h.taken hin
  cases step with
  | click | deliver => cases htold
  | handle conn' draws =>
      rw [services] at htold
      split at htold
      · rename_i hconn
        subst hconn
        obtain ⟨request, hrequest, rfl⟩ := List.mem_map.mp htold
        obtain ⟨-, -, hall⟩ := hcalls ⟨conn', request.request, draws⟩ (by
          unfold Desktops.call
          rw [Option.mem_toList.mp hrequest]
          rfl)
        obtain ⟨hfits, hprints⟩ := hall p hp
        exact responseReadBack_of_fits hlib hfits hprints
      · exact absurd htold List.not_mem_nil

end

/-- The messages on the screen, in order. -/
def visible (a : Application) : List Message := a.chatArea.messageLayout.map MessageWidget.message

/-- Two lists that ascend, one among the other. -/
theorem sublist_of_ascending {ms ns : List Message} (hsub : ∀ m ∈ ms, m ∈ ns)
    (hms : ms.Pairwise fun m m' => m.snowflake < m'.snowflake)
    (hns : ns.Pairwise fun m m' => m.snowflake < m'.snowflake) : List.Sublist ms ns := by
  have : Std.Antisymm fun m m' : Message => m.snowflake < m'.snowflake :=
    ⟨fun m m' h h' => absurd h' (UInt64.lt_asymm h)⟩
  refine List.sublist_of_subperm_of_pairwise (List.subperm_of_subset ?_ hsub) hms hns
  refine hms.imp fun {m m'} h heq => ?_
  rw [heq] at h
  exact UInt64.lt_irrefl _ h

/-- A message that is kept is on the screen of those who have its channel open, or gone. -/
theorem visible_of_kept {ch : Channel} {ms : List Message} {m : Message} (hkept : Kept k db m)
    (hch : db.channels.lookup m.channelId = some ch) (hbetween : Between k db a ch ms)
    (hgenuine : ∀ m ∈ ms, Genuine k db m) : m ∈ visible a ∨ Gone db m.snowflake := by
  obtain hgone | ⟨hm, ch', hch', hlisted⟩ := hkept.listed
  · exact Or.inr hgone
  obtain rfl : ch = ch' := Option.some.inj (hch.symm.trans hch')
  obtain ⟨m₁, hm₁, hsame₁⟩ := List.mem_map.mp (hbetween.listed.subset hlisted)
  obtain hscreen | hdeparted := hbetween.accounted m₁ hm₁
  · obtain ⟨w, hw, hsame⟩ := List.mem_map.mp hscreen
    -- the widget is of the message that is stored
    have hin : w.message ∈ visible a := List.mem_map_of_mem hw
    have heq := (hgenuine _ (hbetween.shown.subset hin)).same m (by rw [hsame, hsame₁]; exact hm)
    exact Or.inl (heq ▸ hin)
  · exact Or.inr (hsame₁ ▸ hdeparted.2)

section

variable [Nlohmann] [External] [Qt] {build : Build} {e : Endian}
  {past : List (Desktops × Desktops.Event)}

/--
**What is said is seen**, as long as what is written can be read and the server's handlers
come back. Whatever everyone clicks: what a program has written is what has been handled, in
order, and then what waits, and all of it is read as it was written. The texts among what has
been handled are messages, one for each, stored when it was handled and not before. Such a
message is on the screen of everyone who has its channel open and is a member, once nothing
is on the way there, or it is gone: deleted, or its sender is. And those that are on a screen
are there in the order they were sent in.
-/
theorem what_is_said_is_seen (hlib : DumpsAndParses)
    (h : Desktops.system.Records (Conversing build e k) steps past d) :
    toldBy (wrote conn) past
        = (toldBy (services conn) past).map Service.request ++ d.requests conn
      ∧ (∀ c, ∀ service ∈ toldBy (services c) past, ReadBack build service.request
        ∧ ∀ p ∈ service.result.written, ResponseReadBack build e p.2)
      ∧ ∃ messages,
        List.Forall₂ StoredBy ((toldBy (services conn) past).filter Service.isText) messages
        ∧ messages.Pairwise (fun m m' => m.snowflake < m'.snowflake)
        ∧ ∀ reader u user a c, d.server.authenticatedUser reader = some u →
            d.server.db.users.lookup u = some user → (d.clients reader).queue = [] →
            (d.clients reader).state = .ok a → a.session.openChannel = some c →
            c ∈ user.channels →
            (∀ m ∈ messages, m.channelId = c → m ∈ visible a ∨ Gone d.server.db m.snowflake)
              ∧ List.Sublist (messages.filter (· ∈ visible a)) (visible a) := by
  refine ⟨written_handled conn h, fun c service hservice => ⟨readBack_of_service hlib h hservice,
    fun p hp => responseReadBack_of_service hlib h hservice hp⟩, ?_⟩
  obtain ⟨messages, hconv⟩ : ∃ messages, Conversation k conn past d messages :=
    conversation_recorded h
  refine ⟨messages, hconv.stored, hconv.ascend, ?_⟩
  intro reader u user a c hauth hu hqueue hstate hopen hc
  obtain ⟨ch, ms, hch, hbetween, hgenuine⟩ :=
    between_of_quiet (ordinary_of_conversing h.reachable) hauth hu hqueue hstate hopen hc
  refine ⟨fun m hm hchan => ?_, ?_⟩
  · exact visible_of_kept (hconv.kept m hm) (hchan ▸ hch) hbetween fun m hm => (hgenuine m hm).2
  · refine sublist_of_ascending (fun m hm => ?_) (hconv.ascend.sublist List.filter_sublist) ?_
    · simpa using (List.mem_filter.mp hm).2
    · exact (List.pairwise_map.mp hbetween.ascend).sublist hbetween.shown

end

theorem chatting_converses :
    ((@Desktops.system .sample utf8Qt).exec (@Conversing plainJson .sample utf8Qt .custom .little 0)
      Desktops.new chatting).isSome := by
  decide +kernel

/-- Where Alice and Bob are, with every handler having come back. -/
def chattingServed : Desktops :=
  ((@Desktops.system .sample utf8Qt).exec (@Conversing plainJson .sample utf8Qt .custom .little 0)
    Desktops.new chatting).get chatting_converses

/-- Alice has said two things, and sees them, but for what she has taken back. -/
theorem what_is_said_is_seen_chatting :
    ∃ a, ∃ messages : List Message, (chattingServed.clients 0).state = .ok a
      ∧ messages.map Message.text = [lit "hi", lit "you"]
      ∧ ∀ m ∈ messages, m ∈ visible a ∨ Gone chattingServed.server.db m.snowflake := by
  have htold : ((toldBy (services 0) ((@Desktops.system .sample utf8Qt).record steps
      (@Desktops.system .sample utf8Qt).init chatting)).filter Service.isText).map Service.request
        = [.sendMessage ⟨.ofByte 7, .ofByte 1, lit "hi"⟩,
          .sendMessage ⟨.ofByte 7, .ofByte 1, lit "you"⟩] := by
    decide +kernel
  have hauth : chattingServed.server.authenticatedUser 0 = some (.ofByte 1) := by decide +kernel
  have hqueue : (chattingServed.clients 0).queue.isEmpty := by decide +kernel
  have hlisted : (chattingServed.server.db.users.lookup (.ofByte 1)).map (·.channels)
      = some [.ofByte 7] := by decide +kernel
  have hscreen : (chattingServed.clients 0).state.toOption.map (·.session.openChannel)
      = some (some (.ofByte 7)) := by decide +kernel
  obtain ⟨user, hu, hchannels⟩ := Option.map_eq_some_iff.mp hlisted
  obtain ⟨-, -, messages, hstored, -, hseen⟩ :=
    @what_is_said_is_seen 0 chattingServed 0 plainJson .sample utf8Qt .custom .little _
      plainJson_dumpsAndParses (System.Records.exec_get chatting_converses)
  obtain ⟨hi, rest, hsplit, hhi, hrest⟩ := List.map_eq_cons_iff.mp htold
  obtain ⟨you, rest, rfl, hyou, hrest⟩ := List.map_eq_cons_iff.mp hrest
  obtain rfl := List.map_eq_nil_iff.mp hrest
  rw [hsplit] at hstored
  obtain ⟨m, ms, ⟨hm, -, -⟩, hmore, rfl⟩ := List.forall₂_cons_left_iff.mp hstored
  obtain ⟨m', ms, ⟨hm', -, -⟩, hnone, rfl⟩ := List.forall₂_cons_left_iff.mp hmore
  obtain rfl := List.forall₂_nil_left_iff.mp hnone
  have hmessage := RequestMessage.sendMessage.inj (hm.symm.trans hhi)
  have hmessage' := RequestMessage.sendMessage.inj (hm'.symm.trans hyou)
  cases hstate : (chattingServed.clients 0).state with
  | error fault =>
      rw [hstate] at hscreen
      cases hscreen
  | ok a =>
      rw [hstate] at hscreen
      obtain ⟨hall, -⟩ := hseen 0 _ user a (.ofByte 7) hauth hu
        (List.isEmpty_iff.mp hqueue) hstate (Option.some.inj hscreen)
        (by rw [hchannels]; exact .head _)
      refine ⟨a, _, rfl, ?_, fun m₀ hm₀ => hall m₀ hm₀ ?_⟩
      · have htext : m.text = lit "hi" := congrArg SendMessageMessage.text hmessage
        have htext' : m'.text = lit "you" := congrArg SendMessageMessage.text hmessage'
        rw [List.map_cons, List.map_singleton, htext, htext']
      · rcases List.mem_cons.mp hm₀ with rfl | hm₀
        · exact congrArg SendMessageMessage.channelUid hmessage
        · rw [List.mem_singleton.mp hm₀]
          exact congrArg SendMessageMessage.channelUid hmessage'

end SockEtOut.Proof
