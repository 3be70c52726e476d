import Mathlib.Logic.Relation
import SockEtOut.Proof.Histories
import SockEtOut.Proof.MessageLife
import SockEtOut.Proof.Serving
import SockEtOut.Proof.UsernameRace

/-!
# A handler that nobody interrupts

`Server.receive` runs a request to completion, and `Threads` runs it in steps. The
two agree where they can be compared: a thread that starts a handler and then moves
alone comes back, and leaves the server and the frames that `receive` says. Its own
frames are written, and those for other connections are queued.
-/

namespace SockEtOut.Proof

open Lib System Threads

/-- A thread goes on with its handler, and no other thread moves. -/
def Alone (i : Nat) (draws : Draws) : State → State → Prop :=
  Relation.ReflTransGen fun s s' => advance s i draws.readings draws.now (s.pc i) = some s'

/-- What a stretch of a thread's work does: the server it leaves and the frames it causes. -/
structure Worked (s s' : State) (i : Nat) (server : Server) (frames : List (Nat × Response)) :
    Prop where
  server : s'.server = server
  others : ∀ j, j ≠ i → s'.pc j = s.pc j
  written : ∀ conn, s'.written conn
    = s.written conn ++ if conn = i then framesFor conn frames else []
  queued : ∀ conn, s'.queued conn
    = s.queued conn ++ if conn = i then [] else framesFor conn frames

theorem Worked.trans {s s₁ s₂ : State} {i : Nat} {server₁ server₂ : Server}
    {frames₁ frames₂ : List (Nat × Response)} (h₁ : Worked s s₁ i server₁ frames₁)
    (h₂ : Worked s₁ s₂ i server₂ frames₂) : Worked s s₂ i server₂ (frames₁ ++ frames₂) where
  server := h₂.server
  others := fun j hj => (h₂.others j hj).trans (h₁.others j hj)
  written := by
    intro conn
    rw [h₂.written, h₁.written, framesFor_append]
    split <;> simp
  queued := by
    intro conn
    rw [h₂.queued, h₁.queued, framesFor_append]
    split <;> simp

/-- A step that causes no frames. -/
theorem worked_quiet {s s' : State} {i : Nat} {server : Server} (hserver : s'.server = server)
    (hothers : ∀ j, j ≠ i → s'.pc j = s.pc j) (hwritten : s'.written = s.written)
    (hqueued : s'.queued = s.queued) : Worked s s' i server [] where
  server := hserver
  others := hothers
  written := by
    intro conn
    rw [hwritten]
    split <;> simp [framesFor]
  queued := by
    intro conn
    rw [hqueued]
    split <;> simp [framesFor]

theorem worked_setPc (s : State) (i : Nat) (pc : Pc) : Worked s (s.setPc i pc) i s.server [] :=
  worked_quiet rfl (others_setPc s i pc) rfl rfl

theorem worked_setDb (s : State) (i : Nat) (db : Database) (pc : Pc) :
    Worked s ((s.setDb db).setPc i pc) i { s.server with db } [] :=
  worked_quiet rfl (others_setPc _ i pc) rfl rfl

/-- A step that writes to the thread's own connection. -/
theorem worked_writes {s s' : State} {i : Nat} (rs : List Response)
    (hserver : s'.server = s.server) (hothers : ∀ j, j ≠ i → s'.pc j = s.pc j)
    (hwritten : s'.written = (s.write i rs).written) (hqueued : s'.queued = s.queued) :
    Worked s s' i s.server (rs.map fun r => (i, r)) where
  server := hserver
  others := hothers
  written := by
    intro conn
    rw [framesFor_own, hwritten]
    show Function.update s.written i _ conn = _
    by_cases hconn : conn = i
    · subst hconn
      rw [Function.update_self, if_pos rfl, if_pos rfl]
    · rw [Function.update_of_ne hconn, if_neg hconn, List.append_nil]
  queued := by
    intro conn
    rw [framesFor_own, hqueued]
    split <;> simp

theorem worked_write (s : State) (i : Nat) (rs : List Response) (pc : Pc) :
    Worked s ((s.write i rs).setPc i pc) i s.server (rs.map fun r => (i, r)) :=
  worked_writes rs rfl (others_setPc _ i pc) rfl rfl

theorem worked_signal (s : State) (i : Nat) (u : UUID) (signal : UUID → Signal) (pc : Pc) :
    Worked s ((s.signal i u signal).setPc i pc) i s.server
      ((s.server.db.notify [u] signal).flatMap s.server.deliver) := by
  unfold State.signal Database.notify
  cases hu : s.server.db.users.lookup u with
  | none => simpa [hu] using worked_setPc s i pc
  | some user =>
      have hone : ([u].filter fun uid => (s.server.db.users.lookup uid).isSome) = [u] := by
        simp [hu]
      rw [hone]
      refine
        { server := rfl
          others := others_setPc _ i pc
          written := fun conn => ?_
          queued := fun conn => ?_ }
      · show Function.update s.written i _ conn = _
        by_cases hconn : conn = i
        · subst hconn
          rw [Function.update_self, if_pos rfl]
          simp
        · rw [Function.update_of_ne hconn, if_neg hconn, List.append_nil]
      · show (if conn = i then s.queued conn else _) = _
        split <;> simp

/-! ## Loops -/

/-- A loop that signals one user after another, whatever its program counter is called. -/
theorem signals_alone {i : Nat} {draws : Draws} {pcs : List UUID → Pc} {signal : UUID → Signal}
    (hstep : ∀ (s : State) u us, advance s i draws.readings draws.now (pcs (u :: us))
      = some ((s.signal i u signal).setPc i (pcs us))) (us : List UUID) :
    ∀ s : State, s.pc i = pcs us → ∃ s', Alone i draws s s' ∧ s'.pc i = pcs []
      ∧ Worked s s' i s.server ((s.server.db.notify us signal).flatMap s.server.deliver) := by
  induction us with
  | nil =>
      intro s hpc
      exact ⟨s, .refl, hpc, worked_quiet rfl (fun j hj => rfl) rfl rfl⟩
  | cons u us ih =>
      intro s hpc
      have hfirst := worked_signal s i u signal (pcs us)
      obtain ⟨s', halone, hpc', hworked⟩ := ih _ (self_setPc (s.signal i u signal) i (pcs us))
      refine ⟨s', .head (by rw [hpc]; exact hstep s u us) halone, hpc', ?_⟩
      have hboth := hfirst.trans hworked
      rw [hfirst.server] at hboth
      have hnotify : s.server.db.notify (u :: us) signal
          = s.server.db.notify [u] signal ++ s.server.db.notify us signal := by
        unfold Database.notify
        rw [← List.map_append, ← List.filter_append]
        rfl
      rw [hnotify, List.flatMap_append]
      exact hboth

/-- The loop over a history writes the messages that are still stored. -/
theorem history_alone {i : Nat} {draws : Draws} {c : UUID} {b : Nat} {cs : List UUID}
    (ts : List UInt64) : ∀ s : State, s.block c = b → s.pc i = .replayingHistory c b ts cs →
      ∃ s', Alone i draws s s'
      ∧ s'.pc i = .replaying cs
      ∧ Worked s s' i s.server ((ts.filterMap fun t =>
          (s.server.db.messages.lookup t).map fun m => .sendMessage (.ok m)).map
            fun r => (i, r)) := by
  induction ts with
  | nil =>
      intro s hblock hpc
      refine ⟨s.setPc i (.replaying cs), .single ?_, self_setPc s i _, worked_setPc s i _⟩
      rw [hpc]
      exact if_neg (not_not_intro hblock)
  | cons t ts ih =>
      intro s hblock hpc
      cases hm : s.server.db.messages.lookup t with
      | none =>
          obtain ⟨s', halone, hpc', hworked⟩ :=
            ih (s.setPc i (.replayingHistory c b ts cs)) hblock (self_setPc s i _)
          refine ⟨s', .head ?_ halone, hpc', ?_⟩
          · rw [hpc]
            unfold advance
            dsimp only
            rw [if_neg (not_not_intro hblock), hm]
          · rw [List.filterMap_cons, hm]
            exact (worked_setPc s i _).trans hworked
      | some m =>
          obtain ⟨s', halone, hpc', hworked⟩ :=
            ih ((s.write i [.sendMessage (.ok m)]).setPc i (.replayingHistory c b ts cs)) hblock
              (self_setPc (s.write i [.sendMessage (.ok m)]) i _)
          refine ⟨s', .head ?_ halone, hpc', ?_⟩
          · rw [hpc]
            unfold advance
            dsimp only
            rw [if_neg (not_not_intro hblock), hm]
          · rw [List.filterMap_cons, hm]
            exact (worked_write s i [.sendMessage (.ok m)] _).trans hworked

/-- One pass of the loop over channels. -/
theorem channel_alone {i : Nat} {draws : Draws} {c : UUID} {cs : List UUID} {s : State}
    (hpc : s.pc i = .replaying (c :: cs)) : ∃ s', Alone i draws s s' ∧ s'.pc i = .replaying cs
      ∧ Worked s s' i s.server ((Server.replayChannel s.server.db c).map fun r => (i, r)) := by
  unfold Server.replayChannel
  cases hc : s.server.db.channels.lookup c with
  | none =>
      refine ⟨s.setPc i (.replaying cs), .single ?_, self_setPc s i _, worked_setPc s i _⟩
      rw [hpc]
      unfold advance
      dsimp only
      rw [hc]
  | some ch =>
      -- the channel is written, the range of the loop over its history is fixed, and it runs
      have hwrite := worked_write s i [.createChannel (.ok ch)] (.openingHistory c cs)
      have hfirst : advance s i draws.readings draws.now (s.pc i)
          = some ((s.write i [.createChannel (.ok ch)]).setPc i (.openingHistory c cs)) := by
        rw [hpc]
        unfold advance
        dsimp only
        rw [hc]
      have hpc₁ := self_setPc (s.write i [.createChannel (.ok ch)]) i (.openingHistory c cs)
      generalize (s.write i [.createChannel (.ok ch)]).setPc i (.openingHistory c cs) = s₁
        at hwrite hfirst hpc₁
      have hsecond : advance s₁ i draws.readings draws.now (s₁.pc i)
          = some (s₁.setPc i (.replayingHistory c (s₁.block c) ch.messageSnowflakes cs)) := by
        rw [hpc₁]
        unfold advance history
        dsimp only
        rw [hwrite.server, hc]
        rfl
      obtain ⟨s', halone, hpc', hhistory⟩ := @history_alone i draws c (s₁.block c) cs
        ch.messageSnowflakes (s₁.setPc i (.replayingHistory c _ ch.messageSnowflakes cs)) rfl
        (self_setPc s₁ i _)
      refine ⟨s', .head hfirst (.head hsecond halone), hpc', ?_⟩
      have hworked := hwrite.trans ((worked_setPc s₁ i _).trans hhistory)
      have hserver : (s₁.setPc i (.replayingHistory c (s₁.block c)
          ch.messageSnowflakes cs)).server = s.server := hwrite.server
      rw [hserver] at hworked
      exact hworked

/-- The loop over a user's channels writes the replay. -/
theorem replay_alone {i : Nat} {draws : Draws} (cs : List UUID) :
    ∀ s : State, s.pc i = .replaying cs → ∃ s', Alone i draws s s' ∧ s'.pc i = .idle
      ∧ Worked s s' i s.server
        ((cs.flatMap (Server.replayChannel s.server.db)).map fun r => (i, r)) := by
  induction cs with
  | nil =>
      intro s hpc
      refine ⟨s.setPc i .idle, .single ?_, self_setPc s i _, worked_setPc s i _⟩
      rw [hpc]
      rfl
  | cons c cs ih =>
      intro s hpc
      obtain ⟨s₁, halone₁, hpc₁, hfirst⟩ := @channel_alone i draws c cs s hpc
      obtain ⟨s', halone, hpc', hrest⟩ := ih s₁ hpc₁
      refine ⟨s', halone₁.trans halone, hpc', ?_⟩
      have hworked := hfirst.trans hrest
      rw [hfirst.server] at hworked
      rw [List.flatMap_cons, List.map_append]
      exact hworked

/-! ## Handlers -/

/-- The announcement loops, and the return after the first. -/
theorem announcing_alone {i : Nat} {draws : Draws} {m : Message} {us : List UUID} {s : State}
    (hpc : s.pc i = .announcing m us) : ∃ s', Alone i draws s s' ∧ s'.pc i = .idle
      ∧ Worked s s' i s.server
        ((s.server.db.notify us (.messageReceived · m)).flatMap s.server.deliver) := by
  obtain ⟨s₁, halone, hpc₁, hworked⟩ := @signals_alone i draws (.announcing m)
    (.messageReceived · m) (fun s u us => rfl) us s hpc
  refine ⟨s₁.setPc i .idle, halone.tail (by rw [hpc₁]; rfl), self_setPc s₁ i _, ?_⟩
  have hboth := hworked.trans (worked_setPc s₁ i .idle)
  rwa [hworked.server, List.append_nil] at hboth

/-- The rest of `Database::add_message` once the message is stored. -/
theorem listing_alone {s : State} {i : Nat} {draws : Draws} {m : Message}
    (hpc : s.pc i = .listing m) : ∃ s', Alone i draws s s' ∧ s'.pc i = .idle
      ∧ Worked s s' i
        { s.server with
          db := { s.server.db with
            channels := s.server.db.channels.modify m.channelId (·.addMessage m.snowflake) } }
        ((s.server.db.notify (members s.server.db m.channelId)
          (.messageReceived · m)).flatMap s.server.deliver) := by
  have hlisted := worked_setDb s i { s.server.db with
    channels := s.server.db.channels.modify m.channelId (·.addMessage m.snowflake) }
    (.announcing m (members s.server.db m.channelId))
  obtain ⟨s', halone, hpc', hworked⟩ := @announcing_alone i draws m _ _ (self_setPc _ i _)
  exact ⟨s', .head (by rw [hpc]; rfl) halone, hpc', hlisted.trans hworked⟩

/-- `Database::add_message` from where it has found the channel. -/
theorem storing_alone {s : State} {i : Nat} {draws : Draws} {senderUid channelUid : UUID}
    {content : Str} (hpc : s.pc i = .storing senderUid channelUid content) {ch : Channel}
    (hc : s.server.db.channels.lookup channelUid = some ch)
    (hret : (s.server.db.addMessage senderUid channelUid content draws.readings
      draws.now).outcome ≠ .waiting) :
    ∃ s', Alone i draws s s' ∧ s'.pc i = .idle
      ∧ Worked s s' i
        { s.server with
          db := (s.server.db.addMessage senderUid channelUid content draws.readings draws.now).db }
        ((s.server.db.addMessage senderUid channelUid content draws.readings
          draws.now).emitted.flatMap s.server.deliver) := by
  unfold Database.addMessage MessageTable.addMessage at hret ⊢
  rw [hc] at hret ⊢
  dsimp only at hret ⊢
  cases hid : s.server.db.generator.nextId draws.readings with
  | mk outcome generator =>
      rw [hid] at hret
      cases outcome with
      | waiting => exact absurd rfl hret
      | raised e =>
          refine ⟨(s.setDb { s.server.db with generator }).setPc i .idle, .single ?_,
            self_setPc _ i _, worked_setDb s i _ _⟩
          rw [hpc]
          unfold advance MessageTable.addMessage
          dsimp only
          rw [hid]
      | returned id =>
          obtain ⟨s', halone, hpc', hworked⟩ := @listing_alone ((s.setDb { s.server.db with
            messages := s.server.db.messages.emplace (.ofBitVec id)
              (.new senderUid channelUid content (.ofBitVec id) draws.now)
            generator }).setPc i _) i draws _ (self_setPc _ i _)
          refine ⟨s', .head ?_ halone, hpc', ?_⟩
          · rw [hpc]
            unfold advance MessageTable.addMessage
            dsimp only
            rw [hid]
            rfl
          · have hboth := (worked_setDb s i _ _).trans hworked
            have hmembers : members s.server.db channelUid = ch.userUids := members_of_lookup hc
            rw [← hmembers]
            exact hboth

/-- A handler that replies nothing writes what its call has notified. -/
theorem conclude_written {α : Type} (s : Server) (ret : Ret α) :
    (s.conclude ret fun _ => []).written = ret.emitted.flatMap s.deliver := by
  unfold Server.conclude
  dsimp only
  split
  · exact List.append_nil _
  · rfl
  · rfl

theorem conclude_waiting {α : Type} {s : Server} {ret : Ret α}
    {reply : Except Str α → List (Nat × Response)}
    (h : (s.conclude ret reply).outcome ≠ .waiting) : ret.outcome ≠ .waiting := by
  intro hwaiting
  refine h ?_
  unfold Server.conclude
  rw [hwaiting]

/-- A handler that ends where it starts. -/
theorem worked_nothing (s : State) (i : Nat) : Worked s s i s.server [] :=
  worked_quiet rfl (fun _ _ => rfl) rfl rfl

theorem sendMessage_alone [External] {s : State} {i : Nat} (hidle : s.pc i = .idle)
    {draws : Draws} {senderUid channelUid : UUID} {text : Str}
    (hret : (s.server.onSendMessage draws senderUid channelUid text).outcome ≠ .waiting) :
    ∃ s₁ s', pickUp s i (.sendMessage senderUid channelUid text) = some s₁
      ∧ Alone i draws s₁ s' ∧ s'.pc i = .idle
      ∧ Worked s s' i (s.server.onSendMessage draws senderUid channelUid text).server
        (s.server.onSendMessage draws senderUid channelUid text).written := by
  unfold Server.onSendMessage at hret ⊢
  have hreturns := conclude_waiting hret
  rw [conclude_server, conclude_written]
  cases hc : s.server.db.channels.lookup channelUid with
  | none =>
      refine ⟨s, s, ?_, .refl, hidle, ?_⟩
      · unfold pickUp
        dsimp only
        rw [hc]
      · unfold Database.addMessage
        rw [hc]
        exact worked_nothing s i
  | some ch =>
      obtain ⟨s', halone, hpc', hworked⟩ :=
        storing_alone (self_setPc s i (.storing senderUid channelUid text)) hc hreturns
      refine ⟨_, s', ?_, halone, hpc', (worked_setPc s i _).trans hworked⟩
      unfold pickUp
      dsimp only
      rw [hc]

/-- `Database::remove_message` from where it has found the channel. -/
theorem erasing_alone {s : State} {i : Nat} {draws : Draws} {m : Message}
    (hpc : s.pc i = .erasing m) : ∃ s', Alone i draws s s' ∧ s'.pc i = .idle
      ∧ Worked s s' i
        { s.server with
          db := { s.server.db with
            messages := s.server.db.messages.erase m.snowflake
            channels := s.server.db.channels.modify m.channelId
              (·.removeMessage m.snowflake) } }
        ((s.server.db.notify (members s.server.db m.channelId)
          (.messageDeleted · m)).flatMap s.server.deliver) := by
  have herased := worked_setDb s i
    { s.server.db with messages := s.server.db.messages.erase m.snowflake }
    (.announcingDeletion m (members s.server.db m.channelId))
  obtain ⟨s₁, halone, hpc₁, hsignalled⟩ := @signals_alone i draws (.announcingDeletion m)
    (.messageDeleted · m) (fun s u us => rfl) _ _ (self_setPc _ i _)
  -- the list comes last
  obtain ⟨s', hlast, hpc', hunlisted⟩ : ∃ s', advance s₁ i draws.readings draws.now (s₁.pc i)
      = some s' ∧ s'.pc i = .idle ∧ Worked s₁ s' i
        { s₁.server with
          db := { s₁.server.db with
            channels := s₁.server.db.channels.modify m.channelId
              (·.removeMessage m.snowflake) } } [] := by
    rw [hpc₁]
    exact ⟨_, rfl, self_setPc _ i .idle, worked_quiet rfl (others_setPc _ i .idle) rfl rfl⟩
  refine ⟨s', .head (by rw [hpc]; rfl) (halone.tail hlast), hpc', ?_⟩
  have hall := (herased.trans hsignalled).trans hunlisted
  rw [hsignalled.server, List.append_nil] at hall
  exact hall

theorem deleteMessage_alone [External] {s : State} (hkeyed : Keyed s.server.db) {i : Nat}
    (hidle : s.pc i = .idle) {draws : Draws} {t : UInt64} :
    ∃ s₁ s', pickUp s i (.deleteMessage t) = some s₁ ∧ Alone i draws s₁ s' ∧ s'.pc i = .idle
      ∧ Worked s s' i (s.server.onDeleteMessage t).server
        (s.server.onDeleteMessage t).written := by
  unfold Server.onDeleteMessage
  rw [conclude_server, conclude_written]
  unfold Database.removeMessage pickUp
  cases hm : s.server.db.messages.lookup t with
  | none => exact ⟨s, s, by dsimp only; rw [hm], .refl, hidle, worked_nothing s i⟩
  | some m =>
      have hkey : m.snowflake = t := hkeyed t m hm
      have hpc := self_setPc s i (.findingChannel m)
      have hfound := worked_setPc s i (.findingChannel m)
      refine ⟨s.setPc i (.findingChannel m), ?_⟩
      dsimp only
      rw [hm]
      cases hc : s.server.db.channels.lookup m.channelId with
      | none =>
          refine ⟨_, rfl, .single ?_, self_setPc _ i .idle, hfound.trans (worked_setPc _ i .idle)⟩
          rw [hpc]
          unfold advance
          dsimp only
          rw [hfound.server, hc]
      | some ch =>
          obtain ⟨s', halone, hpc', hworked⟩ :=
            @erasing_alone _ i draws m (self_setPc (s.setPc i (.findingChannel m)) i (.erasing m))
          refine ⟨s', rfl, .head ?_ halone, hpc', ?_⟩
          · rw [hpc]
            unfold advance
            dsimp only
            rw [hfound.server, hc]
          · have hmembers : members s.server.db m.channelId = ch.userUids := members_of_lookup hc
            have hall := (hfound.trans (worked_setPc _ i _)).trans hworked
            dsimp only
            rw [← hmembers, ← hkey]
            exact hall

/-- `on_login` from where it has checked the password. -/
theorem disconnecting_alone {s : State} {i : Nat} {draws : Draws} {user : User}
    (hpc : s.pc i = .disconnecting user) : ∃ s', Alone i draws s s' ∧ s'.pc i = .idle
      ∧ Worked s s' i (s.server.setAuthenticatedUser i user.uid)
        ((i, .login (.ok user)) :: (Server.replay s.server.db user).map fun r => (i, r)) := by
  obtain ⟨s₁, hfirst, hpc₁, hdisconnected⟩ : ∃ s₁, advance s i draws.readings draws.now (s.pc i)
      = some s₁ ∧ s₁.pc i = .connecting user
        ∧ Worked s s₁ i { s.server with slots := s.server.disconnected i } [] := by
    rw [hpc]
    exact ⟨_, rfl, self_setPc s i _, worked_quiet rfl (others_setPc s i _) rfl rfl⟩
  obtain ⟨s₂, hsecond, hpc₂, hconnected⟩ : ∃ s₂, advance s₁ i draws.readings draws.now (s₁.pc i)
      = some s₂ ∧ s₂.pc i = .greeting user
        ∧ Worked s₁ s₂ i
          { s₁.server with
            authenticatedUser :=
              Function.update s₁.server.authenticatedUser i (some user.uid)
            slots := s₁.server.slots ++ Server.slotsOf i user.uid } [] := by
    rw [hpc₁]
    exact ⟨_, rfl, self_setPc s₁ i _, worked_quiet rfl (others_setPc s₁ i _) rfl rfl⟩
  have hgreeted := worked_write s₂ i [.login (.ok user)] (.replaying user.channels)
  obtain ⟨s', halone, hpc', hreplayed⟩ := @replay_alone i draws user.channels _
    (self_setPc (s₂.write i [.login (.ok user)]) i (.replaying user.channels))
  refine ⟨s', .head hfirst (.head hsecond (.head ?_ halone)), hpc', ?_⟩
  · rw [hpc₂]
    rfl
  · have hall := ((hdisconnected.trans hconnected).trans hgreeted).trans hreplayed
    have hserver : ((s₂.write i [.login (.ok user)]).setPc i (.replaying user.channels)).server
        = s.server.setAuthenticatedUser i user.uid := by
      show s₂.server = _
      rw [hconnected.server, hdisconnected.server]
      rfl
    rw [hserver] at hall
    exact hall

theorem login_alone [External] {s : State} (hkeyed : UsersKeyed s.server.db) {i : Nat}
    (hidle : s.pc i = .idle) {draws : Draws} {username password : Str} :
    ∃ s', Alone i draws (login s i username password) s' ∧ s'.pc i = .idle
      ∧ Worked s s' i (s.server.onLogin i username password).server
        (s.server.onLogin i username password).written := by
  unfold login Server.onLogin
  have hrefused : ∀ r, Worked s (s.write i [r]) i s.server [(i, r)] := fun r =>
    worked_writes [r] rfl (fun _ _ => rfl) rfl rfl
  cases s.server.db.users.getUidFromUsername username with
  | none => exact ⟨s, .refl, hidle, worked_nothing s i⟩
  | some userUid =>
      dsimp only
      cases s.server.db.passwords.verifyPassword userUid password with
      | error error => exact ⟨_, .refl, hidle, hrefused _⟩
      | ok verified =>
          cases verified with
          | false => exact ⟨_, .refl, hidle, hrefused _⟩
          | true =>
              dsimp only
              cases hu : s.server.db.users.lookup userUid with
              | none => exact ⟨s, .refl, hidle, worked_nothing s i⟩
              | some user =>
                  have huid : user.uid = userUid := hkeyed userUid user hu
                  obtain ⟨s', halone, hpc', hworked⟩ :=
                    @disconnecting_alone _ i draws user (self_setPc s i (.disconnecting user))
                  refine ⟨s', halone, hpc', ?_⟩
                  rw [← huid]
                  exact (worked_setPc s i _).trans hworked

/-- How the handlers start that run in steps. -/
def startOf : Request → Option Act
  | .sendMessage senderUid channelUid text => some (.sendMessage senderUid channelUid text)
  | .deleteMessage messageSnowflake => some (.deleteMessage messageSnowflake)
  | .login username password => some (.login username password)
  | _ => none

/--
**A handler that nobody interrupts does what `receive` says.** A thread between two
handlers that starts one comes back, unless `receive` does not, and has then left the
server and caused the frames that `receive` leaves and causes.
-/
theorem receive_alone [External] {s : State} (hkeyed : Keyed s.server.db)
    (husers : UsersKeyed s.server.db) {call : Server.Call} {act : Act}
    (hact : startOf call.request = some act) (hidle : s.pc call.conn = .idle)
    (hret : (s.server.receive call).outcome ≠ .waiting) :
    ∃ s₁ s', Threads.step s (call.conn, act) = some s₁ ∧ Alone call.conn call.draws s₁ s'
      ∧ s'.pc call.conn = .idle
      ∧ Worked s s' call.conn (s.server.receive call).server (s.server.receive call).written := by
  obtain ⟨conn, request, draws⟩ := call
  have hstep : ∀ {act s₁}, (∀ readings now, act ≠ .advance readings now) →
      pickUp s conn act = some s₁ → Threads.step s (conn, act) = some s₁ := by
    intro act s₁ hne hpick
    cases act with
    | advance readings now => exact absurd rfl (hne readings now)
    | relocate => cases hpick
    | _ => exact (if_pos hidle).trans hpick
  cases request with
  | sendMessage senderUid channelUid text =>
      cases hact
      obtain ⟨s₁, s', hpick, hrest⟩ := sendMessage_alone hidle hret
      exact ⟨s₁, s', hstep (by simp) hpick, hrest⟩
  | deleteMessage t =>
      cases hact
      obtain ⟨s₁, s', hpick, hrest⟩ := deleteMessage_alone hkeyed hidle
      exact ⟨s₁, s', hstep (by simp) hpick, hrest⟩
  | login username password =>
      cases hact
      obtain ⟨s', hrest⟩ := login_alone husers hidle
      exact ⟨_, s', hstep (by simp) rfl, hrest⟩
  | registerAccount _ _ _ | listAccounts _ | deleteAccount _ _ | createChannel _ _ => cases hact

/-! ## Accounts -/

/-- Only one thread moves. -/
def OneThread (i : Nat) (_ : Registration.State) (a : Nat × Registration.Act) : Prop := a.1 = i

theorem self_pc_setPc (s : Registration.State) (i : Nat) (pc : Registration.Pc) :
    (s.setPc i pc).pc i = pc :=
  (pc_setPc s i i pc).trans (if_pos rfl)

/-- **So does a registration**, as far as users and passwords go. -/
theorem register_alone [External] {s : Registration.State} {server : Server}
    (husers : s.users = server.db.users) (hpasswords : s.passwords = server.db.passwords)
    {i : Nat} (hidle : s.pc i = .idle) (conn : Nat) (draws : Draws)
    (username password displayName : Str) :
    ∃ s₁ s', Registration.step s (i, .register username displayName password draws.uid) = some s₁
      ∧ (Registration.system.resume s₁).Reachable (OneThread i) s' ∧ s'.pc i = .idle
      ∧ s'.users
        = (server.onRegisterAccount conn draws username password displayName).server.db.users
      ∧ s'.passwords = (server.onRegisterAccount conn draws username password
        displayName).server.db.passwords := by
  unfold Server.onRegisterAccount Registration.step
  dsimp only
  rw [hidle, husers]
  dsimp only
  cases hname : server.db.users.getUidFromUsername username with
  | some uid => exact ⟨s, s, rfl, .init, hidle, husers, hpasswords⟩
  | none =>
      dsimp only
      rw [conclude_server]
      -- the username is free: the password is stored, and then the user
      have hpc := self_pc_setPc s i
        (.addingPassword (.new draws.uid username displayName) password)
      obtain ⟨s₂, hsecond, hpc₂, husers₂, hpasswords₂⟩ : ∃ s₂, Registration.step (s.setPc i
          (.addingPassword (.new draws.uid username displayName) password))
            (i, .addPassword draws.salt) = some s₂
          ∧ s₂.pc i = .addingUser (.new draws.uid username displayName)
          ∧ s₂.users = server.db.users
          ∧ s₂.passwords = (server.db.passwords.addPassword draws.uid password draws.salt).2 := by
        unfold Registration.step
        dsimp only
        rw [hpc]
        exact ⟨_, rfl, self_pc_setPc _ i _, husers, by rw [← hpasswords]; rfl⟩
      obtain ⟨s₃, hthird, hpc₃, husers₃, hpasswords₃⟩ : ∃ s₃,
          Registration.step s₂ (i, .addUser) = some s₃ ∧ s₃.pc i = .idle
          ∧ s₃.users = (server.db.users.addUser (.new draws.uid username displayName)).2
          ∧ s₃.passwords = s₂.passwords := by
        unfold Registration.step
        dsimp only
        rw [hpc₂]
        exact ⟨_, rfl, self_pc_setPc _ i _, by rw [← husers₂]; rfl, rfl⟩
      have hrun : (Registration.system.resume (s.setPc i (.addingPassword
          (.new draws.uid username displayName) password))).Reachable (OneThread i) s₂ :=
        .tail (a := (i, .addPassword draws.salt)) .init rfl hsecond
      exact ⟨_, s₃, rfl, .tail (a := (i, .addUser)) hrun rfl hthird, hpc₃, husers₃,
        hpasswords₃.trans hpasswords₂⟩

/-- `Database::remove_user`, as far as users and passwords go. -/
theorem fetching_alone [External] {s : Registration.State} {db : Database}
    (husers : s.users = db.users) (hpasswords : s.passwords = db.passwords) {i : Nat} {uid : UUID}
    (hpc : s.pc i = .fetching uid) :
    ∃ s', (Registration.system.resume s).Reachable (OneThread i) s' ∧ s'.pc i = .idle
      ∧ s'.users = (db.removeUser uid).db.users
      ∧ s'.passwords = (db.removeUser uid).db.passwords := by
  cases hu : db.users.lookup uid with
  | none =>
      have hget : Registration.step s (i, .getUser) = some (s.setPc i .idle) := by
        unfold Registration.step
        dsimp only
        rw [hpc]
        dsimp only
        rw [husers, hu]
      rw [removeUser_none hu]
      exact ⟨_, .tail (a := (i, .getUser)) .init rfl hget, self_pc_setPc s i .idle, husers,
        hpasswords⟩
  | some user =>
      have hget : Registration.step s (i, .getUser) = some (s.setPc i (.sweeping uid)) := by
        unfold Registration.step
        dsimp only
        rw [hpc]
        dsimp only
        rw [husers, hu]
      rw [removeUser_some hu]
      obtain ⟨s', hremove, hpc', husers', hpasswords'⟩ : ∃ s',
          Registration.step (s.setPc i (.sweeping uid)) (i, .removeUser) = some s'
            ∧ s'.pc i = .idle ∧ s'.users = (db.users.removeUser uid).2
            ∧ s'.passwords = db.passwords := by
        unfold Registration.step
        dsimp only
        rw [self_pc_setPc]
        exact ⟨_, rfl, self_pc_setPc _ i .idle, by rw [← husers]; rfl, hpasswords⟩
      refine ⟨s', .tail (a := (i, .removeUser)) (.tail (a := (i, .getUser)) .init rfl hget) rfl
        hremove, hpc', ?_, hpasswords'⟩
      rw [husers']
      unfold UserTable.removeUser
      rw [hu]

theorem verifyPassword_granted [External] {s : Registration.State} {i : Nat} {uid : UUID}
    {password : Str} (hpc : s.pc i = .verifying uid password)
    (hv : s.passwords.verifyPassword uid password = .ok true) :
    Registration.step s (i, .verifyPassword) = some (s.setPc i (.fetching uid)) := by
  unfold Registration.step
  dsimp only
  rw [hpc]
  dsimp only
  rw [hv]

theorem verifyPassword_refused [External] {s : Registration.State} {i : Nat} {uid : UUID}
    {password : Str} (hpc : s.pc i = .verifying uid password)
    (hv : s.passwords.verifyPassword uid password ≠ .ok true) :
    Registration.step s (i, .verifyPassword) = some (s.setPc i .idle) := by
  unfold Registration.step
  dsimp only
  rw [hpc]
  dsimp only
  split
  · rename_i hok
    exact absurd hok hv
  · rfl

/-- **And an account deletion.** -/
theorem delete_alone [External] {s : Registration.State} {server : Server}
    (husers : s.users = server.db.users) (hpasswords : s.passwords = server.db.passwords)
    {i : Nat} (hidle : s.pc i = .idle) (conn : Nat) (username password : Str) :
    ∃ s₁ s', Registration.step s (i, .delete username password) = some s₁
      ∧ (Registration.system.resume s₁).Reachable (OneThread i) s' ∧ s'.pc i = .idle
      ∧ s'.users = (server.onDeleteAccount conn username password).server.db.users
      ∧ s'.passwords = (server.onDeleteAccount conn username password).server.db.passwords := by
  unfold Server.onDeleteAccount Registration.step
  dsimp only
  rw [hidle, husers]
  dsimp only
  cases hname : server.db.users.getUidFromUsername username with
  | none => exact ⟨s, s, rfl, .init, hidle, husers, hpasswords⟩
  | some uid =>
      dsimp only
      refine ⟨s.setPc i (.verifying uid password), ?_⟩
      have hpc := self_pc_setPc s i (.verifying uid password)
      have hsame : (s.setPc i (.verifying uid password)).passwords = server.db.passwords :=
        hpasswords
      have hrun : ∀ s₂, Registration.step (s.setPc i (.verifying uid password))
          (i, .verifyPassword) = some s₂ →
          (Registration.system.resume (s.setPc i (.verifying uid password))).Reachable
            (OneThread i) s₂ := fun s₂ hs =>
        .tail (a := (i, .verifyPassword)) .init rfl hs
      cases hv : server.db.passwords.verifyPassword uid password with
      | error e =>
          have hrefused := verifyPassword_refused hpc (by rw [hsame, hv]; simp)
          exact ⟨_, rfl, hrun _ hrefused, self_pc_setPc _ i .idle, husers, hpasswords⟩
      | ok verified =>
          cases verified with
          | false =>
              have hrefused := verifyPassword_refused hpc (by rw [hsame, hv]; simp)
              exact ⟨_, rfl, hrun _ hrefused, self_pc_setPc _ i .idle, husers, hpasswords⟩
          | true =>
              dsimp only
              rw [conclude_server]
              have hgranted := verifyPassword_granted hpc (by rw [hsame, hv])
              obtain ⟨s', hrest, hpc', husers', hpasswords'⟩ :=
                @fetching_alone _ ((s.setPc i (.verifying uid password)).setPc i (.fetching uid))
                  server.db husers hpasswords i uid (self_pc_setPc _ i _)
              exact ⟨s', rfl, (hrun _ hgranted).resumed hrest, hpc', husers', hpasswords'⟩

end SockEtOut.Proof
