import SockEtOut.Proof.LoginDelivery

/-!
# Exactly-once delivery around a login

A message of one of the user's channels reaches the connection at least once, as
long as no list is moved while the replay walks it; otherwise the rest of that
history can be lost. It reaches it twice when it is announced to the connection
while the replay has it, because nothing compares the two: it was listed before the
replay read its channel's history, and is announced after the user's signals have
been connected. Where the two keep apart (`ReplaysApart`) each message is delivered
once.
-/

namespace SockEtOut.Proof

open Lib System Threads

/-! ## Nothing is expected twice -/

/--
What is announced to the connection is not expected already, and what its replay is
going to read is not either when the user's signals are connected.
-/
def ReplaysApart (conn : Nat) (s : State) : Pc → Prop
  | .announcing m (u :: _) => 0 < heard s conn u → m.snowflake ∉ expected s conn
  | .connecting user => ∀ c ∈ user.channels, ∀ t ∈ history s.server.db c, t ∉ expected s conn
  | _ => True

instance (conn : Nat) (s : State) : (pc : Pc) → Decidable (ReplaysApart conn s pc)
  | .announcing m (u :: _) =>
      inferInstanceAs (Decidable (0 < heard s conn u → m.snowflake ∉ expected s conn))
  | .connecting user =>
      have (c : UUID) : Decidable (∀ t ∈ history s.server.db c, t ∉ expected s conn) :=
        List.decidableBAll _ _
      List.decidableBAll (fun c => ∀ t ∈ history s.server.db c, t ∉ expected s conn) user.channels
  | .idle | .storing .. | .listing _ | .announcing _ [] | .findingChannel _ | .erasing _
  | .announcingDeletion .. | .disconnecting _ | .greeting _ | .replaying _ | .openingHistory ..
  | .replayingHistory .. => .isTrue trivial

/-- A login among sends, where what is announced and what is replayed keep apart. -/
def DeliversApart (lo : Int) (conn : Nat) (s : State) (a : Nat × Act) : Prop :=
  LoginAmongSends lo conn s a ∧ ReplaysApart conn s (s.pc a.1)

instance (lo : Int) (conn : Nat) (s : State) (a : Nat × Act) :
    Decidable (DeliversApart lo conn s a) :=
  inferInstanceAs (Decidable (_ ∧ _))

/-- The connection has each slot once at most. -/
theorem heard_le_one {lo : Int} {conn : Nat} {s : State} (h : LoginInv lo conn s) (u : UUID) :
    heard s conn u ≤ 1 := by
  have hslots : s.server.slots.count ⟨u, .onMessageReceived, conn⟩ ≤ 1 := by
    cases hu : connectedUser s conn with
    | some user =>
        rw [h.slotsConnected user hu]
        split <;> omega
    | none =>
        by_cases hpc : ∃ user, s.pc conn = .connecting user
        · obtain ⟨user, hpc⟩ := hpc
          rw [h.slotsConnecting user hpc]
          exact Nat.zero_le 1
        · rw [h.slotsBefore hu (fun user hc => hpc ⟨user, hc⟩)]
          split <;> omega
  unfold heard
  split
  · exact hslots
  · exact Nat.zero_le 1

theorem expectedOnce_sender {lo : Int} {conn i : Nat} {s s' : State} (h : LoginInv lo conn s)
    (hnd : (expected s conn).Nodup) (hapart : ReplaysApart conn s (s.pc i))
    (hgrows : Grows s s' i conn) : (expected s' conn).Nodup := by
  rw [List.nodup_iff_count_le_one] at hnd ⊢
  intro t
  have hone := hnd t
  cases hgrows with
  | same hcount => rwa [hcount]
  | @listed m us hpc hpc' hcount =>
      rw [hcount]
      split
      · rename_i heq
        subst heq
        -- what is expected is listed somewhere, and the message was nowhere
        have hzero : (expected s conn).count m.snowflake = 0 := by
          rw [List.count_eq_zero]
          intro hin
          obtain ⟨m', -, hlisted⟩ := h.listed _ hin
          exact (h.sends.listing i m hpc).2 _ hlisted
        have hchannel := List.nodup_iff_count_le_one.mp h.channels m.channelId
        omega
      · exact hone
  | @announced m u us hpc hpc' hcount =>
      rw [hcount]
      rw [hpc] at hapart
      split
      · rename_i heq
        subst heq
        have hheard := heard_le_one h u
        rcases Nat.eq_zero_or_pos (heard s conn u) with hzero | hpos
        · omega
        · have hnew : (expected s conn).count m.snowflake = 0 :=
            List.count_eq_zero_of_not_mem (hapart hpos)
          omega
      · exact hone

/-- The histories of different channels have nothing in common. -/
theorem nodup_histories {lo : Int} {conn : Nat} {s : State} (h : SendsInv lo conn s)
    {cs : List UUID} (hcs : cs.Nodup) : (cs.flatMap (history s.server.db)).Nodup := by
  rw [List.nodup_flatMap]
  refine ⟨fun c _ => h.nodup c, hcs.imp ?_⟩
  intro c d hcd t hc hd
  obtain ⟨m, hm, rfl⟩ := stored_of_history h.owned hc
  obtain ⟨m', hm', rfl⟩ := stored_of_history h.owned hd
  rw [hm] at hm'
  cases hm'
  exact hcd rfl

theorem expectedOnce_login {lo : Int} {conn : Nat} {s s' : State} (h : LoginInv lo conn s)
    (hnd : (expected s conn).Nodup) (hapart : ReplaysApart conn s (s.pc conn))
    (hmove : LoginMove s conn s') : (expected s' conn).Nodup := by
  rcases expected_login hmove with hcount | ⟨user, hpc, hgrown⟩
  · rw [List.nodup_iff_count_le_one] at hnd ⊢
    intro t
    rw [hcount]
    exact hnd t
  · have hregistered := (h.fresh user (Or.inr (Or.inl hpc))).1
    have hchannels := channels_nodup h.sends.agree h.sends.once hregistered
    rw [hgrown]
    refine List.Nodup.append hnd (nodup_histories h.sends hchannels) ?_
    rw [hpc] at hapart
    intro t ht ht'
    obtain ⟨c, hc, hin⟩ := List.mem_flatMap.mp ht'
    exact hapart c hc t hin ht

theorem expectedOnce_reachable [External] {k : Int} {server : Server} {conn : Nat} {s : State}
    (hserver : Server.system.Reachable (Settled k) server)
    (h : (Threads.system server).Reachable (DeliversApart (spanStart k) conn) s) :
    LoginInv (spanStart k) conn s ∧ (expected s conn).Nodup := by
  refine h.invariant
    (P := fun s => LoginInv (spanStart k) conn s ∧ (expected s conn).Nodup) ?_ ?_
  · exact ⟨loginInv_start (settledInv_reachable hserver) conn, List.nodup_nil⟩
  · rintro s a s' - ⟨hi, hnd⟩ ⟨hg, hapart⟩ hs
    refine ⟨loginInv_step hi hg hs, ?_⟩
    rcases move_of_step hi hg hs with ⟨hconn, hmove⟩ | ⟨hne, hmove⟩
    · exact expectedOnce_login hi hnd (hconn ▸ hapart) hmove
    · exact expectedOnce_sender hi hnd hapart (grows_sender hi.sends hne hmove)

/-! ## What has been written in the end -/

/-- Whether a frame carries a message. -/
def carriesMessage (messageSnowflake : UInt64) : Response → Bool
  | .sendMessage (.ok message) => message.snowflake = messageSnowflake
  | _ => false

theorem length_filter_carriesMessage (w : List Response) (t : UInt64) :
    (w.filter (carriesMessage t)).length = (carried w).count t := by
  induction w with
  | nil => rfl
  | cons r w ih =>
      have hcons : carried (r :: w) = carried [r] ++ carried w := carried_append [r] w
      rw [hcons, List.count_append, ← ih, List.filter_cons]
      have hone : (carried [r]).count t = if carriesMessage t r then 1 else 0 := by
        unfold carriesMessage carried
        split
        · rename_i m
          simp [List.count_singleton]
        · rename_i hnot
          rw [if_neg Bool.false_ne_true, List.count_eq_zero]
          intro hin
          obtain ⟨r', hr', ht⟩ := List.mem_filterMap.mp hin
          rw [List.mem_singleton.mp hr'] at ht
          split at ht
          · rename_i m
            exact hnot m rfl
          · cases ht
      split
      · rename_i hr
        rw [hone, if_pos hr, List.length_cons]
        omega
      · rename_i hr
        rw [hone, if_neg hr]
        omega

/-- With nothing queued and no handler under way, what was expected has been written. -/
theorem expected_at_rest {s : State} {conn : Nat} (hidle : s.pc conn = .idle)
    (hqueued : s.queued conn = []) : expected s conn = carried (s.written conn) := by
  unfold expected
  rw [hidle, hqueued]
  exact (List.append_nil _).trans (List.append_nil _)

/-- With nobody left to announce it to, what is listed has been written. -/
theorem carried_at_rest {lo : Int} {s : State} {conn : Nat} (h : LoginInv lo conn s)
    (hidle : ∀ i, s.pc i = .idle) (hqueued : s.queued conn = []) {user : User}
    (hlogin : greeted (s.written conn) = some user) {c : UUID} (hc : c ∈ user.channels)
    {t : UInt64} (ht : t ∈ history s.server.db c) : t ∈ carried (s.written conn) := by
  obtain ⟨m, hm, rfl⟩ := stored_of_history h.sends.owned ht
  have hconnected : connectedUser s conn = some user := by
    rw [connectedUser_eq (by simp [hidle]), hlogin]
  rw [← expected_at_rest (hidle conn) hqueued]
  rcases h.caught user hconnected t m hm hc ht with ⟨i, us, hi, -⟩ | hexpected
  · rw [hidle] at hi
    cases hi
  · exact hexpected

/--
**No message is lost around a login** that no list is moved under. Once all calls have
returned and the queue is empty, each message that a channel of the greeted user lists
has been written to the connection, whatever the interleaving was otherwise.
-/
theorem delivered [External] {k : Int} {server : Server} {conn : Nat} {s : State}
    (hserver : Server.system.Reachable (Settled k) server)
    (h : (Threads.system server).Reachable (LoginAmongSends (spanStart k) conn) s)
    (hidle : ∀ i, s.pc i = .idle) (hqueued : s.queued conn = []) {user : User}
    (hlogin : greeted (s.written conn) = some user) {c : UUID} (hc : c ∈ user.channels)
    {t : UInt64} (ht : t ∈ history s.server.db c) :
    ∃ m, s.server.db.messages.lookup t = some m ∧ .sendMessage (.ok m) ∈ s.written conn := by
  have hinv := loginInv_reachable hserver h
  obtain ⟨m, hm, heq⟩ := mem_carried.mp (carried_at_rest hinv hidle hqueued hlogin hc ht)
  exact ⟨m, heq ▸ hinv.stored m (List.mem_append_left _ hm), hm⟩

/--
**Exactly-once delivery around a login** if replay and announcements keep apart. Once
all calls have returned and the queue is empty, each message that a channel of the
greeted user lists has been written to the connection in exactly one frame, as it is
stored.
-/
theorem delivered_once [External] {k : Int} {server : Server} {conn : Nat} {s : State}
    (hserver : Server.system.Reachable (Settled k) server)
    (h : (Threads.system server).Reachable (DeliversApart (spanStart k) conn) s)
    (hidle : ∀ i, s.pc i = .idle) (hqueued : s.queued conn = []) {user : User}
    (hlogin : greeted (s.written conn) = some user) {c : UUID} (hc : c ∈ user.channels)
    {t : UInt64} (ht : t ∈ history s.server.db c) :
    ∃ m, s.server.db.messages.lookup t = some m
      ∧ (s.written conn).filter (carriesMessage t) = [.sendMessage (.ok m)] := by
  obtain ⟨hinv, hnd⟩ := expectedOnce_reachable hserver h
  have hin := carried_at_rest hinv hidle hqueued hlogin hc ht
  rw [expected_at_rest (hidle conn) hqueued] at hnd
  obtain ⟨m, hm, rfl⟩ := mem_carried.mp hin
  refine ⟨m, hinv.stored m (List.mem_append_left _ hm), ?_⟩
  -- one frame carries it, and the frame of the stored message does
  have hlength : ((s.written conn).filter (carriesMessage m.snowflake)).length = 1 := by
    rw [length_filter_carriesMessage, List.count_eq_one_of_mem hnd hin]
  obtain ⟨r, hr⟩ := List.length_eq_one_iff.mp hlength
  have hmem : .sendMessage (.ok m) ∈ (s.written conn).filter (carriesMessage m.snowflake) :=
    List.mem_filter.mpr ⟨hm, decide_eq_true rfl⟩
  rw [hr] at hmem ⊢
  rw [List.mem_singleton.mp hmem]

theorem twoMembers_settled :
    ((@Server.system .sample).exec (Settled 0) Server.new twoMembers).isSome := by
  decide

/-- The server after that. -/
def twoMembers_server : Server :=
  ((@Server.system .sample).exec (Settled 0) Server.new twoMembers).get twoMembers_settled

/-- Bob logs in once more, and Alice writes when the loop over the history has started. -/
def sendAfterOpening : List (Nat × Act) :=
  [(2, .login (lit "bob") (lit "secret")), (2, .advance [] 0), (2, .advance [] 0),
    (2, .advance [] 0), (2, .advance [] 0), (2, .advance [] 0),
    (0, .sendMessage (.ofByte 1) (.ofByte 7) (lit "hi")), (0, .advance [epoch + 5] 0),
    (0, .advance [] 0), (0, .advance [] 0), (0, .advance [] 0), (0, .advance [] 0),
    (2, .advance [] 0), (2, .advance [] 0), (2, .deliver)]

theorem sendAfterOpening_runs :
    ((@Threads.system .sample twoMembers_server).exec (DeliversApart (spanStart 0) 2)
      (start twoMembers_server) sendAfterOpening).isSome := by
  decide

theorem delivered_once_sendAfterOpening :
    ∃ s m, (@Threads.system .sample twoMembers_server).Reachable (DeliversApart (spanStart 0) 2) s
      ∧ s.server.db.messages.lookup 41951488 = some m
      ∧ (s.written 2).filter (carriesMessage 41951488) = [.sendMessage (.ok m)] := by
  obtain ⟨s, hs⟩ : ∃ s, s = ((@Threads.system .sample twoMembers_server).exec
    (DeliversApart (spanStart 0) 2) (start twoMembers_server) sendAfterOpening).get
      sendAfterOpening_runs := ⟨_, rfl⟩
  have hr : (@Threads.system .sample twoMembers_server).Reachable
      (DeliversApart (spanStart 0) 2) s := hs ▸ Reachable.exec_get sendAfterOpening_runs
  have hidle : ∀ i, s.pc i = .idle := idle_of_values (by subst hs; decide)
  have hqueued : s.queued 2 = [] := List.isEmpty_iff.mp (by subst hs; decide)
  have hlogin : (greeted (s.written 2)).map (·.channels) = some [.ofByte 7] := by
    subst hs; decide
  have hlisted : (41951488 : UInt64) ∈ history s.server.db (.ofByte 7) := by subst hs; decide
  obtain ⟨user, huser, hchannels⟩ := Option.map_eq_some_iff.mp hlogin
  have hc : UUID.ofByte 7 ∈ user.channels := by
    rw [hchannels]
    exact List.mem_cons_self
  obtain ⟨m, hm, hframes⟩ := @delivered_once .sample 0 _ 2 s
    (Reachable.exec_get twoMembers_settled) hr hidle hqueued user huser _ hc _ hlisted
  exact ⟨s, m, hr, hm, hframes⟩

/-- Bob logs in between the listing of Alice's message and its announcement. -/
def loginBeforeAnnouncing : List (Nat × Act) :=
  [(0, .sendMessage (.ofByte 1) (.ofByte 7) (lit "hi")), (0, .advance [epoch + 5] 0),
    (0, .advance [] 0), (2, .login (lit "bob") (lit "secret")), (2, .advance [] 0),
    (2, .advance [] 0), (2, .advance [] 0), (2, .advance [] 0), (2, .advance [] 0),
    (2, .advance [] 0), (0, .advance [] 0), (0, .advance [] 0), (0, .advance [] 0),
    (2, .advance [] 0), (2, .advance [] 0), (2, .deliver)]

theorem loginBeforeAnnouncing_runs :
    ((@Threads.system .sample twoMembers_server).exec (LoginAmongSends (spanStart 0) 2)
      (start twoMembers_server) loginBeforeAnnouncing).isSome := by
  decide

/-- The replay has the message, and so has the notification. -/
theorem delivered_twice_loginBeforeAnnouncing :
    ∃ s, (@Threads.system .sample twoMembers_server).Reachable
        (LoginAmongSends (spanStart 0) 2) s
      ∧ (∀ i, s.pc i = .idle) ∧ s.queued 2 = []
      ∧ (greeted (s.written 2)).map (·.channels) = some [.ofByte 7]
      ∧ history s.server.db (.ofByte 7) = [41951488]
      ∧ ((s.written 2).filter (carriesMessage 41951488)).length = 2 :=
  ⟨_, Reachable.exec_get loginBeforeAnnouncing_runs, idle_of_values (by decide),
    List.isEmpty_iff.mp (by decide), by decide, by decide, by decide⟩

/-- Alice's second message finds the list full while Bob's login walks it. -/
def sendWhileWalking : List (Nat × Act) :=
  [(0, .sendMessage (.ofByte 1) (.ofByte 7) (lit "hi")), (0, .advance [epoch + 5] 0),
    (0, .advance [] 0), (0, .advance [] 0), (0, .advance [] 0), (0, .advance [] 0),
    (2, .login (lit "bob") (lit "secret")), (2, .advance [] 0), (2, .advance [] 0),
    (2, .advance [] 0), (2, .advance [] 0), (2, .advance [] 0),
    (0, .sendMessage (.ofByte 1) (.ofByte 7) (lit "you")), (0, .advance [epoch + 6] 0),
    (0, .relocate), (0, .advance [] 0), (2, .advance [] 0), (2, .advance [] 0),
    (0, .advance [] 0), (0, .advance [] 0), (0, .advance [] 0), (2, .deliver)]

theorem sendWhileWalking_runs :
    ((@Threads.system .sample twoMembers_server).exec (fun _ _ => True)
      (start twoMembers_server) sendWhileWalking).isSome := by
  decide

/-- The login's loop is left in freed cells, and the first message is written nowhere. -/
theorem lost_sendWhileWalking :
    ∃ s, (@Threads.system .sample twoMembers_server).Reachable (fun _ _ => True) s
      ∧ (∀ i, s.pc i = .idle) ∧ s.queued 2 = []
      ∧ (greeted (s.written 2)).map (·.channels) = some [.ofByte 7]
      ∧ history s.server.db (.ofByte 7) = [41951488, 50340096]
      ∧ carried (s.written 2) = [50340096] :=
  ⟨_, Reachable.exec_get sendWhileWalking_runs, idle_of_values (by decide),
    List.isEmpty_iff.mp (by decide), by decide, by decide, by decide⟩

/-! ## Where they do not keep apart -/

/-- Nothing that is expected is ever taken back. -/
theorem expected_mono [External] {lo : Int} {conn : Nat} {s s' : State} {a : Nat × Act}
    (h : LoginInv lo conn s) (hg : LoginAmongSends lo conn s a)
    (hs : Threads.step s a = some s') (t : UInt64) :
    (expected s conn).count t ≤ (expected s' conn).count t := by
  rcases move_of_step h hg hs with ⟨-, hmove⟩ | ⟨hne, hmove⟩
  · rcases expected_login hmove with hcount | ⟨user, hpc, hgrown⟩
    · exact Nat.le_of_eq (hcount t).symm
    · rw [hgrown, List.count_append]
      exact Nat.le_add_right _ _
  · exact (grows_sender h.sends hne hmove).mono t

/-- A step against `ReplaysApart` makes the connection expect a message twice. -/
theorem expected_twice [External] {lo : Int} {conn : Nat} {s s' : State} {a : Nat × Act}
    (h : LoginInv lo conn s) (hnot : ¬ ReplaysApart conn s (s.pc a.1))
    (hs : Threads.step s a = some s') : ∃ t, 2 ≤ (expected s' conn).count t := by
  obtain ⟨i, act⟩ := a
  rcases threads_step_cases hs with ⟨readings, now, -, hadvance⟩ | ⟨m, -, hlisting, -⟩ | ⟨hidle, -⟩
  · unfold ReplaysApart at hnot
    split at hnot
    · rename_i m u us heq
      have hpc : s.pc i = .announcing m (u :: us) := heq
      obtain ⟨hheard, hin⟩ : 0 < heard s conn u ∧ m.snowflake ∈ expected s conn := by
        simpa using hnot
      have hi : i ≠ conn := by
        rintro rfl
        have hrole := h.sends.roles.login
        rw [hpc] at hrole
        exact hrole
      rw [hpc] at hadvance
      cases hadvance
      refine ⟨m.snowflake, ?_⟩
      have hpos := List.count_pos_iff.mpr hin
      rw [count_expected_announced s hi, if_pos rfl]
      omega
    · rename_i user heq
      have hpc : s.pc i = .connecting user := heq
      obtain ⟨c, hc, t, ht, hin⟩ : ∃ c ∈ user.channels, ∃ t ∈ history s.server.db c,
          t ∈ expected s conn := by
        simpa using hnot
      have hi : i = conn := by
        by_contra hne
        have hrole := h.sends.roles.send i hne
        rw [hpc] at hrole
        exact hrole
      subst hi
      rw [hpc] at hadvance
      cases hadvance
      have hpc' := self_setPc s i (.greeting user)
      refine ⟨t, ?_⟩
      rw [expected_connected hpc (by exact hpc') (by rfl) (by rfl) (by rfl), List.count_append]
      have hpos := List.count_pos_iff.mpr hin
      have hread : 0 < (user.channels.flatMap (history s.server.db)).count t :=
        List.count_pos_iff.mpr (List.mem_flatMap.mpr ⟨c, hc, ht⟩)
      omega
    · exact absurd trivial hnot
  · rw [hlisting] at hnot
    exact absurd trivial hnot
  · rw [hidle] at hnot
    exact absurd trivial hnot

/--
**Where replay and announcements overlap, a message is delivered twice.** After one step
against `ReplaysApart`, however the run goes on, some message has been written to the
connection in two frames once all calls have returned and the queue is empty.
-/
theorem delivered_twice [External] {k : Int} {server : Server} {conn : Nat} {s s' s'' : State}
    {a : Nat × Act} (hserver : Server.system.Reachable (Settled k) server)
    (h : (Threads.system server).Reachable (LoginAmongSends (spanStart k) conn) s)
    (hg : LoginAmongSends (spanStart k) conn s a) (hnot : ¬ ReplaysApart conn s (s.pc a.1))
    (hs : Threads.step s a = some s')
    (h'' : ((Threads.system server).resume s').Reachable (LoginAmongSends (spanStart k) conn) s'')
    (hidle : s''.pc conn = .idle) (hqueued : s''.queued conn = []) :
    ∃ t, 2 ≤ ((s''.written conn).filter (carriesMessage t)).length := by
  have hinv := loginInv_reachable hserver h
  obtain ⟨t, ht⟩ := expected_twice hinv hnot hs
  have hlater : LoginInv (spanStart k) conn s'' ∧ 2 ≤ (expected s'' conn).count t := by
    refine h''.invariant
      (P := fun s => LoginInv (spanStart k) conn s ∧ 2 ≤ (expected s conn).count t) ?_ ?_
    · exact ⟨loginInv_step hinv hg hs, ht⟩
    · rintro s₁ b s₂ - ⟨hi, htwice⟩ hg' hs'
      exact ⟨loginInv_step hi hg' hs', htwice.trans (expected_mono hi hg' hs' t)⟩
  refine ⟨t, ?_⟩
  rw [length_filter_carriesMessage, ← expected_at_rest hidle hqueued]
  exact hlater.2

end SockEtOut.Proof
