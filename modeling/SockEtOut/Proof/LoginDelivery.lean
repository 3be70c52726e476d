import SockEtOut.Proof.ConcurrentSends

/-!
# What a login in the middle of a conversation delivers

`expected` is everything a connection gets in the end if nothing more happens: the
messages in the frames written to it, those in the frames queued for it, and what
its replay has yet to read. Every listed message of the user's channels is expected
or still about to be announced to the user, whatever the interleaving, so no
message is lost. But a message that is announced when the replay has read it, or
is about to, is expected twice.
-/

namespace SockEtOut.Proof

open Lib System Threads

/-- What a connection will have got in the end, if nothing more happens. -/
def expected (s : State) (conn : Nat) : List UInt64 :=
  carried (s.written conn) ++ carried (s.queued conn) ++ toReplay s.server.db (s.pc conn)

/-- The user whose signals `on_login` has connected. -/
def connectedUser (s : State) (conn : Nat) : Option User :=
  match s.pc conn with
  | .greeting user => some user
  | _ => greeted (s.written conn)

/-- Before and after the `LoginResponse` is due, it is the one who has been greeted. -/
theorem connectedUser_eq {s : State} {conn : Nat} (h : ∀ user, s.pc conn ≠ .greeting user) :
    connectedUser s conn = greeted (s.written conn) := by
  unfold connectedUser
  split
  · rename_i user hpc
    exact absurd hpc (h user)
  · rfl

/-! ## Frames -/

theorem carried_append (w w' : List Response) : carried (w ++ w') = carried w ++ carried w' :=
  List.filterMap_append ..

theorem carried_replicate (n : Nat) (m : Message) :
    carried (List.replicate n (.sendMessage (.ok m))) = List.replicate n m.snowflake := by
  induction n with
  | zero => rfl
  | succ n ih =>
      rw [List.replicate_succ, List.replicate_succ, ← ih]
      rfl

theorem mem_carried {w : List Response} {t : UInt64} :
    t ∈ carried w ↔ ∃ m, .sendMessage (.ok m) ∈ w ∧ m.snowflake = t := by
  unfold carried
  rw [List.mem_filterMap]
  constructor
  · rintro ⟨r, hr, ht⟩
    split at ht
    · rename_i m
      exact ⟨m, hr, Option.some.inj ht⟩
    · cases ht
  · rintro ⟨m, hm, rfl⟩
    exact ⟨_, hm, rfl⟩

theorem greeted_append (w w' : List Response) : greeted (w ++ w') = (greeted w).or (greeted w') :=
  List.findSome?_append

/-- Frames without a successful login greet nobody. -/
theorem greeted_none {w : List Response} (h : ∀ r ∈ w, ∀ user, r ≠ .login (.ok user)) :
    greeted w = none := by
  unfold greeted
  rw [List.findSome?_eq_none_iff]
  intro r hr
  split
  · rename_i user
    exact absurd rfl (h _ hr user)
  · rfl

/-! ## The invariant -/

structure LoginInv (lo : Int) (conn : Nat) (s : State) : Prop where
  sends : SendsInv lo conn s
  keyed : UsersKeyed s.server.db
  /-- Until the `LoginResponse` is written, nobody has been greeted. -/
  fresh : ∀ user, s.pc conn = .disconnecting user ∨ s.pc conn = .connecting user
      ∨ s.pc conn = .greeting user →
    s.server.db.users.lookup user.uid = some user ∧ greeted (s.written conn) = none
  /-- The replay comes after it. -/
  begun : Replaying (s.pc conn) → (greeted (s.written conn)).isSome
  /-- The loop over a history is where the list's cells are. -/
  place : InPlace s (s.pc conn)
  registered : ∀ user, greeted (s.written conn) = some user →
    s.server.db.users.lookup user.uid = some user
  channels : (remaining (s.pc conn)).Nodup
  slotsBefore : connectedUser s conn = none → (∀ user, s.pc conn ≠ .connecting user) →
    SlotsInv s.server
  slotsConnecting : ∀ user, s.pc conn = .connecting user →
    ∀ v kind, s.server.slots.count ⟨v, kind, conn⟩ = 0
  slotsConnected : ∀ user, connectedUser s conn = some user →
    ∀ v kind, s.server.slots.count ⟨v, kind, conn⟩ = if v = user.uid then 1 else 0
  /-- Only messages are queued. -/
  queued : ∀ r ∈ s.queued conn, ∃ m, r = .sendMessage (.ok m)
  /-- A frame carries its message as it is stored. -/
  stored : ∀ m, .sendMessage (.ok m) ∈ s.written conn ++ s.queued conn →
    s.server.db.messages.lookup m.snowflake = some m
  /-- What is expected is listed. -/
  listed : ∀ t ∈ expected s conn, ∃ m, s.server.db.messages.lookup t = some m
    ∧ t ∈ history s.server.db m.channelId
  /-- What is listed is expected, or about to be announced to the user. -/
  caught : ∀ user, connectedUser s conn = some user → ∀ t m,
    s.server.db.messages.lookup t = some m → m.channelId ∈ user.channels →
    t ∈ history s.server.db m.channelId →
    (∃ i us, s.pc i = .announcing m us ∧ user.uid ∈ us) ∨ t ∈ expected s conn

theorem connectedUser_registered {lo : Int} {conn : Nat} {s : State} (h : LoginInv lo conn s)
    {user : User} (hu : connectedUser s conn = some user) :
    s.server.db.users.lookup user.uid = some user := by
  unfold connectedUser at hu
  split at hu
  · rename_i user' hpc
    cases hu
    exact (h.fresh _ (Or.inr (Or.inr hpc))).1
  · exact h.registered user hu

/-! ## Steps of the senders -/

/-- What a message's listing adds to the histories of some channels. -/
theorem count_flatMap_listed {db : Database} {c : UUID} {ch : Channel}
    (hc : db.channels.lookup c = some ch) (t : UInt64) (cs : List UUID) (x : UInt64) :
    (cs.flatMap (history
        { db with channels := db.channels.modify c (·.addMessage t) })).count x
      = (cs.flatMap (history db)).count x + if x = t then cs.count c else 0 := by
  induction cs with
  | nil => simp
  | cons d cs ih =>
      have hone : (history { db with channels := db.channels.modify c (·.addMessage t) } d).count x
          = (history db d).count x + if x = t ∧ d = c then 1 else 0 := by
        rw [history_addMessage hc]
        by_cases hd : d = c
        · rw [if_pos hd, List.count_append, List.count_singleton]
          simp only [beq_iff_eq, hd, and_true, @eq_comm _ t x]
        · simp [hd]
      rw [List.flatMap_cons, List.flatMap_cons, List.count_append, List.count_append, hone, ih,
        List.count_cons]
      by_cases hx : x = t
      · by_cases hd : d = c
        · simp [hx, hd]
          omega
        · simp [hx, hd]
          omega
      · simp [hx]

/-- How often another thread's signal reaches the connection. -/
def heard (s : State) (conn : Nat) (u : UUID) : Nat :=
  if (s.server.db.users.lookup u).isSome then s.server.slots.count ⟨u, .onMessageReceived, conn⟩
  else 0

theorem signal_queued (s : State) {i conn : Nat} (hi : i ≠ conn) (u : UUID) (m : Message) :
    (s.signal i u (.messageReceived · m)).queued conn
        = s.queued conn ++ List.replicate (heard s conn u) (.sendMessage (.ok m))
      ∧ (s.signal i u (.messageReceived · m)).written conn = s.written conn := by
  unfold State.signal heard
  cases hu : s.server.db.users.lookup u with
  | none => exact ⟨(List.append_nil _).symm, rfl⟩
  | some user =>
      refine ⟨?_, Function.update_of_ne (Ne.symm hi) _ _⟩
      show (if conn = i then _ else s.queued conn ++ framesFor conn _) = _
      rw [if_neg (Ne.symm hi), framesFor_deliver_count]
      rfl

theorem signal_block (s : State) (i : Nat) (u : UUID) (signal : UUID → Signal) :
    (s.signal i u signal).block = s.block := by
  unfold State.signal
  split
  · rfl
  · rfl

/-- What a step of a sender leaves alone, and what it can add. -/
structure SenderFrame (s s' : State) (i conn : Nat) : Prop where
  users : s'.server.db.users = s.server.db.users
  auth : s'.server.authenticatedUser = s.server.authenticatedUser
  slots : s'.server.slots = s.server.slots
  others : ∀ j, j ≠ i → s'.pc j = s.pc j
  written : s'.written conn = s.written conn
  /-- The list that the connection's loop is walking stays where it is. -/
  block : ∀ c ∈ walks (s.pc conn), s'.block c = s.block c
  messages : ∀ t m, s.server.db.messages.lookup t = some m →
    s'.server.db.messages.lookup t = some m
  histories : ∀ c t, t ∈ history s.server.db c → t ∈ history s'.server.db c
  /-- Only the listing of a message makes a history longer. -/
  listed : ∀ c t, t ∈ history s'.server.db c → t ∈ history s.server.db c
    ∨ ∃ m, s.pc i = .listing m ∧ s'.pc i = .announcing m (members s.server.db m.channelId)
      ∧ t = m.snowflake
  /-- Only its announcement is queued. -/
  queued : ∀ r ∈ s'.queued conn, r ∈ s.queued conn
    ∨ ∃ m us, s'.pc i = .announcing m us ∧ r = .sendMessage (.ok m)

/-- A step that leaves the server alone. -/
theorem senderFrame_of_server {s s' : State} {i conn : Nat} (hserver : s'.server = s.server)
    (hothers : ∀ j, j ≠ i → s'.pc j = s.pc j) (hwritten : s'.written conn = s.written conn)
    (hblock : ∀ c ∈ walks (s.pc conn), s'.block c = s.block c)
    (hqueued : ∀ r ∈ s'.queued conn, r ∈ s.queued conn
      ∨ ∃ m us, s'.pc i = .announcing m us ∧ r = .sendMessage (.ok m)) :
    SenderFrame s s' i conn where
  users := by rw [hserver]
  auth := by rw [hserver]
  slots := by rw [hserver]
  others := hothers
  written := hwritten
  block := hblock
  messages := by
    rw [hserver]
    exact fun t m hm => hm
  histories := by
    rw [hserver]
    exact fun c t ht => ht
  listed := by
    rw [hserver]
    exact fun c t ht => Or.inl ht
  queued := hqueued

theorem senderFrame_of_move {lo : Int} {s s' : State} {i conn : Nat} (h : SendsInv lo conn s)
    (hi : i ≠ conn) (hmove : SenderMove lo conn s i s') : SenderFrame s s' i conn := by
  -- most steps move the program counter and nothing else
  have hmoved : ∀ pc', SenderFrame s (s.setPc i pc') i conn := fun pc' =>
    senderFrame_of_server rfl (others_setPc s i pc') rfl (fun _ _ => rfl) fun r hr => Or.inl hr
  cases hmove with
  | refused =>
      exact senderFrame_of_server rfl (fun _ _ => rfl) rfl (fun _ _ => rfl) fun r hr => Or.inl hr
  | relocated hpc hapart =>
      exact senderFrame_of_server rfl (fun _ _ => rfl) rfl
        (fun c hc => Function.update_of_ne (Ne.symm (hapart c hc)) _ _) fun r hr => Or.inl hr
  | started hpc hc => exact hmoved _
  | failed hpc => exact hmoved _
  | returned hpc => exact hmoved _
  | @stored sender c content readings now id generator hpc hid hr =>
      exact
        { users := rfl
          auth := rfl
          slots := rfl
          others := others_setPc _ i _
          written := rfl
          block := fun _ _ => rfl
          messages := fun t m hm => Table.lookup_emplace_of_some hm _ _
          histories := fun c t ht => ht
          listed := fun c t ht => Or.inl ht
          queued := fun r hr => Or.inl hr }
  | @listed m hpc =>
      obtain ⟨ch, hc⟩ := Option.isSome_iff_exists.mp (h.listing i m hpc).1
      have hhistory := history_addMessage (t := m.snowflake) hc
      exact
        { users := rfl
          auth := rfl
          slots := rfl
          others := others_setPc _ i _
          written := rfl
          block := fun _ _ => rfl
          messages := fun t m hm => hm
          histories := by
            intro c t ht
            show t ∈ history { s.server.db with channels := _ } c
            rw [hhistory]
            split
            · exact List.mem_append_left _ ht
            · exact ht
          listed := by
            intro c t ht
            have ht' : t ∈ if c = m.channelId then history s.server.db c ++ [m.snowflake]
                else history s.server.db c := hhistory c ▸ ht
            split at ht'
            · rcases List.mem_append.mp ht' with hold | hnew
              · exact Or.inl hold
              · exact Or.inr ⟨m, hpc, self_setPc _ i _, List.mem_singleton.mp hnew⟩
            · exact Or.inl ht'
          queued := fun r hr => Or.inl hr }
  | @announced m u us hpc =>
      obtain ⟨hserver, -, hthreads⟩ := signal_frame s i u (.messageReceived · m)
      obtain ⟨hqueued, hwritten⟩ := signal_queued s hi u m
      refine senderFrame_of_server hserver ?_ hwritten ?_ ?_
      · intro j hj
        rw [others_setPc _ i _ j hj]
        unfold State.pc
        rw [hthreads]
      · intro c _
        exact congrFun (signal_block s i u _) c
      · intro r hr
        have hr' : r ∈ (s.signal i u (.messageReceived · m)).queued conn := hr
        rw [hqueued] at hr'
        rcases List.mem_append.mp hr' with hold | hnew
        · exact Or.inl hold
        · exact Or.inr ⟨m, us, self_setPc _ i _, List.eq_of_mem_replicate hnew⟩
  | @delivered r rs hpc hqueued =>
      refine senderFrame_of_server rfl (fun _ _ => rfl) (Function.update_of_ne (Ne.symm hi) _ _)
        (fun _ _ => rfl) ?_
      intro r' hr'
      have hsame : Function.update s.queued i rs conn = s.queued conn :=
        Function.update_of_ne (Ne.symm hi) _ _
      exact Or.inl (hsame ▸ hr')

/-- What a step of a sender adds to what the connection expects. -/
inductive Grows (s s' : State) (i conn : Nat) : Prop where
  | same (h : ∀ t, (expected s' conn).count t = (expected s conn).count t)
  | listed {m : Message} {us : List UUID} (hpc : s.pc i = .listing m)
      (hpc' : s'.pc i = .announcing m us)
      (h : ∀ t, (expected s' conn).count t = (expected s conn).count t
        + if t = m.snowflake then (remaining (s.pc conn)).count m.channelId else 0)
  | announced {m : Message} {u : UUID} {us : List UUID} (hpc : s.pc i = .announcing m (u :: us))
      (hpc' : s'.pc i = .announcing m us)
      (h : ∀ t, (expected s' conn).count t = (expected s conn).count t
        + if t = m.snowflake then heard s conn u else 0)

theorem count_expected (s : State) (conn : Nat) (t : UInt64) :
    (expected s conn).count t = (carried (s.written conn)).count t
      + (carried (s.queued conn)).count t + ((snapshot (s.pc conn)).count t
        + ((remaining (s.pc conn)).flatMap (history s.server.db)).count t) := by
  unfold expected toReplay
  rw [List.count_append, List.count_append, List.count_append]

/-- A listing adds the message as often as its channel is still to be read. -/
theorem count_expected_listed {s : State} {i conn : Nat} (hi : i ≠ conn) {m : Message}
    {ch : Channel} (hc : s.server.db.channels.lookup m.channelId = some ch) (pc' : Pc)
    (t : UInt64) :
    (expected ((s.setDb { s.server.db with
        channels := s.server.db.channels.modify m.channelId (·.addMessage m.snowflake) }).setPc i
          pc') conn).count t
      = (expected s conn).count t
        + if t = m.snowflake then (remaining (s.pc conn)).count m.channelId else 0 := by
  have hcount := count_flatMap_listed hc m.snowflake (remaining (s.pc conn)) t
  rw [count_expected, count_expected, others_setPc _ i _ conn (Ne.symm hi)]
  show (carried (s.written conn)).count t + (carried (s.queued conn)).count t
    + ((snapshot (s.pc conn)).count t
      + ((remaining (s.pc conn)).flatMap (history { s.server.db with channels := _ })).count t) = _
  rw [hcount]
  omega

/-- An announcement adds it as often as the connection hears it. -/
theorem count_expected_announced (s : State) {i conn : Nat} (hi : i ≠ conn) (m : Message)
    (u : UUID) (pc' : Pc) (t : UInt64) :
    (expected ((s.signal i u (.messageReceived · m)).setPc i pc') conn).count t
      = (expected s conn).count t + if t = m.snowflake then heard s conn u else 0 := by
  obtain ⟨hqueued, hwritten⟩ := signal_queued s hi u m
  obtain ⟨hserver, -, hthreads⟩ := signal_frame s i u (.messageReceived · m)
  have hpc : ((s.signal i u (.messageReceived · m)).setPc i pc').pc conn = s.pc conn := by
    rw [others_setPc _ i _ conn (Ne.symm hi)]
    unfold State.pc
    rw [hthreads]
  rw [count_expected, count_expected, hpc]
  show (carried ((s.signal i u _).written conn)).count t
    + (carried ((s.signal i u _).queued conn)).count t
    + (_ + List.count t (List.flatMap (history (s.signal i u _).server.db) _)) = _
  rw [hqueued, hwritten, hserver, carried_append, carried_replicate, List.count_append,
    List.count_replicate]
  simp only [beq_iff_eq, @eq_comm _ m.snowflake t]
  omega

theorem grows_sender {lo : Int} {s s' : State} {i conn : Nat} (h : SendsInv lo conn s)
    (hi : i ≠ conn) (hmove : SenderMove lo conn s i s') : Grows s s' i conn := by
  have hframe := senderFrame_of_move h hi hmove
  have hsame : s'.queued conn = s.queued conn → history s'.server.db = history s.server.db →
      Grows s s' i conn := by
    intro hqueued hhistory
    refine .same fun t => ?_
    rw [count_expected, count_expected, hframe.others conn (Ne.symm hi), hframe.written, hqueued,
      hhistory]
  cases hmove with
  | refused | started | failed | returned | stored | relocated => exact hsame rfl rfl
  | delivered => exact hsame (Function.update_of_ne (Ne.symm hi) _ _) rfl
  | @listed m hpc =>
      obtain ⟨ch, hc⟩ := Option.isSome_iff_exists.mp (h.listing i m hpc).1
      exact .listed hpc (self_setPc _ i _) (count_expected_listed hi hc _)
  | @announced m u us hpc =>
      exact .announced hpc (self_setPc _ i _)
        (count_expected_announced s hi m u _)

/-- Nothing that is expected is ever taken back. -/
theorem Grows.mono {s s' : State} {i conn : Nat} (h : Grows s s' i conn) (t : UInt64) :
    (expected s conn).count t ≤ (expected s' conn).count t := by
  cases h with
  | same h => exact Nat.le_of_eq (h t).symm
  | listed hpc hpc' h => exact h t ▸ Nat.le_add_right _ _
  | announced hpc hpc' h => exact h t ▸ Nat.le_add_right _ _

/-- A message being announced is listed. -/
theorem listed_of_announcing {lo : Int} {conn i : Nat} {s : State} (h : SendsInv lo conn s)
    {m : Message} {us : List UUID} (hpc : s.pc i = .announcing m us) :
    ∃ m', s.server.db.messages.lookup m.snowflake = some m'
      ∧ m.snowflake ∈ history s.server.db m'.channelId :=
  ⟨m, h.added i m (by rw [hpc]; rfl), (h.announcing i m us hpc).1⟩

/-- A user is a member of its channels. -/
theorem mem_members {db : Database} (h : MembershipInv db) {user : User}
    (hu : db.users.lookup user.uid = some user) {c : UUID} (hc : c ∈ user.channels) :
    user.uid ∈ members db c := by
  have hcount := h _ user hu c
  have hpos : 0 < user.channels.count c := List.count_pos_iff.mpr hc
  cases hlookup : db.channels.lookup c with
  | none =>
      rw [memberCount_none hlookup] at hcount
      omega
  | some ch =>
      rw [memberCount_some hlookup] at hcount
      rw [members_of_lookup hlookup, ← List.count_pos_iff]
      omega

/-- The connection of a user hears each signal of the user once. -/
theorem heard_connected {lo : Int} {conn : Nat} {s : State} (h : LoginInv lo conn s) {user : User}
    (hu : connectedUser s conn = some user) : heard s conn user.uid = 1 := by
  unfold heard
  rw [connectedUser_registered h hu, h.slotsConnected user hu, if_pos rfl]
  rfl

/-- What is being announced to the user still is after another thread's step, or is expected. -/
theorem caught_pending {lo : Int} {conn i j : Nat} {s s' : State} (h : LoginInv lo conn s)
    (hi : i ≠ conn) (hmove : SenderMove lo conn s i s') {user : User}
    (hu : connectedUser s conn = some user) {m : Message} {us : List UUID}
    (hpc : s.pc j = .announcing m us) (hus : user.uid ∈ us) :
    (∃ j us, s'.pc j = .announcing m us ∧ user.uid ∈ us) ∨ m.snowflake ∈ expected s' conn := by
  by_cases hj : j = i
  · subst hj
    cases hmove with
    | refused => exact Or.inl ⟨j, us, hpc, hus⟩
    | started hpc' hc =>
        rw [hpc] at hpc'
        cases hpc'
    | failed hpc' =>
        rw [hpc] at hpc'
        cases hpc'
    | stored hpc' hid hr =>
        rw [hpc] at hpc'
        cases hpc'
    | relocated hpc' hapart =>
        rw [hpc] at hpc'
        cases hpc'
    | listed hpc' =>
        rw [hpc] at hpc'
        cases hpc'
    | returned hpc' =>
        rw [hpc] at hpc'
        cases hpc'
        exact absurd hus List.not_mem_nil
    | delivered hpc' hqueued =>
        rw [hpc] at hpc'
        cases hpc'
    | @announced m' u us' hpc' =>
        rw [hpc] at hpc'
        cases hpc'
        rcases List.mem_cons.mp hus with rfl | hlater
        · refine Or.inr ?_
          rw [← List.count_pos_iff, count_expected_announced s hi, if_pos rfl,
            heard_connected h hu]
          exact Nat.succ_pos _
        · exact Or.inl ⟨j, us', self_setPc _ j _, hlater⟩
  · refine Or.inl ⟨j, us, ?_, hus⟩
    rw [(senderFrame_of_move h.sends hi hmove).others j hj]
    exact hpc

/-- **Preserved by every step of a sender.** -/
theorem loginInv_sender {lo : Int} {conn i : Nat} {s s' : State} (h : LoginInv lo conn s)
    (hi : i ≠ conn) (hmove : SenderMove lo conn s i s') : LoginInv lo conn s' := by
  have hsends := sendsInv_sender h.sends hi hmove
  have hframe := senderFrame_of_move h.sends hi hmove
  have hgrows := grows_sender h.sends hi hmove
  have hpc : s'.pc conn = s.pc conn := hframe.others conn (Ne.symm hi)
  have hconnected : connectedUser s' conn = connectedUser s conn := by
    unfold connectedUser
    rw [hpc, hframe.written]
  have hkept : ∀ t ∈ expected s conn, t ∈ expected s' conn := by
    intro t ht
    have hmono := hgrows.mono t
    have hpos := List.count_pos_iff.mpr ht
    exact List.count_pos_iff.mp (by omega)
  exact
    { sends := hsends
      keyed := fun uid user hu => h.keyed uid user (hframe.users ▸ hu)
      fresh := by
        rw [hpc, hframe.written, hframe.users]
        exact h.fresh
      begun := by
        rw [hpc, hframe.written]
        exact h.begun
      place := by
        intro c b ts cs hloop
        rw [hpc] at hloop
        rw [hframe.block c (by rw [hloop]; rfl)]
        exact h.place c b ts cs hloop
      registered := by
        rw [hframe.written, hframe.users]
        exact h.registered
      channels := hpc ▸ h.channels
      slotsBefore := by
        intro hnone hnot
        rw [hconnected] at hnone
        rw [hpc] at hnot
        have hbefore := h.slotsBefore hnone hnot
        unfold SlotsInv
        rw [hframe.slots, hframe.auth]
        exact hbefore
      slotsConnecting := by
        rw [hpc, hframe.slots]
        exact h.slotsConnecting
      slotsConnected := by
        rw [hconnected, hframe.slots]
        exact h.slotsConnected
      queued := by
        intro r hr
        rcases hframe.queued r hr with hold | ⟨m, us, -, rfl⟩
        · exact h.queued r hold
        · exact ⟨m, rfl⟩
      stored := by
        intro m hm
        rw [hframe.written] at hm
        rcases List.mem_append.mp hm with hw | hq
        · exact hframe.messages _ m (h.stored m (List.mem_append_left _ hw))
        · rcases hframe.queued _ hq with hold | ⟨m', us, hpc', heq⟩
          · exact hframe.messages _ m (h.stored m (List.mem_append_right _ hold))
          · cases heq
            exact hsends.added i m (by rw [hpc']; rfl)
      listed := by
        intro t ht
        -- what was expected stays stored and listed
        have hold : t ∈ expected s conn → ∃ m, s'.server.db.messages.lookup t = some m
            ∧ t ∈ history s'.server.db m.channelId := by
          intro ht
          obtain ⟨m, hm, hin⟩ := h.listed t ht
          exact ⟨m, hframe.messages t m hm, hframe.histories _ t hin⟩
        have hpos := List.count_pos_iff.mpr ht
        cases hgrows with
        | same hcount => exact hold (List.count_pos_iff.mp (hcount t ▸ hpos))
        | listed _ hpc' hcount | announced _ hpc' hcount =>
            rw [hcount] at hpos
            split at hpos
            · rename_i heq
              exact heq ▸ listed_of_announcing hsends hpc'
            · exact hold (List.count_pos_iff.mp hpos)
      caught := by
        intro user hu t m hm hc hin
        rw [hconnected] at hu
        rcases hframe.listed _ t hin with hold | ⟨m', hpc₀, hpc', heq⟩
        · -- what was listed was stored before the step
          obtain ⟨m', hm', -⟩ := stored_of_history h.sends.owned hold
          have hsame : m' = m := Option.some.inj ((hframe.messages t m' hm').symm.trans hm)
          subst hsame
          rcases h.caught user hu t m' hm' hc hold with ⟨j, us, hj, hus⟩ | hexpected
          · rw [← h.sends.keyed t m' hm']
            exact caught_pending h hi hmove hu hj hus
          · exact Or.inr (hkept t hexpected)
        · -- what is listed now is announced next, to the user too
          have hm' := hsends.added i m' (by rw [hpc']; rfl)
          rw [← heq, hm] at hm'
          cases hm'
          exact Or.inl ⟨i, _, hpc', mem_members h.sends.agree (connectedUser_registered h hu) hc⟩ }

/-! ## Steps of the login -/

/-- A step of the login that leaves the server and what is expected as they are. -/
theorem loginInv_of_frame {lo : Int} {conn : Nat} {s s' : State} (h : LoginInv lo conn s)
    (hsends : SendsInv lo conn s') (hserver : s'.server = s.server)
    (hothers : ∀ i, i ≠ conn → s'.pc i = s.pc i)
    (hconnected : connectedUser s' conn = connectedUser s conn)
    (hexpected : ∀ t, t ∈ expected s' conn ↔ t ∈ expected s conn)
    (hpc : ∀ user, s.pc conn ≠ .connecting user)
    (hpc' : ∀ user, s'.pc conn ≠ .connecting user ∧ s'.pc conn ≠ .greeting user)
    (hfresh : ∀ user, s'.pc conn = .disconnecting user →
      s'.server.db.users.lookup user.uid = some user ∧ greeted (s'.written conn) = none)
    (hbegun : Replaying (s'.pc conn) → (greeted (s'.written conn)).isSome)
    (hplace : InPlace s' (s'.pc conn))
    (hchannels : (remaining (s'.pc conn)).Nodup)
    (hqueued : ∀ r ∈ s'.queued conn, r ∈ s.queued conn)
    {rs : List Response} (hwritten : s'.written conn = s.written conn ++ rs)
    (hrs : ∀ m, .sendMessage (.ok m) ∈ rs →
      s.server.db.messages.lookup m.snowflake = some m) : LoginInv lo conn s' where
  sends := hsends
  keyed := hserver ▸ h.keyed
  fresh := by
    rintro user (hd | hc | hg)
    · exact hfresh user hd
    · exact absurd hc (hpc' user).1
    · exact absurd hg (hpc' user).2
  begun := hbegun
  place := hplace
  registered := by
    intro user hu
    rw [hserver]
    refine connectedUser_registered h ?_
    rw [← hconnected]
    unfold connectedUser
    split
    · rename_i user' hg
      exact absurd hg (hpc' user').2
    · exact hu
  channels := hchannels
  slotsBefore := by
    intro hnone _
    rw [hserver]
    exact h.slotsBefore (hconnected ▸ hnone) hpc
  slotsConnecting := fun user hc => absurd hc (hpc' user).1
  slotsConnected := by
    rw [hconnected, hserver]
    exact h.slotsConnected
  queued := fun r hr => h.queued r (hqueued r hr)
  stored := by
    intro m hm
    rw [hserver]
    rw [hwritten, List.append_assoc] at hm
    rcases List.mem_append.mp hm with hw | hm
    · exact h.stored m (List.mem_append_left _ hw)
    · rcases List.mem_append.mp hm with hnow | hq
      · exact hrs m hnow
      · exact h.stored m (List.mem_append_right _ (hqueued _ hq))
  listed := by
    intro t ht
    rw [hserver]
    exact h.listed t ((hexpected t).mp ht)
  caught := by
    intro user hu t m hm hc hin
    rw [hserver] at hm hin
    refine (h.caught user (hconnected ▸ hu) t m hm hc hin).imp ?_ (hexpected t).mpr
    rintro ⟨i, us, hi, hus⟩
    refine ⟨i, us, ?_, hus⟩
    -- the thread that logs in announces nothing
    rw [hothers i]
    · exact hi
    · rintro rfl
      have hrole := h.sends.roles.login
      rw [hi] at hrole
      exact hrole

theorem carried_nil {w : List Response} (h : ∀ r ∈ w, ∀ m, r ≠ .sendMessage (.ok m)) :
    carried w = [] := by
  unfold carried
  rw [List.filterMap_eq_nil_iff]
  intro r hr
  split
  · rename_i m
    exact absurd rfl (h _ hr m)
  · rfl

/-- The old user's signals are disconnected, and the connection hears nothing. -/
theorem loginInv_disconnected {lo : Int} {conn : Nat} {s s' : State} (h : LoginInv lo conn s)
    (hsends : SendsInv lo conn s') {user : User} (hpc : s.pc conn = .disconnecting user)
    (hpc' : s'.pc conn = .connecting user) (hdb : s'.server.db = s.server.db)
    (hslots : s'.server.slots = s.server.disconnected conn)
    (hwritten : s'.written conn = s.written conn) (hqueued : s'.queued conn = s.queued conn) :
    LoginInv lo conn s' := by
  obtain ⟨hregistered, hnobody⟩ := h.fresh user (Or.inl hpc)
  have hnone : connectedUser s conn = none := by
    unfold connectedUser
    rw [hpc]
    exact hnobody
  have hnone' : connectedUser s' conn = none := by
    unfold connectedUser
    rw [hpc', hwritten]
    exact hnobody
  -- the old slots are there once, so that disconnecting leaves none
  have hbefore := h.slotsBefore hnone (by simp [hpc])
  have hexpected : expected s' conn = expected s conn := by
    unfold expected
    rw [hpc, hpc', hwritten, hqueued]
    rfl
  exact
    { sends := hsends
      keyed := hdb ▸ h.keyed
      fresh := by
        rw [hpc', hwritten, hdb]
        rintro user' (hd | hc | hg)
        · cases hd
        · cases hc
          exact ⟨hregistered, hnobody⟩
        · cases hg
      begun := by
        rw [hpc']
        exact False.elim
      place := by
        rw [hpc']
        exact inPlace_of_ne (by simp)
      registered := by
        rw [hwritten, hnobody]
        intro user' hu
        cases hu
      channels := by
        rw [hpc']
        exact List.nodup_nil
      slotsBefore := fun _ hnot => absurd hpc' (hnot user)
      slotsConnecting := by
        intro _ _ v kind
        rw [hslots, count_disconnected hbefore, if_pos rfl]
      slotsConnected := by
        rw [hnone']
        intro user' hu
        cases hu
      queued := hqueued ▸ h.queued
      stored := by
        rw [hwritten, hqueued, hdb]
        exact h.stored
      listed := by
        rw [hexpected, hdb]
        exact h.listed
      caught := by
        rw [hnone']
        intro user' hu
        cases hu }

theorem expected_connected {conn : Nat} {s s' : State} {user : User}
    (hpc : s.pc conn = .connecting user) (hpc' : s'.pc conn = .greeting user)
    (hdb : s'.server.db = s.server.db) (hwritten : s'.written conn = s.written conn)
    (hqueued : s'.queued conn = s.queued conn) :
    expected s' conn = expected s conn ++ user.channels.flatMap (history s.server.db) := by
  unfold expected
  rw [hpc, hpc', hwritten, hqueued, hdb]
  simp [toReplay, snapshot, remaining]

/-- The new user's are connected, and all of the user's channels are still to be read. -/
theorem loginInv_connected {lo : Int} {conn : Nat} {s s' : State} (h : LoginInv lo conn s)
    (hsends : SendsInv lo conn s') {user : User} (hpc : s.pc conn = .connecting user)
    (hpc' : s'.pc conn = .greeting user) (hdb : s'.server.db = s.server.db)
    (hslots : s'.server.slots = s.server.slots ++ Server.slotsOf conn user.uid)
    (hwritten : s'.written conn = s.written conn) (hqueued : s'.queued conn = s.queued conn) :
    LoginInv lo conn s' := by
  obtain ⟨hregistered, hnobody⟩ := h.fresh user (Or.inr (Or.inl hpc))
  have hsome : connectedUser s' conn = some user := by
    unfold connectedUser
    rw [hpc']
  have hexpected := expected_connected hpc hpc' hdb hwritten hqueued
  exact
    { sends := hsends
      keyed := hdb ▸ h.keyed
      fresh := by
        rw [hpc', hwritten, hdb]
        rintro user' (hd | hc | hg)
        · cases hd
        · cases hc
        · cases hg
          exact ⟨hregistered, hnobody⟩
      begun := by
        rw [hpc']
        exact False.elim
      place := by
        rw [hpc']
        exact inPlace_of_ne (by simp)
      registered := by
        rw [hwritten, hnobody]
        intro user' hu
        cases hu
      channels := by
        rw [hpc']
        exact channels_nodup h.sends.agree h.sends.once hregistered
      slotsBefore := by
        rw [hsome]
        intro hnone
        cases hnone
      slotsConnecting := by
        rw [hpc']
        intro user' hc
        cases hc
      slotsConnected := by
        rw [hsome]
        intro user' hu v kind
        cases hu
        -- none was left, and now there is one of each
        rw [hslots, List.count_append, h.slotsConnecting user hpc, count_slotsOf]
        simp
      queued := hqueued ▸ h.queued
      stored := by
        rw [hwritten, hqueued, hdb]
        exact h.stored
      listed := by
        rw [hexpected, hdb]
        intro t ht
        rcases List.mem_append.mp ht with hold | hnew
        · exact h.listed t hold
        · obtain ⟨c, -, hc⟩ := List.mem_flatMap.mp hnew
          obtain ⟨m, hm, rfl⟩ := stored_of_history h.sends.owned hc
          exact ⟨m, hm, hc⟩
      caught := by
        rw [hsome, hexpected, hdb]
        intro user' hu t m hm hc hin
        cases hu
        -- all that is listed by now is still to be read
        exact Or.inr (List.mem_append_right _ (List.mem_flatMap.mpr ⟨_, hc, hin⟩)) }

/-- Frames after which the same user is greeted. -/
theorem greeted_append_none {w w' : List Response}
    (h : ∀ r ∈ w', ∀ user, r ≠ .login (.ok user)) : greeted (w ++ w') = greeted w := by
  rw [greeted_append, greeted_none h, Option.or_none]

/-- The frames of a replay greet nobody. -/
theorem greeted_replayed {db : Database} {w rs : List Response}
    (h : ∀ r ∈ rs, (∃ ch, r = .createChannel (.ok ch))
      ∨ ∃ m, r = .sendMessage (.ok m) ∧ db.messages.lookup m.snowflake = some m) :
    greeted (w ++ rs) = greeted w := by
  refine greeted_append_none fun r hr user => ?_
  rcases h r hr with ⟨ch, rfl⟩ | ⟨m, rfl, -⟩
  · simp
  · simp

/-- What the replay writes it had yet to read, and what is delivered was queued. -/
theorem count_expected_login {conn : Nat} {s s' : State} (hmove : LoginMove s conn s')
    (hpc : ∀ user, s.pc conn ≠ .connecting user) (t : UInt64) :
    (expected s' conn).count t = (expected s conn).count t := by
  unfold expected
  cases hmove with
  | refused rs hidle hrs =>
      have hnothing : carried rs = [] := by
        refine carried_nil fun r hr m => ?_
        obtain ⟨e, rfl⟩ := hrs r hr
        simp
      rw [written_write, carried_append, hnothing, List.append_nil]
      rfl
  | @accepted uid user hidle hnew hu =>
      rw [self_setPc, hidle]
      rfl
  | @disconnected user hdis =>
      rw [hdis]
      show List.count t (_ ++ _ ++ toReplay _ ((s.setPc conn _).pc conn)) = _
      rw [self_setPc]
      rfl
  | @connected user hcon => exact absurd hcon (hpc user)
  | @greeted user hgreet =>
      rw [self_setPc, hgreet]
      show List.count t (carried ((s.write conn _).written conn) ++ _ ++ _) = _
      rw [written_write, carried_append, carried_nil (w := [.login (.ok user)]) (by simp),
        List.append_nil]
      rfl
  | replayed pc' rs hloop hpc' hrest hchannels hplace hrs =>
      rw [self_setPc]
      show List.count t (carried ((s.write conn rs).written conn) ++ carried (s.queued conn)
        ++ toReplay s.server.db pc') = _
      rw [written_write, carried_append, ← hrest]
      simp only [List.count_append]
      omega
  | @delivered r rs hidle hqueued =>
      show List.count t (carried ((s.write conn [r]).written conn)
        ++ carried (Function.update s.queued conn rs conn) ++ toReplay s.server.db (s.pc conn)) = _
      have hnow : carried (r :: rs) = carried [r] ++ carried rs := carried_append [r] rs
      rw [written_write, carried_append, Function.update_self, hqueued, hnow]
      simp only [List.append_assoc]

/-- Only the connection of the user's signals makes the connection expect more. -/
theorem expected_login {conn : Nat} {s s' : State} (hmove : LoginMove s conn s') :
    (∀ t, (expected s' conn).count t = (expected s conn).count t)
      ∨ ∃ user, s.pc conn = .connecting user
        ∧ expected s' conn = expected s conn ++ user.channels.flatMap (history s.server.db) := by
  have hsame := count_expected_login hmove
  cases hmove with
  | refused rs hpc hrs => exact Or.inl (hsame (by simp [hpc]))
  | accepted hpc hnew hu => exact Or.inl (hsame (by simp [hpc]))
  | disconnected hpc => exact Or.inl (hsame (by simp [hpc]))
  | greeted hpc => exact Or.inl (hsame (by simp [hpc]))
  | delivered hpc hqueued => exact Or.inl (hsame (by simp [hpc]))
  | replayed pc' rs hpc hpc' hrest hchannels hplace hrs =>
      refine Or.inl (hsame fun user hc => ?_)
      rw [hc] at hpc
      exact hpc
  | @connected user hpc =>
      have hpc' := self_setPc s conn (.greeting user)
      exact Or.inr ⟨user, hpc, expected_connected hpc (by exact hpc') rfl rfl rfl⟩

/-- A step that leaves the connection's thread at rest, whatever it writes. -/
theorem loginInv_of_idle {lo : Int} {conn : Nat} {s s' : State} (h : LoginInv lo conn s)
    (hsends : SendsInv lo conn s') (hserver : s'.server = s.server)
    (hothers : ∀ i, i ≠ conn → s'.pc i = s.pc i)
    (hconnected : connectedUser s' conn = connectedUser s conn)
    (hexpected : ∀ t, t ∈ expected s' conn ↔ t ∈ expected s conn)
    (hpc : ∀ user, s.pc conn ≠ .connecting user) (hidle : s'.pc conn = .idle)
    (hqueued : ∀ r ∈ s'.queued conn, r ∈ s.queued conn)
    {rs : List Response} (hwritten : s'.written conn = s.written conn ++ rs)
    (hrs : ∀ m, .sendMessage (.ok m) ∈ rs →
      s.server.db.messages.lookup m.snowflake = some m) : LoginInv lo conn s' := by
  refine loginInv_of_frame h hsends hserver hothers hconnected hexpected hpc (by simp [hidle])
    (by simp [hidle]) ?_ ?_ ?_ hqueued hwritten hrs
  · rw [hidle]
    exact False.elim
  · rw [hidle]
    exact inPlace_of_ne (by simp)
  · rw [hidle]
    exact List.nodup_nil

/-- **Preserved by every step of the login.** -/
theorem loginInv_login {lo : Int} {conn : Nat} {s s' : State} (h : LoginInv lo conn s)
    (hmove : LoginMove s conn s') : LoginInv lo conn s' := by
  have hsends := sendsInv_login h.sends hmove
  have hexpected : (∀ user, s.pc conn ≠ .connecting user) →
      ∀ t, t ∈ expected s' conn ↔ t ∈ expected s conn := by
    intro hpc t
    rw [← List.count_pos_iff, ← List.count_pos_iff, count_expected_login hmove hpc]
  cases hmove with
  | refused rs hpc hrs =>
      have hpc' : (s.write conn rs).pc conn = .idle := hpc
      refine loginInv_of_idle h hsends rfl (fun i hi => rfl) ?_ (hexpected (by simp [hpc]))
        (by simp [hpc]) hpc' (fun r hr => hr) (written_write s conn rs) ?_
      · rw [connectedUser_eq (by simp [hpc']), connectedUser_eq (by simp [hpc]), written_write]
        refine greeted_append_none fun r hr user => ?_
        obtain ⟨e, rfl⟩ := hrs r hr
        simp
      · intro m hm
        obtain ⟨e, he⟩ := hrs _ hm
        cases he
  | @accepted uid user hpc hnew hu =>
      have hpc' := self_setPc s conn (.disconnecting user)
      refine loginInv_of_frame h hsends rfl (others_setPc s conn _) ?_ (hexpected (by simp [hpc]))
        (by simp [hpc]) (by simp [hpc']) ?_ (by rw [hpc']; exact False.elim)
        (by rw [hpc']; exact inPlace_of_ne (by simp)) (by rw [hpc']; exact List.nodup_nil)
        (fun r hr => hr) (List.append_nil _).symm (by simp)
      · rw [connectedUser_eq (by simp [hpc']), connectedUser_eq (by simp [hpc])]
        rfl
      · rw [hpc']
        intro user' heq
        cases heq
        have huid : user.uid = uid := h.keyed uid user hu
        exact ⟨huid ▸ hu, hnew⟩
  | @disconnected user hpc =>
      exact loginInv_disconnected h hsends hpc (self_setPc s conn _) rfl rfl rfl rfl
  | @connected user hpc =>
      exact loginInv_connected h hsends hpc (self_setPc s conn _) rfl rfl rfl rfl
  | @greeted user hpc =>
      have hpc' := self_setPc (s.write conn [.login (.ok user)]) conn (.replaying user.channels)
      have hgreeted : greeted (s.written conn ++ [.login (.ok user)]) = some user := by
        rw [greeted_append, (h.fresh user (Or.inr (Or.inr hpc))).2]
        rfl
      refine loginInv_of_frame h hsends rfl (others_setPc _ conn _) ?_ (hexpected (by simp [hpc]))
        (by simp [hpc]) (by simp [hpc']) (by simp [hpc']) ?_
        (by rw [hpc']; exact inPlace_of_ne (by simp)) ?_ (fun r hr => hr)
        (written_write s conn [.login (.ok user)]) (by simp)
      · unfold connectedUser
        rw [hpc, hpc']
        exact (congrArg _ (written_write _ _ _)).trans hgreeted
      · intro _
        show (greeted ((s.write conn _).written conn)).isSome
        rw [written_write, hgreeted]
        rfl
      · have hchannels := h.channels
        rw [hpc] at hchannels
        rw [hpc']
        exact hchannels
  | replayed pc' rs hpc hpc' hrest hchannels hplace hrs =>
      have hself := self_setPc (s.write conn rs) conn pc'
      have hgreeted : greeted ((s.write conn rs).written conn) = greeted (s.written conn) := by
        rw [written_write]
        exact greeted_replayed hrs
      -- a loop is not one of the places before it
      have hloop : ∀ {pc}, Replaying pc ∨ pc = .idle → ∀ user, pc ≠ .disconnecting user
          ∧ pc ≠ .connecting user ∧ pc ≠ .greeting user := by
        rintro pc (hpc | rfl) user
        · refine ⟨?_, ?_, ?_⟩ <;> rintro rfl <;> exact hpc
        · simp
      refine loginInv_of_frame h hsends rfl (others_setPc _ conn _) ?_
        (hexpected fun user => (hloop (Or.inl hpc) user).2.1)
        (fun user => (hloop (Or.inl hpc) user).2.1) ?_ ?_ ?_ ?_ ?_ (fun r hr => hr)
        (written_write s conn rs) ?_
      · rw [connectedUser_eq fun user => (hloop (Or.inl hpc) user).2.2]
        rw [connectedUser_eq fun user => hself.symm ▸ (hloop hpc' user).2.2]
        exact hgreeted
      · rw [hself]
        exact fun user => (hloop hpc' user).2
      · rw [hself]
        exact fun user hd => absurd hd (hloop hpc' user).1
      · intro _
        show (greeted ((s.write conn rs).written conn)).isSome
        rw [hgreeted]
        exact h.begun hpc
      · rw [hself]
        exact hplace
      · rw [hself]
        exact h.channels.sublist hchannels
      · intro m hm
        rcases hrs _ hm with ⟨ch, hch⟩ | ⟨m', hm', hlookup⟩
        · cases hch
        · cases hm'
          exact hlookup
  | @delivered r rs hpc hqueued =>
      have hr : r ∈ s.queued conn := hqueued ▸ List.mem_cons_self
      obtain ⟨m, rfl⟩ := h.queued r hr
      have hrest : Function.update s.queued conn rs conn = rs := Function.update_self ..
      have hpc' : ({ s.write conn [.sendMessage (.ok m)] with
          queued := Function.update s.queued conn rs } : State).pc conn = .idle := hpc
      refine loginInv_of_idle h hsends rfl (fun i hi => rfl) ?_ (hexpected (by simp [hpc]))
        (by simp [hpc]) hpc' ?_ (written_write _ _ _) ?_
      · rw [connectedUser_eq (by simp [hpc']), connectedUser_eq (by simp [hpc])]
        show greeted ((s.write conn _).written conn) = _
        rw [written_write]
        exact greeted_append_none (by simp)
      · intro r' hr'
        rw [hqueued]
        exact List.mem_cons_of_mem _ (hrest ▸ hr')
      · intro m' hm'
        rw [List.mem_singleton] at hm'
        cases hm'
        exact h.stored m (List.mem_append_right _ hr)

/-- A step is a step of the login, or of a sender. -/
theorem move_of_step [External] {lo : Int} {conn : Nat} {s s' : State} {a : Nat × Act}
    (h : LoginInv lo conn s) (hg : LoginAmongSends lo conn s a)
    (hs : Threads.step s a = some s') :
    (a.1 = conn ∧ LoginMove s conn s') ∨ (a.1 ≠ conn ∧ SenderMove lo conn s a.1 s') := by
  obtain ⟨i, act⟩ := a
  by_cases hi : i = conn
  · subst hi
    refine Or.inl ⟨rfl, loginMove_of_step h.sends.roles.login h.sends.keyed ?_ h.place hg hs⟩
    intro t ht
    obtain ⟨m, hm, -⟩ := h.listed t (List.mem_append_right _ ht)
    exact ⟨m, hm⟩
  · exact Or.inr ⟨hi, senderMove_of_step (h.sends.roles.send i hi) hi hg hs⟩

/-- **Preserved by every step of a login among sends.** -/
theorem loginInv_step [External] {lo : Int} {conn : Nat} {s s' : State} {a : Nat × Act}
    (h : LoginInv lo conn s) (hg : LoginAmongSends lo conn s a)
    (hs : Threads.step s a = some s') : LoginInv lo conn s' := by
  rcases move_of_step h hg hs with ⟨-, hmove⟩ | ⟨hi, hmove⟩
  · exact loginInv_login h hmove
  · exact loginInv_sender h hi hmove

/-! ## Where serial requests lead -/

/-- The clock stays in one span from the epoch, and a channel names its first members once each. -/
def Settled (k : Int) (s : Server) (call : Server.Call) : Prop :=
  NamesMembersOnce s call ∧ Asks (fun _ op => ReadingsWithin (spanStart k) op) s call

instance (k : Int) (s : Server) (call : Server.Call) : Decidable (Settled k s call) :=
  inferInstanceAs (Decidable (_ ∧ _))

/-- What settled requests keep. -/
structure SettledInv (k : Int) (s : Server) : Prop where
  listings : ListingsInv s
  users : UsersKeyed s.db
  keyed : Keyed s.db
  stamped : Stamped (spanStart k) s.db
  owned : HistoryOwned s.db
  sorted : HistorySorted s.db

theorem settledInv_reachable [External] {k : Int} {server : Server}
    (h : Server.system.Reachable (Settled k) server) : SettledInv k server := by
  refine h.invariant (P := SettledInv k) ?_ ?_
  · exact
      { listings := listingsInv_init
        users := usersKeyed_init
        keyed := keyed_init
        stamped := stamped_init _
        owned := historyOwned_init
        sorted := historySorted_init }
  · intro s call s' _ hi hg hs
    have hr := hg.2
    exact
      { listings := listingsInv_step hi.listings hg.1 hs
        users := db_step (fun h _ he => usersKeyed_step h he) hi.users hr hs
        keyed := db_step (fun h _ he => keyed_step h he) hi.keyed hr hs
        stamped := db_step stamped_step hi.stamped hr hs
        owned := by
          refine db_step historyOwned_step hi.owned (fun op hop => ?_) hs
          exact freshSnowflake_of_stamped hi.stamped (hr op hop)
        sorted := by
          refine db_step (P := HistorySorted)
            (G := fun db op => db = s.db ∧ ReadingsWithin (spanStart k) op) ?_ hi.sorted
            (fun op hop => ⟨rfl, hr op hop⟩) hs
          rintro db db' op hsorted ⟨rfl, hread⟩ he
          exact historySorted_step hsorted hi.owned hi.stamped hread he }

/-- At rest, nothing is written, queued or left to read. -/
theorem loginInv_start {k : Int} {server : Server} (h : SettledInv k server) (conn : Nat) :
    LoginInv (spanStart k) conn (start server) := by
  have hidle : ∀ i, (start server).pc i = .idle := fun i => rfl
  exact
    { sends :=
        { roles := ⟨trivial, fun i _ => trivial⟩
          keyed := h.keyed
          stamped := h.stamped
          owned := h.owned
          nodup := by
            intro c
            unfold history
            cases hc : (start server).server.db.channels.lookup c with
            | none => exact List.nodup_nil
            | some ch => exact (h.sorted c ch hc).imp UInt64.ne_of_lt
          once := h.listings.once
          agree := h.listings.agree
          storing := by simp [hidle]
          added := by simp [hidle, adding]
          listing := by simp [hidle]
          announcing := by simp [hidle]
          apart := by simp [hidle, adding] }
      keyed := h.users
      fresh := by simp [hidle]
      begun := False.elim
      place := by
        rw [hidle]
        exact inPlace_of_ne (by simp)
      registered := by
        intro user hu
        cases hu
      channels := List.nodup_nil
      slotsBefore := fun _ _ => h.listings.slots
      slotsConnecting := by simp [hidle]
      slotsConnected := by
        intro user hu
        cases hu
      queued := by
        intro r hr
        cases hr
      stored := by
        intro m hm
        cases hm
      listed := by
        intro t ht
        cases ht
      caught := by
        intro user hu
        cases hu }

theorem loginInv_reachable [External] {k : Int} {server : Server} {conn : Nat} {s : State}
    (hserver : Server.system.Reachable (Settled k) server)
    (h : (Threads.system server).Reachable (LoginAmongSends (spanStart k) conn) s) :
    LoginInv (spanStart k) conn s := by
  refine h.invariant (loginInv_start (settledInv_reachable hserver) conn) ?_
  intro s a s' _ hi hg hs
  exact loginInv_step hi hg hs

end SockEtOut.Proof
