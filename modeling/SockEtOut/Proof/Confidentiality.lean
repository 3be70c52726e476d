import SockEtOut.Proof.Serving

/-!
# Channel confidentiality

A frame that carries a channel or a message goes to a connection whose user the
channel lists. Notifications owe this to `Entitled` and `SlotsInv`. The replay of
a login reads the user's own channel list, so it owes it to the agreement of the
two sides of membership, and to histories listing nothing but their own channel's
messages.

The last is where the clock comes in. Two ids drawn `2 ^ 41` milliseconds apart
can be the same, the message table keeps the message it has, and the channel that
lists the second message then replays the first.
-/

namespace SockEtOut.Proof

open Lib System

variable {s : Server} {call : Server.Call}

/-- What a frame carries is of a channel that lists the user it is written to. -/
def Confidential (db : Database) (authenticated : Option UUID) : Response → Prop
  | .createChannel (.ok channel) => ∃ u, u ∈ authenticated ∧ u ∈ channel.userUids
  | .sendMessage (.ok message) | .deleteMessage (.ok message) =>
      ∃ u, u ∈ authenticated
        ∧ ∃ channel, channel ∈ db.channels.lookup message.channelId ∧ u ∈ channel.userUids
  | _ => True

instance (db : Database) (authenticated : Option UUID) :
    (r : Response) → Decidable (Confidential db authenticated r)
  | .createChannel (.ok channel) =>
      inferInstanceAs (Decidable (∃ u, u ∈ authenticated ∧ u ∈ channel.userUids))
  | .sendMessage (.ok message) | .deleteMessage (.ok message) =>
      inferInstanceAs (Decidable (∃ u, u ∈ authenticated
        ∧ ∃ channel, channel ∈ db.channels.lookup message.channelId ∧ u ∈ channel.userUids))
  | .createChannel (.error _) | .sendMessage (.error _) | .deleteMessage (.error _)
  | .registerAccount _ | .login _ | .listAccounts _ | .deleteAccount _ =>
      inferInstanceAs (Decidable True)

theorem confidential_of_quiet {db : Database} {authenticated : Option UUID} {r : Response}
    (h : Quiet r) : Confidential db authenticated r := by
  cases r with
  | createChannel data => cases data <;> trivial
  | sendMessage data => cases data <;> trivial
  | deleteMessage data => cases data <;> trivial
  | _ => trivial

/-- A notification is confidential to the user it is emitted on. -/
theorem confidential_of_entitled {db : Database} {sig : Signal} (h : Entitled db sig) :
    Confidential db (some sig.user) sig.response := by
  cases sig with
  | channelAdded u ch => exact ⟨u, rfl, h⟩
  | messageReceived u m =>
      obtain ⟨ch, hch, hu⟩ := h
      exact ⟨u, rfl, ch, hch, hu⟩
  | messageDeleted u m =>
      obtain ⟨ch, hch, hu⟩ := h
      exact ⟨u, rfl, ch, hch, hu⟩

/-- The replay of a login is confidential to the user that logs in. -/
theorem confidential_of_replay {db : Database} (hmembers : MembershipInv db)
    (howned : HistoryOwned db) {u : UUID} {user : User} (hu : db.users.lookup u = some user)
    {r : Response} (h : r ∈ Server.replay db user) : Confidential db (some u) r := by
  obtain ⟨c, hc, ch, hch, hr⟩ := Server.mem_replay h
  -- the user lists the channel, so the channel lists the user
  obtain ⟨ch', hch', hlisted⟩ := channel_found hmembers hu hc
  have hfound : ch' = ch := Option.some.inj (hch'.symm.trans hch)
  subst hfound
  rcases hr with rfl | ⟨t, ht, m, hm, rfl⟩
  · exact ⟨u, rfl, hlisted⟩
  · obtain ⟨m', hm', hchan⟩ := (howned c ch' hch).2 t ht
    have hsame : m' = m := Option.some.inj (hm'.symm.trans hm)
    subst hsame
    exact ⟨u, rfl, ch', by rw [hchan]; exact hch, hlisted⟩

/-- A frame of a concluded handler is a notification, or part of the reply. -/
theorem mem_conclude_written {α : Type} {ret : Ret α}
    {reply : Except Str α → List (Nat × Response)} {p : Nat × Response}
    (h : p ∈ (s.conclude ret reply).written) :
    (∃ sig ∈ ret.emitted, p ∈ s.deliver sig) ∨ ∃ res, p ∈ reply res := by
  unfold Server.conclude at h
  dsimp only at h
  split at h
  · rcases List.mem_append.mp h with hp | hp
    · exact Or.inl (List.mem_flatMap.mp hp)
    · exact Or.inr ⟨_, hp⟩
  · exact Or.inl (List.mem_flatMap.mp h)
  · exact Or.inl (List.mem_flatMap.mp h)

/-- Confidential by the member lists before the request and by those after it. -/
theorem confidential_receive [External] (h : ServerInv s) {p : Nat × Response}
    (hp : p ∈ (s.receive call).written) :
    Confidential s.db ((s.receive call).server.authenticatedUser p.1) p.2
      ∧ Confidential (s.receive call).server.db
          ((s.receive call).server.authenticatedUser p.1) p.2 := by
  have hhandled := handling_of_receive s call
  generalize s.receive call = handled at hp hhandled
  cases hhandled with
  | answered outcome responses hquiet =>
      obtain ⟨r, hr, rfl⟩ := List.mem_map.mp hp
      exact ⟨confidential_of_quiet (hquiet r hr), confidential_of_quiet (hquiet r hr)⟩
  | @loggedIn uid user hu =>
      rcases List.mem_cons.mp hp with rfl | hp
      · exact ⟨trivial, trivial⟩
      · obtain ⟨r, hr, rfl⟩ := List.mem_map.mp hp
        have hauth : (s.setAuthenticatedUser call.conn uid).authenticatedUser call.conn
            = some uid := Function.update_self _ _ _
        have hconf := confidential_of_replay h.members h.owned hu hr
        dsimp only
        rw [hauth]
        exact ⟨hconf, hconf⟩
  | called op hop heffect hentitled hquiet =>
      rw [conclude_server]
      rcases mem_conclude_written hp with ⟨sig, hsig, hp⟩ | ⟨res, hp⟩
      · obtain ⟨conn, r⟩ := p
        have hframe := mem_framesFor.mpr hp
        rw [framesFor_deliver h.slots] at hframe
        obtain ⟨hbefore, hafter⟩ := hentitled h.owned sig hsig
        -- the connection has authenticated the user the signal was emitted on
        split at hframe
        · rename_i hauth
          rw [List.mem_singleton.mp hframe]
          dsimp only
          rw [hauth]
          exact ⟨confidential_of_entitled hbefore, confidential_of_entitled hafter⟩
        · exact absurd hframe List.not_mem_nil
      · exact ⟨confidential_of_quiet (hquiet res p hp), confidential_of_quiet (hquiet res p hp)⟩

/-! ## Over whole runs -/

/-- New UUIDs, and a clock that stays in one span. -/
def FreshInSpan (lo : Int) (db : Database) (op : Database.Op) : Prop :=
  db.FreshUids op ∧ ReadingsWithin lo op

instance (lo : Int) (db : Database) (op : Database.Op) : Decidable (FreshInSpan lo db op) :=
  inferInstanceAs (Decidable (_ ∧ _))

theorem serverInv_reachable [External] {lo : Int}
    (h : Server.system.Reachable (Asks (FreshInSpan lo)) s) : ServerInv s ∧ Stamped lo s.db := by
  refine h.invariant (P := fun s => ServerInv s ∧ Stamped lo s.db)
    ⟨serverInv_init, stamped_init lo⟩ ?_
  rintro s call s' _ ⟨hinv, hstamped⟩ hg hs
  refine ⟨serverInv_step hinv (fun op hop => (hg op hop).1) ?_ hs, ?_⟩
  · exact fun op hop => freshSnowflake_of_stamped hstamped (hg op hop).2
  · exact db_step (fun h hg he => stamped_step h hg.2 he) hstamped hg hs

/--
**Channel confidentiality.** In a run whose clock readings all lie in one span of
`2 ^ 41` milliseconds, whatever frame a request causes to be written to whatever
connection, the channel it is about lists the user that connection has
authenticated: both when the request arrives and when it has been handled.
-/
theorem channel_confidential [External] {lo : Int}
    (h : Server.system.Reachable (Asks (FreshInSpan lo)) s) (call : Server.Call) :
    ∀ p ∈ (s.receive call).written,
      Confidential s.db ((s.receive call).server.authenticatedUser p.1) p.2
        ∧ Confidential (s.receive call).server.db
            ((s.receive call).server.authenticatedUser p.1) p.2 := by
  intro p hp
  exact confidential_receive (serverInv_reachable h).1 hp

/-- Alice (1) and Bob (2) register, share channel 7, and both log in. -/
def sharedChannel : List Server.Call :=
  [⟨0, .registerAccount (lit "alice") (lit "secret") (lit "Alice"), .ofByte 1 []⟩,
    ⟨1, .registerAccount (lit "bob") (lit "secret") (lit "Bob"), .ofByte 2 []⟩,
    ⟨0, .createChannel (lit "plans") [.ofByte 1, .ofByte 2], .ofByte 7 []⟩,
    ⟨0, .login (lit "alice") (lit "secret"), .ofByte 0 []⟩,
    ⟨1, .login (lit "bob") (lit "secret"), .ofByte 0 []⟩]

theorem sharedChannel_runs :
    ((@Server.system .sample).exec (Asks (FreshInSpan epoch)) Server.new sharedChannel).isSome := by
  decide

/-- A message of channel `c`, to connection `conn`. -/
def carries (conn : Nat) (c : UUID) (p : Nat × Response) : Bool :=
  match p.2 with
  | .sendMessage (.ok message) => p.1 == conn && message.channelId == c
  | _ => false

theorem conn_of_carries {conn : Nat} {c : UUID} {p : Nat × Response} (h : carries conn c p) :
    p.1 = conn := by
  unfold carries at h
  split at h
  · rw [Bool.and_eq_true, beq_iff_eq] at h
    exact h.1
  · exact absurd h (by simp)

def aliceGreets : Server.Call :=
  ⟨0, .sendMessage (.ofByte 1) (.ofByte 7) (lit "hi"), .ofByte 0 [epoch + 5]⟩

/-- Alice says something, and Bob's connection is told. -/
theorem channel_confidential_sharedChannel :
    ∃ s, (@Server.system .sample).Reachable (Asks (FreshInSpan epoch)) s
      ∧ ∃ p ∈ (@Server.receive .sample s aliceGreets).written,
          carries 1 (.ofByte 7) p ∧ Confidential s.db (some (.ofByte 2)) p.2 := by
  have hr := Reachable.exec_get sharedChannel_runs
  have hany : (@Server.receive .sample (((@Server.system .sample).exec (Asks (FreshInSpan epoch))
      Server.new sharedChannel).get sharedChannel_runs) aliceGreets).written.any
        (carries 1 (.ofByte 7)) := by decide
  obtain ⟨p, hp, hcarries⟩ := List.any_eq_true.mp hany
  have hconf := (@channel_confidential _ .sample _ hr aliceGreets p hp).1
  rw [conn_of_carries hcarries] at hconf
  exact ⟨_, hr, p, hp, hcarries, hconf⟩

/-- Alice and Bob each have a channel to themselves, and one id serves a message in either. -/
def sharedId : List Server.Call :=
  [⟨0, .registerAccount (lit "alice") (lit "secret") (lit "Alice"), .ofByte 1 []⟩,
    ⟨1, .registerAccount (lit "bob") (lit "secret") (lit "Bob"), .ofByte 2 []⟩,
    ⟨0, .createChannel (lit "plans") [.ofByte 1], .ofByte 7 []⟩,
    ⟨1, .createChannel (lit "party") [.ofByte 2], .ofByte 8 []⟩,
    ⟨0, .sendMessage (.ofByte 1) (.ofByte 7) (lit "mine"), .ofByte 0 [epoch + 5]⟩,
    ⟨1, .sendMessage (.ofByte 2) (.ofByte 8) (lit "hers"), .ofByte 0 [epoch + 5 + idSpan]⟩]

theorem sharedId_runs :
    ((@Server.system .sample).exec (Asks Database.FreshUids) Server.new sharedId).isSome := by
  decide

def bobLogsIn : Server.Call :=
  ⟨1, .login (lit "bob") (lit "secret"), .ofByte 0 []⟩

/-- Bob logs in, and the replay of his channel carries Alice's message. -/
theorem not_confidential_sharedId :
    ∃ s, (@Server.system .sample).Reachable (Asks Database.FreshUids) s
      ∧ (@Server.receive .sample s bobLogsIn).server.authenticatedUser 1 = some (.ofByte 2)
      ∧ ∃ p ∈ (@Server.receive .sample s bobLogsIn).written,
          carries 1 (.ofByte 7) p
            ∧ ¬ Confidential (@Server.receive .sample s bobLogsIn).server.db
                (some (.ofByte 2)) p.2 := by
  have hr := Reachable.exec_get sharedId_runs
  have hany : (@Server.receive .sample (((@Server.system .sample).exec (Asks Database.FreshUids)
      Server.new sharedId).get sharedId_runs) bobLogsIn).written.any fun p =>
        carries 1 (.ofByte 7) p && ¬ Confidential (((@Server.system .sample).exec
          (Asks Database.FreshUids) Server.new sharedId).get sharedId_runs).db
            (some (.ofByte 2)) p.2 := by decide
  obtain ⟨p, hp, htest⟩ := List.any_eq_true.mp hany
  rw [Bool.and_eq_true, decide_eq_true_eq] at htest
  exact ⟨_, hr, by decide, p, hp, htest.1, htest.2⟩

end SockEtOut.Proof
