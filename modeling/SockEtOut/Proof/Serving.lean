import SockEtOut.Proof.Membership
import SockEtOut.Proof.Notifications

/-!
# What handling one request does

`Handling` is to the server what `Effect` is to the database. A handled request
either answers its own connection and changes nothing, or logs its connection in,
or is one operation of the database together with the notifications it causes.

What the database keeps, the server therefore keeps: an invariant of the
operations is an invariant of the requests, once the guard on operations is read
as a guard on the requests that ask for them.
-/

namespace SockEtOut.Proof

open Lib System

variable {s s' : Server} {call : Server.Call}

/-- The operation of the database a request asks for. -/
def operation (s : Server) (call : Server.Call) : Option Database.Op :=
  match call.request with
  | .registerAccount username password displayName =>
      some (.addUser call.draws.uid username displayName password call.draws.salt)
  | .login .. | .listAccounts _ => none
  | .deleteAccount username _ => (s.db.users.getUidFromUsername username).map .removeUser
  | .createChannel channelName members => some (.addChannel call.draws.uid channelName members)
  | .sendMessage senderUid channelUid text =>
      some (.addMessage senderUid channelUid text call.draws.readings call.draws.now)
  | .deleteMessage messageSnowflake => some (.removeMessage messageSnowflake)

/-- A guard on operations, read as one on requests. -/
def Asks (G : Database → Database.Op → Prop) (s : Server) (call : Server.Call) : Prop :=
  ∀ op ∈ operation s call, G s.db op

instance {G : Database → Database.Op → Prop} [∀ db op, Decidable (G db op)] (s : Server)
    (call : Server.Call) : Decidable (Asks G s call) :=
  match h : operation s call with
  | none => .isTrue (by intro op hop; rw [h] at hop; exact absurd hop (by simp))
  | some op =>
      decidable_of_iff (G s.db op) (by
        unfold Asks
        rw [h]
        simp)

/-- A response that carries neither a channel nor a message. -/
def Quiet : Response → Prop
  | .createChannel (.ok _) | .sendMessage (.ok _) | .deleteMessage (.ok _) => False
  | _ => True

/-- The three ways a request can be handled. -/
inductive Handling (s : Server) (call : Server.Call) : Handled → Prop where
  | answered (outcome : Outcome Unit) (responses : List Response)
      (hquiet : ∀ r ∈ responses, Quiet r) :
      Handling s call ⟨outcome, s, responses.map fun r => (call.conn, r)⟩
  | loggedIn {uid : UUID} {user : User} (hu : s.db.users.lookup uid = some user) :
      Handling s call ⟨.returned (), s.setAuthenticatedUser call.conn uid,
        (call.conn, .login (.ok user)) :: (Server.replay s.db user).map fun r => (call.conn, r)⟩
  | called {α : Type} (op : Database.Op) {ret : Ret α}
      {reply : Except Str α → List (Nat × Response)} (hop : op ∈ operation s call)
      (heffect : ∀ db', ret.finish = some db' → Effect s.db op db')
      (hentitled : HistoryOwned s.db →
        ∀ sig ∈ ret.emitted, Entitled s.db sig ∧ Entitled ret.db sig)
      (hquiet : ∀ res, ∀ p ∈ reply res, Quiet p.2) :
      Handling s call (s.conclude ret reply)

/-- One frame back to the connection that asked. -/
theorem handling_respond {r : Response} (h : Quiet r) : Handling s call (s.respond call.conn r) :=
  .answered (.returned ()) [r] (by simpa using h)

theorem handling_of_receive [External] (s : Server) (call : Server.Call) :
    Handling s call (s.receive call) := by
  obtain ⟨conn, request, draws⟩ := call
  cases request with
  | registerAccount username password displayName =>
      show Handling _ _ (s.onRegisterAccount conn draws username password displayName)
      unfold Server.onRegisterAccount
      split
      · exact handling_respond trivial
      · refine .called (.addUser draws.uid username displayName password draws.salt) rfl
          (fun db' h => step_effect h) ?_ ?_
        · intro _ sig h
          rw [addUser_emitted] at h
          exact absurd h List.not_mem_nil
        · intro res p hp
          rw [List.mem_singleton.mp hp]
          trivial
  | login username password =>
      show Handling _ _ (s.onLogin conn username password)
      unfold Server.onLogin
      split
      · -- an unknown name: nothing is written
        exact .answered _ [] (by simp)
      · split
        · exact handling_respond trivial
        · exact handling_respond trivial
        · split
          · exact .answered _ [] (by simp)
          · rename_i user hu
            exact .loggedIn hu
  | listAccounts regex =>
      show Handling _ _ (s.onListAccounts conn regex)
      unfold Server.onListAccounts
      split
      · exact handling_respond trivial
      · exact handling_respond trivial
  | deleteAccount username password =>
      show Handling _ _ (s.onDeleteAccount conn username password)
      unfold Server.onDeleteAccount
      split
      · exact handling_respond trivial
      · rename_i userUid huid
        split
        · exact handling_respond trivial
        · exact handling_respond trivial
        · refine .called (.removeUser userUid) ?_ (fun db' h => step_effect h) ?_ ?_
          · show Database.Op.removeUser userUid ∈ (s.db.users.getUidFromUsername username).map _
            rw [huid]
            rfl
          · intro howned sig h
            exact removeUser_entitled howned h
          · intro res p hp
            rw [List.mem_singleton.mp hp]
            trivial
  | createChannel channelName members =>
      show Handling _ _ (s.onCreateChannel draws channelName members)
      refine .called (.addChannel draws.uid channelName members) rfl
        (fun db' h => step_effect h) ?_ ?_
      · intro _ sig h
        exact ⟨addChannel_entitled h _, addChannel_entitled h _⟩
      · intro res p hp
        exact absurd hp List.not_mem_nil
  | sendMessage senderUid channelUid text =>
      show Handling _ _ (s.onSendMessage draws senderUid channelUid text)
      refine .called (.addMessage senderUid channelUid text draws.readings draws.now) rfl
        (fun db' h => step_effect h) ?_ ?_
      · intro _ sig h
        exact addMessage_entitled h
      · intro res p hp
        exact absurd hp List.not_mem_nil
  | deleteMessage messageSnowflake =>
      show Handling _ _ (s.onDeleteMessage messageSnowflake)
      refine .called (.removeMessage messageSnowflake) rfl (fun db' h => step_effect h) ?_ ?_
      · intro _ sig h
        exact removeMessage_entitled h
      · intro res p hp
        exact absurd hp List.not_mem_nil

/-! ## What a request leaves behind -/

theorem conclude_server {α : Type} (s : Server) (ret : Ret α)
    (reply : Except Str α → List (Nat × Response)) :
    (s.conclude ret reply).server = { s with db := ret.db } := by
  unfold Server.conclude
  dsimp only
  split <;> rfl

theorem conclude_finish {α : Type} {s : Server} {ret : Ret α}
    {reply : Except Str α → List (Nat × Response)}
    (h : (s.conclude ret reply).outcome ≠ .waiting) : ret.finish = some ret.db := by
  unfold Server.conclude at h
  unfold Ret.finish
  cases hret : ret.outcome with
  | returned res => rfl
  | raised e => rfl
  | waiting =>
      rw [hret] at h
      exact absurd rfl h

/-- The server itself, a login, or one operation's effect on the database. -/
theorem step_cases [External] (h : s.step call = some s') :
    s' = s
      ∨ (∃ uid user, s.db.users.lookup uid = some user
          ∧ s' = s.setAuthenticatedUser call.conn uid)
      ∨ ∃ op ∈ operation s call, ∃ db', Effect s.db op db' ∧ s' = { s with db := db' } := by
  have hserver : (s.receive call).outcome ≠ .waiting ∧ s' = (s.receive call).server := by
    unfold Server.step at h
    split at h
    · exact absurd h (by simp)
    · rename_i hne
      exact ⟨hne, (Option.some.inj h).symm⟩
  obtain ⟨hne, rfl⟩ := hserver
  -- forget how it was handled, and remember what that can have been
  have hhandled := handling_of_receive s call
  generalize s.receive call = handled at hne hhandled
  cases hhandled with
  | answered outcome responses hquiet => exact Or.inl rfl
  | loggedIn hu => exact Or.inr (Or.inl ⟨_, _, hu, rfl⟩)
  | called op hop heffect hentitled hquiet =>
      refine Or.inr (Or.inr ⟨op, hop, _, heffect _ (conclude_finish hne), ?_⟩)
      exact conclude_server _ _ _

/-- What the operations keep under a guard, requests that satisfy the guard keep. -/
theorem db_step [External] {P : Database → Prop} {G : Database → Database.Op → Prop}
    (hP : ∀ {db db' : Database} {op : Database.Op}, P db → G db op → Effect db op db' → P db')
    (h : P s.db) (hg : Asks G s call) (hs : s.step call = some s') : P s'.db := by
  rcases step_cases hs with rfl | ⟨uid, user, -, rfl⟩ | ⟨op, hop, db', heffect, rfl⟩
  · exact h
  · exact h
  · exact hP h (hg op hop) heffect

theorem slotsInv_step [External] (h : SlotsInv s) (hs : s.step call = some s') : SlotsInv s' := by
  rcases step_cases hs with rfl | ⟨uid, user, -, rfl⟩ | ⟨op, hop, db', heffect, rfl⟩
  · exact h
  · exact slotsInv_setAuthenticatedUser h _ _
  · exact h

/-- What decides who may see what: the slots, the member lists and the histories. -/
structure ServerInv (s : Server) : Prop where
  slots : SlotsInv s
  members : MembershipInv s.db
  owned : HistoryOwned s.db

theorem serverInv_init : ServerInv Server.new where
  slots := slotsInv_new
  members := membershipInv_init
  owned := historyOwned_init

/-- **Preserved by every request whose UUID and snowflake are new.** -/
theorem serverInv_step [External] (h : ServerInv s) (hu : Asks Database.FreshUids s call)
    (hm : Asks FreshSnowflake s call) (hs : s.step call = some s') : ServerInv s' where
  slots := slotsInv_step h.slots hs
  members := db_step membershipInv_step h.members hu hs
  owned := db_step historyOwned_step h.owned hm hs

/-! ## The users of a table -/

/-- A user is stored under its own uid. -/
def UsersKeyed (db : Database) : Prop :=
  ∀ (uid : UUID) (user : User), db.users.lookup uid = some user → user.uid = uid

theorem uid_iterate {f : User → User} (h : ∀ user, (f user).uid = user.uid) (n : Nat)
    (user : User) : (f^[n] user).uid = user.uid := by
  induction n generalizing user with
  | zero => rfl
  | succ n ih => rw [Function.iterate_succ_apply, ih, h]

theorem usersKeyed_step {db db' : Database} {op : Database.Op} (h : UsersKeyed db)
    (he : Effect db op db') : UsersKeyed db' := by
  intro uid user hu
  cases he with
  | nothing | messageAdded hc hid | messageRemoved hm hc => exact h uid user hu
  | userAdded passwords =>
      rcases Table.lookup_of_emplace hu with hold | ⟨rfl, rfl⟩
      · exact h uid user hold
      · rfl
  | @channelAdded c =>
      dsimp only at hu
      rw [Table.lookup_foldl_modify] at hu
      obtain ⟨old, hold, rfl⟩ := Option.map_eq_some_iff.mp hu
      exact (uid_iterate (f := (·.addChannel c)) (fun _ => rfl) _ old).trans (h uid old hold)
  | @userJoined u c joined ch hv hc =>
      obtain ⟨old, hold, hself, hother⟩ := Table.lookup_of_modify hu
      by_cases hk : uid = u
      · rw [hself hk]
        exact h uid old hold
      · rw [hother hk]
        exact h uid old hold
  | @channelRemoved c ch messages hc hm =>
      dsimp only at hu
      rw [Table.lookup_foldl_modify] at hu
      obtain ⟨old, hold, rfl⟩ := Option.map_eq_some_iff.mp hu
      exact (uid_iterate (f := (·.removeChannel c)) (fun _ => rfl) _ old).trans (h uid old hold)
  | userRemoved hv => exact h uid user (Table.lookup_of_erase hu).2

theorem usersKeyed_init : UsersKeyed Database.new := by
  intro uid user hu
  exact absurd hu (by simp [Database.new])

theorem usersKeyed_reachable [External] {s : Server} (h : Server.system.Reachable Always s) :
    UsersKeyed s.db := by
  refine h.invariant (P := fun s => UsersKeyed s.db) usersKeyed_init ?_
  intro s₀ call s₁ _ hinv _ hs
  exact db_step (G := fun _ _ => True) (fun h _ he => usersKeyed_step h he) hinv
    (fun _ _ => trivial) hs

end SockEtOut.Proof
