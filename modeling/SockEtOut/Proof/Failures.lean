import SockEtOut.Proof.Steps

/-!
# Failing operations

An operation of the database makes all its checks before its first change, so one
that reports an error, or whose snowflake generator throws, leaves everything as
it was and emits nothing. That it comes back at all is another matter:
`removeChannel` takes the value of its lookup without a check.
-/

namespace SockEtOut.Proof

open Lib

/-- A call's end without the value it returns. -/
def forget {α : Type} (r : Ret α) : Ret Unit where
  outcome :=
    match r.outcome with
    | .returned res => .returned (res.map fun _ => ())
    | .raised e => .raised e
    | .waiting => .waiting
  db := r.db
  emitted := r.emitted

/-- A call of any of the seven operations. -/
def call [External] (db : Database) : Database.Op → Ret Unit
  | .addUser uid username displayName password salt =>
      forget (db.addUser (.new uid username displayName) password salt)
  | .addChannel uid channelName members => forget (db.addChannel uid channelName members)
  | .addUserToChannel userUid channelUid => forget (db.addUserToChannel userUid channelUid)
  | .addMessage senderUid channelUid content readings now =>
      forget (db.addMessage senderUid channelUid content readings now)
  | .removeMessage messageSnowflake => forget (db.removeMessage messageSnowflake)
  | .removeChannel channelUid => forget (db.removeChannel channelUid)
  | .removeUser userUid => forget (db.removeUser userUid)

/-- The steps of serial runs are these calls. -/
theorem step_eq_call [External] (db : Database) (op : Database.Op) :
    Database.step db op = (call db op).finish := by
  have hforget : ∀ {α : Type} (r : Ret α), r.finish = (forget r).finish := by
    intro α r
    unfold Ret.finish forget
    cases r.outcome <;> rfl
  cases op with
  | addUser uid username displayName password salt => exact hforget (db.addUser _ password salt)
  | addChannel uid channelName members => exact hforget (db.addChannel uid channelName members)
  | addUserToChannel u c => exact hforget (db.addUserToChannel u c)
  | addMessage sender c content readings now =>
      exact hforget (db.addMessage sender c content readings now)
  | removeMessage s => exact hforget (db.removeMessage s)
  | removeChannel c => exact hforget (db.removeChannel c)
  | removeUser u => exact hforget (db.removeUser u)

/-- `nextId`, where the call comes to it, returns an id. -/
def NextIdReturns (db : Database) : Database.Op → Prop
  | .addMessage _ _ _ readings _ => ∃ id, (db.generator.nextId readings).1 = .returned id
  | _ => True

/-- The call returns if `nextId` does, and a failure or an exception has changed nothing. -/
structure Clean [External] (db : Database) (op : Database.Op) : Prop where
  returns : NextIdReturns db op → ∃ res, (call db op).outcome = .returned res
  unchanged : (∃ e, (call db op).outcome = .returned (.error e)) ∨
      (∃ e, (call db op).outcome = .raised e) → (call db op).db = db ∧ (call db op).emitted = []

/-- A channel that is to be removed is there. -/
def ChannelKnown (db : Database) : Database.Op → Prop
  | .removeChannel channelUid => (db.channels.lookup channelUid).isSome
  | _ => True

section Operations

variable [External] {db : Database} {op : Database.Op}

/-! ## Ways for a call to end -/

theorem clean_ok {r : Ret Unit} (h : call db op = r) (hr : r.outcome = .returned (.ok ())) :
    Clean db op where
  returns _ := ⟨.ok (), by rw [h, hr]⟩
  unchanged he := by
    rw [h, hr] at he
    rcases he with ⟨e, he⟩ | ⟨e, he⟩
    · cases he
    · cases he

theorem clean_error {e : Str} (h : call db op = ⟨.returned (.error e), db, []⟩) : Clean db op where
  returns _ := ⟨.error e, by rw [h]⟩
  unchanged _ := by
    rw [h]
    exact ⟨rfl, rfl⟩

/-- Of all calls only this one draws a snowflake, and may throw or wait for it. -/
theorem clean_addMessage (db : Database) (sender c : UUID) (content : Str) (readings : List Int)
    (now : UInt64) : Clean db (.addMessage sender c content readings now) := by
  have hcall : call db (.addMessage sender c content readings now)
      = forget (db.addMessage sender c content readings now) := rfl
  cases hc : db.channels.lookup c with
  | none =>
      rw [Database.addMessage, hc] at hcall
      exact clean_error hcall
  | some ch =>
      cases hid : db.generator.nextId readings with
      | mk outcome generator =>
          rw [Database.addMessage, hc, MessageTable.addMessage, hid] at hcall
          cases outcome with
          | returned id => exact clean_ok hcall rfl
          | raised e =>
              have hg := SnowflakeIDGenerator.nextId_raised hid
              subst hg
              refine ⟨fun ⟨id, hreturns⟩ => ?_, fun _ => ?_⟩
              · rw [hid] at hreturns
                cases hreturns
              · rw [hcall]
                exact ⟨rfl, rfl⟩
          | waiting =>
              refine ⟨fun ⟨id, hreturns⟩ => ?_, fun he => ?_⟩
              · rw [hid] at hreturns
                cases hreturns
              · rw [hcall] at he
                rcases he with ⟨e, he⟩ | ⟨e, he⟩
                · cases he
                · cases he

theorem clean_removeChannel_iff (db : Database) (c : UUID) :
    Clean db (.removeChannel c) ↔ (db.channels.lookup c).isSome := by
  have hcall : call db (.removeChannel c) = forget (db.removeChannel c) := rfl
  cases hc : db.channels.lookup c with
  | none =>
      rw [Database.removeChannel, hc] at hcall
      refine ⟨fun h => ?_, fun h => by cases h⟩
      obtain ⟨res, hres⟩ := h.returns trivial
      rw [hcall] at hres
      cases hres
  | some ch =>
      rw [Database.removeChannel, hc] at hcall
      exact ⟨fun _ => rfl, fun _ => clean_ok hcall rfl⟩

/-! ## All of them -/

/--
**Failing operations are clean.** Whatever the database and the arguments, a call
returns if the generator does, and one that fails or throws has changed nothing
and emitted nothing, unless it is asked to remove a channel that is not there.
-/
theorem operations_clean_iff (db : Database) (op : Database.Op) :
    Clean db op ↔ ChannelKnown db op := by
  cases op with
  | addUser uid username displayName password salt =>
      exact ⟨fun _ => trivial, fun _ => clean_ok rfl rfl⟩
  | addChannel uid channelName members =>
      exact ⟨fun _ => trivial, fun _ => clean_ok rfl rfl⟩
  | addUserToChannel u c =>
      refine ⟨fun _ => trivial, fun _ => ?_⟩
      have hcall : call db (.addUserToChannel u c) = forget (db.addUserToChannel u c) := rfl
      unfold Database.addUserToChannel at hcall
      split at hcall
      · exact clean_error hcall
      · split at hcall
        · exact clean_error hcall
        · exact clean_ok hcall rfl
  | addMessage sender c content readings now =>
      exact ⟨fun _ => trivial, fun _ => clean_addMessage db sender c content readings now⟩
  | removeMessage s =>
      refine ⟨fun _ => trivial, fun _ => ?_⟩
      have hcall : call db (.removeMessage s) = forget (db.removeMessage s) := rfl
      rcases removeMessage_cases db s with ⟨e, heq⟩ | ⟨m, ch, -, -, heq⟩
      · rw [heq] at hcall
        exact clean_error hcall
      · rw [heq] at hcall
        exact clean_ok hcall rfl
  | removeChannel c => exact clean_removeChannel_iff db c
  | removeUser u =>
      refine ⟨fun _ => trivial, fun _ => ?_⟩
      have hcall : call db (.removeUser u) = forget (db.removeUser u) := rfl
      cases hu : db.users.lookup u with
      | none =>
          rw [removeUser_none hu] at hcall
          exact clean_error hcall
      | some user =>
          rw [removeUser_some hu] at hcall
          exact clean_ok hcall rfl

end Operations

/-- In the empty database there is no channel to remove, and `remove_channel` throws. -/
theorem operations_not_clean :
    ¬ ∀ (db : Database) (op : Database.Op),
      (@Database.system .sample).Reachable System.Always db → @Clean .sample db op := by
  intro h
  have hclean := h .new (.removeChannel (.ofByte 7)) .init
  obtain ⟨res, hres⟩ := @Clean.returns .sample _ _ hclean trivial
  cases hres

end SockEtOut.Proof
