import SockEtOut.Proof.JsonRoundTrips
import SockEtOut.Proof.RoundTrips
import SockEtOut.Wire.InPlace

/-!
# Decoding overwrites, but for three lists

What an object holds after it has been decoded into should depend on the bytes only.
Most decoders assign every field that travels, or clear a list before they fill it.
`Channel` and `CreateChannelMessage` fill theirs without clearing them: the members
in both builds, a channel's snowflakes in the custom build.

Decoding into an object is decoding into a new one of its class and putting the lists
behind those that were there (`read_eq`, `fromJson_eq`). So two runs over the same
bytes are told apart by what the two objects had in those lists, and by nothing else.
-/

namespace SockEtOut

open Lib Reader

namespace Object

/-- `deserialize` into a new object of the class. -/
def readNew (e : Endian) (drawn : UUID) : Object → Reader UInt8 Object
  | .user _ => do
      let u ← (User.default drawn).deserialize
      pure (.user u)
  | .message _ => do
      let m ← Message.deserialize e
      pure (.message m)
  | .channel _ => do
      let c ← (Channel.default drawn).deserialize
      pure (.channel c)
  | .request m => do
      let m ← RequestMessage.deserialize m.operation
      pure (.request m)
  | .response r => do
      let r ← Response.deserialize e drawn r.operation
      pure (.response r)

/-- `from_json` into a new object of the class. -/
def fromJsonNew [Nlohmann] (drawn : UUID) (json : Str) : Object → Option Object
  | .user _ => ((User.default drawn).fromJson drawn json).map .user
  | .message _ => (Message.fromJson drawn json).map .message
  | .channel _ => ((Channel.default drawn).fromJson drawn json).map .channel
  | .request m => (RequestMessage.fromJson drawn m.operation json).map .request
  | .response r => (Response.fromJson drawn r.operation json).map .response

/-- What was decoded into a new object, with what stays of `this`. -/
def onto (build : Build) (this decoded : Object) : Object :=
  match this, decoded with
  | .user this, .user u => .user { u with channels := this.channels }
  | .channel this, .channel c =>
      .channel
        { c with
          userUids := this.userUids ++ c.userUids
          messageSnowflakes :=
            if build = .custom then this.messageSnowflakes ++ c.messageSnowflakes
            else c.messageSnowflakes }
  | .request (.createChannel this), .request (.createChannel m) =>
      .request (.createChannel { m with members := this.members ++ m.members })
  | _, decoded => decoded

/-- The lists that a decoder appends to are the same in both. -/
def ListsAgree (build : Build) : Object → Object → Prop
  | .channel c, .channel c' =>
      c.userUids = c'.userUids ∧ (build = .custom → c.messageSnowflakes = c'.messageSnowflakes)
  | .request (.createChannel m), .request (.createChannel m') => m.members = m'.members
  | _, _ => True

end Object

namespace Proof

open Object Nlohmann

/-! ## Into an object, and into a new one -/

theorem readRequest_eq (e : Endian) (drawn : UUID) (m : RequestMessage) :
    (request m).read e drawn
      = (request m).readNew e drawn >>= fun r => pure ((request m).onto .custom r) := by
  cases m with
  | createChannel m =>
      simp only [Object.read, readNew, RequestMessage.deserializeInto,
        RequestMessage.deserialize, RequestMessage.operation, CreateChannelMessage.deserialize,
        bind_assoc, pure_bind]
      rfl
  | registerAccount m | login m | listAccounts m | deleteAccount m | sendMessage m
  | deleteMessage m =>
      simp only [Object.read, readNew, bind_assoc, pure_bind]
      rfl

/-- In the custom build. -/
theorem read_eq (e : Endian) (drawn : UUID) (this : Object) :
    this.read e drawn = this.readNew e drawn >>= fun r => pure (this.onto .custom r) := by
  cases this with
  | user u =>
      simp only [Object.read, readNew, User.deserialize, bind_assoc, pure_bind]
      rfl
  | message m =>
      simp only [Object.read, readNew, bind_assoc, pure_bind]
      rfl
  | channel c =>
      simp only [Object.read, readNew, Channel.deserialize, bind_assoc, pure_bind]
      rfl
  | request m => exact readRequest_eq e drawn m
  | response r =>
      simp only [Object.read, readNew, bind_assoc, pure_bind]
      cases r <;> rfl

theorem fromJsonRequest_eq [Nlohmann] (drawn : UUID) (json : Str) (m : RequestMessage) :
    (request m).fromJson drawn json
      = ((request m).fromJsonNew drawn json).map ((request m).onto .json) := by
  cases m with
  | createChannel m =>
      simp [Object.fromJson, fromJsonNew, RequestMessage.fromJsonInto, RequestMessage.fromJson,
        RequestMessage.operation, CreateChannelMessage.fromJson, Option.map_bind, onto,
        Function.comp_def]
  | registerAccount m | login m | listAccounts m | deleteAccount m | sendMessage m
  | deleteMessage m =>
      simp only [Object.fromJson, fromJsonNew, Option.map_map]
      rfl

/-- In the JSON build. -/
theorem fromJson_eq [Nlohmann] (drawn : UUID) (json : Str) (this : Object) :
    this.fromJson drawn json = (this.fromJsonNew drawn json).map (this.onto .json) := by
  cases this with
  | user u =>
      simp [Object.fromJson, fromJsonNew, User.fromJson, Option.map_bind, onto, Function.comp_def]
  | message m =>
      simp only [Object.fromJson, fromJsonNew, Option.map_map]
      rfl
  | channel c =>
      simp [Object.fromJson, fromJsonNew, Channel.fromJson, Channel.default, Channel.new,
        Option.map_bind, onto]
  | request m => exact fromJsonRequest_eq drawn json m
  | response r =>
      simp only [Object.fromJson, fromJsonNew, Option.map_map]
      cases r <;> rfl

/-! ## A new object is of the class it was made for -/

theorem readNew_class {e : Endian} {drawn : UUID} {this r : Object} {buf : List UInt8}
    {offset offset' : Nat} (h : Yields (this.readNew e drawn) buf offset r offset') :
    this.SameClass r := by
  cases this with
  | user | message | channel =>
      obtain ⟨r, o, -, hpure⟩ := Yields.of_bind h
      cases hpure
      trivial
  | request m =>
      obtain ⟨r, o, hr, hpure⟩ := Yields.of_bind h
      cases hpure
      exact (operation_of_deserialize hr).symm
  | response r =>
      obtain ⟨r', o, hr, hpure⟩ := Yields.of_bind h
      cases hpure
      exact (operation_of_deserialize_response hr).symm

/-- What is drawn for a new object is overwritten. -/
theorem readNew_congr (e : Endian) (drawn₁ drawn₂ : UUID) {o₁ o₂ : Object}
    (h : o₁.SameClass o₂) : o₁.readNew e drawn₁ = o₂.readNew e drawn₂ := by
  cases o₁ <;> cases o₂ <;> try exact h.elim
  case user.user | message.message | channel.channel => rfl
  case request.request m m' =>
    rw [readNew, readNew, show m.operation = m'.operation from h]
  case response.response r r' =>
    rw [readNew, readNew, show r.operation = r'.operation from h]
    cases r' <;> rfl

/-- An object that can be dumped is decoded from its JSON as it was, whatever is drawn. -/
theorem fromJsonNew_toJson [Nlohmann] (hlib : DumpsAndParses) (drawn : UUID) {v o : Object}
    (h : o.SameClass v) (hprints : v.prints = true) {json : Str} (hjson : v.toJson = some json) :
    o.fromJsonNew drawn json = some v.serialized := by
  cases v with
  | user u =>
      cases o <;> try exact h.elim
      exact congrArg (Option.map Object.user) ((user_survives hlib drawn u hprints).read hjson)
  | message m =>
      cases o <;> try exact h.elim
      exact congrArg (Option.map Object.message)
        ((message_survives hlib drawn m hprints).read hjson)
  | channel c =>
      cases o <;> try exact h.elim
      exact congrArg (Option.map Object.channel)
        ((channel_survives hlib drawn c hprints).read hjson)
  | request m =>
      cases o <;> try exact h.elim
      rename_i m'
      rw [fromJsonNew, show m'.operation = m.operation from h,
        (request_survives hlib drawn m hprints).read hjson]
      rfl
  | response r =>
      cases o <;> try exact h.elim
      rename_i r'
      rw [fromJsonNew, show r'.operation = r.operation from h,
        (response_survives hlib drawn r hprints).read hjson]
      rfl

/-- Put onto two objects, one value is the same in every serialized field if the lists were. -/
theorem serialized_onto_iff (build : Build) {o₁ o₂ r : Object} (h₁ : o₁.SameClass r)
    (h₂ : o₂.SameClass r) :
    (o₁.onto build r).serialized = (o₂.onto build r).serialized ↔ ListsAgree build o₁ o₂ := by
  cases r with
  | user u =>
      cases o₁ <;> cases o₂ <;> first | exact h₁.elim | exact h₂.elim | skip
      exact iff_of_true rfl trivial
  | message m =>
      cases o₁ <;> cases o₂ <;> first | exact h₁.elim | exact h₂.elim | skip
      exact iff_of_true rfl trivial
  | channel c =>
      cases o₁ <;> cases o₂ <;> first | exact h₁.elim | exact h₂.elim | skip
      cases build <;> simp [onto, serialized, ListsAgree]
  | request m =>
      cases o₁ <;> cases o₂ <;> first | exact h₁.elim | exact h₂.elim | skip
      rename_i m₁ m₂
      cases m <;> cases m₁ <;> cases h₁ <;> cases m₂ <;> cases h₂
      -- all but the members of a `CreateChannelMessage` is assigned
      all_goals first | exact iff_of_true rfl trivial | simp [onto, serialized, ListsAgree]
  | response r =>
      cases o₁ <;> cases o₂ <;> first | exact h₁.elim | exact h₂.elim | skip
      exact iff_of_true rfl trivial

/-! ## Two runs -/

/-- The bytes are the JSON of an object of the class; in the custom build they may be any. -/
def Encoded [Nlohmann] (build : Build) (o : Object) (buf : List UInt8) : Prop :=
  build = .json → ∃ v : Object, o.SameClass v ∧ v.prints = true ∧ v.toJson = some buf

theorem sameClass_trans {o₁ o₂ r : Object} (h : o₁.SameClass o₂) (h₁ : o₁.SameClass r) :
    o₂.SameClass r := by
  cases o₁ <;> cases o₂ <;> first | exact h.elim | skip
  case request.request m m' =>
    cases r <;> first | exact h₁.elim | skip
    exact (show m.operation = m'.operation from h).symm.trans h₁
  case response.response r₁ r₂ =>
    cases r <;> first | exact h₁.elim | skip
    exact (show r₁.operation = r₂.operation from h).symm.trans h₁
  all_goals cases r <;> first | exact h₁.elim | trivial

theorem serialized_class {o v : Object} (h : o.SameClass v) : o.SameClass v.serialized := by
  cases v with
  | user | message | channel | request => cases o <;> exact h
  | response r => cases o <;> cases r <;> exact h

/--
**What a second run leaves.** The same bytes are decoded into any other object of the
class too, and the two agree in every serialized field exactly if they agreed before
in the lists that are appended to.
-/
theorem decoding_overwrites_iff [Nlohmann] (hlib : DumpsAndParses) (build : Build) (e : Endian)
    (drawn₁ drawn₂ : UUID) {o₁ o₂ r₁ : Object} {buf : List UInt8} (hclass : o₁.SameClass o₂)
    (hbuf : Encoded build o₁ buf) (h₁ : o₁.deserialize build e drawn₁ buf = some r₁) :
    ∃ r₂, o₂.deserialize build e drawn₂ buf = some r₂
      ∧ (r₁.serialized = r₂.serialized ↔ ListsAgree build o₁ o₂) := by
  cases build with
  | custom =>
      rw [Object.deserialize, read_eq] at h₁
      obtain ⟨⟨r, offset⟩, hread, rfl⟩ := Option.map_eq_some_iff.mp h₁
      obtain ⟨new, offset', hnew, hpure⟩ := Yields.of_bind hread
      cases hpure
      -- the new object that is read is the same for both, and then put onto each
      refine ⟨o₂.onto .custom new, ?_, ?_⟩
      · have hnew₂ : Yields (o₂.readNew e drawn₂) buf 0 new offset := by
          rw [← readNew_congr e drawn₁ drawn₂ hclass]
          exact hnew
        rw [Object.deserialize, read_eq, hnew₂.bind_eq]
        rfl
      · have hthis := readNew_class hnew
        exact serialized_onto_iff .custom hthis (sameClass_trans hclass hthis)
  | json =>
      obtain ⟨v, hv, hprints, hjson⟩ := hbuf rfl
      have hv₂ := sameClass_trans hclass hv
      rw [Object.deserialize, fromJson_eq, fromJsonNew_toJson hlib drawn₁ hv hprints hjson] at h₁
      cases h₁
      refine ⟨o₂.onto .json v.serialized, ?_, ?_⟩
      · rw [Object.deserialize, fromJson_eq, fromJsonNew_toJson hlib drawn₂ hv₂ hprints hjson]
        rfl
      · exact serialized_onto_iff .json (serialized_class hv) (serialized_class hv₂)

/-- A channel without members, and one with a member. -/
def plans (userUids : List UUID) : Object := .channel ⟨.ofByte 7, lit "plans", userUids, []⟩

/-- The bytes of the first. -/
def plansBytes : List UInt8 := (Channel.mk (.ofByte 7) (lit "plans") [] []).serialize []

/-- Into the second, they are decoded as something else. -/
theorem decoding_overwrites_iff_plans :
    ∃ r, @Object.deserialize plainJson .custom .little (.ofByte 0) (plans [.ofByte 1]) plansBytes
        = some r
      ∧ ((plans []).serialized = r.serialized
        ↔ ListsAgree .custom (plans []) (plans [.ofByte 1])) :=
  @decoding_overwrites_iff plainJson plainJson_dumpsAndParses .custom .little (.ofByte 0)
    (.ofByte 0) (plans []) (plans [.ofByte 1]) (plans []) plansBytes trivial (fun h => by cases h)
    rfl

/-- The member that was there is still there: what was decoded depends on it. -/
theorem decoding_appends :
    ¬ ∀ (build : Build) (e : Endian) (drawn₁ drawn₂ : UUID) (o₁ o₂ r₁ r₂ : Object)
      (buf : List UInt8), o₁.SameClass o₂ → @Encoded plainJson build o₁ buf →
      @Object.deserialize plainJson build e drawn₁ o₁ buf = some r₁ →
      @Object.deserialize plainJson build e drawn₂ o₂ buf = some r₂ →
      r₁.serialized = r₂.serialized := by
  intro hall
  have hsame := hall .custom .little (.ofByte 0) (.ofByte 0) (plans []) (plans [.ofByte 1])
    (plans []) (plans [.ofByte 1]) plansBytes trivial (fun h => by cases h) rfl rfl
  have huids := congrArg Channel.userUids (Object.channel.inj hsame)
  cases huids

end Proof

end SockEtOut
