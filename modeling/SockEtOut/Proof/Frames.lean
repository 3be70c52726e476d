import SockEtOut.Client.Reader
import SockEtOut.Proof.JsonRoundTrips
import SockEtOut.Proof.RoundTrips

/-!
# Whole frames in the client's buffer

The stream of frames is self-delimiting: a header is written from `size`, `size`
is what `serialize` writes, and so the loop cuts the stream where it was put
together. What stops it is not the stream but the body of a case. The reader comes
back from all of them exactly when every object can be printed and no channel
arrives while nobody is logged in.

`Session.KeysAgree` is why the handlers of messages always come back.
-/

namespace SockEtOut.Proof

open Lib

/-! ## What makes a handler throw -/

/-- The two maps of a session are filled and cleared together. -/
def KeysAgree (s : Session) : Prop :=
  ∀ c, (s.channelMessages.lookup c).isSome → (s.channels.lookup c).isSome

/-- A session the client can be in: some responses have been handled since it started. -/
def SessionReached (s : Session) : Prop :=
  ∃ earlier : List Response, earlier.foldlM Session.handle .new = .ok s

/-- Whether a user is authenticated once a response has been handled. -/
def authenticatedAfter (authenticated : Bool) : Response → Bool
  | .login (.ok _) => true
  | .deleteAccount (.ok _) => false
  | _ => authenticated

/-- Channels arrive only while a user is authenticated. -/
def ChannelsAuthenticated : Bool → List Response → Prop
  | _, [] => True
  | authenticated, r :: rs =>
      (∀ channel, r = .createChannel (.ok channel) → authenticated = true)
        ∧ ChannelsAuthenticated (authenticatedAfter authenticated r) rs

theorem keysAgree_assign {α β : Type*} {t : Table UUID α} {t' : Table UUID β} {k : UUID} {a : α}
    {b : β} (h : ∀ c, (t.lookup c).isSome → (t'.lookup c).isSome) (c : UUID)
    (hc : ((t.assign k a).lookup c).isSome) : ((t'.assign k b).lookup c).isSome := by
  rw [Table.lookup_assign] at hc ⊢
  split at hc
  · rename_i hk
    rw [if_pos hk]
    rfl
  · rename_i hk
    rw [if_neg hk]
    exact h c hc

/-- A channel that has messages is there to get them. -/
theorem messages_returns {s : Session} (hkeys : KeysAgree s) (message : Message) :
    (∃ s', s.addMessage message = .ok s' ∧ KeysAgree s'
        ∧ s'.authenticatedUser = s.authenticatedUser)
      ∧ ∃ s', s.removeMessage message = .ok s' ∧ KeysAgree s'
        ∧ s'.authenticatedUser = s.authenticatedUser := by
  unfold Session.addMessage Session.removeMessage
  cases hms : s.channelMessages.lookup message.channelId with
  | none => exact ⟨⟨s, rfl, hkeys, rfl⟩, s, rfl, hkeys, rfl⟩
  | some messages =>
      have hsome := hkeys message.channelId (by rw [hms]; rfl)
      obtain ⟨channel, hchannel⟩ := Option.isSome_iff_exists.mp hsome
      rw [hchannel]
      refine ⟨⟨_, rfl, keysAgree_assign hkeys, rfl⟩, _, rfl, ?_, rfl⟩
      intro c hc
      dsimp only
      rw [Table.lookup_assign]
      split
      · rfl
      · exact hkeys c hc

/-- The one handler that asks for something is that of a new channel. -/
theorem handle_returns {s : Session} {r : Response} (hkeys : KeysAgree s)
    (hauth : ∀ channel, r = .createChannel (.ok channel) → s.authenticatedUser.isSome = true) :
    ∃ s', s.handle r = .ok s' ∧ KeysAgree s'
      ∧ s'.authenticatedUser.isSome = authenticatedAfter s.authenticatedUser.isSome r := by
  cases r with
  | registerAccount data | listAccounts data => exact ⟨s, rfl, hkeys, rfl⟩
  | login data =>
      cases data with
      | error error => exact ⟨s, rfl, hkeys, rfl⟩
      | ok user => exact ⟨_, rfl, hkeys, rfl⟩
  | deleteAccount data =>
      cases data with
      | error error => exact ⟨s, rfl, hkeys, rfl⟩
      | ok user => exact ⟨_, rfl, fun c hc => absurd hc (by simp [Session.reset, Session.new]), rfl⟩
  | createChannel data =>
      cases data with
      | error error => exact ⟨s, rfl, hkeys, rfl⟩
      | ok channel =>
          obtain ⟨user, huser⟩ := Option.isSome_iff_exists.mp (hauth channel rfl)
          refine ⟨_, by rw [Session.handle, Session.onCreateChannelResponse, huser], ?_, ?_⟩
          · exact keysAgree_assign hkeys
          · rw [huser]
            rfl
  | sendMessage data =>
      cases data with
      | error error => exact ⟨s, rfl, hkeys, rfl⟩
      | ok message =>
          obtain ⟨⟨s', hs', hkeys', hauth'⟩, -⟩ := messages_returns hkeys message
          exact ⟨s', hs', hkeys', by rw [hauth']; rfl⟩
  | deleteMessage data =>
      cases data with
      | error error => exact ⟨s, rfl, hkeys, rfl⟩
      | ok message =>
          obtain ⟨-, s', hs', hkeys', hauth'⟩ := messages_returns hkeys message
          exact ⟨s', hs', hkeys', by rw [hauth']; rfl⟩

/-- Without a user it throws. -/
theorem handle_throws {s : Session} (channel : Channel)
    (hauth : ¬ s.authenticatedUser.isSome = true) :
    s.handle (.createChannel (.ok channel)) = .error .badOptionalAccess := by
  have hnone : s.authenticatedUser = none := Option.not_isSome_iff_eq_none.mp hauth
  rw [Session.handle, Session.onCreateChannelResponse, hnone]

theorem keysAgree_handle {s s' : Session} {r : Response} (hkeys : KeysAgree s)
    (h : s.handle r = .ok s') : KeysAgree s' := by
  by_cases hauth : ∀ channel, r = .createChannel (.ok channel) → s.authenticatedUser.isSome = true
  · obtain ⟨s₁, hs₁, hkeys₁, -⟩ := handle_returns hkeys hauth
    rw [hs₁] at h
    cases h
    exact hkeys₁
  · push Not at hauth
    obtain ⟨channel, rfl, hnone⟩ := hauth
    rw [handle_throws channel hnone] at h
    cases h

/-- What holds of a new session and survives every handler holds of every session reached. -/
theorem SessionReached.invariant {P : Session → Prop} (hnew : P .new)
    (hhandle : ∀ s r s', P s → s.handle r = .ok s' → P s') {s : Session} (h : SessionReached s) :
    P s := by
  obtain ⟨earlier, h⟩ := h
  have hall : ∀ (rs : List Response) (s₀ : Session), P s₀ →
      rs.foldlM Session.handle s₀ = .ok s → P s := by
    intro rs
    induction rs with
    | nil =>
        intro s₀ h₀ hs
        cases hs
        exact h₀
    | cons r rs ih =>
        intro s₀ h₀ hs
        rw [List.foldlM_cons] at hs
        cases hr : s₀.handle r with
        | error exn => rw [hr] at hs; cases hs
        | ok s₁ =>
            rw [hr] at hs
            exact ih s₁ (hhandle s₀ r s₁ h₀ hr) hs
  exact hall earlier .new hnew h

theorem keysAgree_reached {s : Session} (h : SessionReached s) : KeysAgree s :=
  h.invariant (fun c hc => absurd hc (by simp [Session.new])) fun _ _ _ hkeys hr =>
    keysAgree_handle hkeys hr

/-! ## The body of a case -/

/-- What is decoded prints as what was written. -/
theorem prints_wire (r : Response) : r.wire.prints = r.prints := by
  cases r with
  | registerAccount data | sendMessage data | deleteMessage data => rfl
  | login data | deleteAccount data | createChannel data => cases data <;> rfl
  | listAccounts data =>
      cases data with
      | error error => rfl
      | ok users =>
          show (users.map User.profile).all User.prints = users.all User.prints
          rw [List.all_map]
          rfl

/-- The handlers look at the case of a response, which travels. -/
theorem wire_createChannel (r : Response) :
    (∃ channel, r.wire = .createChannel (.ok channel))
      ↔ ∃ channel, r = .createChannel (.ok channel) := by
  cases r with
  | createChannel data => cases data <;> simp [Response.wire, Except.map]
  | _ => simp [Response.wire]

theorem authenticatedAfter_wire (authenticated : Bool) (r : Response) :
    authenticatedAfter authenticated r.wire = authenticatedAfter authenticated r := by
  cases r with
  | login data | deleteAccount data => cases data <;> rfl
  | _ => rfl

theorem react_frame [Nlohmann] (e : Endian) (drawn : UUID) (s : Session) {r : Response}
    (hcounted : r.Counted) (h : (r.serialize e []).length < 2 ^ 16) :
    TcpClient.react .custom e drawn s (r.frame e h)
      = if r.prints then (s.handle r.wire).toOption else none := by
  have hdecodes := decodes_response e drawn r hcounted []
  rw [List.append_nil, Reader.Yields] at hdecodes
  have hread : Response.read .custom e drawn (r.frame e h).operation (r.frame e h).payload
      = some r.wire := congrArg (Option.map Prod.fst) hdecodes
  rw [TcpClient.react, hread, Option.bind_eq_bind, Option.bind_some, prints_wire]

/-- A case is come back from when the object can be printed and its handler does not throw. -/
theorem react_isSome_iff [Nlohmann] (e : Endian) (drawn : UUID) {s : Session} (hkeys : KeysAgree s)
    {r : Response} (hcounted : r.Counted) (h : (r.serialize e []).length < 2 ^ 16) :
    (TcpClient.react .custom e drawn s (r.frame e h)).isSome ↔ r.prints = true
      ∧ ∀ channel, r = .createChannel (.ok channel) → s.authenticatedUser.isSome = true := by
  rw [react_frame e drawn s hcounted h]
  by_cases hprints : r.prints = true
  · rw [if_pos hprints]
    by_cases hauth : ∃ channel, r = .createChannel (.ok channel)
    · obtain ⟨channel, hwire⟩ := (wire_createChannel r).mpr hauth
      obtain ⟨channel', rfl⟩ := hauth
      rw [hwire]
      by_cases huser : s.authenticatedUser.isSome = true
      · obtain ⟨s', hs', -, -⟩ := handle_returns (r := .createChannel (.ok channel)) hkeys
          fun _ _ => huser
        rw [hs']
        exact iff_of_true rfl ⟨hprints, fun _ _ => huser⟩
      · rw [handle_throws channel huser]
        exact iff_of_false Bool.false_ne_true fun hall => huser (hall.2 channel' rfl)
    · have hnot : ∀ channel, r.wire ≠ .createChannel (.ok channel) := fun channel hwire =>
        hauth ((wire_createChannel r).mp ⟨channel, hwire⟩)
      obtain ⟨s', hs', -, -⟩ := handle_returns hkeys fun channel hwire =>
        absurd hwire (hnot channel)
      rw [hs']
      exact iff_of_true rfl ⟨hprints, fun channel hr => absurd ⟨channel, hr⟩ hauth⟩
  · rw [if_neg hprints]
    exact iff_of_false Bool.false_ne_true fun hall => hprints hall.1

theorem react_session [Nlohmann] {e : Endian} {drawn : UUID} {s s' : Session} (hkeys : KeysAgree s)
    {r : Response} (hcounted : r.Counted) (h : (r.serialize e []).length < 2 ^ 16)
    (hs' : TcpClient.react .custom e drawn s (r.frame e h) = some s') :
    KeysAgree s'
      ∧ s'.authenticatedUser.isSome = authenticatedAfter s.authenticatedUser.isSome r := by
  have hauth := ((react_isSome_iff e drawn hkeys hcounted h).mp (by rw [hs']; rfl)).2
  have hauth' : ∀ channel, r.wire = .createChannel (.ok channel) →
      s.authenticatedUser.isSome = true := by
    intro channel hwire
    obtain ⟨channel', hr⟩ := (wire_createChannel r).mp ⟨channel, hwire⟩
    exact hauth channel' hr
  obtain ⟨s₁, hs₁, hkeys₁, hafter⟩ := handle_returns hkeys hauth'
  rw [react_frame e drawn s hcounted h, hs₁] at hs'
  split at hs'
  · cases hs'
    exact ⟨hkeys₁, by rw [hafter, authenticatedAfter_wire]⟩
  · cases hs'

/-! ## The whole stream -/

/-- The bytes of a list of responses, one `serialize_msg` after the other. -/
def stream (e : Endian) (rs : List Response) : List UInt8 :=
  rs.flatMap fun r => r.serializeMsg e []

/--
The frames of a list of responses: they make up its bytes, they are its pairs of
operation and payload, and the cases come back from them all under two conditions.
-/
theorem exists_frames [Nlohmann] (e : Endian) (drawn : UUID) : ∀ (rs : List Response),
    (∀ r ∈ rs, r.Counted) → (∀ r ∈ rs, (r.serialize e []).length < 2 ^ 16) →
    ∃ fs : List Frame, (framing .custom).stream fs = stream e rs
      ∧ (fs.map fun f => (f.operation, f.payload))
        = (rs.map fun r => (r.operation, r.serialize e []))
      ∧ ∀ s : Session, KeysAgree s → ((fs.foldlM (TcpClient.react .custom e drawn) s).isSome
          ↔ (∀ r ∈ rs, r.prints = true) ∧ ChannelsAuthenticated s.authenticatedUser.isSome rs) := by
  intro rs
  induction rs with
  | nil =>
      intro _ _
      exact ⟨[], rfl, rfl, fun s _ =>
        iff_of_true rfl ⟨fun _ hr => absurd hr List.not_mem_nil, trivial⟩⟩
  | cons r rs ih =>
      intro hcounted hlt
      obtain ⟨fs, hstream, hpairs, hreact⟩ :=
        ih (fun r' hr' => hcounted r' (List.mem_cons_of_mem _ hr'))
          fun r' hr' => hlt r' (List.mem_cons_of_mem _ hr')
      have hr := hcounted r List.mem_cons_self
      have hrlt := hlt r List.mem_cons_self
      refine ⟨r.frame e hrlt :: fs, ?_, ?_, ?_⟩
      · show (r.frame e hrlt).bytes .custom ++ (framing .custom).stream fs = _
        rw [hstream, ← r.serializeMsg_eq e hrlt]
        rfl
      · rw [List.map_cons, List.map_cons, hpairs]
        rfl
      · intro s hkeys
        have hfirst := react_isSome_iff e drawn hkeys hr hrlt
        rw [List.foldlM_cons, List.forall_mem_cons, ChannelsAuthenticated]
        cases hreacts : TcpClient.react .custom e drawn s (r.frame e hrlt) with
        | none =>
            rw [hreacts] at hfirst
            refine iff_of_false Bool.false_ne_true ?_
            rintro ⟨⟨hprints, -⟩, hauth, -⟩
            exact Bool.false_ne_true (hfirst.mpr ⟨hprints, hauth⟩)
        | some s' =>
            obtain ⟨hkeys', hauth'⟩ := react_session hkeys hr hrlt hreacts
            rw [hreacts] at hfirst
            obtain ⟨hprints, hauth⟩ := hfirst.mp rfl
            show (fs.foldlM (TcpClient.react .custom e drawn) s').isSome ↔ _
            rw [hreact s' hkeys', hauth']
            exact ⟨fun h => ⟨⟨hprints, h.1⟩, hauth, h.2⟩, fun h => ⟨h.1.2, h.2.2⟩⟩

/--
The run on the bytes of `rs` and then `rest` ends by itself, however many passes it
is allowed; it has dispatched the pairs of `rs` and leaves `rest`.
-/
def DispatchesAll [Nlohmann] (e : Endian) (drawn : UUID) (s : Session) (rs : List Response)
    (rest : List UInt8) : Prop :=
  ∃ s' fs, (fs.map fun f => (f.operation, f.payload))
      = (rs.map fun r => (r.operation, r.serialize e []))
    ∧ ∀ n, (stream e rs ++ rest).length < n →
        TcpClient.run .custom e drawn n s (stream e rs ++ rest) = (fs, some (s', rest))

/--
**When the stream is read as it was written.** Whole frames of responses in the
client's buffer, with less than a header behind them, are dispatched in order and
up to the header exactly when every object can be printed and no channel is
announced while nobody is authenticated.
-/
theorem responses_dispatched_iff [Nlohmann] (e : Endian) (drawn : UUID) {s : Session}
    (hs : SessionReached s) {rs : List Response} (hcounted : ∀ r ∈ rs, r.Counted)
    (hsize : ∀ r ∈ rs, (r.serialize e []).length ≤ 65535) {rest : List UInt8}
    (hrest : rest.length < Header.size) :
    DispatchesAll e drawn s rs rest
      ↔ (∀ r ∈ rs, r.prints = true)
        ∧ ChannelsAuthenticated s.authenticatedUser.isSome rs := by
  have hkeys := keysAgree_reached hs
  obtain ⟨fs, hstream, hpairs, hreact⟩ :=
    exists_frames e drawn rs hcounted fun r hr => Nat.lt_succ_of_le (hsize r hr)
  have hidle : (framing .custom).poll rest = .idle := readFrame_short .custom hrest
  have hfuel : ∀ n, (stream e rs ++ rest).length < n → fs.length < n := by
    intro n hn
    have hle := (framing .custom).length_le_stream fs
    rw [hstream] at hle
    rw [List.length_append] at hn
    omega
  -- what the run leaves is decided by the reactions alone
  have hrun : ∀ n, (stream e rs ++ rest).length < n →
      (TcpClient.run .custom e drawn n s (stream e rs ++ rest)).2
        = (fs.foldlM (TcpClient.react .custom e drawn) s).map fun s' => (s', rest) := by
    intro n hn
    rw [← hstream]
    exact (framing .custom).drainWith_stream (TcpClient.react .custom e drawn) hidle fs s n
      (hfuel n hn)
  rw [← hreact s hkeys]
  refine ⟨?_, ?_⟩
  · rintro ⟨s', fs', -, hall⟩
    have hn := Nat.lt_succ_self (stream e rs ++ rest).length
    have hleft := hrun _ hn
    rw [hall _ hn] at hleft
    cases hfold : fs.foldlM (TcpClient.react .custom e drawn) s with
    | none => rw [hfold] at hleft; cases hleft
    | some _ => rfl
  · intro hsome
    obtain ⟨s', hs'⟩ := Option.isSome_iff_exists.mp hsome
    refine ⟨s', fs, hpairs, ?_⟩
    intro n hn
    have hleft := hrun n hn
    rw [hs', Option.map_some] at hleft
    obtain ⟨hframes, -⟩ := drainWith_returned hleft
    have hdrain : drain (readFrame .custom) n (stream e rs ++ rest)
        = drainAll (readFrame .custom) (stream e rs ++ rest) :=
      (framing .custom).drain_fuel _ _ _ hn (Nat.lt_succ_self _)
    have hall := (framing .custom).drainAll_stream fs rest
    rw [(framing .custom).drainAll_eq rest, hidle, hstream] at hall
    dsimp only at hall
    refine Prod.ext ?_ hleft
    rw [TcpClient.run, hframes, hdrain]
    show (drainAll (framing .custom).poll _).1 = fs
    rw [hall, List.append_nil]

/-- A search and its result, with two bytes of the next header behind them. -/
theorem responses_dispatched_search :
    @DispatchesAll plainJson .little (.ofByte 0) .new
      [.login (.error (lit "Incorrect password")), .listAccounts (.ok twoUsers)] [0x14, 1] :=
  (@responses_dispatched_iff plainJson .little (.ofByte 0) _ ⟨[], rfl⟩ _
    (by simp [Response.Counted]; decide) (by simp; decide) _ (by decide)).mpr
    ⟨by simp; decide, by simp [ChannelsAuthenticated]⟩

/-- Two refused logins, the first with a text that is a single byte and no character. -/
def strayByte : List Response := [.login (.error [0xFF]), .login (.error (lit "no"))]

theorem strayByte_run :
    (@TcpClient.run plainJson .custom .little (.ofByte 0) 16 .new
        (stream .little strayByte)).1.map (·.payload) = [[1, 1, 0xFF]]
      ∧ (@TcpClient.run plainJson .custom .little (.ofByte 0) 16 .new
        (stream .little strayByte)).2.isNone = true := by
  decide

/-- Printing the first throws, so it alone is dispatched and the second stays in the buffer. -/
theorem responses_not_dispatched :
    SessionReached .new ∧ (∀ r ∈ strayByte, r.Counted)
      ∧ (∀ r ∈ strayByte, (r.serialize .little []).length ≤ 65535)
      ∧ (@TcpClient.run plainJson .custom .little (.ofByte 0) 16 .new
        (stream .little strayByte)).1.map (·.payload) = [[1, 1, 0xFF]]
      ∧ ¬ @DispatchesAll plainJson .little (.ofByte 0) .new strayByte [] := by
  refine ⟨⟨[], rfl⟩, by simp [strayByte, Response.Counted]; decide, by simp [strayByte]; decide,
    strayByte_run.1, ?_⟩
  rintro ⟨s', fs, -, hall⟩
  have hrun := hall 16 (by decide)
  have hnone := strayByte_run.2
  rw [List.append_nil] at hrun
  rw [hrun] at hnone
  cases hnone

end SockEtOut.Proof
