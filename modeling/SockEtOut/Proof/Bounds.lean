import SockEtOut.Server.Reader

/-!
# Where the request decoders read

No decoder of a request compares an index with the size of the payload it was
handed. `announced` is how long a payload is by what it says itself, its length
and count bytes; a decoder stays inside the payload exactly when there is as much
of it.
-/

namespace SockEtOut.Proof

open Lib Reader

/-- A length or count byte of a payload; nothing where the payload has ended. -/
def countAt (payload : List UInt8) (i : Nat) : Nat := (payload.getD i default).toNat

/-- How long a payload is by its own account. -/
def announced (operation : Operation) (payload : List UInt8) : Nat :=
  match operation with
  | .registerAccount =>
      let username := countAt payload 0
      let password := countAt payload (username + 1)
      3 + username + password + countAt payload (username + password + 2)
  | .login | .deleteAccount =>
      let username := countAt payload 0
      2 + username + countAt payload (username + 1)
  | .listAccounts => 1 + countAt payload 0
  | .createChannel =>
      let channelName := countAt payload 0
      2 + channelName + countAt payload (channelName + 1) * 16
  | .sendMessage => 33 + countAt payload 32
  | .deleteMessage => 24
  | _ => 0

/-! ## One decoder after another -/

theorem inside_registerAccount (payload : List UInt8) :
    (RegisterAccountMessage.deserialize payload 0).isSome
      ↔ announced .registerAccount payload ≤ payload.length := by
  unfold RegisterAccountMessage.deserialize announced countAt
  rw [isSome_byteAt_bind, isSome_byteAt_bind, isSome_byteAt_bind, isSome_slice_bind,
    isSome_slice_bind, isSome_slice_bind]
  simp only [isSome_pure, and_true]
  omega

theorem inside_credentials (payload : List UInt8) :
    (deserializeCredentials payload 0).isSome ↔ announced .login payload ≤ payload.length := by
  unfold deserializeCredentials announced countAt
  rw [isSome_byteAt_bind, isSome_byteAt_bind, isSome_slice_bind, isSome_slice_bind]
  simp only [isSome_pure, and_true]
  omega

theorem inside_listAccounts (payload : List UInt8) :
    (ListAccountsMessage.deserialize payload 0).isSome
      ↔ announced .listAccounts payload ≤ payload.length := by
  unfold ListAccountsMessage.deserialize announced countAt
  rw [isSome_byteAt_bind, isSome_slice_bind]
  simp only [isSome_pure, and_true]
  omega

theorem takes_uuid : Takes UUID.deserialize 16 := by
  intro buf offset hle
  refine ⟨fun h => ?_, fun h => bind_of_none (if_neg (by omega))⟩
  have hlength : ((buf.drop offset).take 16).length = 16 := by
    rw [List.length_take, List.length_drop]
    omega
  have hrange : Yields (range 16) buf offset ((buf.drop offset).take 16) (offset + 16) := if_pos h
  exact ⟨⟨_, hlength⟩, hrange.bind (by rw [dif_pos hlength]; exact yields_pure _ rfl)⟩

/-- Behind the name come as many members as the count says. -/
theorem inside_createChannel (payload : List UInt8) :
    ((CreateChannelMessage.mk [] []).deserialize payload 0).isSome
      ↔ announced .createChannel payload ≤ payload.length := by
  unfold CreateChannelMessage.deserialize announced countAt
  rw [isSome_next_bind, isSome_range_bind, isSome_next_bind, isSome_map]
  by_cases hcount : 0 + 1 + (payload.getD 0 default).toNat < payload.length
  · rw [(takes_uuid.times _).isSome_iff hcount]
    have hat : 0 + 1 + (payload.getD 0 default).toNat = (payload.getD 0 default).toNat + 1 := by
      omega
    rw [hat]
    dsimp only
    omega
  · have hshort : ¬ announced .createChannel payload ≤ payload.length := by
      unfold announced countAt
      dsimp only
      omega
    exact ⟨fun h => absurd h.2.2.1 hcount, fun h => absurd h hshort⟩

/-- The two UUIDs, and a text as long as the byte behind them says. -/
theorem inside_sendMessage (payload : List UInt8) :
    (SendMessageMessage.deserialize payload 0).isSome
      ↔ announced .sendMessage payload ≤ payload.length := by
  have htext : ∀ channelUid senderUid : UUID,
      ((next >>= fun textLength => range textLength.toNat >>= fun text =>
          (pure { channelUid, senderUid, text } : Reader UInt8 SendMessageMessage))
        payload (0 + 16 + 16)).isSome ↔ 33 + (payload.getD 32 default).toNat ≤ payload.length := by
    intro channelUid senderUid
    rw [isSome_next_bind, isSome_range_bind]
    simp only [isSome_pure, and_true, Nat.zero_add, Nat.reduceAdd]
    omega
  unfold SendMessageMessage.deserialize announced countAt
  dsimp only
  rw [takes_uuid.isSome_bind (Nat.zero_le _) fun hle channelUid =>
    takes_uuid.isSome_bind hle fun _ senderUid => htext channelUid senderUid]
  omega

/-- The loop of `n` passes from the `i`-th on. -/
theorem inside_snowflake (payload : List UInt8) (n i : Nat) (s : UInt64) (offset : Nat)
    (h : 16 + i ≤ payload.length) :
    (DeleteMessageMessage.readSnowflake n i s payload offset).isSome
      ↔ 16 + i + n ≤ payload.length := by
  induction n generalizing i s offset with
  | zero => exact ⟨fun _ => h, fun _ => rfl⟩
  | succ n ih =>
      rw [DeleteMessageMessage.readSnowflake, isSome_byteAt_bind]
      by_cases hi : 16 + i < payload.length
      · rw [ih (i + 1) _ _ (by omega)]
        omega
      · exact ⟨fun h => absurd h.1 hi, fun h => absurd h (by omega)⟩

theorem inside_deleteMessage (payload : List UInt8) :
    (DeleteMessageMessage.deserialize payload 0).isSome
      ↔ announced .deleteMessage payload ≤ payload.length := by
  unfold DeleteMessageMessage.deserialize announced
  dsimp only
  rw [takes_uuid.isSome_bind (Nat.zero_le _) fun hle channelUid =>
    isSome_map.trans (inside_snowflake payload 8 0 0 _ (by omega))]
  omega

/-! ## All of them -/

/--
**Where the request decoders read.** The server hands every frame's payload to the
decoder of its operation as it came. The decoder reads inside it exactly if the
payload is as long as its own length and count bytes announce.
-/
theorem requests_inside_iff [Nlohmann] [External] (e : Endian) (conn : Nat)
    (found : ClientHandler.Found) (f : Frame) :
    ClientHandler.onReadData .custom e conn found (f.bytes .custom)
        = ([f], (ClientHandler.react .custom e conn found f).map fun served => (served, []))
      ∧ ((RequestMessage.deserialize f.operation f.payload 0).isSome
        ↔ announced f.operation f.payload ≤ f.payload.length) := by
  refine ⟨?_, ?_⟩
  · have hwhole := readFrame_whole .custom f []
    rw [List.append_nil] at hwhole
    rw [ClientHandler.onReadData, Lib.drainWith, hwhole]
    dsimp only
    cases ClientHandler.react .custom e conn found f <;> rfl
  · have hhandled := f.handled
    cases hop : f.operation with
    | registerAccount => exact isSome_map.trans (inside_registerAccount f.payload)
    | login => exact isSome_map.trans (isSome_map.trans (inside_credentials f.payload))
    | deleteAccount => exact isSome_map.trans (isSome_map.trans (inside_credentials f.payload))
    | listAccounts => exact isSome_map.trans (inside_listAccounts f.payload)
    | createChannel => exact isSome_map.trans (inside_createChannel f.payload)
    | sendMessage => exact isSome_map.trans (inside_sendMessage f.payload)
    | deleteMessage => exact isSome_map.trans (inside_deleteMessage f.payload)
    | _ =>
        rw [hop] at hhandled
        cases hhandled

theorem login_handled : Operation.login.handled = true := rfl

/-- A login whose payload is one byte, which announces a username of 255. -/
def truncatedLogin : Frame := ⟨.login, [255], login_handled, by decide⟩

/--
A decoder does not stay inside whatever payload it gets: here the password's
length is looked for at index 256 of a payload of one byte.
-/
theorem requests_not_inside :
    ¬ ∀ f : Frame, (RequestMessage.deserialize f.operation f.payload 0).isSome := by
  intro h
  exact absurd (h truncatedLogin) (by decide)

end SockEtOut.Proof
