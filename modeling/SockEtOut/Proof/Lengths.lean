import SockEtOut.Wire.Packets

/-!
# The length in the header

`serialize_msg` narrows `size()` to sixteen bits. Thirteen of the fourteen classes
cannot come near the limit while their strings and lists fit their one-byte
counts. The list of users that answers a search can: it has up to 255 elements
with three strings each.
-/

namespace SockEtOut.Proof

open Lib

/-- The header that is written announces as many bytes as follow it. -/
def LengthFits (e : Endian) (p : Packet) : Prop :=
  ∃ header, Header.deserialize ((p.serializeMsg e []).take Header.size) = some header
    ∧ header.packetLength.toNat = ((p.serializeMsg e []).drop Header.size).length

/-- The bytes of a search result: two for the case and the count, and the users. -/
def resultBytes (users : List User) : Nat :=
  users.foldl (fun n u =>
    n + (19 + u.username.length + u.displayName.length + u.profilePic.length)) 2

/-- What the header says, and what follows it. -/
theorem serializeMsg_split (e : Endian) (p : Packet) :
    (∃ header, Header.deserialize ((p.serializeMsg e []).take Header.size) = some header
        ∧ header.packetLength.toNat = p.size % 2 ^ 16)
      ∧ ((p.serializeMsg e []).drop Header.size).length = p.size := by
  have hsplit : p.serializeMsg e []
      = Header.serialize ⟨Build.custom.protocolVersion, p.operation.code, UInt16.ofNat p.size⟩ []
        ++ p.serialize e [] := by
    rw [Packet.serializeMsg, SockEtOut.serializeMsg, p.serialize_append]
  have hlen : (Header.serialize
      ⟨Build.custom.protocolVersion, p.operation.code, UInt16.ofNat p.size⟩ []).length
        = Header.size := rfl
  rw [hsplit, List.take_left' hlen, List.drop_left' hlen, p.length_serialize e]
  refine ⟨⟨_, Header.deserialize_serialize _ Build.custom.version_reads_back, ?_⟩, rfl⟩
  exact UInt16.toNat_ofNat'

/-- Narrowing is harmless below the limit and nowhere else. -/
theorem lengthFits_iff_size (e : Endian) (p : Packet) : LengthFits e p ↔ p.size < 2 ^ 16 := by
  obtain ⟨⟨header, hheader, hlength⟩, hrest⟩ := serializeMsg_split e p
  unfold LengthFits
  rw [hrest]
  refine ⟨?_, ?_⟩
  · rintro ⟨header', hheader', hfits⟩
    rw [hheader] at hheader'
    cases hheader'
    rw [hlength] at hfits
    rw [← hfits]
    exact Nat.mod_lt _ (by decide)
  · intro hlt
    exact ⟨header, hheader, by rw [hlength, Nat.mod_eq_of_lt hlt]⟩

/-! ## How long a payload can be -/

theorem request_size_lt (m : RequestMessage) (h : m.Counted) : m.size < 2 ^ 16 := by
  cases m with
  | registerAccount m =>
      obtain ⟨h₁, h₂, h₃⟩ := h
      show 3 + m.username.length + m.password.length + m.displayName.length < 2 ^ 16
      omega
  | login m | deleteAccount m =>
      obtain ⟨h₁, h₂⟩ := h
      show 2 + m.username.length + m.password.length < 2 ^ 16
      omega
  | listAccounts m =>
      have h₁ : m.regex.length ≤ 255 := h
      show 1 + m.regex.length < 2 ^ 16
      omega
  | createChannel m =>
      obtain ⟨h₁, h₂⟩ := h
      show m.members.foldl (fun size member => size + member.value.length)
        (1 + m.channelName.length + 1) < 2 ^ 16
      rw [foldl_length_eq UUID.value, length_uuids]
      omega
  | sendMessage m =>
      have h₁ : m.text.length ≤ 255 := h
      show m.channelUid.value.length + m.senderUid.value.length + 1 + m.text.length < 2 ^ 16
      rw [m.channelUid.size_eq, m.senderUid.size_eq]
      omega
  | deleteMessage m => show 24 < 2 ^ 16; decide

theorem user_size (u : User) :
    u.size = 19 + u.username.length + u.displayName.length + u.profilePic.length := by
  rw [User.size, u.uid.size_eq]
  omega

theorem user_size_le (u : User) (h : u.Counted) : u.size ≤ 784 := by
  obtain ⟨h₁, h₂, h₃⟩ := h
  rw [user_size]
  omega

theorem message_size_le (m : Message) (h : m.Counted) : m.size ≤ 4393 := by
  obtain ⟨h₁, h₂⟩ := h
  rw [Message.size, foldl_add_const, m.senderId.size_eq, m.channelId.size_eq]
  omega

theorem channel_size_le (c : Channel) (h : c.Counted) : c.size ≤ 4609 := by
  obtain ⟨h₁, h₂, h₃⟩ := h
  rw [Channel.size, foldl_length_eq UUID.value, length_uuids]
  omega

theorem resultBytes_eq (users : List User) :
    resultBytes users = users.foldl (fun size user => size + user.size) 2 := by
  simp only [resultBytes, user_size]

theorem foldl_size_succ (users : List User) (n : Nat) :
    users.foldl (fun size user => size + user.size) (n + 1)
      = users.foldl (fun size user => size + user.size) n + 1 := by
  induction users generalizing n with
  | nil => rfl
  | cons u users ih => rw [List.foldl_cons, List.foldl_cons, Nat.add_right_comm, ih]

theorem search_size (users : List User) :
    (Response.listAccounts (.ok users)).size = resultBytes users := by
  rw [resultBytes_eq, foldl_size_succ users 1]
  exact Nat.add_comm _ _

/-- Of the responses, only a search result can be too long. -/
theorem response_size_lt (r : Response) (h : r.Counted)
    (hsearch : ∀ users, r ≠ .listAccounts (.ok users)) : r.size < 2 ^ 16 := by
  have herror : ∀ error : Str, error.length ≤ 255 → 1 + (1 + error.length) < 2 ^ 16 := by
    intro error herror
    omega
  cases r with
  | registerAccount data =>
      cases data with
      | ok _ => show 1 + 0 < 2 ^ 16; decide
      | error error => exact herror error h
  | login data | deleteAccount data =>
      cases data with
      | ok user =>
          have hle := user_size_le user h
          show 1 + user.size < 2 ^ 16
          omega
      | error error => exact herror error h
  | listAccounts data =>
      cases data with
      | ok users => exact absurd rfl (hsearch users)
      | error error => exact herror error h
  | createChannel data =>
      cases data with
      | ok channel =>
          have hle := channel_size_le channel h
          show 1 + channel.size < 2 ^ 16
          omega
      | error error => exact herror error h
  | sendMessage data | deleteMessage data =>
      cases data with
      | ok message =>
          have hle := message_size_le message h
          show 1 + message.size < 2 ^ 16
          omega
      | error error => exact herror error h

/--
**When the length fits.** For every object of the fourteen classes within the
one-byte counts, the header announces what follows it, unless it is a search
result of 65536 bytes or more.
-/
theorem length_fits_iff (e : Endian) (p : Packet) (h : p.Counted) :
    LengthFits e p
      ↔ ∀ users, p = .response (.listAccounts (.ok users)) → resultBytes users < 2 ^ 16 := by
  rw [lengthFits_iff_size]
  cases p with
  | request m =>
      exact iff_of_true (request_size_lt m h) fun users hp => nomatch hp
  | response r =>
      by_cases hsearch : ∃ users, r = .listAccounts (.ok users)
      · obtain ⟨users, rfl⟩ := hsearch
        rw [show (Packet.response (.listAccounts (.ok users))).size = resultBytes users from
          search_size users]
        refine ⟨?_, fun hall => hall users rfl⟩
        intro hlt users' hp
        cases hp
        exact hlt
      · refine iff_of_true (response_size_lt r h fun users hr => hsearch ⟨users, hr⟩) ?_
        intro users hp
        exact absurd ⟨users, Packet.response.inj hp⟩ hsearch

/-- The longest error there is. -/
theorem length_fits_longError :
    LengthFits .little (.response (.login (.error (List.replicate 255 0x21)))) :=
  (length_fits_iff .little (.response (.login (.error (List.replicate 255 0x21))))
    (by show (List.replicate 255 _).length ≤ 255; rw [List.length_replicate])).mpr
    fun users hp => nomatch hp

/-- A user whose three strings are as long as their length bytes allow. -/
def longUser : User :=
  ⟨.ofByte 1, List.replicate 255 0x61, List.replicate 255 0x62, List.replicate 255 0x63, []⟩

theorem longUser_counted : longUser.Counted := by
  unfold User.Counted longUser
  simp only [List.length_replicate]
  omega

theorem longUsers_bytes (n : Nat) : resultBytes (List.replicate n longUser) = 2 + 784 * n := by
  have hlong : 19 + longUser.username.length + longUser.displayName.length
      + longUser.profilePic.length = 784 := by
    unfold longUser
    simp only [List.length_replicate]
  have hfold : ∀ (n k : Nat), (List.replicate n longUser).foldl (fun n u =>
      n + (19 + u.username.length + u.displayName.length + u.profilePic.length)) k
        = k + 784 * n := by
    intro n
    induction n with
    | zero => intro k; rfl
    | succ n ih =>
        intro k
        rw [List.replicate_succ, List.foldl_cons, ih, hlong]
        omega
  exact hfold n 2

/-- Eighty-four such users take 65858 bytes, and the header says 322. -/
theorem length_wraps :
    (Packet.response (.listAccounts (.ok (List.replicate 84 longUser)))).Counted
      ∧ (∃ header, Header.deserialize (((Packet.response
            (.listAccounts (.ok (List.replicate 84 longUser)))).serializeMsg .little []).take
              Header.size) = some header ∧ header.packetLength.toNat = 322)
      ∧ (((Packet.response (.listAccounts (.ok (List.replicate 84 longUser)))).serializeMsg
          .little []).drop Header.size).length = 65858
      ∧ ¬ LengthFits .little (.response (.listAccounts (.ok (List.replicate 84 longUser)))) := by
  have hsize : (Packet.response (.listAccounts (.ok (List.replicate 84 longUser)))).size
      = 65858 := (search_size _).trans (longUsers_bytes 84)
  obtain ⟨hheader, hrest⟩ := serializeMsg_split .little
    (.response (.listAccounts (.ok (List.replicate 84 longUser))))
  rw [hsize] at hheader hrest
  refine ⟨⟨?_, ?_⟩, hheader, hrest, ?_⟩
  · rw [List.length_replicate]
    decide
  · intro u hu
    rw [List.eq_of_mem_replicate hu]
    exact longUser_counted
  · rw [lengthFits_iff_size, hsize]
    decide

end SockEtOut.Proof
