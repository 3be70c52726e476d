import SockEtOut.Wire.Header
import SockEtOut.Wire.Models

/-!
# Responses on the wire

The custom build's encoding of the response classes other than
`CreateChannelResponse`, which is with the channels. All begin with a byte that
says whether an error follows; the error has a length byte of its own, a success
what the class carries.

An object that is decoded is a new one. Where its constructor draws a uid, that
uid is overwritten, so one `drawn` stands for all a decoder's objects.
-/

namespace SockEtOut

open Lib Reader

/-- What every response writes: a byte for the case, then the payload or the error. -/
def serializeData {α : Type} (payload : α → List UInt8 → List UInt8) (data : Except Str α)
    (buf : List UInt8) : List UInt8 :=
  match data with
  | .ok value => payload value (buf ++ [0])
  | .error error => buf ++ [1] ++ [UInt8.ofNat error.length] ++ error

/-- What a response with a running offset reads. -/
def deserializeData {α : Type} (payload : Reader UInt8 α) : Reader UInt8 (Except Str α) := do
  let hasError ← next
  if hasError = 0 then do
    let value ← payload
    pure (.ok value)
  else do
    let errorLength ← next
    let error ← range errorLength.toNat
    pure (.error error)

/-- What a response with fixed indices reads: `buf[0]`, `buf[1]`, and on from 1 or from 2. -/
def deserializeDataAt {α : Type} (payload : Reader UInt8 α) : Reader UInt8 (Except Str α) := do
  let hasError ← byteAt 0
  if hasError = 0 then do
    let value ← payload
    pure (.ok value)
  else do
    let len ← byteAt 1
    let error ← slice 2 len.toNat
    pure (.error error)

def sizeData {α : Type} (payload : α → Nat) : Except Str α → Nat
  | .ok value => 1 + payload value
  | .error error => 1 + (1 + error.length)

/-- `std::variant<std::monostate, std::string>` -/
structure RegisterAccountResponse where
  errorMessage : Except Str Unit

namespace RegisterAccountResponse

def serialize (r : RegisterAccountResponse) : List UInt8 → List UInt8 :=
  serializeData (fun _ buf => buf) r.errorMessage

def deserialize : Reader UInt8 RegisterAccountResponse := do
  let errorMessage ← deserializeData (pure ())
  pure { errorMessage }

def size (r : RegisterAccountResponse) : Nat := sizeData (fun _ => 0) r.errorMessage

end RegisterAccountResponse

structure LoginResponse where
  data : Except Str User

namespace LoginResponse

def serialize (r : LoginResponse) : List UInt8 → List UInt8 := serializeData User.serialize r.data

def deserialize (drawn : UUID) : Reader UInt8 LoginResponse := do
  let data ← deserializeData (User.default drawn).deserialize
  pure { data }

def size (r : LoginResponse) : Nat := sizeData User.size r.data

end LoginResponse

structure ListAccountsResponse where
  data : Except Str (List User)

namespace ListAccountsResponse

/-- How many users there are is one byte. -/
def serializeUsers (users : List User) (buf : List UInt8) : List UInt8 :=
  let buf := buf ++ [UInt8.ofNat users.length]
  users.foldl (fun buf user => user.serialize buf) buf

/-- A user is decoded from all that is left, and the next begins where its `size` says. -/
def deserializeUsers (drawn : UUID) : Reader UInt8 (List User) := do
  let usersLength ← next
  times (embedded (User.default drawn).deserialize User.size) usersLength.toNat

def sizeUsers (users : List User) : Nat := users.foldl (fun size user => size + user.size) 1

def serialize (r : ListAccountsResponse) : List UInt8 → List UInt8 :=
  serializeData serializeUsers r.data

def deserialize (drawn : UUID) : Reader UInt8 ListAccountsResponse := do
  let data ← deserializeData (deserializeUsers drawn)
  pure { data }

def size (r : ListAccountsResponse) : Nat := sizeData sizeUsers r.data

end ListAccountsResponse

structure DeleteAccountResponse where
  data : Except Str User

namespace DeleteAccountResponse

def serialize (r : DeleteAccountResponse) : List UInt8 → List UInt8 :=
  serializeData User.serialize r.data

def deserialize (drawn : UUID) : Reader UInt8 DeleteAccountResponse := do
  let data ← deserializeDataAt (User.default drawn).deserialize
  pure { data }

def size (r : DeleteAccountResponse) : Nat := sizeData User.size r.data

end DeleteAccountResponse

structure SendMessageResponse where
  data : Except Str Message

namespace SendMessageResponse

def serialize (e : Endian) (r : SendMessageResponse) : List UInt8 → List UInt8 :=
  serializeData (Message.serialize e) r.data

def deserialize (e : Endian) : Reader UInt8 SendMessageResponse := do
  let data ← deserializeData (Message.deserialize e)
  pure { data }

def size (r : SendMessageResponse) : Nat := sizeData Message.size r.data

end SendMessageResponse

structure DeleteMessageResponse where
  data : Except Str Message

namespace DeleteMessageResponse

def serialize (e : Endian) (r : DeleteMessageResponse) : List UInt8 → List UInt8 :=
  serializeData (Message.serialize e) r.data

def deserialize (e : Endian) : Reader UInt8 DeleteMessageResponse := do
  let data ← deserializeDataAt (Message.deserialize e)
  pure { data }

def size (r : DeleteMessageResponse) : Nat := sizeData Message.size r.data

end DeleteMessageResponse

/-! ## The bytes of a response -/

/-- What is known of one class's payload carries over to its responses. -/
theorem length_serializeData {α : Type} {payload : α → List UInt8 → List UInt8} {size : α → Nat}
    (happend : ∀ value buf, payload value buf = buf ++ payload value [])
    (hsize : ∀ value, (payload value []).length = size value) (data : Except Str α) :
    (serializeData payload data []).length = sizeData size data := by
  cases data with
  | ok value =>
      show (payload value ([] ++ [0])).length = 1 + size value
      rw [happend, List.length_append, hsize]
      rfl
  | error error =>
      show ([] ++ [1] ++ [UInt8.ofNat error.length] ++ error).length = 1 + (1 + error.length)
      simp only [List.nil_append, List.length_append, List.length_singleton]
      omega

theorem serializeData_append {α : Type} {payload : α → List UInt8 → List UInt8}
    (happend : ∀ value buf, payload value buf = buf ++ payload value []) (data : Except Str α)
    (buf : List UInt8) : serializeData payload data buf = buf ++ serializeData payload data [] := by
  cases data with
  | ok value =>
      show payload value (buf ++ [0]) = buf ++ payload value ([] ++ [0])
      rw [happend, happend value ([] ++ [0]), List.nil_append, List.append_assoc]
  | error error =>
      show buf ++ [1] ++ [UInt8.ofNat error.length] ++ error
        = buf ++ ([] ++ [1] ++ [UInt8.ofNat error.length] ++ error)
      simp only [List.nil_append, List.append_assoc]

theorem ListAccountsResponse.serializeUsers_eq (users : List User) (buf : List UInt8) :
    serializeUsers users buf
      = buf ++ ([UInt8.ofNat users.length] ++ users.flatMap fun u => u.serialize []) := by
  have hfold : (fun buf user => User.serialize user buf)
      = fun (buf : List UInt8) (user : User) => buf ++ user.serialize [] := by
    funext buf user
    rw [User.serialize_eq, User.serialize_eq user [], List.nil_append]
  unfold serializeUsers
  dsimp only
  rw [hfold, foldl_append_eq fun u => User.serialize u [], List.append_assoc]

theorem ListAccountsResponse.length_serializeUsers (users : List User) :
    (serializeUsers users []).length = sizeUsers users := by
  have hsize : User.size = fun u => (u.serialize []).length :=
    funext fun u => u.length_serialize.symm
  rw [serializeUsers_eq, sizeUsers, hsize, foldl_length_eq fun u => User.serialize u []]
  simp only [List.nil_append, List.length_append, List.length_singleton]

theorem User.serialize_append (u : User) (buf : List UInt8) :
    u.serialize buf = buf ++ u.serialize [] := by
  rw [User.serialize_eq, User.serialize_eq u [], List.nil_append]

theorem Message.serialize_append (e : Endian) (m : Message) (buf : List UInt8) :
    m.serialize e buf = buf ++ m.serialize e [] := by
  rw [Message.serialize_eq, Message.serialize_eq e m [], List.nil_append]

theorem ListAccountsResponse.serializeUsers_append (users : List User) (buf : List UInt8) :
    serializeUsers users buf = buf ++ serializeUsers users [] := by
  rw [serializeUsers_eq, serializeUsers_eq users [], List.nil_append]

/-! ## What is read back -/

/-- The two cases of a response, read with a running offset. -/
theorem reads_data {α : Type} {payload : α → List UInt8 → List UInt8} {rd : Reader UInt8 α}
    {wire : α → α} {data : Except Str α}
    (happend : ∀ value buf, payload value buf = buf ++ payload value [])
    (hok : ∀ value, data = .ok value → Reads rd (payload value []) (wire value))
    (herror : ∀ error, data = .error error → error.length ≤ 255) :
    Reads (deserializeData rd) (serializeData payload data []) (data.map wire) := by
  cases data with
  | ok value =>
      rw [serializeData, happend, List.nil_append]
      refine (reads_next 0).bind ?_
      rw [if_pos rfl]
      exact (hok value rfl).map _
  | error error =>
      rw [serializeData, List.nil_append, List.append_assoc]
      refine (reads_next 1).bind ?_
      rw [if_neg (by decide)]
      refine (reads_next _).bind ?_
      exact (reads_range (toNat_count (herror error rfl))).map _

/-- The same cases, read at fixed indices. -/
theorem decodes_dataAt {α : Type} {payload : α → List UInt8 → List UInt8} {rd : Reader UInt8 α}
    {wire : α → α} {data : Except Str α}
    (happend : ∀ value buf, payload value buf = buf ++ payload value [])
    (hok : ∀ value, data = .ok value → Reads rd (payload value []) (wire value))
    (herror : ∀ error, data = .error error → error.length ≤ 255) :
    Decodes (deserializeDataAt rd) (serializeData payload data []) (data.map wire) := by
  intro after
  cases data with
  | ok value =>
      rw [serializeData, happend, List.nil_append, List.append_assoc]
      refine (yields_byteAt (at_start _ _)).bind ?_
      rw [if_pos rfl]
      have hpayload := hok value rfl [0] after
      rw [List.append_assoc] at hpayload
      refine Yields.bind hpayload (yields_pure _ ?_)
      rw [List.length_append]
  | error error =>
      have he := toNat_count (herror error rfl)
      rw [serializeData, List.nil_append]
      simp only [List.append_assoc]
      generalize UInt8.ofNat error.length = el at *
      have hel : [el].length = 1 := rfl
      refine (yields_byteAt (at_start _ _)).bind ?_
      rw [if_neg (by decide)]
      refine (yields_byteAt ((at_start _ _).behind _ (by rfl))).bind ?_
      refine (yields_slice (((at_start _ _).behind _ (by rfl)).behind _ (by rfl)) he).bind ?_
      refine yields_pure _ ?_
      simp only [List.length_append, List.length_singleton]
      omega

/-- A list of users: each is found where the size of the one before it says. -/
theorem reads_users (drawn : UUID) {users : List User} (hlength : users.length ≤ 255)
    (husers : ∀ u ∈ users, u.Counted) :
    Reads (ListAccountsResponse.deserializeUsers drawn)
      (ListAccountsResponse.serializeUsers users []) (users.map User.profile) := by
  have heach : ∀ u ∈ users,
      Reads (embedded (User.default drawn).deserialize User.size) (u.serialize []) u.profile := by
    intro u hu
    refine (reads_user drawn u (husers u hu)).embedded ?_
    rw [User.size_profile, u.length_serialize]
  rw [ListAccountsResponse.serializeUsers_eq, List.nil_append]
  exact (reads_next _).bind (reads_times (toNat_count hlength) heach)

end SockEtOut
