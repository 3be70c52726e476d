import SockEtOut.Client.Reader
import SockEtOut.Proof.Lengths
import SockEtOut.Proof.RoundTrips
import SockEtOut.Proof.Serving

/-!
# Searching for accounts, from the table to the client

The answer to a search passes through an eight-bit count and a sixteen-bit length.
While the matching users stay below both it arrives as it was looked up. Beyond
either it cannot: a decoder that comes back has read as many users as the count
says, out of a payload as long as the header says, and both are remainders.
-/

namespace SockEtOut.Proof

open Lib System Reader

/-! ## What a search finds -/

/-- The users a regex matches, as the search finds them. -/
def matching (db : Database) (regexMatch : Str → Bool) : List User :=
  (db.users.filterKeys fun _ user => regexMatch user.username).filterMap db.users.lookup

theorem mem_matching {db : Database} {regexMatch : Str → Bool} {user : User} :
    user ∈ matching db regexMatch
      ↔ ∃ uid, db.users.lookup uid = some user ∧ regexMatch user.username = true := by
  unfold matching
  rw [List.mem_filterMap]
  constructor
  · rintro ⟨uid, huid, hu⟩
    obtain ⟨user', hu', hp⟩ := Table.mem_filterKeys_iff.mp huid
    rw [hu] at hu'
    cases hu'
    exact ⟨uid, hu, hp⟩
  · rintro ⟨uid, hu, hp⟩
    exact ⟨uid, Table.mem_filterKeys_iff.mpr ⟨user, hu, hp⟩, hu⟩

/-- Looking up what a scan found, the uids come out as they were found. -/
theorem uids_matching {db : Database} (hkeyed : UsersKeyed db) (regexMatch : Str → Bool) :
    ((matching db regexMatch).map User.uid).Nodup := by
  have hfound : ∀ uids : List UUID, (∀ uid ∈ uids, ∃ user, db.users.lookup uid = some user) →
      (uids.filterMap db.users.lookup).map User.uid = uids := by
    intro uids
    induction uids with
    | nil => intro _; rfl
    | cons uid uids ih =>
        intro h
        obtain ⟨user, hu⟩ := h uid List.mem_cons_self
        rw [List.filterMap_cons, hu, List.map_cons, hkeyed uid user hu,
          ih fun v hv => h v (List.mem_cons_of_mem _ hv)]
  unfold matching
  rw [hfound]
  · exact Table.nodup_filterKeys _ _
  · intro uid huid
    obtain ⟨user, hu, -⟩ := Table.mem_filterKeys_iff.mp huid
    exact ⟨user, hu⟩

/-! ## What a decoder that comes back has read -/

/-- A decoded user is as large as it says, and was inside the buffer. -/
theorem user_size_le_buffer {drawn : UUID} {buf : List UInt8} {u : User} {k : Nat}
    (h : Yields (User.default drawn).deserialize buf 0 u k) : u.size ≤ buf.length := by
  obtain ⟨uid, o₁, huid, h⟩ := h.of_bind
  obtain ⟨value, o₂, hvalue, huid'⟩ := huid.of_bind
  obtain ⟨ul, o₃, hul, h⟩ := h.of_bind
  obtain ⟨username, o₄, husername, h⟩ := h.of_bind
  obtain ⟨dl, o₅, hdl, h⟩ := h.of_bind
  obtain ⟨displayName, o₆, hdisplayName, h⟩ := h.of_bind
  obtain ⟨pl, o₇, hpl, h⟩ := h.of_bind
  obtain ⟨profilePic, o₈, hprofilePic, hpure⟩ := h.of_bind
  have h₂ := hvalue.of_range
  have h₃ := hul.of_next
  have h₄ := husername.of_range
  have h₅ := hdl.of_next
  have h₆ := hdisplayName.of_range
  have h₇ := hpl.of_next
  have h₈ := hprofilePic.of_range
  have h₁ : o₁ = o₂ := by
    split at huid'
    · cases huid'
      rfl
    · cases huid'
  cases hpure
  rw [user_size]
  dsimp only
  omega

/-- A decoded list of users is as long as the count says, and was inside the payload. -/
theorem decoded_search {e : Endian} {drawn : UUID} {count : UInt8} {rest : List UInt8} {l n : Nat}
    {got : List User}
    (h : Response.deserialize e drawn .listAccounts (([0, count] ++ rest).take l) 0
      = some (.listAccounts (.ok got), n)) :
    got.length = count.toNat ∧ resultBytes got ≤ l := by
  obtain ⟨⟨data⟩, o, hr, hpure⟩ := Yields.of_bind h
  cases hpure
  obtain ⟨data', o₁, hdata, hpure⟩ := hr.of_bind
  cases hpure
  obtain ⟨hasError, o₂, hhasError, hcase⟩ := hdata.of_bind
  obtain ⟨hzero, rfl, -⟩ := hhasError.of_next
  by_cases hok : hasError = 0
  · rw [if_pos hok] at hcase
    obtain ⟨users, o₃, husers, hpure⟩ := hcase.of_bind
    cases hpure
    obtain ⟨usersLength, o₄, hlength, htimes⟩ := husers.of_bind
    obtain ⟨hcount, rfl, hbound⟩ := hlength.of_next
    obtain ⟨hgot, hoffset, hinside⟩ := Yields.of_times_embedded user_size_le_buffer hbound htimes
    have hlen : (([0, count] ++ rest).take l).length ≤ l := List.length_take_le _ _
    -- the second byte is the count, wherever the payload was cut
    have hcount' : usersLength = count := by
      rw [List.getElem?_take] at hcount
      split at hcount
      · exact (Option.some.inj hcount).symm
      · cases hcount
    rw [hcount'] at hgot
    refine ⟨hgot, ?_⟩
    rw [resultBytes_eq]
    exact hoffset ▸ hinside.trans hlen
  · rw [if_neg hok] at hcase
    obtain ⟨errorLength, o₃, -, hcase⟩ := hcase.of_bind
    obtain ⟨error, o₄, -, hpure⟩ := hcase.of_bind
    cases hpure

theorem resultBytes_perm {users users' : List User} (h : users.Perm users') :
    resultBytes users = resultBytes users' :=
  h.foldl_eq' (fun _ _ _ _ _ => Nat.add_right_comm _ _ _) 2

theorem resultBytes_profile (users : List User) :
    resultBytes (users.map User.profile) = resultBytes users := by
  rw [resultBytes, List.foldl_map]
  rfl

/-! ## From the table to the client -/

/-- A response is printed before it is written. -/
def sent (e : Endian) (r : Response) : Option (List UInt8) :=
  if r.prints then some (r.serializeMsg e []) else none

/-- `got` is what a connection's client decodes from the one frame the server wrote to it. -/
def Obtains (e : Endian) (drawn : UUID) (conn : Nat) (written : List (Nat × Response))
    (got : List User) : Prop :=
  ∃ r bytes f rest n, written = [(conn, r)] ∧ sent e r = some bytes
    ∧ readFrame .custom bytes = .item (some f) rest
    ∧ Response.deserialize e drawn f.operation f.payload 0 = some (.listAccounts (.ok got), n)

/-- The client obtains the registered users whose username matches, each once. -/
def SearchComplete [External] (e : Endian) (drawn : UUID) (s : Server) (conn : Nat) (regex : Str)
    (regexMatch : Str → Bool) : Prop :=
  ∃ got, Obtains e drawn conn (s.onListAccounts conn regex).written got
    ∧ (got.map User.uid).Nodup
    ∧ ∀ u, u ∈ got ↔ ∃ uid user, s.db.users.lookup uid = some user
        ∧ regexMatch user.username = true ∧ u = user.profile

theorem onListAccounts_written [External] {s : Server} {conn : Nat} {regex : Str}
    {regexMatch : Str → Bool} (hregex : External.regex regex = .ok regexMatch) :
    (s.onListAccounts conn regex).written
      = [(conn, .listAccounts (.ok (matching s.db regexMatch)))] := by
  unfold Server.onListAccounts UserTable.getUuidsMatchingRegex
  rw [hregex]
  rfl

/-- Below the limits the whole answer arrives. -/
theorem obtains_matching (e : Endian) (drawn : UUID) (conn : Nat) {users : List User}
    (hlength : users.length ≤ 255) (hcounted : ∀ user ∈ users, user.Counted)
    (hbytes : resultBytes users < 2 ^ 16) (hprints : ∀ user ∈ users, user.prints = true) :
    Obtains e drawn conn [(conn, .listAccounts (.ok users))] (users.map User.profile) := by
  have hsize : ((Response.listAccounts (.ok users)).serialize e []).length < 2 ^ 16 := by
    rw [Response.length_serialize, search_size]
    exact hbytes
  have hdecodes := decodes_response e drawn (.listAccounts (.ok users)) ⟨hlength, hcounted⟩ []
  rw [List.append_nil] at hdecodes
  have hread := readFrame_whole .custom ((Response.listAccounts (.ok users)).frame e hsize) []
  rw [List.append_nil, ← Response.serializeMsg_eq] at hread
  exact ⟨_, _, _, [], _, rfl, if_pos (List.all_eq_true.mpr hprints), hread, hdecodes⟩

theorem operation_of_dispatch {op : Operation} {msg : List UInt8} {f : Frame}
    (h : dispatch op.code msg = some f) : f.operation = op := by
  rw [dispatch, Operation.ofCode_code] at h
  dsimp only at h
  split at h
  · cases h
    rfl
  · cases h

/-- A pass over what `serialize_msg` writes, where the length may have been narrowed. -/
theorem readFrame_narrowed (op : Operation) (n : Nat) (body : List UInt8) :
    readFrame .custom
        (Header.serialize ⟨Build.custom.protocolVersion, op.code, UInt16.ofNat n⟩ [] ++ body)
      = if body.length < n % 2 ^ 16 then .lost body
        else .item (dispatch op.code (body.take (n % 2 ^ 16))) (body.drop (n % 2 ^ 16)) := by
  have hnarrow : (UInt16.ofNat n).toNat = n % 2 ^ 16 := UInt16.toNat_ofNat'
  rw [← hnarrow]
  generalize UInt16.ofNat n = l
  have hheader := Header.deserialize_serialize ⟨Build.custom.protocolVersion, op.code, l⟩
    Build.custom.version_reads_back
  exact readFrame_header .custom body rfl hheader rfl

/-- The payload of a search result: the case, the count and the users. -/
theorem serialize_search (e : Endian) (users : List User) :
    (Response.listAccounts (.ok users)).serialize e []
      = [0, UInt8.ofNat users.length] ++ users.flatMap fun u => u.serialize [] := by
  show ListAccountsResponse.serializeUsers users ([] ++ [0]) = _
  rw [ListAccountsResponse.serializeUsers_eq]
  rfl

/-- Nothing that is obtained is longer than the two limits allow. -/
theorem obtains_bounds {e : Endian} {drawn : UUID} {conn : Nat} {users got : List User}
    (h : Obtains e drawn conn [(conn, .listAccounts (.ok users))] got) :
    got.length = users.length % 256 ∧ resultBytes got ≤ resultBytes users % 2 ^ 16
      ∧ ∀ user ∈ users, user.prints = true := by
  obtain ⟨r, bytes, f, rest, n, hr, hsent, hread, hdec⟩ := h
  cases hr
  rw [sent] at hsent
  split at hsent
  · rename_i hprints
    cases hsent
    -- the frame the reader cuts out is as long as the header says
    have hbytes : (Response.listAccounts (.ok users)).serializeMsg e []
        = Header.serialize ⟨Build.custom.protocolVersion, Operation.listAccounts.code,
            UInt16.ofNat (resultBytes users)⟩ []
          ++ (Response.listAccounts (.ok users)).serialize e [] := by
      rw [Response.serializeMsg, SockEtOut.serializeMsg, Response.serialize_append, search_size]
      rfl
    rw [hbytes, readFrame_narrowed] at hread
    split at hread
    · cases hread
    · obtain ⟨hdispatch, -⟩ := Poll.item.inj hread
      rw [operation_of_dispatch hdispatch, payload_of_dispatch hdispatch, serialize_search] at hdec
      obtain ⟨hcount, hle⟩ := decoded_search hdec
      refine ⟨?_, hle, List.all_eq_true.mp hprints⟩
      rw [hcount]
      exact UInt8.toNat_ofNat'
  · cases hsent

/-- What the answer has to be, in terms of the search's own result. -/
theorem mem_profiles {db : Database} {regexMatch : Str → Bool} (u : User) :
    u ∈ (matching db regexMatch).map User.profile ↔ ∃ uid user, db.users.lookup uid = some user
      ∧ regexMatch user.username = true ∧ u = user.profile := by
  rw [List.mem_map]
  constructor
  · rintro ⟨user, hin, rfl⟩
    obtain ⟨uid, hu, hp⟩ := mem_matching.mp hin
    exact ⟨uid, user, hu, hp, rfl⟩
  · rintro ⟨uid, user, hu, hp, rfl⟩
    exact ⟨user, mem_matching.mpr ⟨uid, hu, hp⟩, rfl⟩

/-- A complete answer stayed below the limits. -/
theorem searchComplete_bounds [External] {e : Endian} {drawn : UUID} {s : Server}
    (hkeyed : UsersKeyed s.db) {conn : Nat} {regex : Str} {regexMatch : Str → Bool}
    (hregex : External.regex regex = .ok regexMatch)
    (h : SearchComplete e drawn s conn regex regexMatch) :
    (matching s.db regexMatch).length ≤ 255 ∧ resultBytes (matching s.db regexMatch) < 2 ^ 16
      ∧ ∀ user ∈ matching s.db regexMatch, user.prints = true := by
  have huids : (((matching s.db regexMatch).map User.profile).map User.uid).Nodup := by
    rw [List.map_map]
    exact uids_matching hkeyed regexMatch
  obtain ⟨got, hobtains, hnodup, hgot⟩ := h
  rw [onListAccounts_written hregex] at hobtains
  obtain ⟨hlength, hbytes, hprints⟩ := obtains_bounds hobtains
  -- what was obtained is the answer, in some order
  have hperm : got.Perm ((matching s.db regexMatch).map User.profile) :=
    (List.perm_ext_iff_of_nodup hnodup.of_map huids.of_map).mpr fun u =>
      (hgot u).trans (mem_profiles u).symm
  have hlen := hperm.length_eq
  rw [List.length_map] at hlen
  have hsame : resultBytes got = resultBytes (matching s.db regexMatch) :=
    (resultBytes_perm hperm).trans (resultBytes_profile _)
  exact ⟨by omega, by omega, hprints⟩

/--
**When a search is complete.** For every server that requests lead to, and every
regex that compiles, the client obtains exactly the matching users exactly when
there are at most 255 of them, their bytes are below 65536 and their strings can
be printed.
-/
theorem search_complete_iff [External] (e : Endian) (drawn : UUID) {s : Server}
    (hs : Server.system.Reachable Always s) (conn : Nat) {regex : Str} {regexMatch : Str → Bool}
    (hregex : External.regex regex = .ok regexMatch)
    (hcounted : ∀ uid user, s.db.users.lookup uid = some user → user.Counted) :
    SearchComplete e drawn s conn regex regexMatch
      ↔ (matching s.db regexMatch).length ≤ 255 ∧ resultBytes (matching s.db regexMatch) < 2 ^ 16
        ∧ ∀ user ∈ matching s.db regexMatch, user.prints = true := by
  have hkeyed := usersKeyed_reachable hs
  refine ⟨searchComplete_bounds hkeyed hregex, ?_⟩
  rintro ⟨hlength, hbytes, hprints⟩
  have hcounted' : ∀ user ∈ matching s.db regexMatch, user.Counted := by
    intro user hin
    obtain ⟨uid, hu, -⟩ := mem_matching.mp hin
    exact hcounted uid user hu
  refine ⟨(matching s.db regexMatch).map User.profile, ?_, ?_, mem_profiles⟩
  · rw [onListAccounts_written hregex]
    exact obtains_matching e drawn conn hlength hcounted' hbytes hprints
  · rw [List.map_map]
    exact uids_matching hkeyed regexMatch

/-- Two users register. -/
def twoRegistered_calls : List Server.Call :=
  [⟨0, .registerAccount (lit "ada") (lit "secret") (lit "Ada"), .ofByte 1 []⟩,
    ⟨1, .registerAccount (lit "bob") (lit "secret") (lit "Bob"), .ofByte 2 []⟩]

theorem twoRegistered_runs :
    ((@Server.system .sample).exec Always Server.new twoRegistered_calls).isSome := by decide

/-- A search for one of them by name. -/
theorem search_complete_oneName :
    @SearchComplete .sample .little (.ofByte 0)
      (((@Server.system .sample).exec Always Server.new twoRegistered_calls).get
        twoRegistered_runs) 0 (lit "ada") (fun name => name == lit "ada") :=
  (@search_complete_iff .sample .little (.ofByte 0) _ (Reachable.exec_get twoRegistered_runs) 0
    (lit "ada") _ rfl (fun uid user hu => by
      have hall : ∀ user ∈ (((@Server.system .sample).exec Always Server.new
          twoRegistered_calls).get twoRegistered_runs).db.users.values, user.Counted := by decide
      exact hall user (Table.mem_values_iff.mpr ⟨uid, hu⟩))).mpr
    ⟨by decide, by decide, by decide⟩

/-! ## A crowd of users -/

/-- The libraries, where the pattern `a*` matches the strings of that one letter. -/
@[reducible] def External.letters : External where
  sha256 := External.sample.sha256
  regex s := .ok (if s = lit "a*" then fun name => name.all (· == 0x61) else fun name => name == s)

/-- The user that registers as the `i`-th, under a name of `i` letters. -/
def crowdUser (i : Nat) : User := .new (.ofByte (.ofNat i)) (List.replicate i 0x61) []

def crowdCall (i : Nat) : Server.Call :=
  ⟨0, .registerAccount (List.replicate i 0x61) (lit "secret") [], .ofByte (.ofNat i) []⟩

/-- The server when `n` users have registered. -/
def crowd : Nat → Server
  | 0 => .new
  | n + 1 => (@Server.receive External.letters (crowd n) (crowdCall n)).server

/-- A new user's picture is the one every user starts with. -/
theorem counted_new {uid : UUID} {username displayName : Str} (hname : username.length ≤ 255)
    (hdisplay : displayName.length ≤ 255) : (User.new uid username displayName).Counted := by
  refine ⟨hname, hdisplay, ?_⟩
  show (lit ":/assets/profile_pics/blank_profile_pic.png").length ≤ 255
  decide

/-- A name that nobody has can be registered. -/
theorem register_fresh [External] {s : Server} {conn : Nat} {draws : Draws}
    {username password displayName : Str}
    (h : s.db.users.getUidFromUsername username = none) :
    (s.onRegisterAccount conn draws username password displayName).outcome = .returned ()
      ∧ (s.onRegisterAccount conn draws username password displayName).server.db.users
        = s.db.users.emplace draws.uid (.new draws.uid username displayName) := by
  unfold Server.onRegisterAccount
  rw [h]
  exact ⟨rfl, rfl⟩

theorem crowd_uid_inj {i j : Nat} (hi : i < 256) (hj : j < 256)
    (h : (crowdUser i).uid = (crowdUser j).uid) : i = j := by
  have hvalue : List.replicate 16 (UInt8.ofNat i) = List.replicate 16 (UInt8.ofNat j) :=
    congrArg UUID.value h
  have hbyte := congrArg UInt8.toNat (List.replicate_right_inj (by decide) |>.mp hvalue)
  rw [UInt8.toNat_ofNat', UInt8.toNat_ofNat'] at hbyte
  omega

/-- Up to 256 users can register this way, and then they are the users of the table. -/
theorem crowd_registered : ∀ n, n ≤ 256 →
    (@Server.system External.letters).Reachable Always (crowd n)
      ∧ (∀ i, i < n → (crowd n).db.users.lookup (crowdUser i).uid = some (crowdUser i))
      ∧ ∀ uid user, (crowd n).db.users.lookup uid = some user → ∃ i, i < n ∧ user = crowdUser i
  | 0, _ => by
      refine ⟨.init, fun i hi => absurd hi (Nat.not_lt_zero i), ?_⟩
      intro uid user hu
      exact absurd hu (by simp [crowd, Server.new, Database.new])
  | n + 1, hn => by
      obtain ⟨hreach, hstored, honly⟩ := crowd_registered n (by omega)
      -- nobody has as many letters yet
      have hfree : (crowd n).db.users.getUidFromUsername (List.replicate n 0x61) = none := by
        cases hfound : (crowd n).db.users.getUidFromUsername (List.replicate n 0x61) with
        | none => rfl
        | some uid =>
            obtain ⟨user, hu, hname⟩ := UserTable.getUidFromUsername_some hfound
            obtain ⟨i, hi, rfl⟩ := honly uid user hu
            have hlength := congrArg List.length hname
            simp only [crowdUser, User.new, List.length_replicate] at hlength
            omega
      have hfresh : (crowd n).db.users.lookup (crowdUser n).uid = none := by
        cases hu : (crowd n).db.users.lookup (crowdUser n).uid with
        | none => rfl
        | some user =>
            obtain ⟨i, hi, rfl⟩ := honly _ user hu
            have hkeyed := @usersKeyed_reachable External.letters _ hreach _ _ hu
            exact absurd (crowd_uid_inj (by omega) (by omega) hkeyed) (by omega)
      obtain ⟨hreturned, husers⟩ := @register_fresh External.letters (crowd n) 0
        (.ofByte (.ofNat n) []) _ (lit "secret") [] hfree
      have hlookup : ∀ uid, (crowd (n + 1)).db.users.lookup uid
          = if uid = (crowdUser n).uid then some (crowdUser n)
            else (crowd n).db.users.lookup uid := by
        intro uid
        rw [← Table.lookup_emplace hfresh]
        exact congrArg (fun t : UserTable => t.lookup uid) husers
      refine ⟨hreach.tail (a := crowdCall n) trivial ?_, ?_, ?_⟩
      · show @Server.step External.letters _ _ = _
        unfold Server.step
        rw [show (@Server.receive External.letters (crowd n) (crowdCall n)).outcome = .returned ()
          from hreturned]
        rfl
      · intro i hi
        rw [hlookup]
        by_cases heq : i = n
        · rw [heq, if_pos rfl]
        · have hne : (crowdUser i).uid ≠ (crowdUser n).uid := fun h =>
            heq (crowd_uid_inj (by omega) (by omega) h)
          rw [if_neg hne]
          exact hstored i (by omega)
      · intro uid user hu
        rw [hlookup] at hu
        split at hu
        · exact ⟨n, Nat.lt_succ_self n, (Option.some.inj hu).symm⟩
        · obtain ⟨i, hi, rfl⟩ := honly uid user hu
          exact ⟨i, Nat.lt_succ_of_lt hi, rfl⟩

/-- All of the crowd match `a*`. -/
theorem crowd_length_le (n : Nat) (hn : n ≤ 256) :
    n ≤ (matching (crowd n).db fun name => name.all (· == 0x61)).length := by
  obtain ⟨-, hstored, -⟩ := crowd_registered n hn
  have hsub : (List.range n).map crowdUser
      ⊆ matching (crowd n).db fun name => name.all (· == 0x61) := by
    intro user hin
    obtain ⟨i, hi, rfl⟩ := List.mem_map.mp hin
    refine mem_matching.mpr ⟨_, hstored i (List.mem_range.mp hi), ?_⟩
    exact List.all_eq_true.mpr fun b hb => by rw [List.eq_of_mem_replicate hb]; rfl
  have hnodup : ((List.range n).map crowdUser).Nodup := by
    refine List.Nodup.map_on ?_ List.nodup_range
    intro i hi j hj h
    rw [List.mem_range] at hi hj
    exact crowd_uid_inj (by omega) (by omega) (congrArg User.uid h)
  have hle := (List.subperm_of_subset hnodup hsub).length_le
  rwa [List.length_map, List.length_range] at hle

/-- With 256 users registered under short names, a search for all of them comes back with none. -/
theorem search_incomplete_crowd :
    (@Server.system External.letters).Reachable Always (crowd 256)
      ∧ (∀ uid user, (crowd 256).db.users.lookup uid = some user → user.Counted)
      ∧ External.letters.regex (lit "a*") = .ok (fun name => name.all (· == 0x61))
      ∧ ¬ @SearchComplete External.letters .little (.ofByte 0) (crowd 256) 0 (lit "a*")
        (fun name => name.all (· == 0x61)) := by
  obtain ⟨hreach, -, honly⟩ := crowd_registered 256 (Nat.le_refl _)
  refine ⟨hreach, ?_, rfl, ?_⟩
  · intro uid user hu
    obtain ⟨i, hi, rfl⟩ := honly uid user hu
    have hname : (List.replicate i (0x61 : UInt8)).length ≤ 255 := by
      rw [List.length_replicate]
      omega
    exact counted_new hname (Nat.zero_le _)
  · intro hcomplete
    obtain ⟨hle, -⟩ := @searchComplete_bounds External.letters _ _ _
      (@usersKeyed_reachable External.letters _ hreach) 0 (lit "a*")
      (fun name => name.all (· == 0x61)) rfl hcomplete
    have hmany := crowd_length_le 256 (Nat.le_refl _)
    omega

end SockEtOut.Proof
