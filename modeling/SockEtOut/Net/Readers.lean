import SockEtOut.Lib.Reactions
import SockEtOut.Wire.Header

/-!
# A pass of the frame readers

`TcpClient::onReadyRead` and `ClientHandler::on_read_data` run when bytes have
arrived, on the socket's buffer. One pass is the same code in both: take a
header, wait for the payload, take it and enter the case of its operation. The
client's is the body of a loop; the server makes a single pass. What a case does
is with the readers themselves.

The wait is a retry loop that sleeps and looks again at `bytesAvailable()`. It
runs in the thread whose event loop would move bytes into that buffer, so every
look sees the same number.
-/

namespace SockEtOut

/-- `MAX_RETRIES` -/
def maxRetries : Nat := 100

/-- The wait for `length` bytes: whether they are there, with `n` retries to go. -/
def awaitPayload (available length : Nat) : (n : Nat) → Bool
  | 0 => !(decide (available < length))
  | n + 1 => if available < length then awaitPayload available length n else true

/-- Retrying does not help. -/
theorem awaitPayload_eq (available length n : Nat) :
    awaitPayload available length n = decide (length ≤ available) := by
  induction n with
  | zero =>
      rw [awaitPayload]
      by_cases h : available < length
      · simp [h]
      · simp [h, Nat.not_lt.mp h]
  | succ n ih =>
      rw [awaitPayload]
      by_cases h : available < length
      · rw [if_pos h, ih]
      · rw [if_neg h]
        simp [Nat.not_lt.mp h]

/--
The switch on the operation: the frame that is dispatched, if its operation has a
case. The length test never fails, `msg` being cut to a sixteen-bit length.
-/
def dispatch (operation : UInt8) (msg : List UInt8) : Option Frame :=
  match Operation.ofCode operation with
  | none => none
  | some operation =>
      if h : operation.handled = true ∧ msg.length < 2 ^ 16 then
        some ⟨operation, msg, h.1, h.2⟩
      else none

/-- One pass over the socket's buffer. -/
def readFrame (b : Build) (socket : List UInt8) : Lib.Poll UInt8 Frame :=
  if socket.length < Header.size then .idle
  else
    match Header.deserialize (socket.take Header.size) with
    | none => .idle
    | some header =>
        let socket := socket.drop Header.size
        -- either way out of here, the header has been read and is not kept
        if header.version ≠ b.protocolVersion then .lost socket
        else if awaitPayload socket.length header.packetLength.toNat maxRetries = false then
          .lost socket
        else
          .item (dispatch header.operation (socket.take header.packetLength.toNat))
            (socket.drop header.packetLength.toNat)

/--
A run of a reader, once for each arrival as long as it comes back: the frames
dispatched and what is left unread. An arrival comes with what it finds there.
-/
def serve {ι : Type} (reader : ι → List UInt8 → List Frame × Option (List UInt8))
    (arrivals : List (ι × List UInt8)) : List Frame × Option (List UInt8) :=
  Lib.feedWith reader [] arrivals

/-! ## What a pass takes -/

theorem readFrame_short (b : Build) {socket : List UInt8} (h : socket.length < Header.size) :
    readFrame b socket = .idle := by
  rw [readFrame, if_pos h]

/-- The pass from the header on. -/
theorem readFrame_header (b : Build) {h₀ : List UInt8} {header : Header} (body : List UInt8)
    (hlen : h₀.length = Header.size) (hh : Header.deserialize h₀ = some header)
    (hv : header.version = b.protocolVersion) :
    readFrame b (h₀ ++ body) =
      if body.length < header.packetLength.toNat then .lost body
      else .item (dispatch header.operation (body.take header.packetLength.toNat))
        (body.drop header.packetLength.toNat) := by
  have htake : (h₀ ++ body).take Header.size = h₀ := by
    rw [← hlen, List.take_left]
  have hdrop : (h₀ ++ body).drop Header.size = body := by
    rw [← hlen, List.drop_left]
  rw [readFrame, if_neg (by rw [List.length_append]; omega), htake, hh, hdrop]
  dsimp only
  rw [if_neg (by rw [hv]; simp), awaitPayload_eq]
  by_cases h : body.length < header.packetLength.toNat
  · rw [if_pos h, if_pos (by simpa using h)]
  · rw [if_neg h, if_neg (by simpa using h)]

theorem dispatch_frame (f : Frame) : dispatch f.operation.code f.payload = some f := by
  rw [dispatch, Operation.ofCode_code]
  exact dif_pos ⟨f.handled, f.length_lt⟩

theorem payload_of_dispatch {operation : UInt8} {msg : List UInt8} {f : Frame}
    (h : dispatch operation msg = some f) : f.payload = msg := by
  rw [dispatch] at h
  split at h
  · exact absurd h (by simp)
  · split at h
    · cases h
      rfl
    · exact absurd h (by simp)

/-- The header of a frame, read back. -/
theorem Frame.header (b : Build) (f : Frame) :
    ∃ h₀ header, f.bytes b = h₀ ++ f.payload ∧ h₀.length = Header.size
      ∧ Header.deserialize h₀ = some header ∧ header.version = b.protocolVersion
      ∧ header.operation = f.operation.code ∧ header.packetLength.toNat = f.payload.length :=
  ⟨_, _, rfl, rfl, Header.deserialize_serialize _ b.version_reads_back, rfl, rfl,
    UInt16.toNat_ofNat_of_lt' f.length_lt⟩

theorem Frame.length_bytes (b : Build) (f : Frame) :
    (f.bytes b).length = Header.size + f.payload.length := by
  rw [Frame.bytes, List.length_append]
  rfl

/-- A frame that is there as a whole is dispatched. -/
theorem readFrame_whole (b : Build) (f : Frame) (rest : List UInt8) :
    readFrame b (f.bytes b ++ rest) = .item (some f) rest := by
  obtain ⟨h₀, header, hbytes, hlen, hh, hv, hop, hpl⟩ := f.header b
  rw [hbytes, List.append_assoc, readFrame_header b _ hlen hh hv, hpl, hop,
    if_neg (by rw [List.length_append]; omega), List.take_left, List.drop_left, dispatch_frame]

/-- A frame of which the header is there and the payload is not loses its header. -/
theorem readFrame_cut (b : Build) (f : Frame) {socket rest : List UInt8}
    (h : f.bytes b = socket ++ rest) (hlen : Header.size ≤ socket.length) (hrest : rest ≠ []) :
    ∃ left, readFrame b socket = .lost left := by
  obtain ⟨h₀, header, hbytes, hlen₀, hh, hv, -, hpl⟩ := f.header b
  rw [hbytes] at h
  obtain ⟨body, rfl⟩ : h₀ <+: socket :=
    List.prefix_of_prefix_length_le ⟨f.payload, h⟩ ⟨rest, rfl⟩ (by omega)
  rw [List.append_assoc] at h
  have hpayload : f.payload = body ++ rest := List.append_cancel_left h
  have hpos : 0 < rest.length := List.length_pos_iff.mpr hrest
  refine ⟨body, ?_⟩
  rw [readFrame_header b _ hlen₀ hh hv, if_pos]
  rw [hpl, hpayload, List.length_append]
  omega

/-- Everything a pass can do: nothing, lose bytes, or take a header and as much as it announces. -/
theorem readFrame_cases (b : Build) (socket : List UInt8) :
    readFrame b socket = .idle
      ∨ (∃ rest, readFrame b socket = .lost rest ∧ rest.length < socket.length)
      ∨ ∃ operation msg rest, readFrame b socket = .item (dispatch operation msg) rest
          ∧ Header.size + msg.length + rest.length = socket.length := by
  by_cases hlen : socket.length < Header.size
  · exact Or.inl (readFrame_short b hlen)
  · have hpos : 0 < Header.size := by decide
    have hdrop : (socket.drop Header.size).length = socket.length - Header.size :=
      List.length_drop
    cases hh : Header.deserialize (socket.take Header.size) with
    | none =>
        left
        rw [readFrame, if_neg hlen, hh]
    | some header =>
        right
        rw [readFrame, if_neg hlen, hh]
        dsimp only
        by_cases hv : header.version ≠ b.protocolVersion
        · left
          exact ⟨_, if_pos hv, by omega⟩
        · rw [if_neg hv, awaitPayload_eq]
          by_cases hwait : header.packetLength.toNat ≤ (socket.drop Header.size).length
          · right
            have hrest : ((socket.drop Header.size).drop header.packetLength.toNat).length
                = (socket.drop Header.size).length - header.packetLength.toNat :=
              List.length_drop
            refine ⟨_, _, _, if_neg (by simpa using hwait), ?_⟩
            rw [List.length_take, hrest]
            omega
          · left
            exact ⟨_, if_pos (by simpa using hwait), by omega⟩

/-- The frames of a build, under the pass both readers make. -/
def framing (b : Build) : Lib.Framing UInt8 Frame where
  enc := Frame.bytes b
  head := Header.size
  poll := readFrame b
  head_pos := by decide
  head_le f := by
    rw [Frame.bytes, List.length_append]
    exact Nat.le_add_right _ _
  poll_short _ h := readFrame_short b h
  poll_whole := readFrame_whole b
  poll_cut f _ _ h hlen hrest := readFrame_cut b f h hlen hrest
  lost_length socket rest h := by
    rcases readFrame_cases b socket with hc | ⟨rest', hc, hlen⟩ | ⟨operation, msg, rest', hc, -⟩
    · rw [hc] at h
      cases h
    · rw [hc] at h
      cases h
      exact hlen
    · rw [hc] at h
      cases h
  item_length socket f rest h := by
    rcases readFrame_cases b socket with hc | ⟨rest', hc, -⟩ | ⟨operation, msg, rest', hc, hlen⟩
    · rw [hc] at h
      cases h
    · rw [hc] at h
      cases h
    · rw [hc] at h
      obtain ⟨hf, rfl⟩ := Lib.Poll.item.inj h
      rw [f.length_bytes, payload_of_dispatch hf]
      omega
  skip_length socket rest h := by
    have hpos : 0 < Header.size := by decide
    rcases readFrame_cases b socket with hc | ⟨rest', hc, -⟩ | ⟨operation, msg, rest', hc, hlen⟩
    · rw [hc] at h
      cases h
    · rw [hc] at h
      cases h
    · rw [hc] at h
      obtain ⟨-, rfl⟩ := Lib.Poll.item.inj h
      omega

end SockEtOut
