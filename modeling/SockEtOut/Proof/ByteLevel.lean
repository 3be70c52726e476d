import SockEtOut.Lib.Carried
import SockEtOut.Net.Exchange
import SockEtOut.Net.Network
import SockEtOut.Proof.Bookkeeping
import SockEtOut.Proof.Views

/-!
# Bytes carry messages

The network of bytes does what the exchange of messages does, as long as what is
written fits its counts and its header, and no arrival ends between a header and the
end of its payload; at the server an arrival may also complete one frame only.

Each stream then is one frame for each message in flight (`Linked`), and every event
of the network is events of the exchange: a write is a write, an arrival at the
server handles one message or none, and an arrival at a client delivers any number.
-/

namespace SockEtOut.Proof

open Lib System

variable {build : Build} {e : Endian}

/-! ## What fits its counts -/

instance : (m : RequestMessage) → Decidable m.Counted
  | .registerAccount m => inferInstanceAs
      (Decidable (m.username.length ≤ 255 ∧ m.password.length ≤ 255 ∧ m.displayName.length ≤ 255))
  | .login m => inferInstanceAs (Decidable (m.username.length ≤ 255 ∧ m.password.length ≤ 255))
  | .listAccounts m => inferInstanceAs (Decidable (m.regex.length ≤ 255))
  | .deleteAccount m =>
      inferInstanceAs (Decidable (m.username.length ≤ 255 ∧ m.password.length ≤ 255))
  | .createChannel m =>
      inferInstanceAs (Decidable (m.channelName.length ≤ 255 ∧ m.members.length ≤ 255))
  | .sendMessage m => inferInstanceAs (Decidable (m.text.length ≤ 255))
  | .deleteMessage _ => .isTrue trivial

instance (c : Channel) : Decidable c.Counted :=
  inferInstanceAs (Decidable
    (c.name.length ≤ 255 ∧ c.userUids.length ≤ 255 ∧ c.messageSnowflakes.length ≤ 255))

instance : (r : Response) → Decidable r.Counted
  | .registerAccount (.ok _) => .isTrue trivial
  | .login (.ok user) | .deleteAccount (.ok user) => inferInstanceAs (Decidable user.Counted)
  | .listAccounts (.ok users) =>
      inferInstanceAs (Decidable (users.length ≤ 255 ∧ ∀ user ∈ users, user.Counted))
  | .createChannel (.ok channel) => inferInstanceAs (Decidable channel.Counted)
  | .sendMessage (.ok message) | .deleteMessage (.ok message) =>
      inferInstanceAs (Decidable message.Counted)
  | .registerAccount (.error error) | .login (.error error) | .listAccounts (.error error)
  | .deleteAccount (.error error) | .createChannel (.error error) | .sendMessage (.error error)
  | .deleteMessage (.error error) => inferInstanceAs (Decidable (error.length ≤ 255))

section

variable [Nlohmann]

/-! ## What is written as frames -/

/-- A request that is printed, counted and announced as it is. -/
structure RequestFits (build : Build) (m : RequestMessage) : Prop where
  prints : m.prints = true
  counted : build = .custom → m.Counted
  short : ∀ p ∈ m.payload build, p.length < 2 ^ 16

/-- The same of a response; whether it is printed shows when it is written. -/
structure ResponseFits (build : Build) (e : Endian) (r : Response) : Prop where
  counted : build = .custom → r.Counted
  short : ∀ p ∈ r.payload build e, p.length < 2 ^ 16

instance (build : Build) (m : RequestMessage) : Decidable (RequestFits build m) :=
  decidable_of_iff
    (m.prints = true ∧ (build = .custom → m.Counted) ∧ ∀ p ∈ m.payload build, p.length < 2 ^ 16)
    ⟨fun h => ⟨h.1, h.2.1, h.2.2⟩, fun h => ⟨h.prints, h.counted, h.short⟩⟩

instance (build : Build) (e : Endian) (r : Response) : Decidable (ResponseFits build e r) :=
  decidable_of_iff ((build = .custom → r.Counted) ∧ ∀ p ∈ r.payload build e, p.length < 2 ^ 16)
    ⟨fun h => ⟨h.1, h.2⟩, fun h => ⟨h.counted, h.short⟩⟩

/-- The frame of a request. -/
structure IsRequest (build : Build) (f : Frame) (m : RequestMessage) : Prop where
  operation : f.operation = m.operation
  payload : m.payload build = some f.payload
  fits : RequestFits build m

/-- The frame of a response. -/
structure IsResponse (build : Build) (e : Endian) (f : Frame) (r : Response) : Prop where
  operation : f.operation = r.operation
  payload : r.payload build e = some f.payload
  fits : ResponseFits build e r
  prints : r.prints = true

/-- A written request is the bytes of its frame. -/
theorem isRequest_of_write {m : RequestMessage} {bytes : List UInt8} (hfits : RequestFits build m)
    (h : m.write build = some bytes) : ∃ f, IsRequest build f m ∧ bytes = f.bytes build := by
  obtain ⟨p, hp⟩ := Object.payload_of_serializeMsg h
  let f : Frame := ⟨m.operation, p, m.operation_handled, hfits.short p hp⟩
  have hwritten : m.write build = some (f.bytes build) :=
    Object.write_frame f (by rintro c ⟨⟩) hp
  rw [hwritten] at h
  exact ⟨f, ⟨rfl, hp, hfits⟩, (Option.some.inj h).symm⟩

/-- A written response is the bytes of its frame. -/
theorem isResponse_of_write {r : Response} {bytes : List UInt8} (hfits : ResponseFits build e r)
    (hprints : r.prints = true) (h : r.write build e = some bytes) :
    ∃ f, IsResponse build e f r ∧ bytes = f.bytes build := by
  obtain ⟨p, hp⟩ := Object.payload_of_serializeMsg h
  let f : Frame := ⟨r.operation, p, r.operation_handled, hfits.short p hp⟩
  have hwritten : r.write build e = some (f.bytes build) :=
    Object.write_frame f (by rintro c ⟨⟩) hp
  rw [hwritten] at h
  exact ⟨f, ⟨rfl, hp, hfits, hprints⟩, (Option.some.inj h).symm⟩

/-- What a handler writes to a connection carries the frames for it. -/
theorem carries_writeData : ∀ {written : List (Nat × Response)} {bytes : List (Nat × List UInt8)},
    (∀ p ∈ written, ResponseFits build e p.2) →
    ClientHandler.writeData build e written = some bytes → ∀ conn,
      (framing build).Carries (IsResponse build e) (bytesFor conn bytes) (framesFor conn written)
  | [], _, _, h, _ => by
      cases h
      exact .nil
  | p :: written, bytes, hfits, h, conn => by
      rw [ClientHandler.writeData, List.mapM_cons] at h
      obtain ⟨first, hfirst, h⟩ := Option.bind_eq_some_iff.mp h
      obtain ⟨rest, hrest, h⟩ := Option.bind_eq_some_iff.mp h
      cases h
      have hlater := carries_writeData (fun q hq => hfits q (List.mem_cons_of_mem _ hq)) hrest conn
      split at hfirst
      · rename_i hprints
        obtain ⟨b, hb, rfl⟩ := Option.map_eq_some_iff.mp hfirst
        obtain ⟨f, hf, rfl⟩ := isResponse_of_write (hfits p List.mem_cons_self) hprints hb
        unfold bytesFor framesFor at hlater ⊢
        by_cases hconn : p.1 = conn
        · rw [List.filter_cons_of_pos (by simpa using hconn),
            List.filter_cons_of_pos (by simpa using hconn), List.flatMap_cons, List.map_cons]
          have hfirst : (framing build).Carries (IsResponse build e) (f.bytes build) [p.2] :=
            .one hf
          exact hfirst.append hlater
        · rw [List.filter_cons_of_neg (by simpa using hconn),
            List.filter_cons_of_neg (by simpa using hconn)]
          exact hlater
      · cases hfirst

/-! ## Arrivals -/

/-- Bytes that end less than a header behind whole frames. -/
def EndsInHeader (build : Build) (buf : List UInt8) : Prop :=
  ∃ fs rest, buf = (framing build).stream fs ++ rest ∧ rest.length < Header.size

/-- And behind one whole frame at most. -/
def OneAtMost (build : Build) (buf : List UInt8) : Prop :=
  ∃ (f : Option Frame) (rest : List UInt8),
    buf = (framing build).stream f.toList ++ rest ∧ rest.length < Header.size

/-- The loop itself finds out where the frames end. -/
instance (build : Build) (buf : List UInt8) : Decidable (EndsInHeader build buf) :=
  decidable_of_iff
    (buf = (framing build).stream (drainAll (readFrame build) buf).1
        ++ (drainAll (readFrame build) buf).2
      ∧ (drainAll (readFrame build) buf).2.length < Header.size)
    ⟨fun h => ⟨_, _, h⟩, by
      rintro ⟨fs, rest, rfl, hrest⟩
      have hread : drainAll (readFrame build) _ = (fs, rest) :=
        (framing build).drainAll_whole fs hrest
      rw [hread]
      exact ⟨rfl, hrest⟩⟩

/-- And so does the single pass. -/
instance (build : Build) (buf : List UInt8) : Decidable (OneAtMost build buf) :=
  decidable_of_iff
    (buf = (framing build).stream (once (readFrame build) buf).1 ++ (once (readFrame build) buf).2
      ∧ (once (readFrame build) buf).2.length < Header.size)
    ⟨fun h => by
        have hone : ∃ f : Option Frame, (once (readFrame build) buf).1 = f.toList := by
          unfold once
          split
          · exact ⟨none, rfl⟩
          · exact ⟨none, rfl⟩
          · exact ⟨_, rfl⟩
        obtain ⟨f, hf⟩ := hone
        rw [hf] at h
        exact ⟨f, _, h⟩, by
      rintro ⟨f, rest, rfl, hrest⟩
      have hread : once (readFrame build) _ = (f.toList, rest) :=
        (framing build).once_whole f hrest
      rw [hread]
      exact ⟨rfl, hrest⟩⟩

/-- Everything written fits, arrivals end where a reader can stop, and the calls satisfy a guard. -/
def Unbroken [External] (build : Build) (e : Endian) (K : Server → Server.Call → Prop)
    (w : Network) : Network.Event → Prop
  | .write _ m => RequestFits build m
  | .atServer conn n drawn draws =>
      OneAtMost build (w.serverBuffer conn n)
        ∧ ∀ f ∈ (w.serverReads build conn n).1,
          ∀ m ∈ RequestMessage.read build drawn f.operation f.payload,
            K w.server ⟨conn, m.request, draws⟩
              ∧ ∀ p ∈ (w.server.receive ⟨conn, m.request, draws⟩).written,
                  ResponseFits build e p.2
  | .atClient conn n _ => EndsInHeader build (w.clientBuffer conn n)

/-! ## The relation -/

/-- A connection's bytes carry its messages, and the client is where it would be with them. -/
structure Linked (build : Build) (e : Endian) (link : Link) (requests : List RequestMessage)
    (client : Inbox Exn Session Response) : Prop where
  upstream : (framing build).Carries (IsRequest build) (link.serverSocket ++ link.toServer) requests
  downstream : (framing build).Carries (IsResponse build e) (link.clientSocket ++ link.toClient)
    client.queue
  session : ∃ session, client.state = .ok session ∧ Alike link.session session

/-- The same server, and every connection linked. -/
structure Bears (build : Build) (e : Endian) (w : Network) (x : Exchange) : Prop where
  server : w.server = x.server
  links : ∀ conn, Linked build e (w.links conn) (x.requests conn) (x.clients conn)

theorem bears_new : Bears build e Network.new Exchange.new where
  server := rfl
  links _ := ⟨.nil, .nil, .new, rfl, alike_refl _⟩

variable {w w' : Network} {x : Exchange}

/-- One connection changes at both levels, and nothing else does. -/
theorem Bears.update (h : Bears build e w x) (conn : Nat) {link : Link}
    {requests : List RequestMessage} {client : Inbox Exn Session Response}
    (hlink : Linked build e link requests client) :
    Bears build e { w with links := Function.update w.links conn link }
      { x with
        requests := Function.update x.requests conn requests
        clients := Function.update x.clients conn client } where
  server := h.server
  links c := by
    by_cases hc : c = conn
    · subst hc
      simp only [Function.update_self]
      exact hlink
    · simp only [Function.update_of_ne hc]
      exact h.links c

/-! ## A write -/

theorem bears_write [External] {K : Server → Server.Call → Prop} (h : Bears build e w x)
    {conn : Nat} {m : RequestMessage} (hfits : RequestFits build m)
    (hs : Network.step build e w (.write conn m) = some w') :
    ∃ x', (Exchange.system.resume x).Reachable (Exchange.Calls K) x' ∧ Bears build e w' x' := by
  obtain ⟨bytes, hbytes, hs⟩ := Option.bind_eq_some_iff.mp hs
  cases hs
  obtain ⟨f, hf, rfl⟩ := isRequest_of_write hfits hbytes
  obtain ⟨hup, hdown, hsession⟩ := h.links conn
  have hlinked : Linked build e
      { w.links conn with toServer := (w.links conn).toServer ++ f.bytes build }
      (x.requests conn ++ [m]) (x.clients conn) := by
    refine ⟨?_, hdown, hsession⟩
    rw [← List.append_assoc]
    exact hup.append (.one hf)
  have hbears := h.update conn hlinked
  rw [Function.update_eq_self] at hbears
  exact ⟨_, .one (b := .write conn m) trivial rfl, hbears⟩

/-! ## An arrival at the server -/

/-- What the pass takes is the oldest message, if it takes one. -/
theorem serverReads_cases {conn n : Nat} (h : Bears build e w x)
    (hone : OneAtMost build (w.serverBuffer conn n)) :
    ((w.serverReads build conn n).1 = []
        ∧ (framing build).Carries (IsRequest build)
            ((w.serverReads build conn n).2 ++ (w.links conn).toServer.drop n) (x.requests conn))
      ∨ ∃ f m left, (w.serverReads build conn n).1 = [f] ∧ x.requests conn = m :: left
          ∧ IsRequest build f m
          ∧ (framing build).Carries (IsRequest build)
              ((w.serverReads build conn n).2 ++ (w.links conn).toServer.drop n) left := by
  obtain ⟨f, rest, hbuf, hrest⟩ := hone
  have hread : w.serverReads build conn n = (f.toList, rest) := by
    rw [Network.serverReads, hbuf]
    exact (framing build).once_whole f hrest
  rw [Network.serverBuffer] at hbuf
  have hup := (h.links conn).upstream
  rw [← List.take_append_drop n (w.links conn).toServer, ← List.append_assoc, hbuf] at hup
  obtain ⟨taken, left, hrequests, htaken, hleft⟩ := hup.split hrest
  rw [hread]
  cases f with
  | none =>
      cases htaken
      rw [hrequests]
      exact Or.inl ⟨rfl, hleft⟩
  | some f =>
      cases htaken with
      | cons hf hnil =>
          cases hnil
          exact Or.inr ⟨f, _, left, rfl, hrequests, hf, hleft⟩

/-- An arrival at the server leaves it alone, or is one call of a case that comes back. -/
theorem step_atServer_cases [External] {conn n : Nat} {drawn : UUID} {draws : Draws}
    (hs : Network.step build e w (.atServer conn n drawn draws) = some w') :
    ((w.serverReads build conn n).1 = []
        ∧ w' = { w with links := w.serverRead conn n (w.serverReads build conn n).2 })
      ∨ ∃ f server written, (w.serverReads build conn n).1 = [f]
          ∧ ClientHandler.react build e conn ⟨w.server, draws, drawn⟩ f = some (server, written)
          ∧ w' = ⟨server, fun c =>
            { w.serverRead conn n (w.serverReads build conn n).2 c with
              toClient := (w.serverRead conn n (w.serverReads build conn n).2 c).toClient
                ++ bytesFor c written }⟩ := by
  rw [Network.step] at hs
  split at hs
  · cases hs
  obtain ⟨⟨⟨server, written⟩, socket⟩, hread, hs⟩ := Option.bind_eq_some_iff.mp hs
  cases hs
  rw [ClientHandler.onReadData, drainWith_eq, ← once_eq_drain] at hread
  rw [Network.serverReads]
  obtain ⟨f, hf⟩ := exists_once (readFrame build) (w.serverBuffer conn n)
  rw [hf] at hread ⊢
  cases f with
  | none =>
      cases hread
      refine Or.inl ⟨rfl, ?_⟩
      simp only [bytesFor, List.filter_nil, List.flatMap_nil, List.append_nil]
  | some f =>
      obtain ⟨handled, hreact, heq⟩ := Option.map_eq_some_iff.mp hread
      cases heq
      rw [Option.toList_some, List.foldlM_cons] at hreact
      obtain ⟨handled', hreact, hnil⟩ := Option.bind_eq_some_iff.mp hreact
      cases hnil
      exact Or.inr ⟨f, server, written, rfl, hreact, rfl⟩

/-- A case that comes back has handled the message, and encoded what was written. -/
theorem react_served [External] {conn : Nat} {found : ClientHandler.Found} {f : Frame}
    {m : RequestMessage} {server : Server} {bytes : List (Nat × List UInt8)}
    (h : ClientHandler.react build e conn found f = some (server, bytes))
    (hm : RequestMessage.read build found.drawn f.operation f.payload = some m) :
    found.server.step ⟨conn, m.request, found.draws⟩ = some server
      ∧ ClientHandler.writeData build e
        (found.server.receive ⟨conn, m.request, found.draws⟩).written = some bytes := by
  rw [ClientHandler.react, hm, Option.bind_eq_bind, Option.bind_some] at h
  split at h
  · dsimp only at h
    split at h
    · rename_i houtcome
      obtain ⟨bytes', hbytes, heq⟩ := Option.map_eq_some_iff.mp h
      cases heq
      exact ⟨by rw [Server.step, houtcome], hbytes⟩
    · cases h
  · cases h

theorem bears_atServer [External] (hlib : DumpsAndParses) {K : Server → Server.Call → Prop}
    (h : Bears build e w x) {conn n : Nat} {drawn : UUID} {draws : Draws}
    (hg : Unbroken build e K w (.atServer conn n drawn draws))
    (hs : Network.step build e w (.atServer conn n drawn draws) = some w') :
    ∃ x', (Exchange.system.resume x).Reachable (Exchange.Calls K) x' ∧ Bears build e w' x' := by
  obtain ⟨hone, hcalls⟩ := hg
  rcases serverReads_cases h hone with ⟨hnone, hup⟩ | ⟨f, m, left, hread, hrequests, hf, hup⟩
  · -- nothing is handled, and the bytes are in the buffer now
    rcases step_atServer_cases hs with ⟨-, rfl⟩ | ⟨f, server, written, hread, -, -⟩
    · have hlinked : Linked build e
          { w.links conn with
            toServer := (w.links conn).toServer.drop n
            serverSocket := (w.serverReads build conn n).2 }
          (x.requests conn) (x.clients conn) :=
        ⟨hup, (h.links conn).downstream, (h.links conn).session⟩
      have hbears := h.update conn hlinked
      rw [Function.update_eq_self, Function.update_eq_self] at hbears
      exact ⟨x, .stay, hbears⟩
    · rw [hnone] at hread
      cases hread
  · have hm : RequestMessage.read build drawn f.operation f.payload = some m := by
      rw [hf.operation]
      exact read_request hlib drawn hf.fits.prints hf.fits.counted hf.payload
    obtain ⟨hcall, hwritten⟩ := hcalls f (by rw [hread]; exact List.mem_singleton_self f) m hm
    rcases step_atServer_cases hs with ⟨hnone, -⟩ | ⟨f', server, written, hread', hreact, rfl⟩
    · rw [hnone] at hread
      cases hread
    obtain rfl := (List.cons.inj (hread'.symm.trans hread)).1
    -- the pass hands on the request that was written
    obtain ⟨hserver, hbytes⟩ := react_served hreact hm
    have hx : x.call conn draws = some ⟨conn, m.request, draws⟩ := by
      rw [Exchange.call, hrequests]
      rfl
    refine ⟨{ server
              requests := Function.update x.requests conn left
              clients := fun c => (x.clients c).send (framesFor c
                (x.server.receive ⟨conn, m.request, draws⟩).written) },
      .one (b := .handle conn draws) ?_ ?_, rfl, fun c => ?_⟩
    · intro call hcall'
      obtain rfl := Option.some.inj (hx.symm.trans hcall')
      rw [← h.server]
      exact hcall
    · show (x.call conn draws).bind _ = _
      rw [hx, Option.bind_some, ← h.server]
      show (w.server.step _).bind _ = _
      rw [hserver, hrequests, h.server]
      rfl
    · -- the frames go to the end of both, on every connection
      have hsent := carries_writeData hwritten hbytes c
      have hdown := ((h.links c).downstream).append hsent
      rw [List.append_assoc] at hdown
      obtain ⟨session, hstate, halike⟩ := (h.links c).session
      rw [← h.server]
      by_cases hc : c = conn
      · subst hc
        simp only [Network.serverRead, Function.update_self]
        exact ⟨hup, hdown, session, hstate, halike⟩
      · simp only [Network.serverRead, Function.update_of_ne hc]
        exact ⟨(h.links c).upstream, hdown, session, hstate, halike⟩

/-! ## An arrival at a client -/

/-- The case for a frame is the handler of its message. -/
theorem react_message (hlib : DumpsAndParses) {drawn : UUID} {s t s' : Session} {f : Frame}
    {r : Response} (hf : IsResponse build e f r) (halike : Alike s t)
    (hs : TcpClient.react build e drawn s f = some s') :
    ∃ t', t.handle r = .ok t' ∧ Alike s' t' := by
  have hread := read_response hlib drawn hf.prints hf.fits.counted hf.payload
  rw [TcpClient.react, hf.operation, hread, Option.bind_eq_bind, Option.bind_some] at hs
  split at hs
  · exact alike_handle halike (ok_of_toOption hs)
  · cases hs

/-- Frames taken in one after the other are as many deliveries. -/
theorem deliveries [External] (hlib : DumpsAndParses) {K : Server → Server.Call → Prop}
    {drawn : UUID} {conn : Nat} {fs : List Frame} {taken left : List Response}
    (hfs : List.Forall₂ (IsResponse build e) fs taken) :
    ∀ {x : Exchange} {s t s' : Session}, Alike s t →
      x.clients conn = ⟨.ok t, taken ++ left⟩ →
      fs.foldlM (TcpClient.react build e drawn) s = some s' →
      ∃ t', (Exchange.system.resume x).Reachable (Exchange.Calls K)
          { x with clients := Function.update x.clients conn ⟨.ok t', left⟩ } ∧ Alike s' t' := by
  induction hfs with
  | nil =>
      intro x s t s' halike hclient hs
      cases hs
      refine ⟨t, ?_, halike⟩
      rw [List.nil_append] at hclient
      rw [← hclient, Function.update_eq_self]
      exact .stay
  | @cons f r fs taken hf hfs ih =>
      intro x s t s' halike hclient hs
      rw [List.foldlM_cons] at hs
      obtain ⟨s₁, hs₁, hs⟩ := Option.bind_eq_some_iff.mp hs
      obtain ⟨t₁, ht₁, halike₁⟩ := react_message hlib hf halike hs₁
      obtain ⟨t', hreach, halike'⟩ :=
        @ih { x with clients := Function.update x.clients conn ⟨.ok t₁, taken ++ left⟩ } s₁ t₁ s'
          halike₁ (Function.update_self ..) hs
      refine ⟨t', ?_, halike'⟩
      dsimp only at hreach
      rw [Function.update_idem] at hreach
      refine System.Reachable.resumed (.one (b := .deliver conn) trivial ?_) hreach
      show ((x.clients conn).deliver Session.handle).map _ = _
      rw [hclient]
      show some { x with clients := Function.update x.clients conn ⟨t.handle r, taken ++ left⟩ } = _
      rw [ht₁]

theorem bears_atClient [External] (hlib : DumpsAndParses) {K : Server → Server.Call → Prop}
    (h : Bears build e w x) {conn n : Nat} {drawn : UUID}
    (hg : EndsInHeader build (w.clientBuffer conn n))
    (hs : Network.step build e w (.atClient conn n drawn) = some w') :
    ∃ x', (Exchange.system.resume x).Reachable (Exchange.Calls K) x' ∧ Bears build e w' x' := by
  obtain ⟨fs, rest, hbuf, hrest⟩ := hg
  rw [Network.step] at hs
  split at hs
  · cases hs
  obtain ⟨⟨session, socket⟩, hdrain, hs⟩ := Option.bind_eq_some_iff.mp hs
  cases hs
  -- the loop takes the frames, and the buffer has room for no more passes
  have hfuel : fs.length < ((framing build).stream fs ++ rest).length + 1 := by
    have hle := (framing build).length_le_stream fs
    rw [List.length_append]
    omega
  have hfold := (framing build).drainWith_stream (TcpClient.react build e drawn)
    (readFrame_short build hrest) fs (w.links conn).session _ hfuel
  rw [hbuf] at hdrain
  obtain ⟨session', hsession', heq⟩ := Option.map_eq_some_iff.mp (hfold.symm.trans hdrain)
  cases heq
  obtain ⟨hup, hdown, t, hstate, halike⟩ := h.links conn
  rw [← List.take_append_drop n (w.links conn).toClient, ← List.append_assoc] at hdown
  rw [Network.clientBuffer] at hbuf
  rw [hbuf] at hdown
  obtain ⟨taken, left, hqueue, htaken, hleft⟩ := hdown.split hrest
  have hclient : x.clients conn = ⟨.ok t, taken ++ left⟩ := by rw [← hstate, ← hqueue]
  obtain ⟨t', hreach, halike'⟩ := deliveries (K := K) hlib htaken halike hclient hsession'
  have hlinked : Linked build e
      { w.links conn with
        session
        toClient := (w.links conn).toClient.drop n
        clientSocket := rest }
      (x.requests conn) ⟨.ok t', left⟩ := ⟨hup, hleft, t', rfl, halike'⟩
  have hbears := h.update conn hlinked
  rw [Function.update_eq_self] at hbears
  exact ⟨_, hreach, hbears⟩

/-- **The network of bytes does what the exchange of messages does.** -/
theorem network_simulates [External] (hlib : DumpsAndParses) (K : Server → Server.Call → Prop) :
    Simulates (Network.system build e) (Unbroken build e K) Exchange.system (Exchange.Calls K)
      (Bears build e) where
  init := bears_new
  step := by
    intro w w' event x _ _ h hg hs
    cases event with
    | write conn m => exact bears_write h hg hs
    | atServer conn n drawn draws => exact bears_atServer hlib h hg hs
    | atClient conn n drawn => exact bears_atClient hlib h hg hs

end

end SockEtOut.Proof
