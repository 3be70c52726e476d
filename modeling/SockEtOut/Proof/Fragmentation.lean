import SockEtOut.Client.Reader
import SockEtOut.Proof.JsonRoundTrips
import SockEtOut.Server.Reader

/-!
# What the readers make of arrivals

Neither reader remembers a header whose payload it did not wait long enough for.
So the client's is independent of how the stream was cut up only among the cuts
that keep headers and payloads together, or at least never end an arrival between
them; and the server's, which makes one pass for each arrival, also needs each
arrival to be worth a pass. Either needs the bodies of the cases to come back: a
frame behind one that does not is never looked at.

Both facts are `Lib.Framing`'s, at `framing b`. What is added here are the
arrivals that go wrong.
-/

namespace SockEtOut.Proof

open Lib

/-- `arrivals` is a way to cut up the stream of the frames `fs`. -/
def Cuts {ι : Type} (b : Build) (fs : List Frame) (arrivals : List (ι × List UInt8)) : Prop :=
  (arrivals.map Prod.snd).flatten = (framing b).stream fs

section

variable [Nlohmann]

/--
After each arrival less than a header of the frame in progress is there, and the
client's cases come back from the frames `came`, each in the session that its
arrival finds and the frames before it in the arrival leave.
-/
def ClientKeepsPlace (build : Build) (e : Endian) (fs came : List Frame)
    (arrivals : List (TcpClient.Found × List UInt8)) : Prop :=
  (framing build).HeadsUncut fs 0 (arrivals.map Prod.snd)
    ∧ (framing build).Returns (fun found => TcpClient.react build e found.drawn)
      TcpClient.Found.session came 0 arrivals

/--
Each arrival completes a frame, or leaves less than a header of one, and the
server's cases come back from the frames `came`.
-/
def ServerKeepsPlace [External] (build : Build) (e : Endian) (conn : Nat) (fs came : List Frame)
    (arrivals : List (ClientHandler.Found × List UInt8)) : Prop :=
  (framing build).OneOrUncut fs 0 (arrivals.map Prod.snd)
    ∧ (framing build).Returns (fun found _ f => ClientHandler.react build e conn found f)
      (fun found => (found.server, [])) came 0 arrivals

theorem client_dispatches_iff {build : Build} (e : Endian) {fs : List Frame}
    {arrivals : List (TcpClient.Found × List UInt8)} (h : Cuts build fs arrivals) :
    (serve (TcpClient.reads build e) arrivals = (fs, some [])
        ↔ ClientKeepsPlace build e fs fs arrivals)
      ∧ ((serve (TcpClient.reads build e) arrivals).1 = fs
        ↔ ClientKeepsPlace build e fs fs.dropLast arrivals) := by
  rw [serve, TcpClient.reads_eq]
  exact And.symm ((framing build).feedWith_drainAll_iff h ((framing build).completed_zero fs))

theorem server_dispatches_iff [External] {build : Build} (e : Endian) (conn : Nat)
    {fs : List Frame} {arrivals : List (ClientHandler.Found × List UInt8)}
    (h : Cuts build fs arrivals)
    (hmost : (framing build).AtMostOneEach fs 0 (arrivals.map Prod.snd)) :
    (serve (ClientHandler.reads build e conn) arrivals = (fs, some [])
        ↔ ServerKeepsPlace build e conn fs fs arrivals)
      ∧ ((serve (ClientHandler.reads build e conn) arrivals).1 = fs
        ↔ ServerKeepsPlace build e conn fs fs.dropLast arrivals) := by
  rw [serve, ClientHandler.reads_eq]
  exact And.symm
    ((framing build).feedWith_once_iff h ((framing build).completed_zero fs) hmost)

/--
**When the readers are independent of the cuts.** Two runs of the client's reader
over one stream both dispatch its frames, and come back from every call, exactly
when in both no arrival leaves a header without its payload and the cases come
back. The server's, where no arrival completes two frames, also may let an arrival
end there that has completed one. From the last frame nothing need come back for
all to have been dispatched.
-/
theorem readers_cut_independent_iff [External] {build : Build} (e : Endian) (conn : Nat)
    {fs gs : List Frame} {arrivals arrivals' : List (TcpClient.Found × List UInt8)}
    {requests requests' : List (ClientHandler.Found × List UInt8)} (h : Cuts build fs arrivals)
    (h' : Cuts build fs arrivals') (k : Cuts build gs requests) (k' : Cuts build gs requests') :
    ((serve (TcpClient.reads build e) arrivals = (fs, some [])
          ∧ serve (TcpClient.reads build e) arrivals' = (fs, some [])
        ↔ ClientKeepsPlace build e fs fs arrivals ∧ ClientKeepsPlace build e fs fs arrivals')
      ∧ ((serve (TcpClient.reads build e) arrivals).1 = fs
          ∧ (serve (TcpClient.reads build e) arrivals').1 = fs
        ↔ ClientKeepsPlace build e fs fs.dropLast arrivals
          ∧ ClientKeepsPlace build e fs fs.dropLast arrivals'))
      ∧ ((framing build).AtMostOneEach gs 0 (requests.map Prod.snd) →
          (framing build).AtMostOneEach gs 0 (requests'.map Prod.snd) →
          (serve (ClientHandler.reads build e conn) requests = (gs, some [])
              ∧ serve (ClientHandler.reads build e conn) requests' = (gs, some [])
            ↔ ServerKeepsPlace build e conn gs gs requests
              ∧ ServerKeepsPlace build e conn gs gs requests')
          ∧ ((serve (ClientHandler.reads build e conn) requests).1 = gs
              ∧ (serve (ClientHandler.reads build e conn) requests').1 = gs
            ↔ ServerKeepsPlace build e conn gs gs.dropLast requests
              ∧ ServerKeepsPlace build e conn gs gs.dropLast requests')) := by
  refine ⟨⟨?_, ?_⟩, fun hmost hmost' => ⟨?_, ?_⟩⟩
  · rw [(client_dispatches_iff e h).1, (client_dispatches_iff e h').1]
  · rw [(client_dispatches_iff e h).2, (client_dispatches_iff e h').2]
  · rw [(server_dispatches_iff e conn k hmost).1, (server_dispatches_iff e conn k' hmost').1]
  · rw [(server_dispatches_iff e conn k hmost).2, (server_dispatches_iff e conn k' hmost').2]

end

/-- A refused login, as the server writes it. -/
def refusal : Frame := (Response.login (.error (lit "no"))).frame .little (by decide)

/-- A search for the name `a`. -/
def search : Frame where
  operation := .listAccounts
  payload := [1, 97]
  handled := rfl
  length_lt := by decide

/-- One stream in one piece, and cut inside the header: either reader takes it either way. -/
theorem readers_cut_independent_refusal :
    (serve (@TcpClient.reads plainJson .custom .little) [(.new, refusal.bytes .custom)]
          = ([refusal], some [])
        ∧ serve (@TcpClient.reads plainJson .custom .little)
            [(.new, [0x14, 1]), (.new, [0, 4, 1, 2, 110, 111])] = ([refusal], some []))
      ∧ serve (@ClientHandler.reads plainJson .sample .custom .little 0)
          [(.new, search.bytes .custom)] = ([search], some [])
        ∧ serve (@ClientHandler.reads plainJson .sample .custom .little 0)
            [(.new, [0x14, 2]), (.new, [0, 2, 1, 97])] = ([search], some []) := by
  obtain ⟨hclient, hserver⟩ := @readers_cut_independent_iff plainJson .sample .custom .little 0
    [refusal] [search] [(.new, refusal.bytes .custom)]
    [(.new, [0x14, 1]), (.new, [0, 4, 1, 2, 110, 111])] [(.new, search.bytes .custom)]
    [(.new, [0x14, 2]), (.new, [0, 2, 1, 97])] rfl rfl rfl rfl
  refine ⟨hclient.1.mpr ⟨⟨⟨by decide, trivial⟩, by decide, trivial⟩,
    ⟨by decide, by decide, trivial⟩, by decide, by decide, trivial⟩, ?_⟩
  exact (hserver ⟨by decide, trivial⟩ ⟨by decide, by decide, trivial⟩).1.mpr
    ⟨⟨⟨by decide, trivial⟩, by decide, trivial⟩, ⟨by decide, by decide, trivial⟩, by decide,
      by decide, trivial⟩

/-- Cut behind the header, the same streams yield nothing, to either reader. -/
theorem readers_cut_dependent :
    (Cuts .custom [refusal] [(TcpClient.Found.new, refusal.bytes .custom)]
        ∧ Cuts .custom [refusal]
          [(TcpClient.Found.new, [0x14, 1, 0, 4]), (.new, [1, 2, 110, 111])]
        ∧ (serve (@TcpClient.reads plainJson .custom .little) [(.new, refusal.bytes .custom)]).1
          ≠ (serve (@TcpClient.reads plainJson .custom .little)
              [(.new, [0x14, 1, 0, 4]), (.new, [1, 2, 110, 111])]).1)
      ∧ Cuts .custom [search] [(ClientHandler.Found.new, search.bytes .custom)]
        ∧ Cuts .custom [search] [(ClientHandler.Found.new, [0x14, 2, 0, 2]), (.new, [1, 97])]
        ∧ (framing .custom).AtMostOneEach [search] 0 [[0x14, 2, 0, 2], [1, 97]]
        ∧ (serve (@ClientHandler.reads plainJson .sample .custom .little 0)
            [(.new, search.bytes .custom)]).1
          ≠ (serve (@ClientHandler.reads plainJson .sample .custom .little 0)
              [(.new, [0x14, 2, 0, 2]), (.new, [1, 97])]).1 :=
  ⟨⟨rfl, rfl, by decide⟩, rfl, rfl, ⟨by decide, by decide, trivial⟩, by decide⟩

/-! ## Whole frames, several at a time -/

/-- The buffer starts with a whole frame that nobody has read. -/
def FrameUnread (b : Build) (socket : List UInt8) : Prop :=
  ∃ f rest, socket = Frame.bytes b f ++ rest

theorem not_frameUnread_nil (b : Build) : ¬ FrameUnread b [] := by
  rintro ⟨f, rest, h⟩
  have hlen := congrArg List.length h
  rw [List.length_nil, List.length_append, f.length_bytes] at hlen
  have hpos : 0 < Header.size := by decide
  omega

/-- The fold over a single frame is the body of its case. -/
theorem returns_single_iff [Nlohmann] [External] {build : Build} {e : Endian} {conn : Nat}
    {groups : List (ClientHandler.Found × List Frame)} (hone : ∀ g ∈ groups, g.2.length = 1) :
    (∀ g ∈ groups, (g.2.foldlM (fun _ f => ClientHandler.react build e conn g.1 f)
        (g.1.server, [])).isSome)
      ↔ ∀ g ∈ groups, ∀ f ∈ g.2, (ClientHandler.react build e conn g.1 f).isSome := by
  refine forall₂_congr fun g hg => ?_
  obtain ⟨f, hf⟩ := List.length_eq_one_iff.mp (hone g hg)
  rw [hf, List.forall_mem_singleton, List.foldlM_cons]
  cases ClientHandler.react build e conn g.1 f <;> rfl

/--
**When no request is left behind.** For arrivals made of whole frames, the server
dispatches all of them, comes back and leaves none unread exactly when every
arrival is a single frame and the cases come back from them all. Dispatched they
are already if the cases come back from all but the last.
-/
theorem server_serves_all_iff [Nlohmann] [External] (build : Build) (e : Endian) (conn : Nat)
    {groups : List (ClientHandler.Found × List Frame)} (hne : ∀ g ∈ groups, g.2 ≠ []) :
    ((∃ rest, serve (ClientHandler.reads build e conn) ((framing build).arrivalsOf groups)
            = (groups.flatMap Prod.snd, some rest) ∧ ¬ FrameUnread build rest)
        ↔ (∀ g ∈ groups, g.2.length = 1)
          ∧ ∀ g ∈ groups, ∀ f ∈ g.2, (ClientHandler.react build e conn g.1 f).isSome)
      ∧ ((serve (ClientHandler.reads build e conn) ((framing build).arrivalsOf groups)).1
            = groups.flatMap Prod.snd
        ↔ (∀ g ∈ groups, g.2.length = 1)
          ∧ ∀ g ∈ groups.dropLast, ∀ f ∈ g.2, (ClientHandler.react build e conn g.1 f).isSome) := by
  obtain ⟨hframes, hall⟩ := (framing build).feedWith_single_iff
    (fun found _ f => ClientHandler.react build e conn found f)
    (fun found => (found.server, [])) hne
  rw [serve, ClientHandler.reads_eq]
  refine ⟨?_, hframes.trans (and_congr_right fun hone =>
    returns_single_iff fun g hg => hone g (List.mem_of_mem_dropLast hg))⟩
  refine Iff.trans ⟨?_, fun heq => ⟨[], heq, not_frameUnread_nil build⟩⟩
    (hall.trans (and_congr_right returns_single_iff))
  rintro ⟨rest, heq, -⟩
  obtain rfl := (framing build).rest_eq_nil (framing build).once_thrifty
    ((framing build).flatten_arrivalsOf groups) heq
  exact heq

/-- Three searches, each by itself. -/
theorem server_serves_all_singles :
    ∃ rest, serve (@ClientHandler.reads plainJson .sample .custom .little 0)
        ((framing .custom).arrivalsOf
          [(.new, [search]), (.new, [search]), (.new, [search])])
          = ([search, search, search], some rest) ∧ ¬ FrameUnread .custom rest :=
  (@server_serves_all_iff plainJson .sample .custom .little 0
    [(.new, [search]), (.new, [search]), (.new, [search])] (by simp)).1.mpr
    ⟨by simp, by decide⟩

/-- Two searches in one arrival: the second stays in the buffer, whole and unread. -/
theorem server_leaves_second :
    ∃ rest, serve (@ClientHandler.reads plainJson .sample .custom .little 0)
        ((framing .custom).arrivalsOf [(.new, [search, search])]) = ([search], some rest)
      ∧ FrameUnread .custom rest :=
  ⟨search.bytes .custom, by decide, search, [], by decide⟩

end SockEtOut.Proof
