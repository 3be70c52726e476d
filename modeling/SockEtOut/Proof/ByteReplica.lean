import SockEtOut.Proof.ByteLevel
import SockEtOut.Proof.Replica

/-!
# What the values promise, the bytes keep

The deployment is what the network of bytes is to its users: the same server, the same
sessions but for what does not travel, and in flight to a client the very frames that
its queue holds. So what has been proved of every deployment is true of the bytes, and
first of all that a client's histories are the server's once nothing is on the way.
-/

namespace SockEtOut.Proof

open Lib System

variable {build : Build} {e : Endian}

/-! ## Checking a run -/

section

variable [Nlohmann]

instance [External] (build : Build) (e : Endian) (K : Server → Server.Call → Prop)
    [∀ s call, Decidable (K s call)] (w : Network) :
    (event : Network.Event) → Decidable (Unbroken build e K w event)
  | .write _ m => inferInstanceAs (Decidable (RequestFits build m))
  | .atServer conn n drawn draws => inferInstanceAs (Decidable
      (OneAtMost build ((w.links conn).serverSocket ++ (w.links conn).toServer.take n)
        ∧ ∀ f ∈ (w.serverReads build conn n).1,
          ∀ m ∈ RequestMessage.read build drawn f.operation f.payload,
            K w.server ⟨conn, m.request, draws⟩
              ∧ ∀ p ∈ (w.server.receive ⟨conn, m.request, draws⟩).written,
                  ResponseFits build e p.2))
  | .atClient conn n _ => inferInstanceAs (Decidable (EndsInHeader build (w.clientBuffer conn n)))

end

/-! ## From bytes to values -/

section

variable [Nlohmann] [External]

/-- The network is a deployment, by way of the exchange. -/
theorem network_deployed (hlib : DumpsAndParses) (K : Server → Server.Call → Prop) :
    Simulates (Network.system build e) (Unbroken build e K) Deployment.system (Deployment.Calls K)
      fun w d => ∃ x, Exchange.system.Reachable (Exchange.Calls K) x
        ∧ Bears build e w x ∧ x.Forgets d :=
  (network_simulates hlib K).trans (Exchange.simulates K)

/--
**Bytes refine values.** In either build, and whatever the requests: when all that is
written fits its counts and its header and no arrival ends between a header and the
end of its payload, a state the bytes reach is one that whole messages reach. The
server is the same, each client has the session it would have, and the bytes on their
way to it and in its buffer are one frame for each response it has yet to take in.
-/
theorem bytes_refine_values (hlib : DumpsAndParses) {K : Server → Server.Call → Prop}
    {w : Network} (h : (Network.system build e).Reachable (Unbroken build e K) w) :
    ∃ d, Deployment.system.Reachable (Deployment.Calls K) d ∧ w.server = d.server
      ∧ ∀ conn,
        (framing build).Carries (IsResponse build e)
            ((w.links conn).clientSocket ++ (w.links conn).toClient) (d.clients conn).queue
          ∧ ∃ session, (d.clients conn).state = .ok session
              ∧ Alike (w.links conn).session session := by
  obtain ⟨d, hd, x, -, hbears, hserver, hclients⟩ := (network_deployed hlib K).reachable h
  refine ⟨d, hd, hbears.server.trans hserver, fun conn => ?_⟩
  rw [← hclients]
  exact ⟨(hbears.links conn).downstream, (hbears.links conn).session⟩

end

/-- Alice (1) logs in, opens a channel and speaks; the bytes arrive in pieces at both ends. -/
def piecemeal : List Network.Event :=
  [.write 0 (TcpClient.registerUser (lit "alice") (lit "Alice") (lit "secret")),
    .atServer 0 3 (.ofByte 0) (.ofByte 0 []),
    .atServer 0 20 (.ofByte 0) (.ofByte 1 []),
    .write 0 (TcpClient.loginUser (lit "alice") (lit "secret")),
    .atServer 0 17 (.ofByte 0) (.ofByte 0 []),
    .write 0 (TcpClient.createChannel (lit "plans") [.ofByte 1]),
    .atClient 0 7 (.ofByte 0),
    .atServer 0 27 (.ofByte 0) (.ofByte 7 []),
    .write 0 (TcpClient.sendTextMessage (.ofByte 7) (.ofByte 1) (lit "hi")),
    .atServer 0 39 (.ofByte 0) (.ofByte 0 [epoch + 5]),
    .atClient 0 201 (.ofByte 0)]

theorem piecemeal_runs :
    ((@Network.system plainJson .sample .custom .little).exec
      (@Unbroken plainJson .sample .custom .little (@Admissible .sample)) Network.new
      piecemeal).isSome := by
  decide +kernel

/-- Where the run ends. -/
def piecemealEnd : Network :=
  ((@Network.system plainJson .sample .custom .little).exec
    (@Unbroken plainJson .sample .custom .little (@Admissible .sample)) Network.new
    piecemeal).get piecemeal_runs

theorem piecemealEnd_reachable :
    (@Network.system plainJson .sample .custom .little).Reachable
      (@Unbroken plainJson .sample .custom .little (@Admissible .sample)) piecemealEnd :=
  Reachable.exec_get piecemeal_runs

/-- What the bytes of Alice's run amount to. -/
theorem bytes_refine_values_piecemeal :
    ∃ d, (@Deployment.system .sample).Reachable (Deployment.Calls (@Admissible .sample)) d
      ∧ piecemealEnd.server = d.server ∧ (d.clients 0).queue = []
      ∧ ∃ session, (d.clients 0).state = .ok session
          ∧ Alike (piecemealEnd.links 0).session session := by
  obtain ⟨d, hd, hserver, hclients⟩ :=
    @bytes_refine_values .custom .little plainJson .sample plainJson_dumpsAndParses _ _
      piecemealEnd_reachable
  obtain ⟨hcarries, hsession⟩ := hclients 0
  have hempty :
      ((piecemealEnd.links 0).clientSocket ++ (piecemealEnd.links 0).toClient).isEmpty := by
    decide +kernel
  exact ⟨d, hd, hserver, hcarries.eq_nil_iff.mp (List.isEmpty_iff.mp hempty), hsession⟩

/-! ## The replica -/

section

variable [Nlohmann] [External]

omit [Nlohmann] in
/-- The calls of an admissible deployment, one by one. -/
theorem admissibleEvent_of_calls {d : Deployment} {event : Deployment.Event}
    (h : Deployment.Calls Admissible d event) : AdmissibleEvent d event := by
  cases event with
  | request call => exact h
  | deliver conn => trivial

/-- The invariant of the deployment, with the bytes in place of the queue. -/
theorem bytes_mirror (hlib : DumpsAndParses) {w : Network}
    (h : (Network.system build e).Reachable (Unbroken build e Admissible) w) {conn : Nat}
    {u : UUID} (hauth : w.server.authenticatedUser conn = some u)
    (hclient : (w.links conn).clientSocket ++ (w.links conn).toClient = []) :
    ServerInv w.server
      ∧ ∃ session, Alike (w.links conn).session session ∧ Mirrors w.server.db u session := by
  refine (network_deployed hlib Admissible).invariant
    (P := DeploymentInv)
    (Q := fun w => w.server.authenticatedUser conn = some u →
      (w.links conn).clientSocket ++ (w.links conn).toClient = [] → ServerInv w.server
        ∧ ∃ session, Alike (w.links conn).session session ∧ Mirrors w.server.db u session)
    (fun d hd => deploymentInv_reachable (hd.mono fun _ _ => admissibleEvent_of_calls))
    ?_ h hauth hclient
  rintro w d ⟨x, -, hbears, hserver, hclients⟩ hinv hauth hclient
  obtain ⟨session, hstate, halike⟩ := (hbears.links conn).session
  have hqueue := (hbears.links conn).downstream.eq_nil_iff.mp hclient
  rw [hclients] at hstate hqueue
  have hclient := hinv.clients conn
  rw [hbears.server, hserver] at hauth ⊢
  rw [Inbox.settled_of_queue_nil Session.handle hqueue, clientInv_some hauth, hstate] at hclient
  obtain ⟨_, heq, hmirrors⟩ := hclient
  cases heq
  exact ⟨hinv.store.server, session, halike, hmirrors⟩

/--
**The replica, through the bytes.** When the last byte to a logged-in client has
arrived and its buffer is empty, it has every channel on its user's list at the
server, and for each the snowflakes of the server's history, in order.
-/
theorem byte_replica_agrees (hlib : DumpsAndParses) {w : Network}
    (h : (Network.system build e).Reachable (Unbroken build e Admissible) w) {conn : Nat}
    {u : UUID} (hauth : w.server.authenticatedUser conn = some u)
    (hflight : (w.links conn).toClient = []) (hbuffer : (w.links conn).clientSocket = []) :
    ∃ user, w.server.db.users.lookup u = some user
      ∧ ∀ c ∈ user.channels, ((w.links conn).session.channels.lookup c).isSome
          ∧ ∃ ch ms, w.server.db.channels.lookup c = some ch
              ∧ (w.links conn).session.channelMessages.lookup c = some ms
              ∧ ms.map Message.snowflake = ch.messageSnowflakes := by
  have hclient : (w.links conn).clientSocket ++ (w.links conn).toClient = [] := by
    rw [hflight, hbuffer]
    rfl
  obtain ⟨hinv, session, halike, hready, user, hu, hview⟩ := bytes_mirror hlib h hauth hclient
  refine ⟨user, hu, fun c hc => ?_⟩
  obtain ⟨ch, hch, -⟩ := channel_found hinv.members hu hc
  have hsame := hview c hc
  unfold viewHistory storeHistory at hsame
  rw [hch] at hsame
  obtain ⟨ms, hms, hlist⟩ := Option.map_eq_some_iff.mp hsame
  rw [halike.messages]
  refine ⟨?_, ch, ms, hch, hms, hlist⟩
  have hkeys := hready.keys c
  rw [hms] at hkeys
  obtain ⟨channel, hchannel⟩ := Option.isSome_iff_exists.mp hkeys
  obtain ⟨channel', hchannel', -⟩ := (Option.map_eq_some_iff.mp
    ((halike.channels c).trans (congrArg (Option.map outline) hchannel)))
  rw [hchannel']
  rfl

end

/-- Alice's client has the message that she has sent. -/
theorem byte_replica_agrees_piecemeal :
    ∃ ms, (piecemealEnd.links 0).session.channelMessages.lookup (.ofByte 7) = some ms
      ∧ ms.map Message.snowflake = [41951488] := by
  have hauth : piecemealEnd.server.authenticatedUser 0 = some (.ofByte 1) := by decide +kernel
  have hflight : (piecemealEnd.links 0).toClient.isEmpty := by decide +kernel
  have hbuffer : (piecemealEnd.links 0).clientSocket.isEmpty := by decide +kernel
  have hlisted : (piecemealEnd.server.db.users.lookup (.ofByte 1)).map (·.channels)
      = some [.ofByte 7] := by decide +kernel
  have hhistory : (piecemealEnd.server.db.channels.lookup (.ofByte 7)).map (·.messageSnowflakes)
      = some [41951488] := by decide +kernel
  obtain ⟨user, hu, hagrees⟩ :=
    @byte_replica_agrees .custom .little plainJson .sample plainJson_dumpsAndParses _
      piecemealEnd_reachable 0 _ hauth (List.isEmpty_iff.mp hflight) (List.isEmpty_iff.mp hbuffer)
  have hchannels : user.channels = [.ofByte 7] := by
    rw [hu] at hlisted
    exact Option.some.inj hlisted
  obtain ⟨-, ch, ms, hch, hms, hlist⟩ := hagrees (.ofByte 7) (by rw [hchannels]; exact .head _)
  rw [hch] at hhistory
  exact ⟨ms, hms, hlist.trans (Option.some.inj hhistory)⟩

end SockEtOut.Proof
