import SockEtOut.Lib.Records
import SockEtOut.Proof.DesktopViews

/-!
# What has been handled in a run

A request leaves its connection at one step of the run: when it is the oldest there and
the server handles it. `services` reads these steps off the run itself, each with the
server that the request came to. What a program has written is, in order, what has been
handled and what waits.
-/

namespace SockEtOut.Proof

open Lib System

/-- A request as it is handled: whose it is, by which server, and with which draws. -/
structure Service where
  conn : Nat
  server : Server
  request : RequestMessage
  draws : Draws

namespace Service

/-- What comes of it. -/
def result [External] (h : Service) : Handled :=
  h.server.receive ⟨h.conn, h.request.request, h.draws⟩

end Service

/-- The service to a connection's oldest request, if a step is one. -/
def services (conn : Nat) (d : Desktops) : Desktops.Event → List Service
  | .handle conn' draws =>
      if conn' = conn then
        (d.requests conn).head?.toList.map fun request => ⟨conn, d.server, request, draws⟩
      else []
  | .click .. | .deliver _ => []

variable {d d' : Desktops} {conn : Nat} {past : List (Desktops × Desktops.Event)}

/-- It takes the request off the connection, and leaves what comes of it. -/
theorem services_of_handle [External] [Qt] {draws : Draws} {request : RequestMessage}
    (hs : d.step (.handle conn draws) = some d')
    (hrequests : d.requests conn = request :: d'.requests conn) :
    services conn d (.handle conn draws) = [⟨conn, d.server, request, draws⟩]
      ∧ d'.server = (d.server.receive ⟨conn, request.request, draws⟩).server := by
  refine ⟨by rw [services, if_pos rfl, hrequests]; rfl, ?_⟩
  obtain ⟨call, hcall, hs⟩ := Option.bind_eq_some_iff.mp hs
  obtain ⟨server, hserver, hs⟩ := Option.bind_eq_some_iff.mp hs
  cases hs
  unfold Desktops.call at hcall
  rw [hrequests] at hcall
  cases hcall
  exact (receive_of_step hserver).symm

/-- No other step handles anything of the connection. -/
theorem services_of_wrote [External] [Qt] {step : Desktops.Event} (hs : d.step step = some d')
    (hrequests : d'.requests conn = d.requests conn ++ wrote conn d step) :
    services conn d step = [] := by
  cases step with
  | click | deliver => rfl
  | handle conn' draws =>
      rw [services]
      split
      · rename_i hconn
        subst hconn
        -- the oldest request has gone
        obtain ⟨call, hcall, hs⟩ := Option.bind_eq_some_iff.mp hs
        obtain ⟨server, -, hs⟩ := Option.bind_eq_some_iff.mp hs
        cases hs
        obtain ⟨m, hm, -⟩ := Option.map_eq_some_iff.mp hcall
        obtain ⟨rest, hrest⟩ := List.head?_eq_some_iff.mp hm
        dsimp only [wrote] at hrequests
        rw [Function.update_self, hrest, List.append_nil] at hrequests
        exact absurd hrequests.symm (List.cons_ne_self m rest)
      · rfl

/-- **What is written is handled in order, or waits.** -/
theorem written_handled [External] [Qt] {G : Desktops → Desktops.Event → Prop} (conn : Nat)
    (h : Desktops.system.Records G steps past d) :
    toldBy (wrote conn) past
      = (toldBy (services conn) past).map Service.request ++ d.requests conn := by
  refine h.invariant (P := fun past d => toldBy (wrote conn) past
    = (toldBy (services conn) past).map Service.request ++ d.requests conn) rfl ?_
  intro past d step d' _ ih _ hs
  rw [toldBy_step, toldBy_step, ih]
  obtain hrequests | ⟨draws, m, rfl, hrequests⟩ := requests_of_step conn hs
  · rw [services_of_wrote hs hrequests, hrequests, List.append_nil, List.append_assoc]
  · rw [(services_of_handle hs hrequests).1, hrequests]
    simp [wrote]

end SockEtOut.Proof
