import SockEtOut.Proof.Services

/-!
# Answers come in turn

An answer does not say what it is the answer to. The program takes the next response of a
kind for the answer to what it has asked first, and turns the spinner off. That is right
as long as each question is answered once and nobody else's answer comes between; the
notifications come when they come, but they are of other kinds.

A handler that ends by an exception answers nothing. The program of the server has ended
then, so these are runs in which none does.
-/

namespace SockEtOut

open Lib

/-- What is answered to the one who asks, and to nobody else. -/
inductive Question where
  | registration
  | login
  | search
  | deletion
  deriving DecidableEq

def Request.question : Request → Option Question
  | .registerAccount .. => some .registration
  | .login .. => some .login
  | .listAccounts _ => some .search
  | .deleteAccount .. => some .deletion
  | .createChannel .. | .sendMessage .. | .deleteMessage _ => none

/-- What a response is an answer to. -/
def Response.answer : Response → Option Question
  | .registerAccount _ => some .registration
  | .login _ => some .login
  | .listAccounts _ => some .search
  | .deleteAccount _ => some .deletion
  | .createChannel _ | .sendMessage _ | .deleteMessage _ => none

namespace Proof

open System

variable {s : Server} {call : Server.Call} {a b : Application} {event : Application.Event}
  {d d' : Desktops} {conn : Nat}

/-- The questions among requests, in order. -/
def questions (requests : List RequestMessage) : List RequestMessage :=
  requests.filter fun m => m.request.question.isSome

/-- The answers among responses, in order. -/
def answersIn (rs : List Response) : List Response := rs.filter fun r => r.answer.isSome

theorem questions_append (ms ms' : List RequestMessage) :
    questions (ms ++ ms') = questions ms ++ questions ms' :=
  List.filter_append ..

theorem answers_append (rs rs' : List Response) :
    answersIn (rs ++ rs') = answersIn rs ++ answersIn rs' :=
  List.filter_append ..

theorem questions_cons_none {m : RequestMessage} (h : m.request.question = none)
    (ms : List RequestMessage) : questions (m :: ms) = questions ms :=
  List.filter_cons_of_neg (by simp [h])

theorem questions_cons_some {m : RequestMessage} {q : Question}
    (h : m.request.question = some q) (ms : List RequestMessage) :
    questions (m :: ms) = m :: questions ms :=
  List.filter_cons_of_pos (by simp [h])

theorem answersIn_cons_none {r : Response} (h : r.answer = none) (rs : List Response) :
    answersIn (r :: rs) = answersIn rs :=
  List.filter_cons_of_neg (by simp [h])

theorem answersIn_cons_some {r : Response} {q : Question} (h : r.answer = some q)
    (rs : List Response) : answersIn (r :: rs) = r :: answersIn rs :=
  List.filter_cons_of_pos (by simp [h])

theorem answers_eq_nil {rs : List Response} (h : ∀ r ∈ rs, r.answer = none) :
    answersIn rs = [] := by
  refine List.filter_eq_nil_iff.mpr fun r hr => ?_
  rw [h r hr]
  exact Bool.false_ne_true

/-! ## The server answers once -/

/-- No signal is an answer. -/
theorem answers_notified (s : Server) (sigs : List Signal) (c : Nat) :
    answersIn (framesFor c (sigs.flatMap s.deliver)) = [] := by
  refine answers_eq_nil fun r hr => ?_
  obtain ⟨sig, -, hdeliver⟩ := List.mem_flatMap.mp (mem_framesFor.mp hr)
  obtain rfl : r = sig.response := response_of_deliver hdeliver
  cases sig <;> rfl

/-- Responses to one connection, of which the first is an answer and no other is. -/
theorem answers_own {r : Response} {rs : List Response} (hr : r.answer.isSome)
    (hrs : ∀ r' ∈ rs, r'.answer = none) (c : Nat) :
    answersIn (framesFor c ((r :: rs).map fun r => (conn, r))) = if c = conn then [r] else [] := by
  rw [framesFor_own]
  split
  · show List.filter _ (r :: rs) = _
    rw [List.filter_cons_of_pos (by exact hr)]
    exact congrArg (r :: ·) (answers_eq_nil hrs)
  · rfl

/-- What a handler answers: as many as it is asked for, and to the one who asks. -/
structure Answers (handled : Handled) (conn : Nat) (asked : Option Question)
    (given : List Response) : Prop where
  kind : given.map Response.answer = asked.toList.map some
  frames : ∀ c, answersIn (framesFor c handled.written) = if c = conn then given else []

theorem answers_respond (s : Server) (conn : Nat) {r : Response} {q : Question}
    (hr : r.answer = some q) : Answers (s.respond conn r) conn (some q) [r] where
  kind := by
    rw [List.map_singleton, hr]
    rfl
  frames := answers_own (by rw [hr]; rfl) fun _ h => absurd h List.not_mem_nil

/-- Of what a handler with a database call writes, the reply is the answer. -/
theorem answers_conclude {α : Type} {ret : Ret α} {reply : Except Str α → List (Nat × Response)}
    (h : (s.conclude ret reply).outcome = .returned ()) :
    ∃ res, ∀ c, answersIn (framesFor c (s.conclude ret reply).written)
      = answersIn (framesFor c (reply res)) := by
  unfold Server.conclude at h ⊢
  dsimp only at h ⊢
  split at h
  · rename_i res hres
    refine ⟨res, fun c => ?_⟩
    dsimp only
    rw [framesFor_append, answers_append, answers_notified, List.nil_append]
  · cases h
  · cases h

theorem answers_replied {α : Type} {ret : Ret α} {reply : Except Str α → Response} {q : Question}
    (hreply : ∀ res, (reply res).answer = some q)
    (h : (s.conclude ret fun res => [(conn, reply res)]).outcome = .returned ()) :
    ∃ given, Answers (s.conclude ret fun res => [(conn, reply res)]) conn (some q) given := by
  obtain ⟨res, hres⟩ := answers_conclude h
  obtain ⟨hkind, hframes⟩ := answers_respond s conn (hreply res)
  exact ⟨[reply res], hkind, fun c => (hres c).trans (hframes c)⟩

theorem answers_silent {α : Type} {ret : Ret α}
    (h : (s.conclude ret fun _ => []).outcome = .returned ()) :
    ∃ given, Answers (s.conclude ret fun _ => []) conn none given := by
  obtain ⟨-, hres⟩ := answers_conclude h
  refine ⟨[], rfl, fun c => ?_⟩
  rw [hres c]
  split <;> rfl

/-- **Each question has one answer**, of its kind and to the one who asks. -/
theorem answers_receive [External] (h : (s.receive call).outcome = .returned ()) :
    ∃ given, Answers (s.receive call) call.conn call.request.question given := by
  obtain ⟨conn, request, draws⟩ := call
  cases request with
  | registerAccount username password displayName =>
      change (s.onRegisterAccount conn draws username password displayName).outcome = _ at h
      show ∃ given, Answers (s.onRegisterAccount conn draws _ _ _) conn (some .registration) given
      unfold Server.onRegisterAccount at h ⊢
      split at h
      · exact ⟨_, answers_respond s conn rfl⟩
      · exact answers_replied (fun _ => rfl) h
  | login username password =>
      change (s.onLogin conn username password).outcome = _ at h
      show ∃ given, Answers (s.onLogin conn _ _) conn (some .login) given
      unfold Server.onLogin at h ⊢
      split at h
      · cases h
      · split at h
        · exact ⟨_, answers_respond s conn rfl⟩
        · exact ⟨_, answers_respond s conn rfl⟩
        · split at h
          · cases h
          · rename_i user hu
            refine ⟨[.login (.ok user)], rfl, answers_own rfl fun r hr => ?_⟩
            -- the replay is of channels and messages
            obtain ⟨c, -, ch, -, rfl | ⟨t, -, m, -, rfl⟩⟩ := Server.mem_replay hr
            · rfl
            · rfl
  | listAccounts regex =>
      show ∃ given, Answers (s.onListAccounts conn _) conn (some .search) given
      unfold Server.onListAccounts
      split
      · exact ⟨_, answers_respond s conn rfl⟩
      · exact ⟨_, answers_respond s conn rfl⟩
  | deleteAccount username password =>
      change (s.onDeleteAccount conn username password).outcome = _ at h
      show ∃ given, Answers (s.onDeleteAccount conn _ _) conn (some .deletion) given
      unfold Server.onDeleteAccount at h ⊢
      split at h
      · exact ⟨_, answers_respond s conn rfl⟩
      · split at h
        · exact ⟨_, answers_respond s conn rfl⟩
        · exact ⟨_, answers_respond s conn rfl⟩
        · exact answers_replied (fun _ => rfl) h
  | createChannel channelName members => exact answers_silent h
  | sendMessage senderUid channelUid text => exact answers_silent h
  | deleteMessage messageSnowflake => exact answers_silent h

/-! ## The program asks and hears -/

/-- Whether a question has been asked, by the look of the window. -/
def spinner : Question → Application → Bool
  | .registration, a => a.authentication.registrationLoading
  | .login, a => a.authentication.loginLoading
  | .search, a => a.sidebar.searchTab.loading
  | .deletion, _ => false

/-- The results of the search tab, when a response has come. -/
def listed (shown : List User) : Response → List User
  | .listAccounts (.ok accounts) => accounts
  | .deleteAccount (.ok _) => []
  | _ => shown

/-- What a click does to the window a question is asked in. Only a search can be asked again. -/
inductive Poses (a b : Application) (m : Option RequestMessage) (q : Question) : Prop where
  | silent (hspinner : spinner q b = spinner q a)
      (hm : ∀ r ∈ m, r.request.question ≠ some q) : Poses a b m q
  | asked {r : RequestMessage} (hm : m = some r) (hq : r.request.question = some q)
      (hspinner : spinner q b = true) (hfirst : q = .search ∨ spinner q a = false) : Poses a b m q

/-- **A spinner is turned on with the question**, and not by anything else that is clicked. -/
theorem poses_of_react [Qt] {m : Option RequestMessage} (hclick : Desktops.isClick event)
    (hstays : event ≠ .disconnect) (hreact : a.react event = some (.ok (b, m))) :
    b.sidebar.searchTab.searchResults = a.sidebar.searchTab.searchResults
      ∧ ∀ q, q ≠ .deletion → Poses a b m q := by
  cases event with
  | received r => cases hclick
  | disconnect => exact absurd rfl hstays
  | connected | disconnected | registrationDisconnect | turnTab | turnSidebarTab | typeText =>
      cases hreact
      exact ⟨rfl, fun q _ => .silent (by cases q <;> rfl) fun r hr => nomatch hr⟩
  | select item =>
      obtain ⟨channel, -, hopened⟩ := Option.map_eq_some_iff.mp hreact
      obtain ⟨c, hc, heq⟩ := map_eq_ok hopened
      obtain ⟨chatArea, -, rfl⟩ := map_eq_ok hc
      cases heq
      exact ⟨rfl, fun q _ => .silent (by cases q <;> rfl) fun r hr => nomatch hr⟩
  | submitLogin username password =>
      simp only [Application.react] at hreact
      split at hreact
      · cases hreact
      · rename_i hloading
        split at hreact
        · cases hreact
          refine ⟨rfl, fun q hq => ?_⟩
          cases q with
          | login => exact .asked rfl rfl rfl (Or.inr (Bool.not_eq_true _ ▸ hloading))
          | registration | search =>
              refine .silent rfl ?_
              rintro r ⟨⟩ ⟨⟩
          | deletion => exact absurd rfl hq
        · cases hreact
          exact ⟨rfl, fun q _ => .silent rfl fun r hr => nomatch hr⟩
  | submitRegistration username displayName password =>
      simp only [Application.react] at hreact
      split at hreact
      · cases hreact
      · rename_i hloading
        split at hreact
        · cases hreact
          refine ⟨rfl, fun q hq => ?_⟩
          cases q with
          | registration => exact .asked rfl rfl rfl (Or.inr (Bool.not_eq_true _ ▸ hloading))
          | login | search =>
              refine .silent rfl ?_
              rintro r ⟨⟩ ⟨⟩
          | deletion => exact absurd rfl hq
        · cases hreact
          exact ⟨rfl, fun q _ => .silent rfl fun r hr => nomatch hr⟩
  | search query =>
      cases hreact
      refine ⟨rfl, fun q hq => ?_⟩
      cases q with
      | search => exact .asked rfl rfl rfl (Or.inl rfl)
      | registration | login =>
          refine .silent rfl ?_
          rintro r ⟨⟩ ⟨⟩
      | deletion => exact absurd rfl hq
  | deleteAccount username password =>
      simp only [Application.react] at hreact
      split at hreact
      · cases hreact
        exact ⟨rfl, fun q _ => .silent rfl fun r hr => nomatch hr⟩
      · cases hreact
        refine ⟨rfl, fun q hq => .silent rfl ?_⟩
        rintro r ⟨⟩ hr
        cases hr
        exact hq rfl
  | messageUser item =>
      simp only [Application.react] at hreact
      split at hreact
      · cases hreact
      · obtain ⟨account, -, hclicked⟩ := Option.map_eq_some_iff.mp hreact
        split at hclicked
        · cases hclicked
        · cases hclicked
          refine ⟨rfl, fun q _ => .silent (by cases q <;> rfl) ?_⟩
          rintro r ⟨⟩ ⟨⟩
  | send =>
      simp only [Application.react, Option.some.injEq] at hreact
      split at hreact
      · cases hreact
      · cases hreact
        exact ⟨rfl, fun q _ => .silent rfl fun r hr => nomatch hr⟩
      · cases hreact
        refine ⟨rfl, fun q _ => .silent (by cases q <;> rfl) ?_⟩
        rintro r ⟨⟩ ⟨⟩
  | deleteMessage item =>
      simp only [Application.react] at hreact
      split at hreact
      · cases hreact
      · split at hreact
        · cases hreact
          refine ⟨rfl, fun q _ => .silent rfl ?_⟩
          rintro r ⟨⟩ ⟨⟩
        · cases hreact

/-- What a response does to the windows. An account's deletion resets them all. -/
structure Hears (a b : Application) (r : Response) : Prop where
  results : b.sidebar.searchTab.searchResults = listed a.sidebar.searchTab.searchResults r
  answered : ∀ q, r.answer = some q → spinner q b = false
  others : ∀ q, r.answer ≠ some q → spinner q b = spinner q a
    ∨ spinner q b = false ∧ ∃ user, r = .deleteAccount (.ok user)

theorem hears_notified {r : Response} (hr : r.answer = none)
    (hresults : b.sidebar.searchTab.searchResults = listed a.sidebar.searchTab.searchResults r)
    (hspinner : ∀ q, spinner q b = spinner q a) : Hears a b r where
  results := hresults
  answered q hq := by
    rw [hr] at hq
    cases hq
  others q _ := Or.inl (hspinner q)

/-- **A spinner is turned off by the answer.** -/
theorem hears_of_receive {r : Response} (h : a.receive r = .ok b) : Hears a b r := by
  replace h := dispatch_of_receive h
  unfold Application.dispatch at h
  split at h
  · cases h
  · rename_i session hs
    cases r with
    | registerAccount data =>
        cases data <;> cases h
        all_goals
          refine ⟨rfl, fun q hq => ?_, fun q hq => Or.inl ?_⟩
          · cases hq
            rfl
          · cases q with
            | registration => exact absurd rfl hq
            | login | search | deletion => rfl
    | login data =>
        cases data <;> cases h
        all_goals
          refine ⟨rfl, fun q hq => ?_, fun q hq => Or.inl ?_⟩
          · cases hq
            rfl
          · cases q with
            | login => exact absurd rfl hq
            | registration | search | deletion => rfl
    | listAccounts data =>
        cases data <;> cases h
        all_goals
          refine ⟨rfl, fun q hq => ?_, fun q hq => Or.inl ?_⟩
          · cases hq
            rfl
          · cases q with
            | search => exact absurd rfl hq
            | registration | login | deletion => rfl
    | deleteAccount data =>
        cases data with
        | error e =>
            cases h
            refine ⟨rfl, fun q hq => ?_, fun q _ => Or.inl (by cases q <;> rfl)⟩
            cases hq
            rfl
        | ok user =>
            cases h
            refine ⟨rfl, fun q _ => by cases q <;> rfl, fun q _ => Or.inr ⟨?_, user, rfl⟩⟩
            cases q <;> rfl
    | createChannel data =>
        cases data with
        | error e =>
            cases h
            exact hears_notified rfl rfl fun q => by cases q <;> rfl
        | ok channel =>
            obtain ⟨c, hc, rfl⟩ := map_eq_ok h
            obtain ⟨chatArea, -, rfl⟩ := map_eq_ok hc
            exact hears_notified rfl rfl fun q => by cases q <;> rfl
    | sendMessage data =>
        cases data with
        | error e =>
            cases h
            exact hears_notified rfl rfl fun q => by cases q <;> rfl
        | ok message =>
            obtain ⟨chatArea, -, rfl⟩ := map_eq_ok h
            exact hears_notified rfl rfl fun q => by cases q <;> rfl
    | deleteMessage data =>
        cases data <;> cases h
        all_goals exact hears_notified rfl rfl fun q => by cases q <;> rfl

/-! ## What the windows show -/

variable {heard : List Response} {unanswered : List RequestMessage}

/-- The requests that ask a question. -/
def asking (q : Question) (requests : List RequestMessage) : List RequestMessage :=
  requests.filter fun m => m.request.question = some q

theorem asking_append (q : Question) (ms ms' : List RequestMessage) :
    asking q (ms ++ ms') = asking q ms ++ asking q ms' :=
  List.filter_append ..

theorem asking_questions (q : Question) (ms : List RequestMessage) :
    asking q (questions ms) = asking q ms := by
  unfold asking questions
  rw [List.filter_filter]
  refine List.filter_congr fun m _ => ?_
  cases m.request.question <;> simp

theorem asking_cons_self {q : Question} {m : RequestMessage} (h : m.request.question = some q)
    (ms : List RequestMessage) : asking q (m :: ms) = m :: asking q ms :=
  List.filter_cons_of_pos (by simpa using h)

theorem asking_cons_ne {q : Question} {m : RequestMessage} (h : m.request.question ≠ some q)
    (ms : List RequestMessage) : asking q (m :: ms) = asking q ms :=
  List.filter_cons_of_neg (by simpa using h)

/--
The windows, when some answers have been heard and some questions have not been answered.
A spinner is on for a question only; and a login or a registration is asked once, and has
its spinner on all the while, if no account's deletion has reset the windows.
-/
structure Shows (a : Application) (heard : List Response) (unanswered : List RequestMessage) :
    Prop where
  results : a.sidebar.searchTab.searchResults = heard.foldl listed []
  spins : ∀ q, spinner q a = true → asking q unanswered ≠ []
  single : (∀ user, Response.deleteAccount (.ok user) ∉ heard) →
    ∀ q, q = .registration ∨ q = .login → (asking q unanswered).length = (spinner q a).toNat

theorem shows_new : Shows .new [] [] where
  results := rfl
  spins q h := by cases q <;> cases h
  single _ q hq := by rcases hq with rfl | rfl <;> rfl

theorem shows_react [Qt] {m : Option RequestMessage} (h : Shows a heard unanswered)
    (hclick : Desktops.isClick event) (hstays : event ≠ .disconnect)
    (hreact : a.react event = some (.ok (b, m))) :
    Shows b heard (unanswered ++ questions m.toList) := by
  obtain ⟨hresults, hposes⟩ := poses_of_react hclick hstays hreact
  refine ⟨hresults.trans h.results, fun q hspins => ?_, fun hheard q hq => ?_⟩
  · rw [asking_append, asking_questions]
    have hq : q ≠ .deletion := by
      rintro rfl
      cases hspins
    cases hposes q hq with
    | silent hspinner hm =>
        exact fun heq => h.spins q (hspinner ▸ hspins) (List.append_eq_nil_iff.mp heq).1
    | asked hm hask =>
        rw [hm, Option.toList_some, asking_cons_self hask]
        exact List.append_ne_nil_of_right_ne_nil _ (List.cons_ne_nil _ _)
  · rw [asking_append, asking_questions, List.length_append, h.single hheard q hq]
    have hne : q ≠ .deletion := by rcases hq with rfl | rfl <;> simp
    cases hposes q hne with
    | silent hspinner hm =>
        have hnone : asking q m.toList = [] := by
          refine List.filter_eq_nil_iff.mpr fun r hr => ?_
          simpa using hm r (Option.mem_toList.mp hr)
        rw [hnone, hspinner]
        rfl
    | asked hm hask hspinner hfirst =>
        have hoff : spinner q a = false := by
          refine hfirst.resolve_left ?_
          rcases hq with rfl | rfl <;> simp
        rw [hm, Option.toList_some, asking_cons_self hask, hoff, hspinner]
        rfl

/-- The answer to the oldest question is heard. -/
theorem shows_answered {r : Response} {m : RequestMessage} {q : Question}
    (h : Shows a heard (m :: unanswered)) (hm : m.request.question = some q)
    (hr : r.answer = some q) (hears : Hears a b r) : Shows b (heard ++ [r]) unanswered := by
  refine ⟨?_, fun q' hspins => ?_, fun hheard q' hq' => ?_⟩
  · rw [List.foldl_append, ← h.results]
    exact hears.results
  · have hne : q ≠ q' := by
      rintro rfl
      rw [hears.answered q hr] at hspins
      cases hspins
    have hother : r.answer ≠ some q' := by
      rw [hr]
      simpa using hne
    obtain hsame | ⟨hoff, -⟩ := hears.others q' hother
    · have hold := h.spins q' (hsame ▸ hspins)
      rwa [asking_cons_ne (by rw [hm]; simpa using hne)] at hold
    · rw [hoff] at hspins
      cases hspins
  · have hbefore := h.single (fun user hin => hheard user (List.mem_append_left _ hin)) q' hq'
    by_cases heq : q = q'
    · subst heq
      -- the spinner was on, for this one only
      rw [asking_cons_self hm, List.length_cons] at hbefore
      have hle := (spinner q a).toNat_le
      rw [hears.answered q hr]
      show _ = 0
      omega
    · have hother : r.answer ≠ some q' := by
        rw [hr]
        simpa using heq
      rw [asking_cons_ne (by rw [hm]; simpa using heq)] at hbefore
      obtain hsame | ⟨-, user, rfl⟩ := hears.others q' hother
      · rw [hbefore, hsame]
      · exact absurd (List.mem_append_right _ List.mem_cons_self) (hheard user)

/-- What is not an answer changes none of it. -/
theorem shows_notified {r : Response} (h : Shows a heard unanswered) (hr : r.answer = none)
    (hears : Hears a b r) : Shows b heard unanswered := by
  have hspinner : ∀ q, spinner q b = spinner q a := by
    intro q
    obtain hsame | ⟨-, user, rfl⟩ := hears.others q (by rw [hr]; simp)
    · exact hsame
    · cases hr
  refine ⟨?_, fun q hspins => h.spins q (hspinner q ▸ hspins), fun hheard q hq => ?_⟩
  · rw [hears.results, h.results]
    cases r with
    | registerAccount | login | listAccounts | deleteAccount => cases hr
    | createChannel | sendMessage | deleteMessage => rfl
  · rw [hspinner]
    exact h.single hheard q hq

/-! ## The way of a question -/

/-- A handler comes back without an exception. -/
def ComesBack [External] (s : Server) (call : Server.Call) : Prop :=
  (s.receive call).outcome = .returned ()

instance decidableComesBack [External] (s : Server) (call : Server.Call) :
    Decidable (ComesBack s call) := inferInstanceAs (Decidable (_ = _))

/-- A request that asks a question. -/
def Service.isQuestion (h : Service) : Bool := h.request.request.question.isSome

/-- A question and the answer that it has when it is handled. -/
structure Replies [External] (h : Service) (p : RequestMessage × Response) : Prop where
  request : h.request = p.1
  kind : p.2.answer = p.1.request.question
  written : (h.conn, p.2) ∈ h.result.written

theorem kind_of_replies [External] {served : List Service} {ps : List (RequestMessage × Response)}
    (h : List.Forall₂ Replies served ps) {p : RequestMessage × Response} (hp : p ∈ ps) :
    p.2.answer = p.1.request.question := by
  induction h with
  | nil => exact absurd hp List.not_mem_nil
  | cons hfirst hrest ih =>
      rcases List.mem_cons.mp hp with rfl | hp
      · exact hfirst.kind
      · exact ih hp

/-- The questions of a program so far: those whose answers it has taken in, those whose answers
are on the way, and those that wait. -/
structure InTurn [External] [Qt] (conn : Nat) (past : List (Desktops × Desktops.Event))
    (d : Desktops) (taken way : List (RequestMessage × Response)) : Prop where
  told : questions (toldBy (wrote conn) past)
    = taken.map Prod.fst ++ (way.map Prod.fst ++ questions (d.requests conn))
  /-- One answer for each that has been handled, in order. -/
  answered : List.Forall₂ Replies ((toldBy (services conn) past).filter Service.isQuestion)
    (taken ++ way)
  queue : answersIn (d.clients conn).queue = way.map Prod.snd
  program : ∀ a, (d.clients conn).state = .ok a →
    Shows a (taken.map Prod.snd) (way.map Prod.fst ++ questions (d.requests conn))

variable {past : List (Desktops × Desktops.Event)} {taken way : List (RequestMessage × Response)}

/-- What is asked in a step is asked last. -/
theorem asked_step [Qt] (conn : Nat) (past : List (Desktops × Desktops.Event)) (d : Desktops)
    (step : Desktops.Event) : questions (toldBy (wrote conn) (past ++ steps d step))
      = questions (toldBy (wrote conn) past) ++ questions (wrote conn d step) := by
  rw [toldBy_step, questions_append]

/-- What a click is to a program: a click on it, or nothing. -/
theorem program_of_click [Qt] {conn' : Nat} (h : d.click conn' event = some d')
    (hb : (d'.clients conn).state = .ok b) :
    ∃ a m, (d.clients conn).state = .ok a ∧ wrote conn d (.click conn' event) = m.toList
      ∧ (a.react event = some (.ok (b, m)) ∨ a = b ∧ m = none) := by
  obtain ⟨a, hstate, ⟨fault, rfl⟩ | ⟨b', m, hreact, rfl⟩⟩ := click_cases h
  · obtain ⟨-, hput⟩ | ⟨hne, hold⟩ := put_state hb
    · cases hput
    · exact ⟨b, none, hold, if_neg (Ne.symm hne), Or.inr ⟨rfl, rfl⟩⟩
  · have hclients : ((d.put conn' (.ok b')).clients conn).state = .ok b := hb
    obtain ⟨rfl, hput⟩ | ⟨hne, hold⟩ := put_state hclients
    · cases hput
      refine ⟨a, m, hstate, ?_, Or.inl hreact⟩
      dsimp only [wrote]
      rw [if_pos rfl, hstate]
      dsimp only
      rw [hreact]
    · exact ⟨b, none, hold, if_neg (Ne.symm hne), Or.inr ⟨rfl, rfl⟩⟩

theorem queue_of_click [Qt] {conn' : Nat} (h : d.click conn' event = some d') (c : Nat) :
    (d'.clients c).queue = (d.clients c).queue := by
  obtain ⟨a, -, ⟨fault, rfl⟩ | ⟨b, m, -, rfl⟩⟩ := click_cases h
  · exact put_queue d conn' _ c
  · exact put_queue d conn' _ c

/-- A question that is clicked waits behind the others. -/
theorem inTurn_click [External] [Qt] {conn' : Nat} (h : InTurn conn past d taken way)
    (hg : Desktops.Calls ComesBack d (.click conn' event))
    (hs : d.step (.click conn' event) = some d') :
    InTurn conn (past ++ steps d (.click conn' event)) d' taken way := by
  have hrequests : d'.requests conn = d.requests conn ++ wrote conn d (.click conn' event) := by
    obtain hrequests | ⟨draws, m, heq, -⟩ := requests_of_step conn hs
    · exact hrequests
    · cases heq
  have hstays := stays_of_calls hg
  unfold Desktops.step at hs
  dsimp only at hs
  split at hs
  · rename_i hclick
    refine ⟨?_, ?_, ?_, fun b hb => ?_⟩
    · rw [asked_step, h.told, hrequests, questions_append]
      simp only [List.append_assoc]
    · rw [toldBy_step]
      exact (List.append_nil _).symm ▸ h.answered
    · rw [queue_of_click hs]
      exact h.queue
    · obtain ⟨a, m, hstate, hwrote, hmoved⟩ := program_of_click hs hb
      rw [hrequests, hwrote, questions_append, ← List.append_assoc]
      obtain hreact | ⟨rfl, rfl⟩ := hmoved
      · exact shows_react (h.program a hstate) hclick hstays hreact
      · rw [Option.toList_none]
        exact (List.append_nil _).symm ▸ h.program a hstate
  · cases hs

/-- A step that neither asks nor answers anything at the connection. -/
theorem inTurn_aside [External] [Qt] {step : Desktops.Event} (h : InTurn conn past d taken way)
    (hwrote : wrote conn d step = [])
    (hservices : (services conn d step).filter Service.isQuestion = [])
    (hrequests : questions (d'.requests conn) = questions (d.requests conn))
    (hqueue : answersIn (d'.clients conn).queue = answersIn (d.clients conn).queue)
    (hprogram : ∀ b, (d'.clients conn).state = .ok b →
      Shows b (taken.map Prod.snd) (way.map Prod.fst ++ questions (d.requests conn))) :
    InTurn conn (past ++ steps d step) d' taken way where
  told := by
    rw [toldBy_step, hwrote, List.append_nil, hrequests]
    exact h.told
  answered := by
    rw [toldBy_step, List.filter_append, hservices, List.append_nil]
    exact h.answered
  queue := hqueue.trans h.queue
  program := by
    rw [hrequests]
    exact hprogram

/-- A question that is handled has its answer at the end of those on the way. -/
theorem inTurn_handle [External] [Qt] {conn' : Nat} {draws : Draws}
    (h : InTurn conn past d taken way) (hg : Desktops.Calls ComesBack d (.handle conn' draws))
    (hs : d.step (.handle conn' draws) = some d') :
    ∃ way', InTurn conn (past ++ steps d (.handle conn' draws)) d' taken way' := by
  have hstep := hs
  obtain ⟨call, hcall, hs⟩ := Option.bind_eq_some_iff.mp hs
  obtain ⟨server, hserver, hs⟩ := Option.bind_eq_some_iff.mp hs
  cases hs
  obtain ⟨given, hkind, hframes⟩ := answers_receive (hg call hcall)
  obtain ⟨m, hm, rfl⟩ := Option.map_eq_some_iff.mp hcall
  have hqueue := (answers_append (d.clients conn).queue _).trans
    (congrArg (_ ++ ·) (hframes conn))
  dsimp only at hkind hqueue
  by_cases hc : conn = conn'
  · subst hc
    rw [if_pos rfl] at hqueue
    obtain ⟨rest, hrest⟩ := List.head?_eq_some_iff.mp hm
    have htail : Function.update d.requests conn (d.requests conn).tail conn = rest := by
      rw [Function.update_self, hrest]
      rfl
    obtain ⟨hservice, -⟩ := services_of_handle hstep (hrest.trans (congrArg (m :: ·) htail.symm))
    cases hq : m.request.question with
    | none =>
        rw [hq, Option.toList_none, List.map_nil, List.map_eq_nil_iff] at hkind
        refine ⟨way, inTurn_aside h rfl ?_ ?_ ?_ h.program⟩
        · rw [hservice]
          exact List.filter_cons_of_neg (by rw [Service.isQuestion, hq]; exact nofun)
        · dsimp only
          rw [htail, hrest, questions_cons_none hq]
        · rw [hkind, List.append_nil] at hqueue
          exact hqueue
    | some q =>
        -- it leaves those that wait for those that are on the way, and its answer with it
        rw [hq, Option.toList_some, List.map_singleton] at hkind
        obtain ⟨r, rfl, hr⟩ := List.map_eq_singleton_iff.mp hkind
        have htold := h.told
        have hprogram := h.program
        rw [hrest, questions_cons_some hq] at htold hprogram
        refine ⟨way ++ [(m, r)], ?_, ?_, ?_, fun a ha => ?_⟩
        · dsimp only
          rw [toldBy_step, htail, List.map_append, List.append_assoc]
          exact (congrArg questions (List.append_nil _)).trans htold
        · rw [toldBy_step, hservice, List.filter_append,
            List.filter_cons_of_pos (by rw [Service.isQuestion, hq]; rfl), List.filter_nil,
            ← List.append_assoc]
          refine List.rel_append h.answered (.cons ⟨rfl, hr.trans hq.symm, ?_⟩ .nil)
          have hin : r ∈ answersIn (framesFor conn
              (d.server.receive ⟨conn, m.request, draws⟩).written) := by
            rw [hframes conn, if_pos rfl]
            exact List.mem_cons_self
          exact mem_framesFor.mp (List.mem_filter.mp hin).1
        · rw [h.queue] at hqueue
          rw [List.map_append]
          exact hqueue
        · dsimp only
          rw [htail, List.map_append, List.append_assoc]
          exact hprogram a ha
  · -- what is answered there is not answered here
    rw [if_neg hc, List.append_nil] at hqueue
    refine ⟨way, inTurn_aside h rfl ?_ ?_ hqueue h.program⟩
    · rw [services, if_neg (Ne.symm hc)]
      rfl
    · dsimp only
      rw [Function.update_of_ne hc]

/-- An answer that is taken in was the first of those on the way. -/
theorem inTurn_deliver [External] [Qt] {conn' : Nat} (h : InTurn conn past d taken way)
    (hs : d.step (.deliver conn') = some d') :
    ∃ taken' way', InTurn conn (past ++ steps d (.deliver conn')) d' taken' way' := by
  obtain ⟨client, hclient, rfl⟩ := Option.map_eq_some_iff.mp hs
  obtain ⟨r, rs, hqueue, rfl⟩ := Inbox.deliver_cases _ hclient
  by_cases hc : conn = conn'
  · subst hc
    have hold := h.queue
    rw [hqueue] at hold
    have hreceive : ∀ b, (Function.update d.clients conn
          ⟨(d.clients conn).state >>= fun a => a.receive r, rs⟩ conn).state = .ok b →
        ∃ a, (d.clients conn).state = .ok a ∧ a.receive r = .ok b := by
      intro b hb
      rw [Function.update_self] at hb
      cases hstate : (d.clients conn).state with
      | error fault =>
          rw [hstate] at hb
          cases hb
      | ok a =>
          rw [hstate] at hb
          exact ⟨a, rfl, hb⟩
    cases hr : r.answer with
    | none =>
        refine ⟨taken, way, inTurn_aside h rfl rfl rfl ?_ fun b hb => ?_⟩
        · dsimp only
          rw [Function.update_self, hqueue, answersIn_cons_none hr]
        · obtain ⟨a, ha, hab⟩ := hreceive b hb
          exact shows_notified (h.program a ha) hr (hears_of_receive hab)
    | some q =>
        -- the pair is the same, and has come from one list to the other
        rw [answersIn_cons_some hr] at hold
        obtain ⟨⟨m, r'⟩, way', rfl, hr', hrest⟩ := List.map_eq_cons_iff.mp hold.symm
        obtain rfl : r' = r := hr'
        have hkind := kind_of_replies h.answered
          (List.mem_append_right _ (List.mem_cons_self (a := (m, r'))))
        refine ⟨taken ++ [(m, r')], way', ?_, ?_, ?_, fun b hb => ?_⟩
        · rw [toldBy_step, List.map_append, List.append_assoc]
          exact (congrArg questions (List.append_nil _)).trans h.told
        · rw [toldBy_step, List.append_assoc]
          exact (List.append_nil _).symm ▸ h.answered
        · dsimp only
          rw [Function.update_self]
          exact hrest.symm
        · obtain ⟨a, ha, hab⟩ := hreceive b hb
          rw [List.map_append]
          exact shows_answered (h.program a ha) (hkind.symm.trans hr) hr (hears_of_receive hab)
  · refine ⟨taken, way, inTurn_aside h rfl rfl rfl ?_ fun b hb => h.program b ?_⟩
    · dsimp only
      rw [Function.update_of_ne hc]
    · dsimp only at hb
      rwa [Function.update_of_ne hc] at hb

/-! ## The result -/

theorem inTurn_new [External] [Qt] : InTurn conn [] .new [] [] where
  told := rfl
  answered := .nil
  queue := rfl
  program a ha := by
    cases ha
    exact shows_new

/-- **Preserved by every step.** -/
theorem inTurn_step [External] [Qt] {step : Desktops.Event}
    (h : ∃ taken way, InTurn conn past d taken way) (hg : Desktops.Calls ComesBack d step)
    (hs : d.step step = some d') :
    ∃ taken way, InTurn conn (past ++ steps d step) d' taken way := by
  obtain ⟨taken, way, h⟩ := h
  cases step with
  | click conn' event => exact ⟨taken, way, inTurn_click h hg hs⟩
  | handle conn' draws => exact ⟨taken, inTurn_handle h hg hs⟩
  | deliver conn' => exact inTurn_deliver h hs

/--
**Answers come in turn**, as long as the server's handlers come back. Whatever everyone
clicks: the registrations, logins, searches and deletions of accounts that a program has
asked for are, in order, those whose answers it has taken in, those whose answers are on the
way and those that wait; there is one answer for each that has been handled, of its question's
kind and among what the server wrote when it handled it. The search tab shows the last answer
to a search that was a list, since the windows were last reset. A spinner turns for a question
only, so that when nothing is on the way and nothing waits none does; and but for such a reset,
a login or a registration is never asked again before it is answered, and its spinner turns
just as long.
-/
theorem answers_come_in_turn [External] [Qt]
    (h : Desktops.system.Records (Desktops.Calls ComesBack) steps past d) :
    ∃ taken way, InTurn conn past d taken way
      ∧ (d.requests conn = [] → (d.clients conn).queue = [] →
        questions (toldBy (wrote conn) past) = taken.map Prod.fst
          ∧ ∀ a, (d.clients conn).state = .ok a → ∀ q, spinner q a = false) := by
  obtain ⟨taken, way, hturn⟩ := h.invariant
    (P := fun past d => ∃ taken way, InTurn conn past d taken way) ⟨[], [], inTurn_new⟩
    fun _ _ _ _ _ hold hg hs => inTurn_step hold hg hs
  refine ⟨taken, way, hturn, fun hrequests hqueue => ?_⟩
  have hway : way = [] := by
    have hsame := hturn.queue
    rw [hqueue] at hsame
    exact List.map_eq_nil_iff.mp hsame.symm
  have htold := hturn.told
  have hprogram := hturn.program
  rw [hway, hrequests] at htold hprogram
  refine ⟨htold.trans (List.append_nil _), fun a ha q => ?_⟩
  exact Bool.eq_false_iff.mpr fun hspins => (hprogram a ha).spins q hspins rfl

theorem chatting_returns :
    ((@Desktops.system .sample utf8Qt).exec (Desktops.Calls (@ComesBack .sample)) Desktops.new
      chatting).isSome := by
  decide +kernel

/-- Where Alice and Bob are, no handler having thrown. -/
def chattingReturned : Desktops :=
  ((@Desktops.system .sample utf8Qt).exec (Desktops.Calls (@ComesBack .sample)) Desktops.new
    chatting).get chatting_returns

/-- Alice has asked for three things and has her answers, and Bob is in her results. -/
theorem answers_come_in_turn_chatting :
    ∃ a, ∃ taken : List (RequestMessage × Response), (chattingReturned.clients 0).state = .ok a
      ∧ taken.map (fun p => p.1.request.question)
        = [some .registration, some .login, some .search]
      ∧ a.sidebar.searchTab.searchResults = (taken.map Prod.snd).foldl listed []
      ∧ a.sidebar.searchTab.searchResults.map User.username = [lit "bob"]
      ∧ ∀ q, spinner q a = false := by
  have htold : (questions (toldBy (@wrote utf8Qt 0) ((@Desktops.system .sample utf8Qt).record steps
      (@Desktops.system .sample utf8Qt).init chatting))).map (fun m => m.request.question)
        = [some .registration, some .login, some .search] := by decide +kernel
  have hwaiting : (chattingReturned.requests 0).isEmpty := by decide +kernel
  have hqueue : (chattingReturned.clients 0).queue.isEmpty := by decide +kernel
  have hscreen : (chattingReturned.clients 0).state.toOption.map
      (fun a => a.sidebar.searchTab.searchResults.map User.username)
        = some [lit "bob"] := by decide +kernel
  obtain ⟨taken, way, ⟨-, -, -, hprogram⟩, hquiet⟩ :=
    @answers_come_in_turn chattingReturned 0 _ .sample utf8Qt
      (System.Records.exec_get chatting_returns)
  obtain ⟨hall, hspinners⟩ := hquiet (List.isEmpty_iff.mp hwaiting) (List.isEmpty_iff.mp hqueue)
  cases hstate : (chattingReturned.clients 0).state with
  | error fault =>
      rw [hstate] at hscreen
      cases hscreen
  | ok a =>
      rw [hstate] at hscreen
      have hasked := htold.symm.trans (congrArg (List.map fun m => m.request.question) hall)
      rw [List.map_map] at hasked
      exact ⟨a, taken, rfl, hasked.symm, (hprogram a hstate).results, Option.some.inj hscreen,
        hspinners a hstate⟩

end Proof

end SockEtOut
