import SockEtOut.Lib.Framing

/-!
# Readers that react to what they read

Each frame is reacted to before the next pass, and a reaction may fail to come
back. Then neither does the reader, and nobody calls it again.

Reactions decide nothing about the bytes: `drainWith_eq` says that the loop with
reactions is the loop without, cut off behind the first frame whose reaction does
not come back. So whether all frames of a stream are reported is two questions, one
about where the arrivals end and one about the reactions (`feedWith_drainAll_iff`,
`feedWith_once_iff`). To a frame that is the last of all nothing need come back.
-/

namespace Lib

universe u v w

variable {β : Type u} {α : Type v} {ι τ : Type w}

/--
Pass after pass, at most `n` of them, with a reaction to each frame before the
next pass. Where the reaction does not come back, neither does the reader: the
frames reported so far are all there is.
-/
def drainWith (poll : List β → Poll β α) (react : τ → α → Option τ) :
    Nat → τ → List β → List α × Option (τ × List β)
  | 0, s, buf => ([], some (s, buf))
  | n + 1, s, buf =>
      match poll buf with
      | .idle => ([], some (s, buf))
      | .lost rest => ([], some (s, rest))
      | .item none rest => drainWith poll react n s rest
      | .item (some a) rest =>
          match react s a with
          | none => ([a], none)
          | some s' =>
              (a :: (drainWith poll react n s' rest).1, (drainWith poll react n s' rest).2)

/-- The frames up to the first whose reaction does not come back, that one included. -/
def reacted (react : τ → α → Option τ) : τ → List α → List α
  | _, [] => []
  | s, a :: as =>
      a :: match react s a with
        | none => []
        | some s' => reacted react s' as

/--
A reader that reacts to what another one reports, starting from what an arrival
finds: the frames reported, and what is left if all reactions come back.
-/
def reacting (reader : List β → List α × List β) (react : ι → τ → α → Option τ) (start : ι → τ)
    (i : ι) (buf : List β) : List α × Option (List β) :=
  (reacted (react i) (start i) (reader buf).1,
    ((reader buf).1.foldlM (react i) (start i)).map fun _ => (reader buf).2)

/-- Call a reader once for each arrival, as long as it comes back. -/
def feedWith (reader : ι → List β → List α × Option (List β)) :
    List β → List (ι × List β) → List α × Option (List β)
  | buf, [] => ([], some buf)
  | buf, (i, arrival) :: arrivals =>
      match (reader i (buf ++ arrival)).2 with
      | none => ((reader i (buf ++ arrival)).1, none)
      | some rest =>
          ((reader i (buf ++ arrival)).1 ++ (feedWith reader rest arrivals).1,
            (feedWith reader rest arrivals).2)

/-! ## The frames reacted to -/

section

variable {react : τ → α → Option τ}

theorem reacted_prefix_self : ∀ (as : List α) (s : τ), reacted react s as <+: as
  | [], _ => List.prefix_rfl
  | a :: as, s => by
      rw [reacted]
      refine (List.prefix_cons_inj a).mpr ?_
      cases react s a with
      | none => exact List.nil_prefix
      | some s' => exact reacted_prefix_self as s'

theorem reacted_of_isSome : ∀ {as : List α} {s : τ}, (as.foldlM react s).isSome →
    reacted react s as = as
  | [], _, _ => rfl
  | a :: as, s, h => by
      rw [List.foldlM_cons] at h
      rw [reacted]
      cases hr : react s a with
      | none => rw [hr] at h; cases h
      | some s' =>
          rw [hr] at h
          exact congrArg (a :: ·) (reacted_of_isSome h)

/-- The last frame is reported whether its reaction comes back or not. -/
theorem reacted_eq_iff : ∀ {as : List α} {s : τ},
    reacted react s as = as ↔ (as.dropLast.foldlM react s).isSome
  | [], _ => iff_of_true rfl rfl
  | [a], s => by
      refine iff_of_true ?_ rfl
      rw [reacted]
      cases react s a <;> rfl
  | a :: b :: as, s => by
      rw [reacted, List.dropLast_cons_of_ne_nil (by simp), List.foldlM_cons]
      cases hr : react s a with
      | none => exact iff_of_false (by simp) Bool.false_ne_true
      | some s' =>
          rw [List.cons.injEq, eq_self, true_and]
          exact reacted_eq_iff

/-- **The loop with reactions is the loop without, cut off where one does not come back.** -/
theorem drainWith_eq {poll : List β → Poll β α} : ∀ (n : Nat) (s : τ) (buf : List β),
    drainWith poll react n s buf
      = (reacted react s (drain poll n buf).1,
          ((drain poll n buf).1.foldlM react s).map fun s' => (s', (drain poll n buf).2))
  | 0, _, _ => rfl
  | n + 1, s, buf => by
      rw [drainWith, drain]
      cases hp : poll buf with
      | idle => rfl
      | lost rest => rfl
      | item a rest =>
          cases a with
          | none => exact drainWith_eq n s rest
          | some a =>
              dsimp only
              rw [Option.toList_some, List.singleton_append, reacted, List.foldlM_cons]
              cases hr : react s a with
              | none => rfl
              | some s' =>
                  dsimp only
                  rw [drainWith_eq n s' rest]
                  rfl

/-- A reader that comes back has taken what it takes without reactions. -/
theorem drainWith_returned {poll : List β → Poll β α} {n : Nat} {s s' : τ} {buf rest : List β}
    (h : (drainWith poll react n s buf).2 = some (s', rest)) :
    (drainWith poll react n s buf).1 = (drain poll n buf).1 ∧ rest = (drain poll n buf).2 := by
  rw [drainWith_eq] at h ⊢
  obtain ⟨s₁, hs₁, heq⟩ := Option.map_eq_some_iff.mp h
  obtain ⟨-, hrest⟩ := Prod.mk.inj heq
  exact ⟨reacted_of_isSome (by rw [hs₁]; rfl), hrest.symm⟩

end

namespace Framing

variable (F : Framing β α) {react : ι → τ → α → Option τ} {start : ι → τ}
  {reader : List β → List α × List β}

/-- On whole frames a reader comes back if the reactions to all of them do. -/
theorem drainWith_stream (react : τ → α → Option τ) {rest : List β}
    (hrest : F.poll rest = .idle) : ∀ (fs : List α) (s : τ) (n : Nat), fs.length < n →
      (drainWith F.poll react n s (F.stream fs ++ rest)).2
        = (fs.foldlM react s).map fun s' => (s', rest)
  | [], s, n + 1, _ => by
      show (drainWith F.poll react (n + 1) s rest).2 = some (s, rest)
      rw [drainWith, hrest]
  | a :: fs, s, n + 1, hn => by
      rw [stream, List.flatMap_cons, List.append_assoc, ← stream, drainWith, F.poll_whole,
        List.foldlM_cons]
      dsimp only
      cases hr : react s a with
      | none => rfl
      | some s' => exact drainWith_stream react hrest fs s' n (Nat.lt_of_succ_lt_succ hn)

/-! ## A run, with reactions and without -/

/-- What is reported is the beginning of what would be without reactions. -/
theorem feedWith_prefix_feed : ∀ (arrivals : List (ι × List β)) (buf : List β),
    (feedWith (reacting reader react start) buf arrivals).1
      <+: (feed reader buf (arrivals.map Prod.snd)).1
  | [], _ => List.prefix_rfl
  | (i, arrival) :: arrivals, buf => by
      rw [feedWith, List.map_cons, feed]
      dsimp only [reacting]
      cases hs : (reader (buf ++ arrival)).1.foldlM (react i) (start i) with
      | none => exact (reacted_prefix_self _ _).trans (List.prefix_append _ _)
      | some s' =>
          rw [reacted_of_isSome (by rw [hs]; rfl)]
          exact (List.prefix_append_right_inj _).mpr (feedWith_prefix_feed arrivals _)

/-- A run that comes back from every call is what it would be without reactions. -/
theorem feedWith_returned : ∀ {arrivals : List (ι × List β)} {buf rest : List β},
    (feedWith (reacting reader react start) buf arrivals).2 = some rest →
    (feedWith (reacting reader react start) buf arrivals).1
        = (feed reader buf (arrivals.map Prod.snd)).1
      ∧ rest = (feed reader buf (arrivals.map Prod.snd)).2
  | [], _, _, h => ⟨rfl, (Option.some.inj h).symm⟩
  | (i, arrival) :: arrivals, buf, rest, h => by
      rw [feedWith] at h ⊢
      rw [List.map_cons, feed]
      dsimp only [reacting] at h ⊢
      cases hs : (reader (buf ++ arrival)).1.foldlM (react i) (start i) with
      | none => rw [hs] at h; cases h
      | some s' =>
          rw [hs] at h
          obtain ⟨hframes, hrest⟩ := feedWith_returned h
          rw [reacted_of_isSome (by rw [hs]; rfl)]
          exact ⟨congrArg _ hframes, hrest⟩

/-- Nothing is reported if nothing is without reactions: what is not reported is not reacted to. -/
theorem feedWith_nil_iff : ∀ {arrivals : List (ι × List β)} {buf : List β},
    (feedWith (reacting reader react start) buf arrivals).1 = []
      ↔ (feed reader buf (arrivals.map Prod.snd)).1 = []
  | [], _ => Iff.rfl
  | (i, arrival) :: arrivals, buf => by
      rw [feedWith, List.map_cons, feed]
      dsimp only [reacting]
      rw [List.append_eq_nil_iff]
      cases hnow : (reader (buf ++ arrival)).1 with
      | nil =>
          rw [List.foldlM_nil]
          show _ ++ _ = [] ↔ _
          rw [reacted, List.nil_append, feedWith_nil_iff, eq_self, true_and]
      | cons a as =>
          refine iff_of_false ?_ (by simp)
          rw [reacted]
          cases ((a :: as).foldlM (react i) (start i)) <;> simp

/-! ## When every frame comes out -/

/-- The reactions to the frames that each arrival completes come back; `n` bytes came before. -/
def Returns (react : ι → τ → α → Option τ) (start : ι → τ) (fs : List α) :
    Nat → List (ι × List β) → Prop
  | _, [] => True
  | n, (i, arrival) :: arrivals =>
      (((fs.take (F.completed fs (n + arrival.length))).drop (F.completed fs n)).foldlM (react i)
          (start i)).isSome
        ∧ Returns react start fs (n + arrival.length) arrivals

/-- A reader that takes at each arrival the frames that are whole by then, and nothing else. -/
def KeepsUp (reader : List β → List α × List β) : List α → List β → List (List β) → Prop
  | _, _, [] => True
  | todo, buf, arrival :: arrivals =>
      ∃ done todo' buf', F.Cut todo (buf ++ arrival) arrivals.flatten done todo' buf'
        ∧ reader (buf ++ arrival) = (done, buf') ∧ KeepsUp reader todo' buf' arrivals

theorem returns_append (done fs : List α) : ∀ (arrivals : List (ι × List β)) (n : Nat),
    F.Returns react start (done ++ fs) ((F.stream done).length + n) arrivals
      ↔ F.Returns react start fs n arrivals := by
  intro arrivals
  induction arrivals with
  | nil => intro n; exact Iff.rfl
  | cons arrival arrivals ih =>
      intro n
      rw [Returns, Returns, Nat.add_assoc, completed_append, completed_append, ih,
        List.take_length_add_append, List.drop_length_add_append]

theorem returns_nil : ∀ (arrivals : List (ι × List β)) (n : Nat),
    F.Returns react start [] n arrivals
  | [], _ => trivial
  | (_, _) :: arrivals, _ =>
      ⟨by rw [List.take_nil, List.drop_nil]; rfl, returns_nil arrivals _⟩

/-- The reactions to the whole frames at the front, and then those to the rest. -/
theorem returns_cons_iff {done fs : List α} {i : ι} {arrival : List β}
    {arrivals : List (ι × List β)} {n m : Nat} (hnone : F.completed (done ++ fs) n = 0)
    (hlen : n + arrival.length = (F.stream done).length + m) (hrest : F.completed fs m = 0) :
    F.Returns react start (done ++ fs) n ((i, arrival) :: arrivals)
      ↔ (done.foldlM (react i) (start i)).isSome ∧ F.Returns react start fs m arrivals := by
  rw [Returns, hnone, hlen, completed_append, hrest, returns_append, Nat.add_zero, List.drop_zero,
    List.take_left]

theorem completed_dropLast {fs : List α} {n : Nat} (h : F.completed fs n = 0) :
    F.completed fs.dropLast n = 0 := by
  cases fs with
  | nil => rfl
  | cons a fs =>
      cases fs with
      | nil => rfl
      | cons b fs =>
          have hlt : ¬ (F.enc a).length ≤ n := by
            intro hle
            rw [completed, if_pos hle] at h
            omega
          rw [List.dropLast_cons_of_ne_nil (by simp), completed, if_neg hlt]

/-- With nothing behind the whole frames, the last of them is one of these. -/
theorem returns_dropLast_nil {done : List α} {i : ι} {arrival : List β}
    {arrivals : List (ι × List β)} {n m : Nat} (hnone : F.completed done n = 0)
    (hlen : n + arrival.length = (F.stream done).length + m) :
    F.Returns react start done.dropLast n ((i, arrival) :: arrivals)
      ↔ (done.dropLast.foldlM (react i) (start i)).isSome := by
  obtain ⟨last, hlast⟩ := List.dropLast_prefix done
  have hnone' := F.completed_dropLast hnone
  have hlen' : n + arrival.length
      = (F.stream done.dropLast).length + ((F.stream last).length + m) := by
    rw [hlen, ← Nat.add_assoc, ← List.length_append, ← stream_append, hlast]
  rw [← List.append_nil done.dropLast] at hnone' ⊢
  rw [F.returns_cons_iff hnone' hlen' rfl, List.append_nil]
  exact and_iff_left (F.returns_nil arrivals _)

/-- With frames behind them it is one of those. -/
theorem returns_dropLast_cons {done fs : List α} {i : ι} {arrival : List β}
    {arrivals : List (ι × List β)} {n m : Nat} (hne : fs ≠ [])
    (hnone : F.completed (done ++ fs) n = 0)
    (hlen : n + arrival.length = (F.stream done).length + m) (hrest : F.completed fs m = 0) :
    F.Returns react start (done ++ fs).dropLast n ((i, arrival) :: arrivals)
      ↔ (done.foldlM (react i) (start i)).isSome
        ∧ F.Returns react start fs.dropLast m arrivals := by
  have hnone' := F.completed_dropLast hnone
  rw [List.dropLast_append_of_ne_nil hne] at hnone' ⊢
  exact F.returns_cons_iff hnone' hlen (F.completed_dropLast hrest)

/--
A reader that keeps up reports every frame if the reactions to all but the last
come back, and comes back itself if that to the last does, too.
-/
theorem feedWith_keepsUp : ∀ {arrivals : List (ι × List β)} {todo : List α} {buf : List β},
    buf ++ (arrivals.map Prod.snd).flatten = F.stream todo → F.completed todo buf.length = 0 →
    F.KeepsUp reader todo buf (arrivals.map Prod.snd) →
    ((feedWith (reacting reader react start) buf arrivals).1 = todo
        ↔ F.Returns react start todo.dropLast buf.length arrivals)
      ∧ ((feedWith (reacting reader react start) buf arrivals).2.isSome
        ↔ F.Returns react start todo buf.length arrivals) := by
  intro arrivals
  induction arrivals with
  | nil =>
      intro todo buf hbytes hnone _
      rw [List.map_nil, List.flatten_nil, List.append_nil] at hbytes
      rw [F.eq_nil_of_completed hbytes hnone]
      exact ⟨iff_of_true rfl trivial, iff_of_true rfl trivial⟩
  | cons arrival arrivals ih =>
      intro todo buf hbytes hnone hkeeps
      obtain ⟨i, arrival⟩ := arrival
      obtain ⟨done, todo', buf', hcut, hread, hlater⟩ := hkeeps
      have hlen : buf.length + arrival.length = (F.stream done).length + buf'.length := by
        rw [← List.length_append, hcut.bytes, List.length_append]
      obtain ⟨hframes, hback⟩ := ih hcut.ahead hcut.completed_eq hlater
      rw [hcut.frames] at hnone ⊢
      rw [feedWith, F.returns_cons_iff hnone hlen hcut.completed_eq]
      dsimp only [reacting]
      rw [hread]
      dsimp only
      by_cases hnil : todo' = []
      · -- the last frame is whole by now, if there is one
        rw [hnil, List.append_nil] at hnone ⊢
        rw [F.returns_dropLast_nil hnone hlen]
        rw [hnil] at hframes hback
        have hlast := hframes.mpr (F.returns_nil _ _)
        cases hs : done.foldlM (react i) (start i) with
        | none =>
            exact ⟨reacted_eq_iff, iff_of_false Bool.false_ne_true fun h => Bool.false_ne_true h.1⟩
        | some s' =>
            have hsome : (done.foldlM (react i) (start i)).isSome := by rw [hs]; rfl
            dsimp only [Option.map_some]
            rw [hlast, List.append_nil, hback]
            exact ⟨reacted_eq_iff, (and_iff_right rfl).symm⟩
      · -- with frames to come the reaction to the last of these counts
        rw [F.returns_dropLast_cons hnil hnone hlen hcut.completed_eq]
        cases hs : done.foldlM (react i) (start i) with
        | none =>
            refine ⟨iff_of_false (fun heq => hnil ?_) fun h => Bool.false_ne_true h.1,
              iff_of_false Bool.false_ne_true fun h => Bool.false_ne_true h.1⟩
            obtain ⟨more, hmore⟩ : reacted (react i) (start i) done <+: done :=
              reacted_prefix_self done (start i)
            dsimp only [Option.map_none] at heq
            rw [heq, List.append_assoc, List.append_right_eq_self] at hmore
            exact (List.append_eq_nil_iff.mp hmore).1
        | some s' =>
            dsimp only [Option.map_some]
            rw [reacted_of_isSome (by rw [hs]; rfl), List.append_cancel_left_eq, hframes, hback]
            exact ⟨(and_iff_right rfl).symm, (and_iff_right rfl).symm⟩

/-- A reader that reports a whole stream, or more, reports that and leaves nothing. -/
theorem feed_eq_of_prefix (h : F.Thrifty reader) {todo : List α} {buf : List β}
    {arrivals : List (List β)} (hbytes : buf ++ arrivals.flatten = F.stream todo)
    (hall : todo <+: (feed reader buf arrivals).1) : feed reader buf arrivals = (todo, []) := by
  obtain ⟨more, hmore⟩ := hall
  have hle := F.feed_thrifty h arrivals buf
  have hlen := congrArg List.length hbytes
  have hmany := F.length_le_stream more
  rw [← hmore, stream_append, List.length_append] at hle
  rw [List.length_append] at hlen
  have hnil : more = [] := List.eq_nil_of_length_eq_zero (by omega)
  have hrest : (feed reader buf arrivals).2 = [] := List.eq_nil_of_length_eq_zero (by omega)
  rw [hnil, List.append_nil] at hmore
  exact Prod.ext hmore.symm hrest

/-- With the whole stream reported, nothing is left. -/
theorem rest_eq_nil (h : F.Thrifty reader) {todo : List α} {buf rest : List β}
    {arrivals : List (ι × List β)}
    (hbytes : buf ++ (arrivals.map Prod.snd).flatten = F.stream todo)
    (heq : feedWith (reacting reader react start) buf arrivals = (todo, some rest)) :
    rest = [] := by
  obtain ⟨hframes, hleft⟩ := feedWith_returned (congrArg Prod.snd heq)
  rw [heq] at hframes
  rw [hleft, F.feed_eq_of_prefix h hbytes (hframes ▸ List.prefix_rfl)]

/--
When a reader reports a stream that without reactions it reports under a condition `P`,
under which it also keeps up.
-/
theorem feedWith_iff (h : F.Thrifty reader) {todo : List α} {buf : List β}
    {arrivals : List (ι × List β)} {P : Prop}
    (hbytes : buf ++ (arrivals.map Prod.snd).flatten = F.stream todo)
    (hnone : F.completed todo buf.length = 0)
    (hplain : (feed reader buf (arrivals.map Prod.snd)).1 = todo ↔ P)
    (hkeeps : P → F.KeepsUp reader todo buf (arrivals.map Prod.snd)) :
    ((feedWith (reacting reader react start) buf arrivals).1 = todo
        ↔ P ∧ F.Returns react start todo.dropLast buf.length arrivals)
      ∧ (feedWith (reacting reader react start) buf arrivals = (todo, some [])
        ↔ P ∧ F.Returns react start todo buf.length arrivals) := by
  have hP : (feedWith (reacting reader react start) buf arrivals).1 = todo → P := by
    intro hframes
    have hprefix : (feedWith (reacting reader react start) buf arrivals).1
        <+: (feed reader buf (arrivals.map Prod.snd)).1 := feedWith_prefix_feed arrivals buf
    rw [hframes] at hprefix
    exact hplain.mp (congrArg Prod.fst (F.feed_eq_of_prefix h hbytes hprefix))
  refine ⟨⟨fun hframes => ?_, fun hall => ?_⟩, fun heq => ?_, fun hall => ?_⟩
  · have hp := hP hframes
    exact ⟨hp, (F.feedWith_keepsUp hbytes hnone (hkeeps hp)).1.mp hframes⟩
  · exact (F.feedWith_keepsUp hbytes hnone (hkeeps hall.1)).1.mpr hall.2
  · have hp := hP (congrArg Prod.fst heq)
    exact ⟨hp, (F.feedWith_keepsUp hbytes hnone (hkeeps hp)).2.mp (by rw [heq]; rfl)⟩
  · have hback := (F.feedWith_keepsUp hbytes hnone (hkeeps hall.1)).2.mpr hall.2
    obtain ⟨rest, hrest⟩ := Option.isSome_iff_exists.mp hback
    have hframes := (feedWith_returned hrest).1
    rw [hplain.mpr hall.1] at hframes
    have heq : feedWith (reacting reader react start) buf arrivals = (todo, some rest) :=
      Prod.ext hframes hrest
    rw [F.rest_eq_nil h hbytes heq] at heq
    exact heq

/-- A loop keeps up as long as no head is lost. -/
theorem keepsUp_drainAll : ∀ {arrivals : List (List β)} {todo : List α} {buf : List β},
    buf ++ arrivals.flatten = F.stream todo → F.HeadsUncut todo buf.length arrivals →
    F.KeepsUp (drainAll F.poll) todo buf arrivals := by
  intro arrivals
  induction arrivals with
  | nil => intro todo buf _ _; trivial
  | cons arrival arrivals ih =>
      intro todo buf hbytes hheads
      rw [List.flatten_cons, ← List.append_assoc] at hbytes
      obtain ⟨done, todo', buf', hcut⟩ := F.exists_cut todo _ _ hbytes
      have hlen : buf.length + arrival.length = (F.stream done).length + buf'.length := by
        rw [← List.length_append, hcut.bytes, List.length_append]
      rw [HeadsUncut, hlen, hcut.frames, residual_append, hcut.residual_eq,
        headsUncut_append] at hheads
      refine ⟨done, todo', buf', hcut, ?_, ih hcut.ahead hheads.2⟩
      rw [hcut.bytes, F.drainAll_whole done hheads.1]

/-- A single pass keeps up if each arrival brings one frame, or none and part of a head. -/
theorem keepsUp_once : ∀ {arrivals : List (List β)} {todo : List α} {buf : List β},
    buf ++ arrivals.flatten = F.stream todo → F.completed todo buf.length = 0 →
    F.AtMostOneEach todo buf.length arrivals → F.OneOrUncut todo buf.length arrivals →
    F.KeepsUp (once F.poll) todo buf arrivals := by
  intro arrivals
  induction arrivals with
  | nil => intro todo buf _ _ _ _; trivial
  | cons arrival arrivals ih =>
      intro todo buf hbytes hnone hmost hone
      rw [List.flatten_cons, ← List.append_assoc] at hbytes
      obtain ⟨done, todo', buf', hcut⟩ := F.exists_cut todo _ _ hbytes
      have hlen : buf.length + arrival.length = (F.stream done).length + buf'.length := by
        rw [← List.length_append, hcut.bytes, List.length_append]
      rw [AtMostOneEach, hnone, hlen, hcut.frames, completed_append, hcut.completed_eq,
        atMostOneEach_append] at hmost
      rw [OneOrUncut, hnone, hlen, hcut.frames, completed_append, hcut.completed_eq,
        residual_append, hcut.residual_eq, oneOrUncut_append] at hone
      refine ⟨done, todo', buf', hcut, ?_, ih hcut.ahead hcut.completed_eq hmost.2 hone.2⟩
      rw [hcut.bytes]
      cases done with
      | nil => exact F.once_whole none (by simpa using hone.1)
      | cons a more =>
          have hnil : more = [] := by simpa using hmost.1
          rw [hnil, stream, List.flatMap_cons, List.flatMap_nil, List.append_nil, once,
            F.poll_whole]
          rfl

/--
**A draining reader with reactions reports all frames exactly when no arrival ends
inside a frame behind its head and the reactions to all frames but the last come
back**, and comes back from every call, with nothing left, if that to the last does.
-/
theorem feedWith_drainAll_iff {todo : List α} {buf : List β} {arrivals : List (ι × List β)}
    (hbytes : buf ++ (arrivals.map Prod.snd).flatten = F.stream todo)
    (hnone : F.completed todo buf.length = 0) :
    ((feedWith (reacting (drainAll F.poll) react start) buf arrivals).1 = todo
        ↔ F.HeadsUncut todo buf.length (arrivals.map Prod.snd)
          ∧ F.Returns react start todo.dropLast buf.length arrivals)
      ∧ (feedWith (reacting (drainAll F.poll) react start) buf arrivals = (todo, some [])
        ↔ F.HeadsUncut todo buf.length (arrivals.map Prod.snd)
          ∧ F.Returns react start todo buf.length arrivals) :=
  F.feedWith_iff F.drainAll_thrifty hbytes hnone (F.feed_drainAll_iff _ todo buf hbytes hnone)
    (F.keepsUp_drainAll hbytes)

/-- **The same for a single pass**, to which each arrival brings at most one frame. -/
theorem feedWith_once_iff {todo : List α} {buf : List β} {arrivals : List (ι × List β)}
    (hbytes : buf ++ (arrivals.map Prod.snd).flatten = F.stream todo)
    (hnone : F.completed todo buf.length = 0)
    (hmost : F.AtMostOneEach todo buf.length (arrivals.map Prod.snd)) :
    ((feedWith (reacting (once F.poll) react start) buf arrivals).1 = todo
        ↔ F.OneOrUncut todo buf.length (arrivals.map Prod.snd)
          ∧ F.Returns react start todo.dropLast buf.length arrivals)
      ∧ (feedWith (reacting (once F.poll) react start) buf arrivals = (todo, some [])
        ↔ F.OneOrUncut todo buf.length (arrivals.map Prod.snd)
          ∧ F.Returns react start todo buf.length arrivals) :=
  F.feedWith_iff F.once_thrifty hbytes hnone (F.feed_once_iff _ todo buf hbytes hnone hmost)
    (F.keepsUp_once hbytes hnone hmost)

/-! ## Arrivals of whole frames -/

/-- Groups of frames, each an arrival. -/
def arrivalsOf (groups : List (ι × List α)) : List (ι × List β) :=
  groups.map fun g => (g.1, F.stream g.2)

theorem map_snd_arrivalsOf (groups : List (ι × List α)) :
    (F.arrivalsOf groups).map Prod.snd = (groups.map Prod.snd).map F.stream := by
  rw [arrivalsOf, List.map_map, List.map_map]
  rfl

theorem flatten_map_stream : ∀ groups : List (List α),
    (groups.map F.stream).flatten = F.stream groups.flatten
  | [] => rfl
  | g :: groups => by
      rw [List.map_cons, List.flatten_cons, List.flatten_cons, stream_append,
        flatten_map_stream groups]

theorem flatten_arrivalsOf (groups : List (ι × List α)) :
    ((F.arrivalsOf groups).map Prod.snd).flatten = F.stream (groups.flatMap Prod.snd) := by
  rw [map_snd_arrivalsOf, flatten_map_stream, List.flatMap_def]

/-- Whatever arrives behind them, the reactions to groups are those to each, where it arrives. -/
theorem returns_arrivalsOf : ∀ (groups : List (ι × List α)) (more : List (ι × List β)),
    F.Returns react start (groups.flatMap Prod.snd) 0 (F.arrivalsOf groups ++ more)
      ↔ ∀ g ∈ groups, (g.2.foldlM (react g.1) (start g.1)).isSome
  | [], more => iff_of_true (F.returns_nil more 0) fun _ hg => absurd hg List.not_mem_nil
  | g :: groups, more => by
      rw [List.flatMap_cons, List.forall_mem_cons, ← returns_arrivalsOf groups more]
      exact F.returns_cons_iff (F.completed_zero _) (Nat.zero_add _) (F.completed_zero _)

/-- Of single frames the last is the last group. -/
theorem returns_dropLast_arrivalsOf {groups : List (ι × List α)}
    (hone : ∀ g ∈ groups, g.2.length = 1) :
    F.Returns react start (groups.flatMap Prod.snd).dropLast 0 (F.arrivalsOf groups)
      ↔ ∀ g ∈ groups.dropLast, (g.2.foldlM (react g.1) (start g.1)).isSome := by
  rcases List.eq_nil_or_concat groups with rfl | ⟨before, last, rfl⟩
  · exact iff_of_true trivial fun _ hg => absurd hg List.not_mem_nil
  · obtain ⟨a, ha⟩ := List.length_eq_one_iff.mp (hone last (by simp))
    rw [List.concat_eq_append, List.flatMap_append, List.flatMap_singleton, ha,
      List.dropLast_concat, List.dropLast_concat, arrivalsOf, List.map_append,
      ← F.returns_arrivalsOf before]
    rfl

theorem keepsUp_single : ∀ {groups : List (List α)}, (∀ g ∈ groups, g.length = 1) →
    F.KeepsUp (once F.poll) groups.flatten [] (groups.map F.stream)
  | [], _ => trivial
  | g :: groups, hone => by
      obtain ⟨hsingle, hlater⟩ := List.forall_mem_cons.mp hone
      obtain ⟨a, rfl⟩ := List.length_eq_one_iff.mp hsingle
      have hhead := F.head_pos
      refine ⟨[a], groups.flatten, [], ⟨rfl, ?_, ?_, ?_, fun _ => rfl⟩, ?_, keepsUp_single hlater⟩
      · rw [List.nil_append, List.append_nil]
      · rw [List.nil_append]
        exact F.flatten_map_stream groups
      · intro b bs _
        exact Nat.lt_of_lt_of_le hhead (F.head_le b)
      · rw [List.nil_append, ← List.append_nil (F.stream [a])]
        exact F.once_whole (some a) hhead

/--
**On arrivals of whole frames a single-pass reader with reactions reports them all
exactly when each arrival is one frame and the reactions to all but the last come
back.**
-/
theorem feedWith_single_iff (react : ι → τ → α → Option τ) (start : ι → τ)
    {groups : List (ι × List α)} (hne : ∀ g ∈ groups, g.2 ≠ []) :
    ((feedWith (reacting (once F.poll) react start) [] (F.arrivalsOf groups)).1
          = groups.flatMap Prod.snd
        ↔ (∀ g ∈ groups, g.2.length = 1)
          ∧ ∀ g ∈ groups.dropLast, (g.2.foldlM (react g.1) (start g.1)).isSome)
      ∧ (feedWith (reacting (once F.poll) react start) [] (F.arrivalsOf groups)
          = (groups.flatMap Prod.snd, some [])
        ↔ (∀ g ∈ groups, g.2.length = 1)
          ∧ ∀ g ∈ groups, (g.2.foldlM (react g.1) (start g.1)).isSome) := by
  have hplain : (feed (once F.poll) [] ((F.arrivalsOf groups).map Prod.snd)).1
      = groups.flatMap Prod.snd ↔ ∀ g ∈ groups, g.2.length = 1 := by
    rw [map_snd_arrivalsOf, List.flatMap_def,
      F.feed_once_groups_iff (List.forall_mem_map.mpr hne), List.forall_mem_map]
  have hkeeps : (∀ g ∈ groups, g.2.length = 1) → F.KeepsUp (once F.poll)
      (groups.flatMap Prod.snd) [] ((F.arrivalsOf groups).map Prod.snd) := by
    intro hone
    rw [map_snd_arrivalsOf, List.flatMap_def]
    exact F.keepsUp_single (List.forall_mem_map.mpr hone)
  obtain ⟨hframes, hall⟩ :
      ((feedWith (reacting (once F.poll) react start) [] (F.arrivalsOf groups)).1 = _ ↔ _) ∧ _ :=
    F.feedWith_iff F.once_thrifty (F.flatten_arrivalsOf groups) (F.completed_zero _) hplain hkeeps
  refine ⟨hframes.trans (and_congr_right F.returns_dropLast_arrivalsOf),
    hall.trans (and_congr_right fun _ => ?_)⟩
  rw [← F.returns_arrivalsOf groups [], List.append_nil]
  rfl

end Framing

end Lib
