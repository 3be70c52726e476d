import Mathlib.Algebra.Order.BigOperators.Group.Finset
import SockEtOut.Proof.Cascade

/-!
# The sweep of a deleted user's messages

`removeUser` walks a channel's history with a range fixed beforehand and erases
from the very vector it walks. An erase shortens the vector while the range stays,
so whatever comes after it is read one place too far, and the last place of the
range is no longer in the vector. Only an erase with nothing after it is harmless:
the sweep does what it is for exactly when, in each channel, no message but the
last is the user's.

Then at most one message goes from each channel. A member is told of it as often
as the channel lists that member, so being told once is a second condition.
-/

namespace SockEtOut.Proof

open Lib

variable {db : Database} {u : UUID}

instance (db : Database) (u : UUID) (s : UInt64) : Decidable (NotSentBy db u s) :=
  inferInstanceAs (Decidable (∀ m ∈ db.messages.lookup s, m.senderId ≠ u))

/-! ## What the loop reads -/

/-- What one turn of the inner loop leaves of the history. -/
def sweepStep (db : Database) (u : UUID) (i : Nat) (history : Vec UInt64) : Vec UInt64 :=
  match history.cells[i]?.bind db.messages.lookup with
  | none => history
  | some message =>
      if message.senderId = u then history.eraseIf (Vec.refEq i) else history

/-- The inner loop, from cell `i` on for `n` turns, reads only inside the vector. -/
def ReadsInside (db : Database) (u : UUID) : (n i : Nat) → Vec UInt64 → Prop
  | 0, _, _ => True
  | n + 1, i, history =>
      i < history.size ∧ ReadsInside db u n (i + 1) (sweepStep db u i history)

/-- So does the loop over a channel's history. -/
def ChannelInside (db : Database) (u c : UUID) : Prop :=
  ∀ ch, db.channels.lookup c = some ch →
    ReadsInside db u ch.messageSnowflakes.length 0 (.ofList ch.messageSnowflakes)

/-- So do the loops over the histories of a list of channels, one after the other. -/
def ChannelsInside (db : Database) (u : UUID) : List UUID → Prop
  | [] => True
  | c :: cs => ChannelInside db u c ∧ ChannelsInside (db.leaveChannel u c).1 u cs

/-- The loop goes from turn to turn by `sweepStep`. -/
theorem sweepHistory_succ (members : List UUID) (n i : Nat) (history : Vec UInt64) :
    (db.sweepHistory u members (n + 1) i history).1
      = (db.sweepHistory u members n (i + 1) (sweepStep db u i history)).1 := by
  rw [Database.sweepHistory, sweepStep]
  cases history.cells[i]?.bind db.messages.lookup with
  | none => rfl
  | some m =>
      dsimp only
      split <;> rfl

theorem sweepStep_quiet {i : Nat} {history : Vec UInt64}
    (h : ∀ s, history.cells[i]? = some s → NotSentBy db u s) :
    sweepStep db u i history = history := by
  rw [sweepStep]
  split
  · rfl
  · rename_i m hm
    obtain ⟨s, hs, hsm⟩ := Option.bind_eq_some_iff.mp hm
    rw [if_neg (h s hs m hsm)]

theorem sweepStep_sent {i : Nat} {history : Vec UInt64} {s : UInt64}
    (hs : history.cells[i]? = some s) (h : ¬ NotSentBy db u s) :
    sweepStep db u i history = history.eraseIf (Vec.refEq i) := by
  rw [NotSentBy, Classical.not_forall] at h
  obtain ⟨m, hm⟩ := h
  rw [Classical.not_imp, Classical.not_not] at hm
  rw [sweepStep, hs, Option.bind_some, hm.1]
  dsimp only
  rw [if_pos hm.2]

theorem sweepStep_size_le (i : Nat) (history : Vec UInt64) :
    (sweepStep db u i history).size ≤ history.size := by
  rw [sweepStep]
  split
  · exact Nat.le_refl _
  · split
    · exact Vec.size_eraseIf_le _ _
    · exact Nat.le_refl _

/-- The last turn reads furthest, and the vector never grows. -/
theorem le_size_of_readsInside : ∀ {n i : Nat} {history : Vec UInt64}, 0 < n →
    ReadsInside db u n i history → i + n ≤ history.size := by
  intro n
  induction n with
  | zero => intro i history h _; omega
  | succ n ih =>
      intro i history _ h
      obtain ⟨hi, hrest⟩ := h
      rcases Nat.eq_zero_or_pos n with hn | hn
      · omega
      · have hle := ih hn hrest
        have hsize : (sweepStep db u i history).size ≤ history.size := sweepStep_size_le i history
        omega

/-- Nothing but possibly the last of a list of messages is `u`'s. -/
def QuietButLast (db : Database) (u : UUID) (ss : List UInt64) : Prop :=
  ∀ s ∈ ss.dropLast, NotSentBy db u s

theorem quietButLast_cons {s : UInt64} {ss : List UInt64} (h : ss ≠ []) :
    QuietButLast db u (s :: ss) ↔ NotSentBy db u s ∧ QuietButLast db u ss := by
  rw [QuietButLast, List.dropLast_cons_of_ne_nil h, List.forall_mem_cons]
  rfl

/-- **The loop stays inside exactly when only its last turn can erase.** -/
theorem readsInside_iff : ∀ (n i : Nat) (history : Vec UInt64), history.size = i + n →
    (ReadsInside db u n i history ↔ QuietButLast db u (history.toList.drop i)) := by
  intro n
  induction n with
  | zero =>
      intro i history hsize
      have hnil : history.toList.drop i = [] := by
        rw [List.drop_eq_nil_iff, Vec.toList, List.length_take]
        omega
      rw [hnil]
      exact iff_of_true trivial fun s hs => absurd hs List.not_mem_nil
  | succ n ih =>
      intro i history hsize
      have hcells : i < history.cells.length := by have := history.size_le; omega
      have hlen : history.toList.length = i + (n + 1) := by
        rw [Vec.toList, List.length_take]
        have := history.size_le
        omega
      have hi : i < history.toList.length := by omega
      have hget : history.cells[i]? = some history.toList[i] := by
        rw [← List.getElem?_eq_getElem, Vec.toList, List.getElem?_take_of_lt (by omega)]
      rw [ReadsInside, List.drop_eq_getElem_cons (by omega)]
      rcases Nat.eq_zero_or_pos n with hn | hn
      · -- the last turn
        subst hn
        have hnil : history.toList.drop (i + 1) = [] := by
          rw [List.drop_eq_nil_iff]
          omega
        rw [hnil]
        exact iff_of_true ⟨by omega, trivial⟩ fun s hs => absurd hs List.not_mem_nil
      · have hne : history.toList.drop (i + 1) ≠ [] := by
          rw [Ne, List.drop_eq_nil_iff]
          omega
        rw [quietButLast_cons hne, and_iff_right (by omega : i < history.size)]
        by_cases hsent : NotSentBy db u history.toList[i]
        · rw [and_iff_right hsent, sweepStep_quiet, ih (i + 1) history (by omega)]
          intro s hs
          rw [hget] at hs
          exact Option.some.inj hs ▸ hsent
        · -- the vector is now too short for the turns that are left
          refine iff_of_false (fun hinside => ?_) fun hboth => hsent hboth.1
          rw [sweepStep_sent hget hsent] at hinside
          have hle := le_size_of_readsInside hn hinside
          have hlt := Vec.size_eraseIf_refEq_lt (v := history) (i := i) (by omega)
          omega

theorem channelInside_iff {c : UUID} :
    ChannelInside db u c
      ↔ ∀ ch, db.channels.lookup c = some ch → QuietButLast db u ch.messageSnowflakes := by
  refine forall_congr' fun ch => imp_congr_right fun _ => ?_
  rw [readsInside_iff _ _ _ (by simp [Vec.ofList]), Vec.toList_ofList, List.drop_zero]

/-! ## What the loop does when only its last turn can erase -/

theorem sweepHistory_quiet {members : List UUID} (history : Vec UInt64) :
    ∀ (n n' i : Nat), (∀ j, i ≤ j → j < i + n → ∀ s, history.cells[j]? = some s →
      NotSentBy db u s) →
    db.sweepHistory u members (n + n') i history
      = db.sweepHistory u members n' (i + n) history := by
  intro n
  induction n with
  | zero => intro n' i _; rw [Nat.zero_add, Nat.add_zero]
  | succ n ih =>
      intro n' i h
      have hrest := ih n' (i + 1) fun j hj hjn => h j (by omega) (by omega)
      rw [Nat.add_assoc, Nat.add_comm 1 n] at hrest
      rw [Nat.succ_add, Database.sweepHistory, hrest]
      split
      · rfl
      · rename_i m hm
        obtain ⟨s, hs, hsm⟩ := Option.bind_eq_some_iff.mp hm
        rw [if_neg (h i (Nat.le_refl i) (by omega) s hs m hsm)]

/-- The last message of a channel, if it is `u`'s. -/
def lastOf (db : Database) (u : UUID) (ch : Channel) : Option Message :=
  (ch.messageSnowflakes.getLast?.bind db.messages.lookup).filter (·.senderId = u)

/-- The snowflakes of a list whose messages `u` did not send. -/
def withoutSent (db : Database) (u : UUID) (ss : List UInt64) : List UInt64 :=
  ss.filter fun s => decide (NotSentBy db u s)

/-- Who hears of the last message of a channel that `u` leaves. -/
def farewell (db : Database) (u : UUID) (ch : Channel) : List Signal :=
  match lastOf db u ch with
  | none => []
  | some m => db.notify (ch.removeUser u).userUids (.messageDeleted · m)

theorem withoutSent_quiet {ss : List UInt64} (h : ∀ s ∈ ss, NotSentBy db u s) :
    withoutSent db u ss = ss :=
  List.filter_eq_self.mpr fun s hs => decide_eq_true (h s hs)

/-- The turns before the last do nothing. -/
theorem sweepHistory_concat {members : List UUID} {qs : List UInt64} {s : UInt64}
    (h : ∀ t ∈ qs, NotSentBy db u t) :
    db.sweepHistory u members (qs ++ [s]).length 0 (.ofList (qs ++ [s]))
      = db.sweepHistory u members 1 qs.length (.ofList (qs ++ [s])) := by
  rw [List.length_append, List.length_singleton, sweepHistory_quiet, Nat.zero_add]
  intro j _ hj t ht
  refine h t (List.mem_of_getElem? (i := j) ?_)
  rw [← ht]
  exact (List.getElem?_append_left (by omega)).symm

theorem sweepHistory_quietButLast (members : List UUID) {ss : List UInt64}
    (h : QuietButLast db u ss) :
    (db.sweepHistory u members ss.length 0 (.ofList ss)).1.toList = withoutSent db u ss
      ∧ (db.sweepHistory u members ss.length 0 (.ofList ss)).2
        = match (ss.getLast?.bind db.messages.lookup).filter (·.senderId = u) with
          | none => []
          | some m => db.notify members (.messageDeleted · m) := by
  rcases List.eq_nil_or_concat ss with rfl | ⟨qs, s, rfl⟩
  · exact ⟨rfl, rfl⟩
  · rw [List.concat_eq_append] at h ⊢
    rw [QuietButLast, List.dropLast_concat] at h
    have hcell : (Vec.ofList (qs ++ [s])).cells[qs.length]? = some s :=
      List.getElem?_concat_length
    rw [sweepHistory_concat h, List.getLast?_concat, Option.bind_some, Database.sweepHistory, hcell,
      Option.bind_some, withoutSent, List.filter_append, ← withoutSent, withoutSent_quiet h,
      List.filter_singleton]
    -- the one turn that is left
    cases hm : db.messages.lookup s with
    | none =>
        have hkept : NotSentBy db u s := fun m hm' => absurd (hm.symm.trans hm') (by simp)
        rw [decide_eq_true hkept]
        exact ⟨by rw [Database.sweepHistory, Vec.toList_ofList]; rfl, rfl⟩
    | some m =>
        dsimp only
        by_cases hsender : m.senderId = u
        · have hgone : ¬ NotSentBy db u s := fun hns => hns m hm hsender
          have hne : ∀ t ∈ qs, t ≠ s := by
            rintro t ht rfl
            exact hgone (h t ht)
          rw [if_pos hsender, Option.filter_some_pos (by simpa using hsender),
            decide_eq_false hgone]
          refine ⟨?_, by rw [Database.sweepHistory, List.append_nil]⟩
          rw [Database.sweepHistory, Vec.eraseIf_refEq_last (by simp [Vec.ofList]) hcell,
            Vec.toList_ofList, List.filter_append,
            List.filter_eq_self.mpr fun t ht => by simpa using hne t ht]
          simp
        · have hkept : NotSentBy db u s := by
            intro m' hm'
            exact Option.some.inj (hm.symm.trans hm') ▸ hsender
          rw [if_neg hsender, Option.filter_some_neg (by simpa using hsender),
            decide_eq_true hkept]
          exact ⟨by rw [Database.sweepHistory, Vec.toList_ofList]; rfl, rfl⟩

/-- A channel as the sweep should leave it. -/
def swept (db : Database) (u : UUID) (ch : Channel) : Channel :=
  { ch.removeUser u with messageSnowflakes := withoutSent db u ch.messageSnowflakes }

/-- Leaving a channel in which only the last message can be `u`'s. -/
theorem leaveChannel_quietButLast {c : UUID} {ch : Channel} (hc : db.channels.lookup c = some ch)
    (h : QuietButLast db u ch.messageSnowflakes) :
    db.leaveChannel u c
      = ({ db with channels := db.channels.assign c (swept db u ch) }, farewell db u ch) := by
  obtain ⟨hlist, hemitted⟩ := sweepHistory_quietButLast (ch.removeUser u).userUids h
  rw [Database.leaveChannel, hc]
  dsimp only [Channel.removeUser_messageSnowflakes]
  rw [hlist, hemitted, swept, farewell, lastOf]

/-- A channel that has been swept is quiet. -/
theorem swept_quiet {ch : Channel} : ∀ s ∈ (swept db u ch).messageSnowflakes, NotSentBy db u s := by
  intro s hs
  exact of_decide_eq_true (List.mem_filter.mp hs).2

theorem quietButLast_of_quiet {ss : List UInt64} (h : ∀ s ∈ ss, NotSentBy db u s) :
    QuietButLast db u ss := fun s hs => h s (List.mem_of_mem_dropLast hs)

theorem farewell_swept (ch : Channel) : farewell db u (swept db u ch) = [] := by
  have hnone : lastOf db u (swept db u ch) = none := by
    rw [lastOf, Option.filter_eq_none_iff]
    intro m hm
    obtain ⟨s, hs, hsm⟩ := Option.bind_eq_some_iff.mp hm
    simpa using swept_quiet s (List.mem_of_getLast? hs) m hsm
  rw [farewell, hnone]

theorem swept_swept (ch : Channel) : swept db u (swept db u ch) = swept db u ch := by
  have huids : (swept db u (swept db u ch)).userUids = (swept db u ch).userUids := by
    show ((swept db u ch).removeUser u).userUids = (ch.removeUser u).userUids
    rw [Channel.removeUser_userUids]
    show (ch.removeUser u).userUids.filter _ = _
    rw [Channel.removeUser_userUids, List.filter_filter]
    simp
  have hlist : (swept db u (swept db u ch)).messageSnowflakes
      = (swept db u ch).messageSnowflakes := withoutSent_quiet swept_quiet
  rw [swept, Channel.mk.injEq]
  exact ⟨rfl, rfl, huids, hlist⟩

/-! ## The loop over channels -/

/-- In none of the channels is a message but the last `u`'s. -/
def LastOnly (db : Database) (u : UUID) (cs : List UUID) : Prop :=
  ∀ c ∈ cs, ∀ ch, db.channels.lookup c = some ch → QuietButLast db u ch.messageSnowflakes

theorem lastOnly_cons {c : UUID} {cs : List UUID} :
    LastOnly db u (c :: cs)
      ↔ (∀ ch, db.channels.lookup c = some ch → QuietButLast db u ch.messageSnowflakes)
        ∧ LastOnly db u cs := List.forall_mem_cons

/-- Having left one channel, or found it missing, the others are as they were. -/
theorem leaveChannel_lookup {c : UUID}
    (h : ∀ ch, db.channels.lookup c = some ch → QuietButLast db u ch.messageSnowflakes) (d : UUID) :
    (db.leaveChannel u c).1.channels.lookup d
      = if d = c then (db.channels.lookup d).map (swept db u) else db.channels.lookup d := by
  by_cases hd : d = c
  · subst hd
    rw [if_pos rfl]
    cases hch : db.channels.lookup d with
    | none => rw [leaveChannel_none hch, hch, Option.map_none]
    | some ch =>
        rw [leaveChannel_quietButLast hch (h ch hch)]
        dsimp only
        rw [Table.lookup_assign, if_pos rfl, Option.map_some]
  · rw [if_neg hd, leaveChannel_other hd]

/-- What is left of a channel depends on the message table, which no channel's turn changes. -/
theorem swept_leaveChannel (c : UUID) (ch : Channel) :
    swept (db.leaveChannel u c).1 u ch = swept db u ch := by
  rw [leaveChannel_frame]
  rfl

theorem lastOnly_tail {c : UUID} {cs : List UUID}
    (h : ∀ ch, db.channels.lookup c = some ch → QuietButLast db u ch.messageSnowflakes) :
    LastOnly (db.leaveChannel u c).1 u cs ↔ LastOnly db u cs := by
  refine forall_congr' fun d => imp_congr_right fun _ => ?_
  rw [leaveChannel_lookup h, leaveChannel_frame]
  by_cases hd : d = c
  · subst hd
    rw [if_pos rfl]
    refine iff_of_true (fun ch hch => ?_) h
    obtain ⟨old, -, rfl⟩ := Option.map_eq_some_iff.mp hch
    exact quietButLast_of_quiet swept_quiet
  · rw [if_neg hd]
    exact Iff.rfl

theorem channelsInside_iff : ∀ {cs : List UUID} {db : Database},
    ChannelsInside db u cs ↔ LastOnly db u cs := by
  intro cs
  induction cs with
  | nil => intro db; exact iff_of_true trivial fun c hc => absurd hc List.not_mem_nil
  | cons c cs ih =>
      intro db
      rw [ChannelsInside, ih, channelInside_iff, lastOnly_cons]
      exact and_congr_right lastOnly_tail

theorem leaveChannels_swept : ∀ {cs : List UUID} {db : Database} {c : UUID} {ch : Channel},
    LastOnly db u cs → c ∈ cs → db.channels.lookup c = some ch →
    (db.leaveChannels u cs).1.channels.lookup c = some (swept db u ch) := by
  intro cs
  induction cs with
  | nil => intro db c ch _ hc; exact absurd hc List.not_mem_nil
  | cons d cs ih =>
      intro db c ch h hc hch
      obtain ⟨hd, hcs⟩ := lastOnly_cons.mp h
      have hrest := (lastOnly_tail hd).mpr hcs
      have hnow := leaveChannel_lookup hd c
      rw [Database.leaveChannels]
      dsimp only
      by_cases hcd : c = d
      · rw [if_pos hcd, hch, Option.map_some] at hnow
        by_cases hin : c ∈ cs
        · rw [ih hrest hin hnow, swept_leaveChannel, swept_swept]
        · rw [leaveChannels_other hin, hnow]
      · rw [if_neg hcd, hch] at hnow
        rw [ih hrest ((List.mem_cons.mp hc).resolve_left hcd) hnow, swept_leaveChannel]

/-- How often the channel `c` has a signal emitted. -/
def tells (db : Database) (u : UUID) (sig : Signal) (c : UUID) : Nat :=
  match db.channels.lookup c with
  | none => 0
  | some ch => (farewell db u ch).count sig

theorem count_leaveChannel {c : UUID} {sig : Signal}
    (h : ∀ ch, db.channels.lookup c = some ch → QuietButLast db u ch.messageSnowflakes) :
    (db.leaveChannel u c).2.count sig = tells db u sig c := by
  rw [tells]
  cases hch : db.channels.lookup c with
  | none => rw [Database.leaveChannel, hch, List.count_nil]
  | some ch => rw [leaveChannel_quietButLast hch (h ch hch)]

/-- A channel that has been left has nothing more to tell. -/
theorem tells_leaveChannel {c d : UUID} {sig : Signal}
    (h : ∀ ch, db.channels.lookup c = some ch → QuietButLast db u ch.messageSnowflakes) :
    tells (db.leaveChannel u c).1 u sig d = if d = c then 0 else tells db u sig d := by
  rw [tells, leaveChannel_lookup h, leaveChannel_frame]
  by_cases hd : d = c
  · rw [if_pos hd, if_pos hd]
    cases db.channels.lookup d with
    | none => rfl
    | some ch =>
        show (farewell db u (swept db u ch)).count sig = 0
        rw [farewell_swept, List.count_nil]
  · rw [if_neg hd, if_neg hd]
    rfl

/-- Each channel of the list tells once, however often it is listed. -/
theorem count_leaveChannels {sig : Signal} : ∀ {cs : List UUID} {db : Database},
    LastOnly db u cs →
    (db.leaveChannels u cs).2.count sig = ∑ c ∈ cs.toFinset, tells db u sig c := by
  intro cs
  induction cs with
  | nil => intro db _; rfl
  | cons c cs ih =>
      intro db h
      obtain ⟨hc, hcs⟩ := lastOnly_cons.mp h
      rw [Database.leaveChannels]
      dsimp only
      rw [List.count_append, count_leaveChannel hc, ih ((lastOnly_tail hc).mpr hcs),
        List.toFinset_cons, ← Finset.add_sum_erase _ _ (Finset.mem_insert_self c _),
        Finset.erase_insert_eq_erase, Nat.add_right_inj]
      calc ∑ d ∈ cs.toFinset, tells (db.leaveChannel u c).1 u sig d
          = ∑ d ∈ cs.toFinset.erase c, tells (db.leaveChannel u c).1 u sig d := by
            refine (Finset.sum_erase _ ?_).symm
            rw [tells_leaveChannel hc, if_pos rfl]
        _ = ∑ d ∈ cs.toFinset.erase c, tells db u sig d := by
            refine Finset.sum_congr rfl fun d hd => ?_
            rw [tells_leaveChannel hc, if_neg (Finset.ne_of_mem_erase hd)]

/-! ## Who is told -/

theorem count_notify_deleted {members : List UUID} {m : Message} {v : UUID}
    (hv : (db.users.lookup v).isSome) :
    (db.notify members (.messageDeleted · m)).count (.messageDeleted v m) = members.count v := by
  have hinj : Function.Injective fun w => Signal.messageDeleted w m := by
    intro w w' hw
    cases hw
    rfl
  rw [Database.notify, List.count_map_of_injective _ _ hinj]
  exact List.count_filter (by simpa using hv)

theorem count_farewell {ch : Channel} {m : Message} {v : UUID} (hne : v ≠ u)
    (hv : (db.users.lookup v).isSome) :
    (farewell db u ch).count (.messageDeleted v m)
      = if lastOf db u ch = some m then ch.userUids.count v else 0 := by
  rw [farewell]
  split
  · rename_i hlast
    rw [hlast, if_neg (by simp), List.count_nil]
  · rename_i m' hlast
    rw [hlast]
    by_cases hm : m' = m
    · rw [if_pos (congrArg some hm), hm, count_notify_deleted hv, Channel.removeUser_userUids]
      exact List.count_filter (by simpa using hne)
    · rw [if_neg (by simpa using hm), List.count_eq_zero]
      intro hin
      obtain ⟨w, -, -, hw⟩ := mem_notify hin
      cases hw
      exact hm rfl

theorem lastOf_eq_some {ch : Channel} {m : Message} (h : lastOf db u ch = some m) :
    ∃ s ∈ ch.messageSnowflakes, db.messages.lookup s = some m ∧ m.senderId = u := by
  rw [lastOf, Option.filter_eq_some_iff] at h
  obtain ⟨s, hs, hm⟩ := Option.bind_eq_some_iff.mp h.1
  exact ⟨s, List.mem_of_getLast? hs, hm, of_decide_eq_true h.2⟩

/-- Where only the last message can be `u`'s, one that is `u`'s is the last. -/
theorem lastOf_of_mem {ch : Channel} (h : QuietButLast db u ch.messageSnowflakes) {s : UInt64}
    {m : Message} (hs : s ∈ ch.messageSnowflakes) (hm : db.messages.lookup s = some m)
    (hsender : m.senderId = u) : lastOf db u ch = some m := by
  rcases List.eq_nil_or_concat ch.messageSnowflakes with hnil | ⟨qs, t, hlast⟩
  · rw [hnil] at hs
    exact absurd hs List.not_mem_nil
  · rw [List.concat_eq_append] at hlast
    rw [hlast, QuietButLast, List.dropLast_concat] at h
    rw [hlast, List.mem_append, List.mem_singleton] at hs
    rcases hs with hs | rfl
    · exact absurd hsender (h s hs m hm)
    · rw [lastOf, hlast, List.getLast?_concat, Option.bind_some, hm,
        Option.filter_some_pos (by simpa using hsender)]

/-! ## The whole sweep -/

/-- The sweep does what it is for, in the channels on the user's list. -/
structure Sweeps (db : Database) (u : UUID) (user : User) : Prop where
  /-- A history is read only inside the vector as it stands at the time. -/
  inside : ChannelsInside db u user.channels
  /-- The user's messages are gone from every history, and nothing else is. -/
  lists : ∀ c ∈ user.channels, ∀ ch, db.channels.lookup c = some ch →
    ∃ ch', (db.removeUser u).db.channels.lookup c = some ch'
      ∧ ch'.messageSnowflakes = withoutSent db u ch.messageSnowflakes
  /-- Every other registered member hears of each of them once. -/
  told : ∀ c ∈ user.channels, ∀ ch, db.channels.lookup c = some ch →
    ∀ s ∈ ch.messageSnowflakes, ∀ m, db.messages.lookup s = some m → m.senderId = u →
      ∀ v ∈ ch.userUids, v ≠ u → (db.users.lookup v).isSome →
        (db.removeUser u).emitted.count (.messageDeleted v m) = 1

/--
The last message of each channel, if it is `u`'s, has one listing for each other
registered member: one in its own channel, and none in another that ends with it.
-/
def ListedOnce (db : Database) (u : UUID) (cs : List UUID) : Prop :=
  ∀ c ∈ cs, ∀ ch, db.channels.lookup c = some ch → ∀ m, lastOf db u ch = some m →
    ∀ v ∈ ch.userUids, v ≠ u → (db.users.lookup v).isSome →
      ch.userUids.count v = 1
        ∧ ∀ d ∈ cs, d ≠ c → ∀ ch', db.channels.lookup d = some ch' →
          lastOf db u ch' = some m → v ∉ ch'.userUids

theorem tells_eq_zero_iff {d v : UUID} {m : Message} (hne : v ≠ u)
    (hv : (db.users.lookup v).isSome) :
    tells db u (.messageDeleted v m) d = 0
      ↔ ∀ ch', db.channels.lookup d = some ch' → lastOf db u ch' = some m →
          v ∉ ch'.userUids := by
  rw [tells]
  cases hd : db.channels.lookup d with
  | none => exact iff_of_true rfl fun ch' hch' => absurd hch' (by simp)
  | some ch =>
      dsimp only
      rw [count_farewell hne hv]
      by_cases hlast : lastOf db u ch = some m
      · rw [if_pos hlast, List.count_eq_zero]
        refine ⟨fun hnot ch' hch' _ => ?_, fun h => h ch rfl hlast⟩
        cases hch'
        exact hnot
      · rw [if_neg hlast]
        refine iff_of_true rfl fun ch' hch' hlast' => ?_
        cases hch'
        exact absurd hlast' hlast

/-- Being told once, counted out over the channels. -/
theorem told_once_iff {cs : List UUID} (h : LastOnly db u cs) {c v : UUID} {ch : Channel}
    {m : Message} (hc : c ∈ cs) (hch : db.channels.lookup c = some ch)
    (hlast : lastOf db u ch = some m) (hin : v ∈ ch.userUids) (hne : v ≠ u)
    (hv : (db.users.lookup v).isSome) :
    (db.leaveChannels u cs).2.count (.messageDeleted v m) = 1
      ↔ ch.userUids.count v = 1
        ∧ ∀ d ∈ cs, d ≠ c → ∀ ch', db.channels.lookup d = some ch' →
          lastOf db u ch' = some m → v ∉ ch'.userUids := by
  have hown : tells db u (.messageDeleted v m) c = ch.userUids.count v := by
    rw [tells, hch]
    dsimp only
    rw [count_farewell hne hv, if_pos hlast]
  have hpos : 0 < ch.userUids.count v := List.count_pos_iff.mpr hin
  have hothers : ∑ d ∈ cs.toFinset.erase c, tells db u (.messageDeleted v m) d = 0
      ↔ ∀ d ∈ cs, d ≠ c → ∀ ch', db.channels.lookup d = some ch' →
          lastOf db u ch' = some m → v ∉ ch'.userUids := by
    rw [Finset.sum_eq_zero_iff]
    refine forall_congr' fun d => ?_
    rw [Finset.mem_erase, List.mem_toFinset, and_imp, tells_eq_zero_iff hne hv]
    exact forall_comm
  rw [count_leaveChannels h, ← Finset.add_sum_erase _ _ (List.mem_toFinset.mpr hc), hown, ← hothers]
  omega

/--
**Account deletion sweeps a user's messages out of its channels** exactly when at
most the last message of each is the user's, and that one is listed once for each
member who is to hear of it.
-/
theorem removeUser_sweeps_iff {user : User} (hu : db.users.lookup u = some user) :
    Sweeps db u user ↔ LastOnly db u user.channels ∧ ListedOnce db u user.channels := by
  constructor
  · intro h
    have hlast : LastOnly db u user.channels := channelsInside_iff.mp h.inside
    refine ⟨hlast, fun c hc ch hch m hm v hin hne hv => ?_⟩
    obtain ⟨s, hs, hstored, hsender⟩ := lastOf_eq_some hm
    have htold := h.told c hc ch hch s hs m hstored hsender v hin hne hv
    rw [removeUser_some hu] at htold
    exact (told_once_iff hlast hc hch hm hin hne hv).mp htold
  · rintro ⟨hlast, honce⟩
    refine ⟨channelsInside_iff.mpr hlast, fun c hc ch hch => ?_,
      fun c hc ch hch s hs m hstored hsender v hin hne hv => ?_⟩
    · rw [removeUser_some hu]
      exact ⟨_, leaveChannels_swept hlast hc hch, rfl⟩
    · have hm := lastOf_of_mem (hlast c hc ch hch) hs hstored hsender
      rw [removeUser_some hu]
      exact (told_once_iff hlast hc hch hm hin hne hv).mpr
        (honce c hc ch hch m hm v hin hne hv)

/-- In `sharedAndOwn`, alice's one message is the last of the one channel she is in. -/
theorem removeUser_sweeps_alice :
    ∃ db user, (@Database.system .sample).Reachable System.Always db
      ∧ db.users.lookup (.ofByte 1) = some user ∧ Sweeps db (.ofByte 1) user := by
  have huser : (((((@Database.system .sample).exec System.Always Database.new sharedAndOwn).get
      sharedAndOwn_runs).users.lookup (.ofByte 1)).map (·.channels)) = some [.ofByte 7] := by
    decide
  have hplans : (((((@Database.system .sample).exec System.Always Database.new sharedAndOwn).get
      sharedAndOwn_runs).channels.lookup (.ofByte 7)).map fun ch =>
        (ch.userUids, ch.messageSnowflakes))
      = some ([.ofByte 1, .ofByte 2, .ofByte 3], [41951488]) := by decide
  obtain ⟨user, hu, hchannels⟩ := Option.map_eq_some_iff.mp huser
  obtain ⟨plans, hch, hpair⟩ := Option.map_eq_some_iff.mp hplans
  obtain ⟨huids, hlist⟩ := Prod.mk.inj hpair
  refine ⟨_, user, System.Reachable.exec_get sharedAndOwn_runs, hu,
    (removeUser_sweeps_iff hu).mpr ⟨?_, ?_⟩⟩
  · rw [hchannels]
    intro c hc ch hc' s hs
    cases List.mem_singleton.mp hc
    cases hch.symm.trans hc'
    rw [hlist] at hs
    exact absurd hs List.not_mem_nil
  · rw [hchannels]
    intro c hc ch hc' m _ v hin _ _
    cases List.mem_singleton.mp hc
    cases hch.symm.trans hc'
    rw [huids] at hin ⊢
    refine ⟨List.count_eq_one_of_mem (by decide) hin, fun d hd hne => ?_⟩
    exact absurd (List.mem_singleton.mp hd) hne

/-- Alice (1) writes twice in a channel she shares with Bob (2), who then writes once. -/
def twiceThenBob : List Database.Op :=
  [.addUser (.ofByte 1) (lit "alice") (lit "Alice") (lit "secret") (lit "saltsaltsaltsalt"),
    .addUser (.ofByte 2) (lit "bob") (lit "Bob") (lit "secret") (lit "saltsaltsaltsalt"),
    .addChannel (.ofByte 7) (lit "plans") [.ofByte 1, .ofByte 2],
    .addMessage (.ofByte 1) (.ofByte 7) (lit "hi") [epoch + 5] 0,
    .addMessage (.ofByte 1) (.ofByte 7) (lit "there") [epoch + 6] 0,
    .addMessage (.ofByte 2) (.ofByte 7) (lit "hello") [epoch + 7] 0]

theorem twiceThenBob_runs :
    ((@Database.system .sample).exec System.Always Database.new twiceThenBob).isSome := by
  decide

/-- After alice's first message is erased, her second is stepped over and stays listed. -/
theorem removeUser_not_sweeps :
    ¬ ∀ (db : Database) (u : UUID) (user : User),
      (@Database.system .sample).Reachable System.Always db → db.users.lookup u = some user →
        Sweeps db u user := by
  intro h
  have huser : (((((@Database.system .sample).exec System.Always Database.new twiceThenBob).get
      twiceThenBob_runs).users.lookup (.ofByte 1)).map (·.channels)) = some [.ofByte 7] := by
    decide
  have hplans : (((((@Database.system .sample).exec System.Always Database.new twiceThenBob).get
      twiceThenBob_runs).channels.lookup (.ofByte 7)).map fun ch =>
        withoutSent (((@Database.system .sample).exec System.Always Database.new twiceThenBob).get
          twiceThenBob_runs) (.ofByte 1) ch.messageSnowflakes) = some [58728704] := by decide
  have hswept : (((((@Database.system .sample).exec System.Always Database.new twiceThenBob).get
      twiceThenBob_runs).removeUser (.ofByte 1)).db.channels.lookup (.ofByte 7)).map
        (·.messageSnowflakes) = some [50340096, 58728704] := by decide
  obtain ⟨user, hu, hchannels⟩ := Option.map_eq_some_iff.mp huser
  obtain ⟨plans, hch, hlist⟩ := Option.map_eq_some_iff.mp hplans
  obtain ⟨plans', hch', hlist'⟩ := Option.map_eq_some_iff.mp hswept
  have hsweeps := h _ _ user (System.Reachable.exec_get twiceThenBob_runs) hu
  obtain ⟨ch', hgot, hquiet⟩ :=
    hsweeps.lists (.ofByte 7) (by rw [hchannels]; exact List.mem_singleton.mpr rfl) plans hch
  cases hch'.symm.trans hgot
  exact absurd (hlist'.symm.trans (hquiet.trans hlist)) (by decide)

end SockEtOut.Proof
