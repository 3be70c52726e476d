import SockEtOut.Proof.Steps

/-!
# Channel histories

A history lists snowflakes, and the argument about it has two halves that meet in
`addMessage`.

*Issued ids.* `Stamped` records where every stored key came from: a clock reading
and a sequence number, no later than the generator's last. An id keeps only the
reading's distance from the epoch modulo `2 ^ 41`, so two pairs give two ids only
as long as the readings stay within a window of that length, and give them in
order only as long as the window does not straddle a multiple of it.

*Ownership.* `HistoryOwned` says a listed snowflake is stored, under the channel
that lists it. It makes the histories of different channels disjoint, which is
why `removeChannel` can delete by snowflake. All it needs from the clock is that
a new message's key is free.
-/

namespace SockEtOut.Proof

open Lib System SnowflakeIDGenerator

variable {db db' : Database}

/-! ## Ids and the window they are issued in -/

/-- The span of time in which ids do not repeat: forty-one bits of milliseconds. -/
def idSpan : Int := 2 ^ 41

theorem ofBitVec_inj {a b : BitVec 64} (h : UInt64.ofBitVec a = UInt64.ofBitVec b) : a = b :=
  congrArg UInt64.toBitVec h

theorem lowBits_lt (g : SnowflakeIDGenerator) {q : Nat} (hq : q ≤ maxSequence) :
    g.machineId * 2 ^ 13 + (g.processId * 2 ^ 8 + q) < 2 ^ 23 := by
  have hm : g.machineId ≤ 1023 := g.machineId_le
  have hp : g.processId ≤ 31 := g.processId_le
  have hq' : q ≤ 255 := hq
  omega

/-- Within one span, different stamps give different ids. -/
theorem pack_inj (g : SnowflakeIDGenerator) {lo t t' : Int} {q q' : Nat} (hq : q ≤ maxSequence)
    (hq' : q' ≤ maxSequence) (ht : lo ≤ t ∧ t < lo + idSpan) (ht' : lo ≤ t' ∧ t' < lo + idSpan)
    (h : g.pack t q = g.pack t' q') : t = t' ∧ q = q' := by
  have hnat := congrArg BitVec.toNat h
  rw [pack_toNat g t hq, pack_toNat g t' hq'] at hnat
  have hlow := lowBits_lt g hq
  have hlow' := lowBits_lt g hq'
  have hspan : idSpan = 2 ^ 41 := rfl
  omega

/-- A field above twenty-three bits decides, unless it is equal. -/
theorem fields_lt {a b c d : Nat} (hc : c < 2 ^ 23) (h : a < b ∨ a = b ∧ c < d) :
    a * 2 ^ 23 + c < b * 2 ^ 23 + d := by
  rcases h with hlt | ⟨rfl, hlt⟩
  · omega
  · exact Nat.add_lt_add_left hlt _

/-- Within one span counted from the epoch, later stamps give larger ids. -/
theorem pack_lt (g : SnowflakeIDGenerator) {k t t' : Int} {q q' : Nat} (hq : q ≤ maxSequence)
    (hq' : q' ≤ maxSequence) (ht : epoch + k * idSpan ≤ t) (ht' : t' < epoch + (k + 1) * idSpan)
    (h : t < t' ∨ t = t' ∧ q < q') : (g.pack t q).toNat < (g.pack t' q').toNat := by
  rw [pack_toNat g t hq, pack_toNat g t' hq']
  have hlow := lowBits_lt g hq
  have hspan : idSpan = 2 ^ 41 := rfl
  rw [hspan] at ht ht'
  have hmod : (t - epoch) % 2 ^ 41 = t - epoch - k * 2 ^ 41 := by
    rw [← Int.sub_mul_emod_self_right (t - epoch) k (2 ^ 41)]
    exact Int.emod_eq_of_lt (by omega) (by omega)
  have hmod' : (t' - epoch) % 2 ^ 41 = t' - epoch - k * 2 ^ 41 := by
    rw [← Int.sub_mul_emod_self_right (t' - epoch) k (2 ^ 41)]
    exact Int.emod_eq_of_lt (by omega) (by omega)
  refine fields_lt hlow ?_
  rcases h with hlt | ⟨heq, hlt⟩
  · exact Or.inl (by omega)
  · rw [heq]
    exact Or.inr ⟨rfl, Nat.add_lt_add_left (Nat.add_lt_add_left hlt _) _⟩

/-- The clock readings of a step all lie in the span that starts at `lo`. -/
def ReadingsWithin (lo : Int) : Database.Op → Prop
  | .addMessage _ _ _ readings _ => ∀ r ∈ readings, lo ≤ r ∧ r < lo + idSpan
  | _ => True

instance (lo : Int) : (op : Database.Op) → Decidable (ReadingsWithin lo op)
  | .addMessage _ _ _ readings _ =>
      inferInstanceAs (Decidable (∀ r ∈ readings, lo ≤ r ∧ r < lo + idSpan))
  | .addUser .. | .addChannel .. | .addUserToChannel .. | .removeMessage _ | .removeChannel _
  | .removeUser _ => inferInstanceAs (Decidable True)

/-- Every stored key was issued in the span from `lo`, and no later than the last id. -/
def Stamped (lo : Int) (db : Database) : Prop :=
  ∀ (s : UInt64) (m : Message), db.messages.lookup s = some m →
    ∃ (t : Int) (q : Nat), q ≤ maxSequence ∧ lo ≤ t ∧ t < lo + idSpan
      ∧ s = .ofBitVec (db.generator.pack t q)
      ∧ (t < db.generator.lastTimestamp
          ∨ t = db.generator.lastTimestamp ∧ q ≤ db.generator.sequence)

theorem stamped_init (lo : Int) : Stamped lo Database.new := by
  intro s m h
  exact absurd h (by simp [Database.new])

/-- Fewer messages under the same generator. -/
theorem stamped_of_subset {lo : Int} (h : Stamped lo db) (hg : db'.generator = db.generator)
    (hm : ∀ s m, db'.messages.lookup s = some m → db.messages.lookup s = some m) :
    Stamped lo db' := by
  intro s m hs
  rw [hg]
  exact h s m (hm s m hs)

/-- What a new id is, next to the stored ones. -/
theorem nextId_after {lo : Int} (h : Stamped lo db) {readings : List Int} {id : BitVec 64}
    {generator : SnowflakeIDGenerator}
    (hid : db.generator.nextId readings = (.returned id, generator))
    (hr : ∀ r ∈ readings, lo ≤ r ∧ r < lo + idSpan) :
    ∃ (t : Int) (q : Nat) (hq : q ≤ maxSequence), lo ≤ t ∧ t < lo + idSpan
      ∧ id = db.generator.pack t q ∧ generator = db.generator.issued t q hq
      ∧ ∀ (s : UInt64) (m : Message), db.messages.lookup s = some m →
          ∃ (t₀ : Int) (q₀ : Nat), q₀ ≤ maxSequence ∧ lo ≤ t₀ ∧ t₀ < lo + idSpan
            ∧ s = .ofBitVec (db.generator.pack t₀ q₀) ∧ (t₀ < t ∨ t₀ = t ∧ q₀ < q) := by
  obtain ⟨t, q, hq, hin, hpack, hgen, hlater⟩ := nextId_returned hid
  refine ⟨t, q, hq, (hr t hin).1, (hr t hin).2, hpack, hgen, ?_⟩
  intro s m hs
  obtain ⟨t₀, q₀, hq₀, hlo, hhi, heq, hbefore⟩ := h s m hs
  refine ⟨t₀, q₀, hq₀, hlo, hhi, heq, ?_⟩
  omega

theorem stamped_step {lo : Int} {op : Database.Op} (h : Stamped lo db)
    (hr : ReadingsWithin lo op) (he : Effect db op db') : Stamped lo db' := by
  cases he with
  | nothing => exact h
  | userAdded => exact h
  | channelAdded => exact h
  | userJoined => exact h
  | userRemoved => exact h
  | messageRemoved =>
      refine stamped_of_subset h rfl ?_
      intro s m hs
      exact (Table.lookup_of_erase hs).2
  | @channelRemoved c ch messages hc hm =>
      refine stamped_of_subset h rfl ?_
      intro s m hs
      dsimp only at hs
      rw [hm] at hs
      split at hs
      · exact absurd hs (by simp)
      · exact hs
  | @messageAdded sender c content readings now ch id generator hc hid =>
      obtain ⟨t, q, hq, hlo, hhi, hpack, hgen, hafter⟩ := nextId_after h hid hr
      intro s m hs
      dsimp only at hs ⊢
      rw [hgen]
      -- every key is an old one or the one just issued
      rcases Table.lookup_of_emplace hs with hold | ⟨hnew, -⟩
      · obtain ⟨t₀, q₀, hq₀, hlo₀, hhi₀, heq₀, hbefore⟩ := hafter s m hold
        refine ⟨t₀, q₀, hq₀, hlo₀, hhi₀, heq₀, ?_⟩
        rcases hbefore with hlt | ⟨heq, hlt⟩
        · exact Or.inl hlt
        · exact Or.inr ⟨heq, Nat.le_of_lt hlt⟩
      · exact ⟨t, q, hq, hlo, hhi, by rw [hnew, hpack]; rfl, Or.inr ⟨rfl, Nat.le_refl q⟩⟩

/-- Within one span, the key of a new message is free. -/
theorem nextId_fresh {lo : Int} (h : Stamped lo db) {readings : List Int} {id : BitVec 64}
    {generator : SnowflakeIDGenerator}
    (hid : db.generator.nextId readings = (.returned id, generator))
    (hr : ∀ r ∈ readings, lo ≤ r ∧ r < lo + idSpan) :
    db.messages.lookup (.ofBitVec id) = none := by
  obtain ⟨t, q, hq, hlo, hhi, hpack, -, hafter⟩ := nextId_after h hid hr
  cases hkey : db.messages.lookup (UInt64.ofBitVec id) with
  | none => rfl
  | some m =>
      obtain ⟨t₀, q₀, hq₀, hlo₀, hhi₀, heq₀, hbefore⟩ := hafter _ m hkey
      rw [hpack] at heq₀
      have hsame := pack_inj db.generator hq hq₀ ⟨hlo, hhi⟩ ⟨hlo₀, hhi₀⟩ (ofBitVec_inj heq₀)
      omega

/-! ## Listed messages are stored, under the channel that lists them -/

/-- A step that draws a snowflake draws one that is not a key yet. -/
def FreshSnowflake (db : Database) : Database.Op → Prop
  | .addMessage _ _ _ readings _ =>
      ∀ id generator, db.generator.nextId readings = (.returned id, generator) →
        db.messages.lookup (.ofBitVec id) = none
  | _ => True

instance (db : Database) : (op : Database.Op) → Decidable (FreshSnowflake db op)
  | .addMessage _ _ _ readings _ =>
      match h : db.generator.nextId readings with
      | (.returned id, generator) =>
          decidable_of_iff (db.messages.lookup (.ofBitVec id) = none) (by
            constructor
            · intro hfree id' generator' hid
              rw [h] at hid
              cases hid
              exact hfree
            · intro hf
              exact hf id generator h)
      | (.raised _, _) => .isTrue (by intro id generator hid; rw [h] at hid; cases hid)
      | (.waiting, _) => .isTrue (by intro id generator hid; rw [h] at hid; cases hid)
  | .addUser .. | .addChannel .. | .addUserToChannel .. | .removeMessage _ | .removeChannel _
  | .removeUser _ => inferInstanceAs (Decidable True)

theorem freshSnowflake_of_stamped {lo : Int} {op : Database.Op} (h : Stamped lo db)
    (hr : ReadingsWithin lo op) : FreshSnowflake db op := by
  cases op with
  | addMessage => exact fun id generator hid => nextId_fresh h hid hr
  | _ => trivial

/-- Each channel is filed under its uid, and lists only stored messages of its own. -/
def HistoryOwned (db : Database) : Prop :=
  ∀ (c : UUID) (ch : Channel), db.channels.lookup c = some ch →
    ch.uid = c ∧ ∀ s ∈ ch.messageSnowflakes,
      ∃ m, db.messages.lookup s = some m ∧ m.channelId = c

theorem historyOwned_init : HistoryOwned Database.new := by
  intro c ch h
  exact absurd h (by simp [Database.new])

/-- **Preserved by every operation whose snowflake is a new key.** -/
theorem historyOwned_step {op : Database.Op} (h : HistoryOwned db) (hf : FreshSnowflake db op)
    (he : Effect db op db') : HistoryOwned db' := by
  intro c ch hc
  cases he with
  | nothing => exact h c ch hc
  | userAdded => exact h c ch hc
  | channelAdded =>
      rcases Table.lookup_of_emplace hc with hold | ⟨rfl, rfl⟩
      · exact h c ch hold
      · exact ⟨rfl, fun s hs => absurd hs List.not_mem_nil⟩
  | userJoined => exact Table.holds_modify h hc fun _ _ hold => hold
  | @messageAdded sender d content readings now ch₀ id generator hd hid =>
      have hfree : db.messages.lookup (.ofBitVec id) = none := hf id generator hid
      obtain ⟨old, hold, hsame, hother⟩ := Table.lookup_of_modify hc
      obtain ⟨huid, hown⟩ := h c old hold
      -- the messages stored before are stored still
      have hkept : ∀ s ∈ old.messageSnowflakes,
          ∃ m, (db.messages.emplace (.ofBitVec id)
            (.new sender d content (.ofBitVec id) now)).lookup s = some m ∧ m.channelId = c := by
        intro s hs
        obtain ⟨m, hm, hchan⟩ := hown s hs
        have hne : s ≠ .ofBitVec id := by
          rintro rfl
          rw [hfree] at hm
          exact absurd hm (by simp)
        exact ⟨m, by rw [Table.lookup_emplace hfree, if_neg hne]; exact hm, hchan⟩
      by_cases heq : c = d
      · rw [hsame heq]
        refine ⟨huid, ?_⟩
        intro s hs
        rcases List.mem_append.mp hs with hs | hs
        · exact hkept s hs
        · rw [List.mem_singleton.mp hs]
          exact ⟨_, by rw [Table.lookup_emplace hfree, if_pos rfl], heq.symm⟩
      · rw [hother heq]
        exact ⟨huid, hkept⟩
  | @messageRemoved t gone ch₀ hgone hd =>
      obtain ⟨old, hold, hsame, hother⟩ := Table.lookup_of_modify hc
      obtain ⟨huid, hown⟩ := h c old hold
      by_cases heq : c = gone.channelId
      · rw [hsame heq]
        refine ⟨huid, ?_⟩
        intro s hs
        rw [Channel.removeMessage_messageSnowflakes] at hs
        obtain ⟨hin, hne⟩ := List.mem_filter.mp hs
        obtain ⟨m, hm, hchan⟩ := hown s hin
        refine ⟨m, ?_, hchan⟩
        rw [Table.lookup_erase, if_neg (by simpa using hne)]
        exact hm
      · rw [hother heq]
        refine ⟨huid, ?_⟩
        intro s hs
        obtain ⟨m, hm, hchan⟩ := hown s hs
        -- the message that went belongs to another channel
        have hne : s ≠ t := by
          rintro rfl
          rw [hm] at hgone
          cases hgone
          exact heq hchan.symm
        exact ⟨m, by rw [Table.lookup_erase, if_neg hne]; exact hm, hchan⟩
  | @channelRemoved d ch₀ messages hd hmsg =>
      obtain ⟨hne, hc⟩ := Table.lookup_of_erase hc
      obtain ⟨huid, hown⟩ := h c ch hc
      refine ⟨huid, ?_⟩
      intro s hs
      obtain ⟨m, hm, hchan⟩ := hown s hs
      -- what is listed here is not listed by the channel that went
      have hnot : s ∉ ch₀.messageSnowflakes := by
        intro hin
        obtain ⟨m', hm', hchan'⟩ := (h d ch₀ hd).2 s hin
        rw [hm] at hm'
        cases hm'
        exact hne (hchan.symm.trans hchan')
      exact ⟨m, by rw [hmsg, if_neg hnot]; exact hm, hchan⟩
  | @userRemoved u user hu =>
      obtain ⟨old, hold, hleft, hsame⟩ := leaveChannels_some hc
      obtain ⟨huid, hown⟩ := h c old hold
      by_cases hin : c ∈ user.channels
      · exact ⟨(hleft hin).uid.trans huid, fun s hs => hown s ((hleft hin).sublist.subset hs)⟩
      · rw [hsame hin]
        exact ⟨huid, hown⟩

/-! ## Histories are in order -/

/-- Each history is strictly increasing. -/
def HistorySorted (db : Database) : Prop :=
  ∀ (c : UUID) (ch : Channel), db.channels.lookup c = some ch →
    ch.messageSnowflakes.Pairwise (· < ·)

theorem historySorted_init : HistorySorted Database.new := by
  intro c ch hc
  exact absurd hc (by simp [Database.new])

/-- The span number `k`, counted from the epoch. -/
def spanStart (k : Int) : Int := epoch + k * idSpan

/-- Within one span from the epoch, a new id is above every stored key. -/
theorem nextId_above {k : Int} (h : Stamped (spanStart k) db) {readings : List Int}
    {id : BitVec 64} {generator : SnowflakeIDGenerator}
    (hid : db.generator.nextId readings = (.returned id, generator))
    (hr : ∀ r ∈ readings, spanStart k ≤ r ∧ r < spanStart k + idSpan)
    {s : UInt64} {m : Message} (hs : db.messages.lookup s = some m) : s < .ofBitVec id := by
  obtain ⟨t, q, hq, hlo, hhi, hpack, -, hafter⟩ := nextId_after h hid hr
  obtain ⟨t₀, q₀, hq₀, hlo₀, hhi₀, heq₀, hbefore⟩ := hafter s m hs
  have hlt := pack_lt db.generator (k := k) hq₀ hq hlo₀
    (by rw [spanStart] at hhi; rw [Int.add_mul]; omega) hbefore
  rw [heq₀, hpack, UInt64.lt_iff_toNat_lt]
  exact hlt

theorem historySorted_step {k : Int} {op : Database.Op} (h : HistorySorted db)
    (howned : HistoryOwned db) (hstamped : Stamped (spanStart k) db)
    (hr : ReadingsWithin (spanStart k) op) (he : Effect db op db') : HistorySorted db' := by
  intro c ch hc
  cases he with
  | nothing => exact h c ch hc
  | userAdded => exact h c ch hc
  | channelAdded =>
      rcases Table.lookup_of_emplace hc with hold | ⟨rfl, rfl⟩
      · exact h c ch hold
      · exact List.Pairwise.nil
  | userJoined => exact Table.holds_modify h hc fun _ _ hold => hold
  | @messageAdded sender d content readings now ch₀ id generator hd hid =>
      obtain ⟨old, hold, hsame, hother⟩ := Table.lookup_of_modify hc
      by_cases heq : c = d
      · rw [hsame heq]
        refine List.pairwise_append.mpr ⟨h c old hold, List.pairwise_singleton _ _, ?_⟩
        intro s hs t ht
        rw [List.mem_singleton.mp ht]
        obtain ⟨m, hm, -⟩ := (howned c old hold).2 s hs
        exact nextId_above hstamped hid hr hm
      · rw [hother heq]
        exact h c old hold
  | messageRemoved =>
      refine Table.holds_modify h hc fun d old hold => ?_
      rw [Channel.removeMessage_messageSnowflakes]
      exact hold.filter _
  | channelRemoved =>
      exact h c ch (Table.lookup_of_erase hc).2
  | @userRemoved u user hu =>
      obtain ⟨old, hold, hleft, hsame⟩ := leaveChannels_some hc
      by_cases hin : c ∈ user.channels
      · exact (h c old hold).sublist (hleft hin).sublist
      · rw [hsame hin]
        exact h c old hold

/-! ## Histories over whole runs -/

/-- The three invariants together, for runs whose clock stays in one span from the epoch. -/
theorem histories_reachable [External] {k : Int}
    (h : Database.system.Reachable (fun _ op => ReadingsWithin (spanStart k) op) db) :
    Stamped (spanStart k) db ∧ HistoryOwned db ∧ HistorySorted db := by
  refine h.invariant (P := fun db => Stamped (spanStart k) db ∧ HistoryOwned db ∧ HistorySorted db)
    ⟨stamped_init _, historyOwned_init, historySorted_init⟩ ?_
  rintro s op s' _ ⟨hstamped, howned, hsorted⟩ hr hs
  have he := step_effect hs
  exact ⟨stamped_step hstamped hr he,
    historyOwned_step howned (freshSnowflake_of_stamped hstamped hr) he,
    historySorted_step hsorted howned hstamped hr he⟩

/--
**Channel history integrity.** As long as the clock stays in one span of `2 ^ 41`
milliseconds counted from the epoch, a history is strictly increasing and lists
stored messages of its own channel.
-/
theorem channel_history [External] {k : Int}
    (h : Database.system.Reachable (fun _ op => ReadingsWithin (spanStart k) op) db)
    {c : UUID} {ch : Channel} (hc : db.channels.lookup c = some ch) :
    ch.messageSnowflakes.Pairwise (· < ·)
      ∧ ∀ s ∈ ch.messageSnowflakes,
          ∃ m, db.messages.lookup s = some m ∧ m.channelId = ch.uid := by
  obtain ⟨-, howned, hsorted⟩ := histories_reachable h
  obtain ⟨huid, hown⟩ := howned c ch hc
  refine ⟨hsorted c ch hc, ?_⟩
  intro s hs
  rw [huid]
  exact hown s hs

/-- Two messages in one millisecond and one in the next. -/
def threeMessages : List Database.Op :=
  [.addChannel (.ofByte 7) (lit "plans") [.ofByte 1],
    .addMessage (.ofByte 1) (.ofByte 7) (lit "a") [epoch + 5] 0,
    .addMessage (.ofByte 1) (.ofByte 7) (lit "b") [epoch + 5] 0,
    .addMessage (.ofByte 1) (.ofByte 7) (lit "c") [epoch + 6] 0]

theorem threeMessages_runs :
    ((@Database.system .sample).exec (fun _ op => ReadingsWithin (spanStart 0) op)
      Database.new threeMessages).isSome := by
  decide

theorem channel_history_threeMessages :
    ∃ db ch, (@Database.system .sample).Reachable
        (fun _ op => ReadingsWithin (spanStart 0) op) db
      ∧ db.channels.lookup (.ofByte 7) = some ch
      ∧ ch.messageSnowflakes = [41951488, 41951489, 50340096]
      ∧ ch.messageSnowflakes.Pairwise (· < ·) := by
  have hr := Reachable.exec_get threeMessages_runs
  have hlisted : ((((@Database.system .sample).exec
      (fun _ op => ReadingsWithin (spanStart 0) op) Database.new threeMessages).get
        threeMessages_runs).channels.lookup (.ofByte 7)).map (·.messageSnowflakes)
          = some [41951488, 41951489, 50340096] := by decide
  obtain ⟨ch, hch, hlist⟩ := Option.map_eq_some_iff.mp hlisted
  exact ⟨_, ch, hr, hch, hlist, (@channel_history _ .sample _ hr _ _ hch).1⟩

/-- The clock readings of a step are none of them before the epoch. -/
def ReadingsFromEpoch : Database.Op → Prop
  | .addMessage _ _ _ readings _ => ∀ r ∈ readings, epoch ≤ r
  | _ => True

instance : (op : Database.Op) → Decidable (ReadingsFromEpoch op)
  | .addMessage _ _ _ readings _ => inferInstanceAs (Decidable (∀ r ∈ readings, epoch ≤ r))
  | .addUser .. | .addChannel .. | .addUserToChannel .. | .removeMessage _ | .removeChannel _
  | .removeUser _ => inferInstanceAs (Decidable True)

/-- A message in the first span and one in the second. -/
def acrossSpans : List Database.Op :=
  [.addChannel (.ofByte 7) (lit "plans") [.ofByte 1],
    .addMessage (.ofByte 1) (.ofByte 7) (lit "a") [epoch + 1] 0,
    .addMessage (.ofByte 1) (.ofByte 7) (lit "b") [epoch + 2 ^ 41] 0]

theorem acrossSpans_runs :
    ((@Database.system .sample).exec (fun db op => db.FreshUids op ∧ ReadingsFromEpoch op)
      Database.new acrossSpans).isSome := by
  decide

/-- Past the first span the timestamp starts again from zero, and so do the ids. -/
theorem history_not_sorted_acrossSpans :
    ∃ db, (@Database.system .sample).Reachable
        (fun db op => db.FreshUids op ∧ ReadingsFromEpoch op) db
      ∧ (db.channels.lookup (.ofByte 7)).map (·.messageSnowflakes) = some [8397056, 8448]
      ∧ ¬ [(8397056 : UInt64), 8448].Pairwise (· < ·) :=
  ⟨_, Reachable.exec_get acrossSpans_runs, by decide, by decide⟩

end SockEtOut.Proof
