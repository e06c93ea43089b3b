import Clusdr.Metatheory.WatchStream

/-!
What a watch stream says about the events it missed. It announces what the feed
it reads announces: the flag is taken with the next matching event, which may
have been published before the one that was dropped.
-/

namespace Clusdr

open Events (Event)
open EventBus (Bus)

namespace Watching

/-- No event is sent after a missed one without a gap that covers the missed one. -/
def NoSilentLoss (w : Watching) : Prop :=
  ∀ s ∈ w.missed, ∀ before e after, w.stream.sent = before ++ .live e :: after → s < e.seq →
    ∃ m ∈ before, m.Covers s

/-- When an event is sent and matching ones between it and the last one sent were
missed, then the flag was set since it was last taken, or the gap sent on
connecting covers them. -/
def Announced (w : Watching) : WatchStep → Prop
  | .forward _ => ∀ e ∈ w.stream.received, ∀ s ∈ w.missed, w.stream.lastLive < s →
      s < e.seq → w.flag = true ∨
        (0 < w.stream.req.lastSeq ∧ w.stream.req.lastSeq < s ∧ s ≤ w.stream.fromSeq)
  | _ => True

theorem covers_note (m : WatchMessage) (s : UInt64) : m.note.Covers s.toNat ↔ m.Covers s := by
  cases m with
  | gap lo hi now =>
      exact and_congr UInt64.le_iff_toNat_le.symm UInt64.le_iff_toNat_le.symm
  | state | sync | live => exact Iff.rfl

theorem note_eq_item {m : WatchMessage} {n : Nat} (h : m.note = .item n) :
    ∃ e, m = .live e ∧ e.seq.toNat = n := by
  cases m with
  | live e => exact ⟨e, rfl, Feed.Note.item.inj h⟩
  | state | sync | gap => cases h

theorem noSilentLoss_iff (w : Watching) : w.NoSilentLoss ↔ Feed.Complete w.feed := by
  constructor
  · intro h n hn before m after hsplit hlt
    obtain ⟨s, hs, rfl⟩ := List.mem_map.mp hn
    obtain ⟨sent, rest, hsent, rfl, hrest⟩ := List.map_eq_append_iff.mp hsplit
    obtain ⟨x, tail, rfl, hx, -⟩ := List.map_eq_cons_iff.mp hrest
    obtain ⟨e, rfl, rfl⟩ := note_eq_item hx
    obtain ⟨gap, hgap, hcovers⟩ := h s hs sent e tail hsent (UInt64.lt_iff_toNat_lt.mpr hlt)
    exact ⟨gap.note, List.mem_map_of_mem hgap, (covers_note gap s).mpr hcovers⟩
  · intro h s hs before e after hsplit hlt
    obtain ⟨note, hnote, hcovers⟩ := h s.toNat (List.mem_map_of_mem hs)
      (before.map WatchMessage.note) e.seq.toNat (after.map WatchMessage.note)
      (by simp only [feed, hsplit, List.map_append, List.map_cons, WatchMessage.note])
      (UInt64.lt_iff_toNat_lt.mp hlt)
    obtain ⟨gap, hgap, rfl⟩ := List.mem_map.mp hnote
    exact ⟨gap, hgap, (covers_note gap s).mp hcovers⟩

/-- Which missed numbers a gap already sent covers. -/
theorem covered_iff {w : Watching} (sound : w.Sound) {e : Event}
    (hreceived : w.stream.received = some e) {s : UInt64} (hlast : w.stream.lastLive < s) :
    (∃ m ∈ w.stream.sent, m.Covers s) ↔
      0 < w.stream.req.lastSeq ∧ w.stream.req.lastSeq < s ∧ s ≤ w.stream.fromSeq := by
  constructor
  · rintro ⟨m, hm, covers⟩
    exact (sound.gaps m hm s covers).resolve_left (UInt64.lt_asymm hlast)
  · rintro ⟨hpos, hlt, hle⟩
    have looping : w.stream.phase = .looping := by
      by_contra h
      exact absurd (hreceived.symm.trans (sound.silent h).1) nofun
    obtain ⟨now, hmem⟩ := sound.greeted looping hpos (UInt64.lt_of_lt_of_le hlt hle)
    refine ⟨_, hmem, ?_, hle⟩
    rw [UInt64.le_iff_toNat_le, Go.Counter.toNat_succ (Go.Counter.room_of_lt hlt)]
    exact UInt64.lt_iff_toNat_lt.mp hlt

theorem announced_iff {w : Watching} (sound : w.Sound) {ev : WatchStep} (may : w.May ev) :
    w.Announced ev ↔ ∀ op, w.ops ev = some op → Feed.Announced w.feed op := by
  cases ev with
  | publish now e =>
      refine iff_of_true trivial fun op hop => ?_
      simp only [ops] at hop
      split at hop
      · cases hop
        trivial
      · split at hop <;> cases hop <;> trivial
  | mark | receive =>
      refine iff_of_true trivial fun op hop => ?_
      cases hop
  | greet now members leaderID =>
      refine iff_of_true trivial fun op hop => ?_
      cases hop
      trivial
  | forward now =>
      obtain ⟨e, hreceived⟩ := Option.isSome_iff_exists.mp may
      simp only [ops, Option.some.injEq, forall_eq', Feed.Announced, feed_waiting sound hreceived]
      constructor
      · intro h n hn hlast hlt
        obtain ⟨s, hs, rfl⟩ := List.mem_map.mp hn
        have hlast' := UInt64.lt_iff_toNat_lt.mpr hlast
        refine (h e hreceived s hs hlast' (UInt64.lt_iff_toNat_lt.mpr hlt)).imp_right fun hgap => ?_
        obtain ⟨m, hm, covers⟩ := (covered_iff sound hreceived hlast').mpr hgap
        exact ⟨m.note, List.mem_map_of_mem hm, (covers_note m s).mpr covers⟩
      · intro h e' he' s hs hlast hlt
        cases hreceived.symm.trans he'
        refine (h s.toNat (List.mem_map_of_mem hs) (UInt64.lt_iff_toNat_lt.mp hlast)
          (UInt64.lt_iff_toNat_lt.mp hlt)).imp_right ?_
        rintro ⟨note, hnote, covers⟩
        obtain ⟨m, hm, rfl⟩ := List.mem_map.mp hnote
        exact (covered_iff sound hreceived hlast).mp ⟨m, hm, (covers_note m s).mp covers⟩

theorem noSilentLoss_step {w : Watching} (sound : w.Sound) (room : w.bus.seq.toNat + 1 < 2 ^ 64)
    {ev : WatchStep} (may : w.May ev) :
    (w.step ev).NoSilentLoss ↔ w.NoSilentLoss ∧ w.Announced ev := by
  rw [noSilentLoss_iff, noSilentLoss_iff, announced_iff sound may, feed_step sound room may]
  cases hop : w.ops ev with
  | none => simp
  | some op =>
      simp only [Option.map_some, Option.getD_some, Option.some.injEq, forall_eq']
      exact Feed.complete_step sound.ordered (proper_ops hop)

end Watching

open Watching in
/-- A stream loses no event silently exactly if, whenever it sends an event after
missing matching ones, an event was dropped since it last took the flag, or the
gap it sent on connecting covers what it missed. -/
theorem watch_announces_losses_iff (b : Bus) (bufSize : Int) (req : WatchRequest)
    (steps : List WatchStep) (room : b.seq.toNat + steps.length < 2 ^ 64)
    (may : Runs.Along step May (start b bufSize req) steps) :
    (Runs.run step (start b bufSize req) steps).NoSilentLoss ↔
      Runs.Along step Announced (start b bufSize req) steps := by
  have sound := sound_start b bufSize req
  refine Runs.holds_iff_along (fun _ w => w.Sound) sound nofun ?_
    (along_room sound room may)
  intro past w ev hsound ok
  exact ⟨sound_step hsound ok.2 ok.1, noSilentLoss_step hsound ok.2 ok.1⟩

namespace Watching

/-- With a channel of `n`: one event more than it holds, one passed on, one more
published, and the rest passed on. -/
def burst (n : Nat) : List WatchStep :=
  [.mark, .greet 0 [] ""] ++ List.replicate (n + 1) (.publish 0 ⟨"member.join", "n2", .empty, 0, 0⟩)
    ++ [.receive, .forward 0, .publish 0 ⟨"member.join", "n2", .empty, 0, 0⟩]
    ++ (List.replicate n [.receive, .forward 0]).flatten

def isGap : WatchMessage → Bool
  | .gap _ _ _ => true
  | _ => false

def isLive (seq : UInt64) : WatchMessage → Bool
  | .live e => e.seq == seq
  | _ => false

theorem may_burst : Runs.Along step May (start .new 64 {}) (burst 64) := by
  decide +kernel

theorem sent_burst :
    let w := Runs.run step (start .new 64 {}) (burst 64)
    65 ∈ w.missed ∧ w.stream.sent.any isGap = false ∧ w.stream.sent.any (isLive 66) = true := by
  decide +kernel

/-- A stream that sent a later event and no gap at all lost the missed one. -/
theorem not_noSilentLoss {w : Watching} {s seq : UInt64} (missed : s ∈ w.missed)
    (noGap : w.stream.sent.any isGap = false) (live : w.stream.sent.any (isLive seq) = true)
    (hlt : s < seq) : ¬ w.NoSilentLoss := by
  intro h
  obtain ⟨m, hm, hlive⟩ := List.any_eq_true.mp live
  obtain ⟨before, after, hsplit⟩ := List.append_of_mem hm
  cases m with
  | live e =>
      obtain ⟨gap, hgap, covers⟩ := h s missed before e after hsplit
        (by rw [eq_of_beq hlive]; exact hlt)
      have hmem : gap ∈ w.stream.sent := by
        rw [hsplit]
        exact List.mem_append_left _ hgap
      cases gap with
      | gap lo hi now => exact absurd rfl (List.any_eq_false.mp noGap _ hmem)
      | state | sync | live => exact covers
  | state | sync | gap => cases hlive

end Watching

open Watching in
/-- The flag is taken with the oldest event in the channel, whose gap would be
empty; the dropped event is then never mentioned. `Watch` subscribes with 64. -/
theorem watch_loses_event_silently :
    Runs.Along step May (start .new 64 {}) (burst 64) ∧
      ¬ (Runs.run step (start .new 64 {}) (burst 64)).NoSilentLoss := by
  obtain ⟨missed, noGap, live⟩ := sent_burst
  exact ⟨may_burst, not_noSilentLoss missed noGap live (by decide)⟩

/-- With a channel of one and a filter: the matching event finds the channel taken
by another, and the next matching one finds the flag. -/
def crowdedOut : List WatchStep :=
  [.mark, .greet 0 [] "", .publish 0 ⟨"lock.expired", "n1", .empty, 0, 0⟩,
    .publish 0 ⟨"member.join", "n2", .empty, 0, 0⟩, .receive,
    .publish 0 ⟨"member.join", "n3", .empty, 0, 0⟩, .receive, .forward 0]

open Watching in
theorem watch_announces_crowded_out :
    let w := Runs.run step (start .new 1 { eventTypes := ["member.join"] }) crowdedOut
    w.missed = [2] ∧ w.stream.sent.any (isLive 3) = true ∧ w.NoSilentLoss := by
  refine ⟨by decide +kernel, by decide +kernel, ?_⟩
  refine (watch_announces_losses_iff .new 1 { eventTypes := ["member.join"] } crowdedOut
    (by decide) (by decide +kernel)).mpr ?_
  exact ⟨trivial, trivial, trivial, trivial, trivial, trivial, trivial,
    fun _ _ _ _ _ _ => Or.inl (by decide +kernel), trivial⟩

end Clusdr
