import Clusdr.Metatheory.WatchConnection
import Clusdr.Metatheory.WatchGaps

/-!
A client that reconnects. The loop of the SDK keeps the highest number it was
sent and opens the next stream with it; the daemon compares it with its own
counter, which starts over when the daemon restarts. A cursor of zero, and a
cursor from before a restart, can hide what happened in between.
-/

namespace Clusdr

open Go (Time)
open Events (Event)
open EventBus (Bus)
open Sdk (WatchLoop WatchOptions)

/-- A client's loop and the daemon it watches. The last three are not in the
program: whether the client was sent a sync mark, whether events were published
since while it had no stream, and whether the daemon restarted since the cursor
last grew. -/
structure Session where
  bus : Bus
  loop : WatchLoop
  link : Option Connection
  synced : Bool
  missed : Bool
  stale : Bool

inductive SessionStep where
  | publish (now : Time) (e : Event)
  /-- A step of the open stream. -/
  | serve (ev : WatchStep)
  | connect
  | refuse (ctxDone : Bool) (e : Rpc.Status)
  /-- The client receives the next message of the stream. -/
  | receive (ctxDone : Bool)
  | hangUp (ctxDone : Bool) (e : Rpc.Status)
  | restart

namespace Session

def start (b : Bus) (options : WatchOptions) : Session where
  bus := b
  loop := { options }
  link := none
  synced := false
  missed := false
  stale := false

/-- The session after a step of its stream. -/
def served (s : Session) (c : Connection) (ev : WatchStep) : Session :=
  let w := (c.watching s.bus).step ev
  { s with bus := w.bus, link := some (c.follow w) }

def isSync : WatchMessage → Bool
  | .sync _ _ => true
  | _ => false

def step (s : Session) : SessionStep → Session
  | .publish now e =>
      match s.link with
      | some c => s.served c (.publish now e)
      | none => { s with bus := s.bus.publish now e, missed := s.missed || s.synced }
  | .serve ev =>
      match s.link with
      | some c => s.served c ev
      | none => s
  | .connect =>
      let (b, stream) := WatchStream.subscribe s.bus 64 s.loop.request
      { s with
        bus := b
        loop := s.loop.opened
        link := some ⟨stream, [], 0, s.missed, s.stale⟩
        missed := false }
  | .refuse ctxDone e => { s with loop := s.loop.failed ctxDone e }
  | .receive ctxDone =>
      match s.link.bind fun c => (c.stream.sent[c.read]?).map fun m => (c, m) with
      | none => s
      | some (c, m) =>
          { s with
            loop := s.loop.received ctxDone m.response
            link := some { c with read := c.read + 1 }
            synced := s.synced || isSync m
            stale := s.stale && !decide (m.response.seq > s.loop.lastSeq) }
  | .hangUp ctxDone e =>
      { s with
        bus := (s.link.map fun c => s.bus.unsubscribe c.stream.sub).getD s.bus
        loop := s.loop.failed ctxDone e
        link := none }
  | .restart => { s with bus := .new, link := none, stale := true }

/-- When a step can happen: the loop opens one stream at a time, and the daemon's
side of a stream runs in its order. -/
def May (s : Session) : SessionStep → Prop
  | .publish _ _ | .restart => True
  | .serve ev => ∃ c ∈ s.link, (c.watching s.bus).May ev
  | .connect | .refuse _ _ => s.loop.phase = .connecting ∧ s.link.isNone
  | .receive _ => ∃ c ∈ s.link, c.read < c.stream.sent.length
  | .hangUp _ _ => s.loop.phase = .receiving

/-- The stream opened after events were missed sends a gap before its first event. -/
def MissAnnounced (s : Session) : Prop :=
  ∀ c ∈ s.link, c.owes = true → GapFirst c.stream.sent

/-- When such a stream sends its first event, the cursor it was opened with is not
zero and, if the daemon restarted since the cursor last grew, the counter passed
it again; or events were dropped for the stream itself. -/
def Announced (s : Session) : SessionStep → Prop
  | .serve (.forward _) => ∀ c ∈ s.link, c.owes = true → ¬ HasLive c.stream.sent →
      ∀ e ∈ c.stream.received,
        (0 < c.stream.req.lastSeq ∧ (c.stale = true → c.stream.req.lastSeq < c.stream.fromSeq)) ∨
          ((c.watching s.bus).flag = true ∧ 1 < e.seq)
  | _ => True

structure Sound (s : Session) : Prop where
  cursor : s.stale = false → s.loop.lastSeq ≤ s.bus.seq
  missed : s.missed = true → s.stale = false → s.loop.lastSeq < s.bus.seq
  seen : s.link.isSome → s.missed = false
  linked : ∀ c, s.link = some c → c.Sound s.bus

/-- Without a stream only the cursor and the daemon's counter matter. -/
theorem sound_unlinked {s : Session} (link : s.link = none)
    (cursor : s.stale = false → s.loop.lastSeq ≤ s.bus.seq)
    (missed : s.missed = true → s.stale = false → s.loop.lastSeq < s.bus.seq) : s.Sound where
  cursor := cursor
  missed := missed
  seen h := by rw [link] at h; cases h
  linked c h := by rw [link] at h; cases h

theorem missAnnounced_unlinked {s : Session} (link : s.link = none) : s.MissAnnounced := by
  intro c hc
  rw [link] at hc
  cases hc

theorem sound_start (b : Bus) (options : WatchOptions) : (start b options).Sound :=
  sound_unlinked rfl (fun _ => UInt64.zero_le) fun h => Bool.noConfusion h

theorem sound_served {s : Session} (h : s.Sound) (room : s.bus.seq.toNat + 1 < 2 ^ 64)
    {c : Connection} (link : s.link = some c) {ev : WatchStep}
    (may : (c.watching s.bus).May ev) : (s.served c ev).Sound := by
  have seq : s.bus.seq ≤ (s.served c ev).bus.seq :=
    Watching.seq_le_step (w := c.watching s.bus) room ev
  have seen := h.seen (by rw [link]; rfl)
  refine ⟨fun hstale => UInt64.le_trans (h.cursor hstale) seq, ?_, fun _ => seen, ?_⟩
  · intro hmissed
    exact absurd (seen.symm.trans hmissed) nofun
  · rintro c' ⟨⟩
    exact Connection.sound_step (h.linked c link) room may

theorem sound_receive {s : Session} (h : s.Sound) (ctxDone : Bool) :
    (s.step (.receive ctxDone)).Sound := by
  simp only [step]
  split
  · exact h
  · rename_i c m hnext
    obtain ⟨c', hlink, hmap⟩ := Option.bind_eq_some_iff.mp hnext
    obtain ⟨m', hm, hpair⟩ := Option.map_eq_some_iff.mp hmap
    cases hpair
    have hseq := Connection.seq_le_of_sent (h.linked c hlink) (List.mem_of_getElem? hm)
    have seen := h.seen (by rw [hlink]; rfl)
    refine ⟨?_, ?_, fun _ => seen, ?_⟩
    · intro hstale
      dsimp only at hstale ⊢
      rw [WatchLoop.lastSeq_received]
      split
      · exact hseq
      · rename_i hle
        rw [decide_eq_false hle, Bool.not_false, Bool.and_true] at hstale
        exact h.cursor hstale
    · intro hmissed
      exact absurd (seen.symm.trans hmissed) nofun
    · rintro c'' ⟨⟩
      have hsound := h.linked c hlink
      exact hsound.mono hsound.watching (UInt64.le_refl _) rfl rfl rfl rfl rfl rfl

theorem seq_hangUp (s : Session) (ctxDone : Bool) (e : Rpc.Status) :
    (s.step (.hangUp ctxDone e)).bus.seq = s.bus.seq := by
  simp only [step]
  cases s.link <;> rfl

theorem sound_step {s : Session} (h : s.Sound) (room : s.bus.seq.toNat + 1 < 2 ^ 64)
    {ev : SessionStep} (may : s.May ev) : (s.step ev).Sound := by
  cases ev with
  | publish now e =>
      cases hlink : s.link with
      | some c =>
          simp only [step, hlink]
          exact sound_served h room hlink trivial
      | none =>
          simp only [step, hlink]
          have seq := Bus.seq_lt_publish room now e
          refine sound_unlinked rfl (fun hstale => UInt64.le_of_lt ?_) fun _ hstale => ?_
          · exact UInt64.lt_of_le_of_lt (h.cursor hstale) seq
          · exact UInt64.lt_of_le_of_lt (h.cursor hstale) seq
  | serve ev =>
      obtain ⟨c, hlink, hmay⟩ := may
      simp only [step, Option.mem_def.mp hlink]
      exact sound_served h room hlink hmay
  | connect =>
      refine ⟨h.cursor, nofun, fun _ => rfl, ?_⟩
      rintro c ⟨⟩
      exact Connection.sound_connect s.bus s.loop s.missed s.stale h.missed
  | refuse ctxDone e =>
      refine ⟨fun hstale => ?_, fun hmissed hstale => ?_, h.seen, h.linked⟩
      · exact (WatchLoop.lastSeq_failed s.loop ctxDone e).symm ▸ h.cursor hstale
      · exact (WatchLoop.lastSeq_failed s.loop ctxDone e).symm ▸ h.missed hmissed hstale
  | receive ctxDone => exact sound_receive h ctxDone
  | hangUp ctxDone e =>
      have hcursor : (s.step (.hangUp ctxDone e)).loop.lastSeq = s.loop.lastSeq :=
        WatchLoop.lastSeq_failed s.loop ctxDone e
      refine sound_unlinked rfl (fun hstale => ?_) fun hmissed hstale => ?_
      · rw [hcursor, seq_hangUp]
        exact h.cursor hstale
      · rw [hcursor, seq_hangUp]
        exact h.missed hmissed hstale
  | restart =>
      have hstale : (s.step .restart).stale ≠ false := Bool.noConfusion
      exact sound_unlinked rfl (fun h => absurd h hstale) fun _ h => absurd h hstale

theorem missAnnounced_step {s : Session} (h : s.Sound) {ev : SessionStep} (may : s.May ev)
    (before : s.MissAnnounced) : (s.step ev).MissAnnounced ↔ s.Announced ev := by
  cases ev with
  | publish now e =>
      refine iff_of_true ?_ trivial
      cases hlink : s.link with
      | none =>
          simp only [step, hlink]
          exact missAnnounced_unlinked rfl
      | some c =>
          simp only [step, hlink]
          rintro c' ⟨⟩ owes
          exact before c hlink owes
  | serve ev =>
      obtain ⟨c, hlink, hmay⟩ := may
      have hsound := h.linked c hlink
      simp only [step, Option.mem_def.mp hlink]
      cases ev with
      | forward now =>
          obtain ⟨e, received⟩ := Option.isSome_iff_exists.mp hmay
          constructor
          · rintro hafter c' hc' owes noLive e' he'
            cases hlink.symm.trans hc'
            cases received.symm.trans he'
            exact (Connection.gapFirst_forward hsound received owes (before c hlink owes)).mp
              (hafter _ rfl owes) noLive
          · rintro announced c' ⟨⟩ owes
            refine (Connection.gapFirst_forward hsound received owes (before c hlink owes)).mpr ?_
            exact fun noLive => announced c hlink owes noLive e received
      | publish | mark | greet | receive =>
          refine iff_of_true ?_ trivial
          rintro c' ⟨⟩ owes
          exact Connection.gapFirst_follow hsound hmay nofun (before c hlink owes)
  | connect =>
      refine iff_of_true ?_ trivial
      rintro c ⟨⟩ -
      exact gapFirst_of_not_hasLive fun ⟨_, hmem⟩ => absurd hmem List.not_mem_nil
  | refuse ctxDone e => exact iff_of_true before trivial
  | receive ctxDone =>
      refine iff_of_true ?_ trivial
      simp only [step]
      split
      · exact before
      · rename_i c m hnext
        obtain ⟨c', hlink, hmap⟩ := Option.bind_eq_some_iff.mp hnext
        obtain ⟨m', -, hpair⟩ := Option.map_eq_some_iff.mp hmap
        cases hpair
        rintro c'' ⟨⟩ owes
        exact before c hlink owes
  | hangUp | restart => exact iff_of_true (missAnnounced_unlinked rfl) trivial

theorem seq_step {s : Session} (h : s.Sound) {ev : SessionStep} (may : s.May ev) :
    (s.step ev).bus.seq.toNat ≤ s.bus.seq.toNat + 1 := by
  cases ev with
  | publish now e =>
      cases hlink : s.link <;> simp only [step, hlink]
      all_goals exact s.bus.seq_publish_le now e
  | serve ev =>
      obtain ⟨c, hlink, hmay⟩ := may
      simp only [step, Option.mem_def.mp hlink]
      exact Watching.seq_step (h.linked c hlink).watching hmay
  | connect | refuse => exact Nat.le_succ _
  | receive ctxDone =>
      simp only [step]
      split <;> exact Nat.le_succ _
  | hangUp ctxDone e =>
      rw [seq_hangUp]
      exact Nat.le_succ _
  | restart => exact Nat.zero_le _

theorem along_room {s : Session} (h : s.Sound) {steps : List SessionStep}
    (room : s.bus.seq.toNat + steps.length < 2 ^ 64) (may : Runs.Along step May s steps) :
    Runs.Along step (fun s ev => s.May ev ∧ s.bus.seq.toNat + 1 < 2 ^ 64) s steps := by
  refine Runs.Along.bounded Sound (fun s => s.bus.seq.toNat) h ?_ room may
  intro s ev hsound hmay hroom
  exact ⟨sound_step hsound hroom hmay, seq_step hsound hmay⟩

end Session

open Session in
/-- The streams a client opens announce what it missed while it had none exactly
if each of them, when it sends its first event, was opened with a cursor that is
not zero and that the daemon's counter has passed if it started over since, or has
dropped events of its own to announce. -/
theorem reconnects_announce_misses_iff (b : Bus) (options : WatchOptions)
    (steps : List SessionStep) (room : b.seq.toNat + steps.length < 2 ^ 64)
    (may : Runs.Along step May (start b options) steps) :
    Runs.Always step MissAnnounced (start b options) steps ↔
      Runs.Along step Announced (start b options) steps := by
  have sound := sound_start b options
  refine Runs.always_iff_along Sound sound (missAnnounced_unlinked rfl) ?_
    (along_room sound room may)
  intro s ev hsound ok before
  exact ⟨sound_step hsound ok.2 ok.1, missAnnounced_step hsound ok.1 before⟩

namespace Session

instance (s : Session) (ev : SessionStep) : Decidable (s.May ev) := by
  cases ev <;> unfold May <;> infer_instance

instance (sent : List WatchMessage) : Decidable (HasLive sent) :=
  decidable_of_iff (∃ m ∈ sent, m.isEvent = true) <| by
    constructor
    · rintro ⟨m, hm, hevent⟩
      cases m with
      | live e => exact ⟨e, hm⟩
      | state | sync | gap => cases hevent
    · rintro ⟨e, he⟩
      exact ⟨_, he, rfl⟩

instance (s : Session) (ev : SessionStep) : Decidable (s.Announced ev) := by
  unfold Announced
  split <;> infer_instance

/-- Whether the open stream owes a gap, sent the event `seq` and no gap. -/
def hides (seq : UInt64) (s : Session) : Bool :=
  s.link.any fun c =>
    c.owes && c.stream.sent.any (Watching.isLive seq) && !c.stream.sent.any Watching.isGap

theorem not_missAnnounced {s : Session} {seq : UInt64} (h : s.hides seq = true) :
    ¬ s.MissAnnounced := by
  intro announced
  obtain ⟨c, hlink, hc⟩ := (Option.any_eq_true _ _).mp h
  simp only [Bool.and_eq_true, Bool.not_eq_true'] at hc
  obtain ⟨⟨owes, live⟩, noGap⟩ := hc
  have hlive : HasLive c.stream.sent := by
    obtain ⟨m, hm, hlive⟩ := List.any_eq_true.mp live
    cases m with
    | live e => exact ⟨e, hm⟩
    | state | sync | gap => cases hlive
  obtain ⟨lo, hi, now, hgap⟩ := hasGap_of_hasLive (announced c hlink owes) hlive
  exact absurd rfl (List.any_eq_false.mp noGap _ hgap)

/-- Connecting, and receiving what is sent before the loop. -/
def connecting : List SessionStep :=
  [.connect, .serve .mark, .serve (.greet 0 [⟨"n1", "h1", "alive", true, "voter", 0⟩] "n1"),
    .receive false, .receive false, .receive false]

def joining : SessionStep := .publish 0 ⟨"member.join", "n2", .empty, 0, 0⟩

/-- The daemon has published nothing when the client first connects; the stream
breaks, an event is published, and the client connects again. -/
def idleFirst : List SessionStep :=
  connecting ++ [.hangUp false ⟨.unavailable, "EOF"⟩, joining] ++ connecting ++
    [joining, .serve .receive, .serve (.forward 0)]

theorem may_idleFirst : Runs.Along step May (start .new {}) idleFirst := by decide +kernel

theorem hides_idleFirst : (Runs.run step (start .new {}) idleFirst).hides 2 = true := by
  decide +kernel

end Session

open Session in
theorem reconnect_hides_miss :
    Runs.Along step May (start .new {}) idleFirst ∧
      ¬ Runs.Always step MissAnnounced (start .new {}) idleFirst :=
  ⟨may_idleFirst, fun always => not_missAnnounced hides_idleFirst always.last⟩

/-- The same after an event was published before the first connection. -/
def busyFirst : List SessionStep := Session.joining :: Session.idleFirst

open Session in
theorem reconnects_announce_misses_busy :
    Runs.Always step MissAnnounced (start .new {}) busyFirst ∧
      (Runs.run step (start .new {}) busyFirst).link.any (fun c =>
        c.owes && c.stream.sent.any (Watching.isLive 3)) = true :=
  ⟨(reconnects_announce_misses_iff .new {} busyFirst (by decide) (by decide +kernel)).mpr
    (by decide +kernel), by decide +kernel⟩

end Clusdr
