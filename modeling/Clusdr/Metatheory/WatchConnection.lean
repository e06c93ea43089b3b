import Clusdr.Core.SdkWatch
import Clusdr.Metatheory.SentGaps

/-!
One stream of a client that reconnects: what was sent on it before its first
event, and how its numbers stand to the daemon's counter. A stream that owes a
gap sends one on connecting, by the cursor it was opened with, or with its first
event, if events were dropped for it.
-/

namespace Clusdr

open Go (Time)
open Events (Event)
open EventBus (Bus)
open Clusdr.Membership (Member)
open Sdk (WatchLoop)

namespace Watching

theorem receive_stream (w : WatchStream) (b : Bus) :
    ((w.receive b).1 = w ∨ ∃ e, (w.receive b).1 = { w with received := some e }) ∧
      (w.receive b).2.seq = b.seq := by
  simp only [WatchStream.receive, Bus.receive]
  split
  · rename_i e b' h
    split at h
    · cases h
      refine ⟨?_, rfl⟩
      dsimp only
      split
      · exact Or.inr ⟨e, rfl⟩
      · exact Or.inl rfl
    · cases h
  · exact ⟨Or.inl rfl, rfl⟩

theorem seq_le_step {w : Watching} (room : w.bus.seq.toNat + 1 < 2 ^ 64) (ev : WatchStep) :
    w.bus.seq ≤ (w.step ev).bus.seq := by
  cases ev with
  | publish now e => exact UInt64.le_of_lt (Bus.seq_lt_publish room now e)
  | mark | greet => exact UInt64.le_refl _
  | receive =>
      change w.bus.seq ≤ (w.stream.receive w.bus).2.seq
      rw [(receive_stream w.stream w.bus).2]
      exact UInt64.le_refl _
  | forward now =>
      change w.bus.seq ≤ (w.stream.forward w.bus now).2.seq
      rw [WatchStream.seq_forward]
      exact UInt64.le_refl _

end Watching

/-- An open stream: the daemon's side of it, how many of its messages the client
has received, whether the client missed events before it was opened, and whether
its cursor was then from an earlier life of the daemon. -/
structure Connection where
  stream : WatchStream
  dropped : List UInt64
  read : Nat
  owes : Bool
  stale : Bool

namespace Connection

def watching (c : Connection) (b : Bus) : Watching := ⟨b, c.stream, c.dropped⟩

def follow (c : Connection) (w : Watching) : Connection :=
  { c with stream := w.stream, dropped := w.missed }

/-- What holds of an open stream: the numbers it was sent are the daemon's, and a
stream that owes a gap was opened behind the daemon's counter unless the daemon
restarted. -/
structure Sound (c : Connection) (b : Bus) : Prop where
  watching : (c.watching b).Sound
  marked : c.stream.fromSeq ≤ b.seq
  states : ∀ r, .state r ∈ c.stream.sent → r.seq = 0
  syncs : ∀ q now, .sync q now ∈ c.stream.sent → q = c.stream.fromSeq
  greeted : c.stream.phase = .looping → ¬ HasLive c.stream.sent →
    (HasGap c.stream.sent ↔ 0 < c.stream.req.lastSeq ∧ c.stream.req.lastSeq < c.stream.fromSeq)
  behind : c.owes = true → c.stale = false →
    if c.stream.phase = .subscribed then c.stream.req.lastSeq < b.seq
    else c.stream.req.lastSeq < c.stream.fromSeq

/-- Nothing sent and nothing noted: only the counter may have grown. -/
theorem Sound.mono {c c' : Connection} {b b' : Bus} (h : c.Sound b)
    (watching : (c'.watching b').Sound) (seq : b.seq ≤ b'.seq)
    (sent : c'.stream.sent = c.stream.sent) (phase : c'.stream.phase = c.stream.phase)
    (fromSeq : c'.stream.fromSeq = c.stream.fromSeq) (req : c'.stream.req = c.stream.req)
    (owes : c'.owes = c.owes) (stale : c'.stale = c.stale) : c'.Sound b' := by
  refine ⟨watching, ?_, ?_, ?_, ?_, ?_⟩
  · rw [fromSeq]
    exact UInt64.le_trans h.marked seq
  · rw [sent]
    exact h.states
  · rw [sent, fromSeq]
    exact h.syncs
  · rw [sent, phase, fromSeq, req]
    exact h.greeted
  · rw [phase, fromSeq, req, owes, stale]
    intro howes hstale
    have hbehind := h.behind howes hstale
    split at hbehind
    · rename_i hphase
      rw [if_pos hphase]
      exact UInt64.lt_of_lt_of_le hbehind seq
    · rename_i hphase
      rw [if_neg hphase]
      exact hbehind

/-- A stream with an event in hand is in its loop. -/
theorem Sound.looping {c : Connection} {b : Bus} (h : c.Sound b) {e : Event}
    (received : c.stream.received = some e) : c.stream.phase = .looping := by
  by_contra hne
  cases received.symm.trans (h.watching.silent hne).1

theorem sound_mark {c : Connection} {b : Bus} (h : c.Sound b)
    (watching : ((c.follow ((c.watching b).step .mark)).watching b).Sound)
    (may : (c.watching b).May .mark) : (c.follow ((c.watching b).step .mark)).Sound b := by
  have hphase : c.stream.phase = .subscribed := may
  have hsent : c.stream.sent = [] := (h.watching.silent (by rw [may]; decide)).2
  refine ⟨watching, UInt64.le_refl _, h.states, ?_, nofun, fun howes hstale => ?_⟩
  · intro q now hq
    exact absurd (hsent ▸ hq) List.not_mem_nil
  · have hbehind := h.behind howes hstale
    rw [if_pos hphase] at hbehind
    exact hbehind

theorem sound_greet {c : Connection} {b : Bus} (h : c.Sound b) {now : Time}
    {members : List Member} {leaderID : String}
    (watching : ((c.follow ((c.watching b).step (.greet now members leaderID))).watching b).Sound)
    (may : (c.watching b).May (.greet now members leaderID)) :
    (c.follow ((c.watching b).step (.greet now members leaderID))).Sound b := by
  have hphase : c.stream.phase = .marked := may
  have hsent : c.stream.sent = [] := (h.watching.silent (by rw [may]; decide)).2
  have hsent' : (c.follow ((c.watching b).step (.greet now members leaderID))).stream.sent =
      WatchStream.greeting c.stream.req c.stream.fromSeq now members leaderID := by
    change c.stream.sent ++ _ = _
    rw [hsent, List.nil_append]
    rfl
  obtain ⟨states, syncs, noLive, gap⟩ :=
    Watching.greeting_sent c.stream.req c.stream.fromSeq now members leaderID
  refine ⟨watching, h.marked, ?_, ?_, fun _ _ => ?_, fun howes hstale => ?_⟩
  · rw [hsent']
    exact states
  · rw [hsent']
    exact syncs
  · rw [hsent']
    exact gap
  · have hbehind := h.behind howes hstale
    rw [if_neg (by rw [hphase]; decide)] at hbehind
    exact hbehind

/-- What a stream sends with an event. -/
theorem sent_forward {c : Connection} {b : Bus} (h : c.Sound b) {e : Event}
    (received : c.stream.received = some e) (now : Time) :
    (c.follow ((c.watching b).step (.forward now))).stream.sent =
      c.stream.sent ++ (if (c.watching b).flag then
        WatchStream.gapBefore c.stream.lastLive now e else []) ++ [.live e] := by
  obtain ⟨sub, hsub⟩ := h.watching.subscribed
  have hflag : (c.watching b).flag = sub.dropped := by
    rw [Watching.flag, hsub, Option.map_some, Option.getD_some]
  rw [hflag]
  exact congrArg WatchStream.sent (Watching.step_forward hsub received now).1

theorem sound_forward {c : Connection} {b : Bus} (h : c.Sound b) {now : Time} {e : Event}
    (received : c.stream.received = some e)
    (watching : ((c.watching b).step (.forward now)).Sound) :
    (c.follow ((c.watching b).step (.forward now))).Sound
      ((c.watching b).step (.forward now)).bus := by
  obtain ⟨sub, hsub⟩ := h.watching.subscribed
  obtain ⟨hstream, -, hseq⟩ := Watching.step_forward hsub received now
  have hphase' : (c.follow ((c.watching b).step (.forward now))).stream.phase = c.stream.phase :=
    (congrArg WatchStream.phase hstream).trans rfl
  have hfrom' : (c.follow ((c.watching b).step (.forward now))).stream.fromSeq =
      c.stream.fromSeq := (congrArg WatchStream.fromSeq hstream).trans rfl
  have hreq' : (c.follow ((c.watching b).step (.forward now))).stream.req = c.stream.req :=
    (congrArg WatchStream.req hstream).trans rfl
  have hsent := sent_forward h received now
  have hnew : ∀ m, m ∈ (c.follow ((c.watching b).step (.forward now))).stream.sent →
      m ∈ c.stream.sent ∨ (∃ lo hi at', m = .gap lo hi at') ∨ m = .live e := by
    intro m hm
    rw [hsent, List.append_assoc] at hm
    refine (List.mem_append.mp hm).imp_right fun hm => ?_
    refine (List.mem_append.mp hm).imp (fun hm => ?_) List.mem_singleton.mp
    split at hm
    · exact ⟨_, _, _, List.mem_singleton.mp (List.mem_ite_nil_right.mp hm).2⟩
    · exact absurd hm List.not_mem_nil
  refine ⟨watching, ?_, ?_, ?_, ?_, ?_⟩
  · rw [hseq, hfrom']
    exact h.marked
  · intro r hr
    rcases hnew _ hr with hold | ⟨_, _, _, hgap⟩ | hlive
    · exact h.states r hold
    · cases hgap
    · cases hlive
  · intro q at' hq
    rcases hnew _ hq with hold | ⟨_, _, _, hgap⟩ | hlive
    · exact (h.syncs q at' hold).trans hfrom'.symm
    · cases hgap
    · cases hlive
  · intro _ noLive
    refine absurd ⟨e, ?_⟩ noLive
    rw [hsent]
    exact List.mem_append_right _ (List.mem_singleton_self _)
  · intro howes hstale
    have hphase := h.looping received
    have hbehind := h.behind howes hstale
    rw [if_neg (by rw [hphase]; decide)] at hbehind
    rw [hphase', hfrom', hreq', if_neg (by rw [hphase]; decide)]
    exact hbehind

theorem sound_step {c : Connection} {b : Bus} (h : c.Sound b) (room : b.seq.toNat + 1 < 2 ^ 64)
    {ev : WatchStep} (may : (c.watching b).May ev) :
    (c.follow ((c.watching b).step ev)).Sound ((c.watching b).step ev).bus := by
  have watching := Watching.sound_step h.watching room may
  have seq := Watching.seq_le_step (w := c.watching b) room ev
  cases ev with
  | publish now e => exact h.mono watching seq rfl rfl rfl rfl rfl rfl
  | mark => exact sound_mark h watching may
  | greet now members leaderID => exact sound_greet h watching may
  | receive =>
      rcases (Watching.receive_stream c.stream b).1 with hstream | ⟨e, hstream⟩
      · have hfollow : (c.follow ((c.watching b).step .receive)).stream = c.stream := hstream
        refine h.mono watching seq ?_ ?_ ?_ ?_ rfl rfl <;> rw [hfollow]
      · have hfollow : (c.follow ((c.watching b).step .receive)).stream =
            { c.stream with received := some e } := hstream
        refine h.mono watching seq ?_ ?_ ?_ ?_ rfl rfl <;> rw [hfollow]
  | forward now =>
      obtain ⟨e, received⟩ := Option.isSome_iff_exists.mp may
      exact sound_forward h received watching

theorem sound_connect (b : Bus) (loop : WatchLoop) (owes stale : Bool)
    (behind : owes = true → stale = false → loop.lastSeq < b.seq) :
    (Connection.mk (WatchStream.subscribe b 64 loop.request).2 [] 0 owes stale).Sound
      (WatchStream.subscribe b 64 loop.request).1 where
  watching := Watching.sound_start b 64 loop.request
  marked := UInt64.zero_le
  states := nofun
  syncs := nofun
  greeted := nofun
  behind := behind

/-- No message has a number the daemon has not given out. -/
theorem seq_le_of_sent {c : Connection} {b : Bus} (h : c.Sound b) {m : WatchMessage}
    (sent : m ∈ c.stream.sent) : m.response.seq ≤ b.seq := by
  cases m with
  | state r =>
      change r.seq ≤ b.seq
      rw [h.states r sent]
      exact UInt64.zero_le
  | sync q now =>
      change q ≤ b.seq
      rw [h.syncs q now sent]
      exact h.marked
  | gap => exact UInt64.zero_le
  | live e =>
      have hitem : Feed.Note.item e.seq.toNat ∈ (c.watching b).feed.told :=
        List.mem_map_of_mem (f := WatchMessage.note) sent
      have hle := h.watching.ordered.items _ hitem
      have hbound := h.watching.ordered.bounded _ List.mem_cons_self
      exact UInt64.le_iff_toNat_le.mpr (Nat.le_trans hle hbound)

/-- A stream that has sent no event has noted none. -/
theorem lastLive_eq_zero {c : Connection} {b : Bus} (h : c.Sound b)
    (noLive : ¬ HasLive c.stream.sent) : c.stream.lastLive = 0 := by
  rcases h.watching.ordered.last with hzero | hitem
  · exact UInt64.toNat_inj.mp hzero
  · obtain ⟨m, hm, hnote⟩ := List.mem_map.mp hitem
    cases m with
    | live e => exact absurd ⟨e, hm⟩ noLive
    | state | sync | gap => cases hnote

/-- The first event of a stream that owes a gap is preceded by one exactly under
the condition of `Announced`. -/
theorem gapFirst_forward {c : Connection} {b : Bus} (h : c.Sound b) {now : Time} {e : Event}
    (received : c.stream.received = some e) (owes : c.owes = true)
    (before : GapFirst c.stream.sent) :
    GapFirst (c.follow ((c.watching b).step (.forward now))).stream.sent ↔
      (¬ HasLive c.stream.sent →
        (0 < c.stream.req.lastSeq ∧ (c.stale = true → c.stream.req.lastSeq < c.stream.fromSeq)) ∨
          ((c.watching b).flag = true ∧ 1 < e.seq)) := by
  have noLiveGaps : ¬ HasLive (if (c.watching b).flag then
      WatchStream.gapBefore c.stream.lastLive now e else []) := by
    split
    · exact Watching.not_hasLive_gapBefore _ now e
    · exact fun ⟨_, hmem⟩ => absurd hmem List.not_mem_nil
  rw [sent_forward h received now, gapFirst_append before noLiveGaps, hasGap_append]
  by_cases live : HasLive c.stream.sent
  · exact iff_of_true (Or.inl (hasGap_of_hasLive before live)) fun noLive => absurd live noLive
  · have looping := h.looping received
    have behind : c.stale = false → c.stream.req.lastSeq < c.stream.fromSeq := by
      intro hstale
      have hbehind := h.behind owes hstale
      rwa [if_neg (by rw [looping]; decide)] at hbehind
    have hgaps : HasGap (if (c.watching b).flag then
        WatchStream.gapBefore c.stream.lastLive now e else []) ↔
          (c.watching b).flag = true ∧ 1 < e.seq := by
      rw [lastLive_eq_zero h live, ← Watching.gapBefore_zero now e]
      split
      · rename_i hflag
        exact (and_iff_right hflag).symm
      · rename_i hflag
        exact iff_of_false (fun ⟨_, _, _, hmem⟩ => absurd hmem List.not_mem_nil)
          fun hand => hflag hand.1
    rw [h.greeted looping live, hgaps, forall_prop_of_true live]
    refine or_congr_left (and_congr_right fun _ => ⟨fun hlt _ => hlt, fun hstale => ?_⟩)
    cases hs : c.stale with
    | false => exact behind hs
    | true => exact hstale hs

/-- Only passing an event on can leave a gap out. -/
theorem gapFirst_follow {c : Connection} {b : Bus} (h : c.Sound b) {ev : WatchStep}
    (may : (c.watching b).May ev) (notForward : ∀ now, ev ≠ .forward now)
    (before : GapFirst c.stream.sent) :
    GapFirst (c.follow ((c.watching b).step ev)).stream.sent := by
  cases ev with
  | publish | mark => exact before
  | greet now members leaderID =>
      have hsent : c.stream.sent = [] := (h.watching.silent (by rw [may]; decide)).2
      refine gapFirst_of_not_hasLive ?_
      change ¬ HasLive (c.stream.sent ++ WatchStream.greeting _ _ _ _ _)
      rw [hsent, List.nil_append]
      exact (Watching.greeting_sent _ _ _ _ _).2.2.1
  | receive =>
      have hsent : (c.follow ((c.watching b).step .receive)).stream.sent = c.stream.sent := by
        change (c.stream.receive b).1.sent = c.stream.sent
        rcases (Watching.receive_stream c.stream b).1 with hstream | ⟨e, hstream⟩ <;> rw [hstream]
      rw [hsent]
      exact before
  | forward now => exact absurd rfl (notForward now)

end Connection

end Clusdr
