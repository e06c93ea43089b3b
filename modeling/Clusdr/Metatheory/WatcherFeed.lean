import Clusdr.Metatheory.WatchedDaemon

/-!
Each cell of a client's view as a reader of writes that travel behind the value:
what a step of the daemon or of the stream does to the value, to the writes on
their way and to the copy.
-/

namespace Clusdr

open Go (Time Unicode)
open Events (Event Payload)
open EventBus (Bus Subscriber)
open Clusdr.Membership (Engine)

namespace Viewing

/-- The goroutine that changes a cell. -/
def owner : Cell → Thread
  | .member _ => .fsm
  | .leader => .observer

/-- What has been offered to the stream and not been passed on. -/
def queue (s : Viewing) : List Event :=
  match s.stream with
  | none => []
  | some w => w.received.toList ++ s.channel w

/-- What the client has of a cell, once the stream has read it. -/
def copy (s : Viewing) (k : Cell) : Option (Option String) :=
  match s.stream with
  | none => none
  | some w =>
      if w.phase = .looping then some ((View.ofMessages w.sent).cell k)
      else match k with
        | .member id => s.members.map fun ms => Feed.latest none (listed ms id)
        | .leader => s.leaderID.map some

/-- The cell as a value with a reader. -/
def followed (s : Viewing) (k : Cell) : Feed.Followed (Option String) where
  value := s.fsm.applier.view.cell k
  pending := (s.queue ++ (s.emitters (owner k)).pending).filterMap k.ofEvent
  copy := s.copy k

/-- Whether a write to the cell leaves the daemon, when this event does. -/
def arrivals (k : Cell) (e : Option Event) : List (Feed.Follow (Option String)) :=
  if (e.bind k.ofEvent).isSome then [.arrive] else []

/-- What a step does to the value and its reader. -/
def ops [Unicode] (s : Viewing) (k : Cell) : ViewStep → List (Feed.Follow (Option String))
  | .apply now cmd => [.write ((s.fsm.applyCommand now cmd).2.2.filterMap k.ofEvent)]
  | .setLeader id => [.write ((s.fsm.applier.setLeader id).2.filterMap k.ofEvent)]
  | .offer th =>
      -- Without a stream the event is gone; it writes the cell only if it is the owner's.
      if s.stream.isNone then arrivals k (s.emitters th).numbered else []
  | .readMembers => if k = .leader then [] else [.take]
  | .readLeader => if k = .leader then [.take] else []
  | .forward _ => arrivals k (s.stream.bind WatchStream.received)
  | .publish _ _ _ _ | .number _ _ | .subscribe _ | .mark | .greet _ | .receive => []

structure Sound (s : Viewing) : Prop where
  reachable : s.fsm.applier.Reachable
  quiet : ∀ th, ∀ e ∈ (s.emitters th).pending, ∀ k, owner k ≠ th → k.ofEvent e = none
  unfiltered : ∀ w ∈ s.stream, w.req.Unfiltered
  subscribed : ∀ w ∈ s.stream, ∃ sub, s.bus.subs.get w.sub = some sub
  unsent : ∀ w ∈ s.stream, w.phase ≠ .looping → w.received = none ∧ w.sent = []
  unread : s.stream = none → s.members = none ∧ s.leaderID = none
  normal : ∀ ms ∈ s.members, ∀ m ∈ ms, m.Normal

theorem filterMap_silent {k : Cell} {emitted : List Event}
    (h : ∀ e ∈ emitted, k.ofEvent e = none) : emitted.filterMap k.ofEvent = [] :=
  List.filterMap_eq_nil_iff.mpr h

theorem custom_silent (topic source : String) (payload : Payload) (k : Cell) :
    k.ofEvent { type := Events.typeCustomPrefix ++ topic, source, payload } = none := by
  refine Cell.written_of_not_mem (fun hmem => ?_) _ k
  have hhead : ∀ type ∈ Cell.types, type.toList.head? ≠ some 'c' := by decide
  refine hhead _ hmem ?_
  rw [String.toList_append]
  rfl

/-- A write that the goroutine sends off joins those on their way. -/
theorem pending_owe {s : Viewing} {th : Thread} (idle : (s.emitters th).IsIdle)
    {emitted : List Event} (k : Cell) (silent : owner k ≠ th → emitted.filterMap k.ofEvent = []) :
    ((s.owe th emitted).followed k).pending =
      (s.followed k).pending ++ emitted.filterMap k.ofEvent := by
  change (s.queue ++ (Function.update s.emitters th ⟨none, emitted⟩ (owner k)).pending).filterMap
      k.ofEvent = (s.queue ++ (s.emitters (owner k)).pending).filterMap k.ofEvent ++
      emitted.filterMap k.ofEvent
  by_cases hth : owner k = th
  · rw [hth, Function.update_self, Emitter.pending_idle idle, List.append_nil,
      List.filterMap_append]
    rfl
  · rw [Function.update_of_ne hth, silent hth, List.append_nil]

/-- An event that leaves a list takes its write to the cell with it. -/
theorem arrivals_cons (k : Cell) (e : Event) (es : List Event) (value : Option String)
    (copy : Option (Option String)) :
    (arrivals k (some e)).foldl Feed.Followed.step ⟨value, (e :: es).filterMap k.ofEvent, copy⟩ =
      ⟨value, es.filterMap k.ofEvent, copy.map fun c => (k.ofEvent e).getD c⟩ := by
  unfold arrivals
  cases he : k.ofEvent e with
  | none => simp [he]
  | some x => simp [he, Feed.Followed.step]

/-- Passing an event on changes neither the place of the stream nor its channel, and
the client folds the event. -/
theorem forward_fields {w : WatchStream} {e : Event} (he : w.received = some e) (b : Bus)
    (now : Time) : (w.forward b now).1.received = none ∧ (w.forward b now).1.sub = w.sub ∧
      (w.forward b now).1.phase = w.phase ∧ ∀ k : Cell,
        (View.ofMessages (w.forward b now).1.sent).cell k =
          (k.ofEvent e).getD ((View.ofMessages w.sent).cell k) := by
  simp only [WatchStream.forward, he]
  refine ⟨trivial, trivial, trivial, fun k => ?_⟩
  have hgaps : (if (b.takeDropped w.sub).1 then WatchStream.gapBefore w.lastLive now e else
      []).filterMap k.ofMessage = [] := by
    unfold WatchStream.gapBefore
    split
    · generalize (if w.lastLive > 0 then w.lastLive + 1 else 1) = lo
      dsimp only
      split
      · exact List.filterMap_cons_none (k.ofMessage_gap _ _ _)
      · rfl
    · rfl
  rw [View.cell_ofMessages_append, View.cell_ofMessages_append, hgaps, Feed.latest_nil]
  have hlive : k.ofMessage (.live e) = k.ofEvent e := rfl
  rw [List.filterMap_cons, hlive]
  cases k.ofEvent e <;> rfl

section Steps
variable [Unicode] {s : Viewing}

/-- The step does to the cell what its operations do. -/
def Follows (s : Viewing) (ev : ViewStep) : Prop :=
  ∀ k, (s.step ev).followed k = (s.ops k ev).foldl Feed.Followed.step (s.followed k)

theorem follows_apply (now : Time) (cmd : Consensus.Command) (may : s.May (.apply now cmd)) :
    s.Follows (.apply now cmd) := by
  intro k
  have htells := s.fsm.tells_applyCommand now cmd
  have hsilent : owner k ≠ .fsm →
      (s.fsm.applyCommand now cmd).2.2.filterMap k.ofEvent = [] := fun hk =>
    filterMap_silent fun ev hev => htells.silent ev hev k (by cases k with
      | member id => exact absurd rfl hk
      | leader => rfl)
  exact congrArg₂ (fun v p => Feed.Followed.mk v p (s.copy k)) (htells.told k)
    (pending_owe may k hsilent)

theorem follows_setLeader (id : String) (may : s.May (.setLeader id)) :
    s.Follows (.setLeader id) := by
  intro k
  have htells := s.fsm.applier.tells_setLeader id
  have hsilent : owner k ≠ .observer →
      (s.fsm.applier.setLeader id).2.filterMap k.ofEvent = [] := fun hk =>
    filterMap_silent fun ev hev => htells.silent ev hev k (by rintro rfl; exact hk rfl)
  exact congrArg₂ (fun v p => Feed.Followed.mk v p (s.copy k)) (htells.told k)
    (pending_owe may k hsilent)

theorem follows_publish (n : Nat) (topic source : String) (payload : Payload)
    (may : s.May (.publish n topic source payload)) :
    s.Follows (.publish n topic source payload) := by
  intro k
  have hsilent := List.filterMap_cons_none (custom_silent topic source payload k) (l := [])
  have hpending := pending_owe may k fun _ => hsilent
  rw [hsilent] at hpending
  exact congrArg (fun p => Feed.Followed.mk _ p (s.copy k))
    (hpending.trans (List.append_nil _))

theorem follows_number (th : Thread) (now : Time) (may : s.May (.number th now)) :
    s.Follows (.number th now) := by
  intro k
  obtain ⟨hnumbered, howed⟩ := may
  cases hlist : (s.emitters th).owed with
  | nil => rw [hlist] at howed; cases howed
  | cons e owed =>
      have hstep : s.step (.number th now) = { s with
          bus := (s.bus.number now e).1
          emitters := Function.update s.emitters th ⟨some (s.bus.number now e).2, owed⟩ } := by
        simp only [step, hlist]
      rw [hstep]
      refine Feed.Followed.ext rfl ?_ rfl
      change (s.queue ++ (Function.update s.emitters th _ (owner k)).pending).filterMap k.ofEvent =
        (s.queue ++ (s.emitters (owner k)).pending).filterMap k.ofEvent
      by_cases hth : owner k = th
      · -- The number and the time are not what a cell reads.
        have hsame : k.ofEvent (s.bus.number now e).2 = k.ofEvent e := rfl
        rw [hth, Function.update_self, Emitter.pending, Emitter.pending, hlist,
          Option.isNone_iff_eq_none.mp hnumbered]
        simp only [List.filterMap_append, Option.toList_some, Option.toList_none,
          List.filterMap_cons, List.filterMap_nil, hsame, List.nil_append]
        cases k.ofEvent e <;> rfl
      · rw [Function.update_of_ne hth]

theorem follows_offer (sound : s.Sound) (th : Thread) (may : s.May (.offer th))
    (kept : s.Kept (.offer th)) : s.Follows (.offer th) := by
  intro k
  obtain ⟨e, he⟩ := Option.isSome_iff_exists.mp may
  have hpending : (s.emitters th).pending = e :: (s.emitters th).owed := by
    rw [Emitter.pending, he]
    rfl
  have hquiet : owner k ≠ th → k.ofEvent e = none :=
    sound.quiet th e (hpending ▸ List.mem_cons_self) k
  have hstep : s.step (.offer th) = { s with
      bus := s.bus.offer e
      emitters := Function.update s.emitters th ⟨none, (s.emitters th).owed⟩ } := by
    simp only [step, he]
  rw [hstep]
  cases hstream : s.stream with
  | none =>
      have hops : s.ops k (.offer th) = arrivals k (some e) := by simp [ops, hstream, he]
      rw [hops]
      by_cases hth : owner k = th
      · have hold : s.followed k = ⟨s.fsm.applier.view.cell k,
            (e :: (s.emitters th).owed).filterMap k.ofEvent, none⟩ := by
          simp only [followed, queue, copy, hstream, hth, hpending, List.nil_append]
        rw [hold, arrivals_cons]
        simp [followed, queue, copy, hth, Emitter.pending]
      · have hnone : arrivals k (some e) = [] := by simp [arrivals, hquiet hth]
        rw [hnone]
        simp [followed, queue, copy, hstream, hth]
  | some w =>
      obtain ⟨sub, hsub⟩ := sound.subscribed w hstream
      have hroom := kept w hstream sub hsub
      have hget : (s.bus.offer e).subs.get w.sub = some { sub with ch := sub.ch ++ [e] } := by
        simp [Bus.offer, Go.Map.get_mapValues, hsub, Subscriber.offer, hroom]
      have hops : s.ops k (.offer th) = [] := by simp [ops, hstream]
      rw [hops]
      refine Feed.Followed.ext rfl ?_ (by simp [followed, copy, hstream])
      by_cases hth : owner k = th
      · cases hk : k.ofEvent e <;>
          simp [followed, queue, channel, hstream, hget, hsub, hth, Emitter.pending, he, hk]
      · simp [followed, queue, channel, hstream, hget, hsub, hth, hquiet hth]

theorem follows_subscribe (sound : s.Sound) (lastSeq : UInt64) (may : s.May (.subscribe lastSeq)) :
    s.Follows (.subscribe lastSeq) := by
  intro k
  have hstream := Option.isNone_iff_eq_none.mp may
  obtain ⟨hmembers, hleader⟩ := sound.unread hstream
  refine Feed.Followed.ext rfl ?_ ?_
  · simp [followed, queue, channel, step, ops, hstream, WatchStream.subscribe, Bus.subscribe]
  · cases k <;>
      simp [followed, copy, step, ops, hstream, hmembers, hleader, WatchStream.subscribe]

theorem follows_mark (may : s.May .mark) : s.Follows .mark := by
  intro k
  obtain ⟨w, hstream, hphase⟩ := may
  rw [Option.mem_def] at hstream
  refine Feed.Followed.ext rfl ?_ ?_
  · simp [followed, queue, channel, step, ops, hstream, WatchStream.mark]
  · simp [followed, copy, step, ops, hstream, hphase, WatchStream.mark]

theorem follows_readMembers (sound : s.Sound) (may : s.May .readMembers) :
    s.Follows .readMembers := by
  intro k
  obtain ⟨⟨w, hstream, hphase⟩, -⟩ := may
  rw [Option.mem_def] at hstream
  cases k with
  | member id =>
      refine Feed.Followed.ext rfl rfl ?_
      have hlisted := latest_listed sound.reachable.valid.keyed id
      simp [followed, copy, step, ops, hstream, hphase, Feed.Followed.step, hlisted]
  | leader =>
      refine Feed.Followed.ext rfl rfl ?_
      simp [followed, copy, step, ops, hstream, hphase]

theorem follows_readLeader (may : s.May .readLeader) : s.Follows .readLeader := by
  intro k
  obtain ⟨⟨w, hstream, hphase⟩, -⟩ := may
  rw [Option.mem_def] at hstream
  refine Feed.Followed.ext ?_ ?_ ?_ <;> cases k <;>
    simp [followed, queue, channel, copy, step, ops, hstream, hphase, Feed.Followed.step,
      Engine.view, View.cell]

theorem follows_greet (sound : s.Sound) (now : Time) (may : s.May (.greet now)) :
    s.Follows (.greet now) := by
  intro k
  obtain ⟨⟨w, hstream, hphase⟩, hmembers, hleader⟩ := may
  obtain ⟨ms, hms⟩ := Option.isSome_iff_exists.mp hmembers
  obtain ⟨leaderID, hid⟩ := Option.isSome_iff_exists.mp hleader
  obtain ⟨-, hsent⟩ := sound.unsent w hstream (by rw [hphase]; exact nofun)
  have hcell := WatchStream.cell_greeting (sound.unfiltered w hstream) w.fromSeq now
    (sound.normal ms hms) leaderID k
  rw [Option.mem_def] at hstream
  refine Feed.Followed.ext rfl ?_ ?_
  · simp [followed, queue, channel, step, ops, hstream, WatchStream.greet]
  · cases k <;>
      simp [followed, copy, step, ops, hstream, hphase, hms, hid, WatchStream.greet, hsent, hcell]

theorem follows_receive (sound : s.Sound) (may : s.May .receive) : s.Follows .receive := by
  intro k
  obtain ⟨w, hstream, hphase, hreceived, hchannel⟩ := may
  obtain ⟨⟨cap, ch, dropped⟩, hsub⟩ := sound.subscribed w hstream
  have haccepts := (sound.unfiltered w hstream).accepts
  rw [Option.mem_def] at hstream
  rw [Option.isNone_iff_eq_none] at hreceived
  cases ch with
  | nil => simp [channel, hsub] at hchannel
  | cons e ch =>
      refine Feed.Followed.ext ?_ ?_ ?_
      · simp [followed, step, ops, hstream]
      · simp [followed, queue, channel, step, ops, hstream, WatchStream.receive, Bus.receive, hsub,
          haccepts, hreceived]
      · simp [followed, copy, step, ops, hstream, WatchStream.receive, Bus.receive, hsub, haccepts]

theorem follows_forward (sound : s.Sound) (now : Time) (may : s.May (.forward now)) :
    s.Follows (.forward now) := by
  intro k
  obtain ⟨w, hstream, hreceived⟩ := may
  obtain ⟨e, he⟩ := Option.isSome_iff_exists.mp hreceived
  obtain ⟨sub, hsub⟩ := sound.subscribed w hstream
  have hphase : w.phase = .looping := by
    by_contra hphase
    have hnone := (sound.unsent w hstream hphase).1
    rw [he] at hnone
    cases hnone
  rw [Option.mem_def] at hstream
  have hold : s.followed k = ⟨s.fsm.applier.view.cell k,
      (e :: (s.channel w ++ (s.emitters (owner k)).pending)).filterMap k.ofEvent,
      some ((View.ofMessages w.sent).cell k)⟩ := by
    simp [followed, queue, copy, hstream, he, hphase]
  have hops : s.ops k (.forward now) = arrivals k (some e) := by simp [ops, hstream, he]
  rw [hops, hold, arrivals_cons]
  obtain ⟨hnone, hsame, hkept, hcell⟩ := forward_fields he s.bus now
  have hchannel : (w.forward s.bus now).2.subs.get w.sub = some { sub with dropped := false } := by
    simp [WatchStream.forward, he, Bus.takeDropped, hsub]
  refine Feed.Followed.ext ?_ ?_ ?_
  · simp [followed, step, hstream]
  · simp [followed, step, queue, channel, hstream, hchannel, hsub, hnone, hsame]
  · simp [followed, step, copy, hstream, hkept, hphase, hcell k]

theorem follows_step (sound : s.Sound) (ev : ViewStep) (may : s.May ev) (kept : s.Kept ev) :
    s.Follows ev := by
  cases ev with
  | apply now cmd => exact follows_apply now cmd may
  | setLeader id => exact follows_setLeader id may
  | publish n topic source payload => exact follows_publish n topic source payload may
  | number th now => exact follows_number th now may
  | offer th => exact follows_offer sound th may kept
  | subscribe lastSeq => exact follows_subscribe sound lastSeq may
  | mark => exact follows_mark may
  | readMembers => exact follows_readMembers sound may
  | readLeader => exact follows_readLeader may
  | greet now => exact follows_greet sound now may
  | receive => exact follows_receive sound may
  | forward now => exact follows_forward sound now may

end Steps

end Viewing

end Clusdr
