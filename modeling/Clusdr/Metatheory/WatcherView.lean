import Clusdr.Metatheory.WatcherFeed
import Clusdr.Runs.Along

/-!
The view of a watcher converges. Whatever the goroutines of the daemon do while a
stream connects, once they are idle and the stream is drained its client has the
engine's view.
-/

namespace Clusdr

open Go (Time Unicode)
open EventBus (Bus)
open Clusdr.Membership (Engine Member statusAlive statusDead)

namespace Viewing

variable {s : Viewing}

theorem quiet_update (sound : s.Sound) {th : Thread} {p : Emitter}
    (h : ∀ e ∈ p.pending, ∀ k, owner k ≠ th → k.ofEvent e = none) (th' : Thread) :
    ∀ e ∈ (Function.update s.emitters th p th').pending, ∀ k, owner k ≠ th' →
      k.ofEvent e = none := by
  by_cases hth : th' = th
  · subst hth
    rw [Function.update_self]
    exact h
  · rw [Function.update_of_ne hth]
    exact sound.quiet th'

theorem sound_stream (sound : s.Sound) {b : Bus} {w : WatchStream} (unfiltered : w.req.Unfiltered)
    (subscribed : ∃ sub, b.subs.get w.sub = some sub)
    (unsent : w.phase ≠ .looping → w.received = none ∧ w.sent = []) :
    Sound { s with bus := b, stream := some w } where
  reachable := sound.reachable
  quiet := sound.quiet
  unfiltered w' hw := by cases hw; exact unfiltered
  subscribed w' hw := by cases hw; exact subscribed
  unsent w' hw := by cases hw; exact unsent
  unread := nofun
  normal := sound.normal

variable [Unicode]

theorem sound_apply (sound : s.Sound) (now : Time) (cmd : Consensus.Command) :
    (s.step (.apply now cmd)).Sound := by
  have htells := s.fsm.tells_applyCommand now cmd
  refine ⟨?_, ?_, sound.unfiltered, sound.subscribed, sound.unsent, sound.unread, sound.normal⟩
  · change (s.fsm.applyCommand now cmd).1.applier.Reachable
    rw [Consensus.applyCommand_applier, Consensus.memberCommand_act]
    cases cmd.memberAction now with
    | none => exact sound.reachable
    | some a => exact sound.reachable.act a
  · refine quiet_update sound fun e he k hk => htells.silent e he k ?_
    cases k with
    | member id => exact absurd rfl hk
    | leader => rfl

theorem sound_setLeader (sound : s.Sound) (id : String) : (s.step (.setLeader id)).Sound := by
  have htells := s.fsm.applier.tells_setLeader id
  refine ⟨sound.reachable.act (.setLeader id), ?_, sound.unfiltered, sound.subscribed,
    sound.unsent, sound.unread, sound.normal⟩
  refine quiet_update sound fun e he k hk => htells.silent e he k ?_
  rintro rfl
  exact hk rfl

theorem sound_number (sound : s.Sound) (th : Thread) (now : Time) :
    (s.step (.number th now)).Sound := by
  simp only [step]
  split
  · exact sound
  · rename_i e owed hlist
    refine ⟨sound.reachable, quiet_update sound fun e' he' k hk => ?_, sound.unfiltered,
      sound.subscribed, sound.unsent, sound.unread, sound.normal⟩
    have hold : ∀ e' ∈ e :: owed, k.ofEvent e' = none := fun e' he' =>
      sound.quiet th e' (List.mem_append_right _ (hlist ▸ he')) k hk
    cases List.mem_cons.mp he' with
    | inl h => rw [h]; exact hold e List.mem_cons_self
    | inr h => exact hold e' (List.mem_cons_of_mem _ h)

theorem sound_offer (sound : s.Sound) (th : Thread) : (s.step (.offer th)).Sound := by
  simp only [step]
  split
  · exact sound
  · rename_i e he
    refine ⟨sound.reachable, quiet_update sound fun e' he' k hk => ?_, sound.unfiltered,
      fun w hw => ?_, sound.unsent, sound.unread, sound.normal⟩
    · exact sound.quiet th e' (List.mem_append_right _ he') k hk
    · obtain ⟨sub, hsub⟩ := sound.subscribed w hw
      exact ⟨sub.offer e, by simp [Bus.offer, Go.Map.get_mapValues, hsub]⟩

theorem sound_greet (sound : s.Sound) (now : Time) (may : s.May (.greet now)) :
    (s.step (.greet now)).Sound := by
  obtain ⟨⟨w, hstream, -⟩, -⟩ := may
  have hstep : s.step (.greet now) = { s with
      stream := some (w.greet now (s.members.getD []) (s.leaderID.getD "")) } := by
    rw [step, Option.mem_def.mp hstream, Option.map_some]
  rw [hstep]
  exact sound_stream sound (sound.unfiltered w hstream) (sound.subscribed w hstream)
    fun h => absurd rfl h

theorem sound_receive (sound : s.Sound) (may : s.May .receive) : (s.step .receive).Sound := by
  obtain ⟨w, hstream, hphase, -⟩ := may
  obtain ⟨sub, hsub⟩ := sound.subscribed w hstream
  have hstep : s.step .receive =
      { s with stream := some (w.receive s.bus).1, bus := (w.receive s.bus).2 } := by
    simp only [step, Option.mem_def.mp hstream]
  rw [hstep]
  cases hreceive : s.bus.receive w.sub with
  | none =>
      simp only [WatchStream.receive, hreceive]
      exact sound_stream sound (sound.unfiltered w hstream) ⟨sub, hsub⟩ fun h => absurd hphase h
  | some next =>
      obtain ⟨e, b⟩ := next
      obtain ⟨cap, ch, dropped, -, rfl⟩ := Bus.receive_eq_some hreceive
      simp only [WatchStream.receive, hreceive, (sound.unfiltered w hstream).accepts, if_true]
      exact sound_stream sound (sound.unfiltered w hstream) ⟨_, Go.Map.get_set_self _ _ _⟩
        fun h => absurd hphase h

theorem sound_forward (sound : s.Sound) (now : Time) (may : s.May (.forward now)) :
    (s.step (.forward now)).Sound := by
  obtain ⟨w, hstream, hreceived⟩ := may
  obtain ⟨e, he⟩ := Option.isSome_iff_exists.mp hreceived
  obtain ⟨sub, hsub⟩ := sound.subscribed w hstream
  have hstep : s.step (.forward now) =
      { s with stream := some (w.forward s.bus now).1, bus := (w.forward s.bus now).2 } := by
    simp only [step, Option.mem_def.mp hstream]
  rw [hstep]
  simp only [WatchStream.forward, he, Bus.takeDropped, hsub]
  refine sound_stream sound (sound.unfiltered w hstream) ⟨_, Go.Map.get_set_self _ _ _⟩ fun h => ?_
  have hnone := (sound.unsent w hstream h).1
  rw [he] at hnone
  cases hnone

theorem sound_step (sound : s.Sound) (ev : ViewStep) (may : s.May ev) : (s.step ev).Sound := by
  cases ev with
  | apply now cmd => exact sound_apply sound now cmd
  | setLeader id => exact sound_setLeader sound id
  | publish n topic source payload =>
      refine ⟨sound.reachable, quiet_update sound fun e he k _ => ?_, sound.unfiltered,
        sound.subscribed, sound.unsent, sound.unread, sound.normal⟩
      obtain rfl := List.mem_singleton.mp he
      exact custom_silent topic source payload k
  | number th now => exact sound_number sound th now
  | offer th => exact sound_offer sound th
  | subscribe lastSeq =>
      exact sound_stream sound ⟨rfl, rfl⟩ ⟨_, Go.Map.get_set_self _ _ _⟩ fun _ => ⟨rfl, rfl⟩
  | mark =>
      obtain ⟨w, hstream, hphase⟩ := may
      have hstep : s.step .mark = { s with stream := some (w.mark s.bus) } := by
        rw [step, Option.mem_def.mp hstream, Option.map_some]
      rw [hstep]
      exact sound_stream sound (sound.unfiltered w hstream) (sound.subscribed w hstream)
        fun _ => sound.unsent w hstream (by rw [hphase]; decide)
  | readMembers =>
      obtain ⟨⟨w, hstream, -⟩, -⟩ := may
      refine ⟨sound.reachable, sound.quiet, sound.unfiltered, sound.subscribed, sound.unsent,
        fun h => ?_, fun ms hms m hm => ?_⟩
      · have hnone : s.stream = none := h
        rw [hnone] at hstream
        cases hstream
      · cases hms
        obtain ⟨id, hid⟩ := (Go.Map.mem_sorted _ m).mp hm
        exact sound.reachable.normal id m hid
  | readLeader =>
      obtain ⟨⟨w, hstream, -⟩, -⟩ := may
      refine ⟨sound.reachable, sound.quiet, sound.unfiltered, sound.subscribed, sound.unsent,
        fun h => ?_, sound.normal⟩
      have hnone : s.stream = none := h
      rw [hnone] at hstream
      cases hstream
  | greet now => exact sound_greet sound now may
  | receive => exact sound_receive sound may
  | forward now => exact sound_forward sound now may

omit [Unicode] in
theorem sound_start {fsm : Consensus.Fsm} (reachable : fsm.applier.Reachable) (b : Bus) :
    (start fsm b).Sound where
  reachable := reachable
  quiet := nofun
  unfiltered := nofun
  subscribed := nofun
  unsent := nofun
  unread _ := ⟨rfl, rfl⟩
  normal := nofun

/-- Along a run every cell stays a value whose reader is current. -/
theorem current_run {fsm : Consensus.Fsm} (reachable : fsm.applier.Reachable) (b : Bus)
    {steps : List ViewStep}
    (h : Runs.Along step (fun s ev => s.May ev ∧ s.Kept ev) (start fsm b) steps) :
    (Runs.run step (start fsm b) steps).Sound ∧
      ∀ k, ((Runs.run step (start fsm b) steps).followed k).Current := by
  refine Runs.invariant (fun _ s => s.Sound ∧ ∀ k, (s.followed k).Current) ⟨sound_start reachable b,
    fun k => ⟨rfl, nofun⟩⟩ ?_ h
  rintro - s ev ⟨sound, current⟩ ⟨may, kept⟩
  refine ⟨sound_step sound ev may, fun k => ?_⟩
  rw [follows_step sound ev may kept k]
  exact Feed.Followed.current_steps (current k) _

end Viewing

open Viewing in
/-- Once both goroutines are idle and the stream is drained, the client has the
engine's statuses, each alive or dead, and its leader. -/
theorem watcher_view_converges [Unicode] (fsm : Consensus.Fsm) (reachable : fsm.applier.Reachable)
    (b : Bus) (steps : List ViewStep)
    (h : Runs.Along step (fun s ev => s.May ev ∧ s.Kept ev) (start fsm b) steps)
    (rest : (Runs.run step (start fsm b) steps).AtRest) :
    let s := Runs.run step (start fsm b) steps
    s.clientView = s.fsm.applier.view ∧
      ∀ id status, s.fsm.applier.view.members.get id = some status →
        status = statusAlive ∨ status = statusDead := by
  intro s
  obtain ⟨sound, current⟩ := current_run reachable b h
  obtain ⟨hfsm, hobserver, w, hstream, hphase, hreceived, hchannel⟩ := rest
  constructor
  · refine View.ext_cell fun k => ?_
    have howner : (s.emitters (owner k)).IsIdle := by
      cases k with
      | member id => exact hfsm
      | leader => exact hobserver
    have hqueue : s.queue = [] := by
      simp only [queue, s, Option.mem_def.mp hstream, Option.isNone_iff_eq_none.mp hreceived]
      exact List.isEmpty_iff.mp hchannel
    have hpending : (s.followed k).pending = [] := by
      rw [followed, hqueue, Emitter.pending_idle howner]
      rfl
    refine (current k).copy_eq hpending ?_
    simp only [followed, copy, clientView, s, Option.mem_def.mp hstream, hphase, if_true,
      Option.map_some, Option.getD_some]
  · intro id status hid
    have hget : (s.fsm.applier.members.get id).map Member.status = some status :=
      (Engine.cell_member _ id).symm.trans hid
    obtain ⟨m, hm, rfl⟩ := Option.map_eq_some_iff.mp hget
    exact (sound.reachable.normal id m hm).alive_or_dead

namespace Viewing

/-- A member is added and the leader changes while a stream connects: the snapshot
has both changes and both events follow it. -/
def busyConnect : List ViewStep :=
  [.subscribe 0, .apply 5 { kind := .addMember, id := "n2", address := "10.0.0.2:7947" }, .mark,
    .readMembers, .setLeader "n2", .readLeader, .greet 6, .number .observer 7, .offer .observer,
    .number .fsm 7, .offer .fsm, .receive, .forward 8, .receive, .forward 9]

def lone : Consensus.Fsm := ⟨.new 0 "n1" "10.0.0.1:7947", none, none⟩

end Viewing

open Viewing in
theorem watcher_view_converges_busy : letI := Unicode.ascii
    let s := Runs.run step (start lone .new) busyConnect
    s.clientView = s.fsm.applier.view ∧ s.clientView.cell (.member "n2") = some statusAlive ∧
      s.clientView.leader = "n2" := by
  have hconverges := (@watcher_view_converges .ascii lone ⟨0, "n1", "10.0.0.1:7947", [], rfl⟩ .new
    busyConnect (by decide) (by decide)).1
  refine ⟨hconverges, ?_⟩
  rw [hconverges]
  decide

end Clusdr
