import Clusdr.Core.PromoteHandler
import Clusdr.Metatheory.HandlerMoves
import Clusdr.Runs.Along

/-!
A crash is not a leave. Whatever the handlers of the leader, the liveness loops and
the announcements of the nodes do at the same time, only a `Leave` of an id takes its
server, its vote or its entry in the member list away.
-/

namespace Clusdr

open Go (Unicode)
open Consensus (Leader Server Submission)

namespace Consensus.Leader

def Votes (l : Leader) (id : String) : Prop :=
  (l.servers.get id).map Server.suffrage = some .voter

/-- What `id` has, it keeps. -/
structure Keeps (id : String) (l l' : Leader) : Prop where
  serves : l.Serves id → l'.Serves id
  votes : l.Votes id → l'.Votes id
  lists : l.Lists id → l'.Lists id

theorem Keeps.refl (id : String) (l : Leader) : Keeps id l l :=
  ⟨fun s => s, fun v => v, fun m => m⟩

theorem Keeps.trans {id : String} {l₁ l₂ l₃ : Leader} (h : Keeps id l₁ l₂) (h' : Keeps id l₂ l₃) :
    Keeps id l₁ l₃ :=
  ⟨fun s => h'.serves (h.serves s), fun v => h'.votes (h.votes v), fun m => h'.lists (h.lists m)⟩

/-- A change of another id. -/
theorem Only.keeps {id j : String} {l l' : Leader} (only : Only j l l') (ne : id ≠ j) :
    Keeps id l l' where
  serves h := by rwa [Serves, only.servers id ne]
  votes h := by rwa [Votes, only.servers id ne]
  lists h := by rwa [Lists, only.listing id ne]

theorem Keeps.of_fsm {id : String} {l l' : Leader} (hfsm : l'.fsm = l.fsm)
    (serves : l.Serves id → l'.Serves id) (votes : l.Votes id → l'.Votes id) : Keeps id l l' :=
  ⟨serves, votes, fun h => by rwa [Lists, hfsm]⟩

theorem Keeps.of_servers {id : String} {l l' : Leader} (hservers : l'.servers = l.servers)
    (lists : l.Lists id → l'.Lists id) : Keeps id l l' :=
  ⟨fun h => by rwa [Serves, hservers], fun h => by rwa [Votes, hservers], lists⟩

/-- A server that is added votes if it did before. -/
theorem keeps_addServer (l : Leader) (c : Commits) (req : JoinRequest) (id : String) :
    Keeps id l (JoinService.addServer l c.raft req).1 := by
  rw [JoinService.addServer_fst]
  split
  · refine .of_fsm rfl (fun h => ?_) fun h => ?_
    · rw [Serves, JoinService.get_joinServers]
      split
      · rfl
      · exact h
    · rw [Votes] at h ⊢
      rw [JoinService.get_joinServers]
      split
      · split
        · simp [h]
        · rfl
      · exact h
  · exact .refl id l

theorem keeps_addVoter (l : Leader) (c : Commits) (j raftAddr id : String) :
    Keeps id l (l.addVoter c.raft j raftAddr).1 := by
  rw [addVoter, change_fst]
  split
  · refine .of_fsm rfl (fun h => ?_) fun h => ?_
    · rw [Serves, Configuration.get_addVoter]
      split
      · rfl
      · exact h
    · rw [Votes, Configuration.get_addVoter]
      split
      · rfl
      · exact h
  · exact .refl id l

variable [Unicode]

theorem keeps_applyAddMemberAs {l : Leader} (valid : l.fsm.applier.Valid) (s : Submission)
    (j addr role id : String) : Keeps id l (l.applyAddMemberAs s j addr role).1 := by
  refine .of_servers rfl fun h => ?_
  rw [Lists, listing_applyAddMemberAs valid]
  split
  · rfl
  · exact h

theorem keeps_applyRemoveMember {l : Leader} (valid : l.fsm.applier.Valid) (s : Submission)
    (j id : String) : Keeps id l (l.applyRemoveMember s j).1 := by
  refine .of_servers rfl fun h => ?_
  rw [Lists, listing_applyRemoveMember valid]
  split
  · rwa [Option.isSome_map]
  · exact h

end Consensus.Leader

section Steps

variable [Unicode]

/-- A step of a handler that is no `Leave` of `id`. -/
theorem Handler.keeps_advance {l : Leader} (valid : l.fsm.applier.Valid) (c : Commits)
    (h : Handler) {id : String} (other : h.id = id → h.leaves = false) :
    Leader.Keeps id l (h.advance l c).1 := by
  by_cases hid : id = h.id
  · have hleaves := other hid.symm
    cases h with
    | joinServer req =>
        have hkeeps := Leader.keeps_addServer l c req id
        simp only [advance]
        split <;> rename_i hadd <;> rwa [hadd] at hkeeps
    | joinMember req => exact Leader.keeps_applyAddMemberAs valid c.member _ _ _ id
    | rejoinMember j addr role => exact Leader.keeps_applyAddMemberAs valid c.member _ _ _ id
    | rejoinServer | rejoinRole => exact .refl id l
    | leaveMembers | leaveServer | leaveLeft | leaveDrop | leaveRemove => cases hleaves
  · exact (h.moves_advance valid c).toOnly.keeps hid

/-- A handler stays with its id and its kind. -/
theorem Handler.id_leaves_next {l : Leader} {c : Commits} {h h' : Handler}
    (hnext : (h.advance l c).2 = some h') : h'.id = h.id ∧ h'.leaves = h.leaves := by
  cases h with
  | joinServer req =>
      simp only [advance] at hnext
      split at hnext <;> cases hnext
      exact ⟨rfl, rfl⟩
  | leaveDrop id inRaft =>
      simp only [advance] at hnext
      split at hnext
      · cases hnext
      · cases inRaft <;> cases hnext
        exact ⟨rfl, rfl⟩
  | leaveLeft id inMem inRaft =>
      simp only [advance] at hnext
      split at hnext
      · cases hnext
      · split at hnext <;> cases hnext
        exact ⟨rfl, rfl⟩
  | rejoinServer id addr role =>
      simp only [advance] at hnext
      split at hnext <;> cases hnext
      exact ⟨rfl, rfl⟩
  | leaveMembers | leaveServer | rejoinRole =>
      cases hnext
      exact ⟨rfl, rfl⟩
  | joinMember | leaveRemove | rejoinMember => cases hnext

theorem Promotion.valid_advance {l : Leader} (valid : l.fsm.applier.Valid) (c : Commits)
    (h : Promotion) : (h.advance l c).1.fsm.applier.Valid := by
  cases h with
  | members id =>
      simp only [advance]
      split
      · exact valid
      · split
        · exact valid
        · split <;> exact valid
  | configuration id addr =>
      simp only [advance]
      split <;> exact valid
  | addVoter id raftAddr addr =>
      have hfsm : (l.addVoter c.raft id raftAddr).1.fsm = l.fsm := Leader.fsm_change _ _ _ _
      simp only [advance]
      split <;> rename_i hadd <;> rw [hadd] at hfsm <;> exact hfsm ▸ valid
  | addMember id addr => exact Leader.valid_applyAddMemberAs valid c.member _ _ _

theorem Promotion.keeps_advance {l : Leader} (valid : l.fsm.applier.Valid) (c : Commits)
    (h : Promotion) (id : String) : Leader.Keeps id l (h.advance l c).1 := by
  cases h with
  | members j =>
      simp only [advance]
      split
      · exact .refl id l
      · split
        · exact .refl id l
        · split <;> exact .refl id l
  | configuration j addr =>
      simp only [advance]
      split <;> exact .refl id l
  | addVoter j raftAddr addr =>
      have hkeeps := Leader.keeps_addVoter l c j raftAddr id
      simp only [advance]
      split <;> rename_i hadd <;> rwa [hadd] at hkeeps
  | addMember j addr => exact Leader.keeps_applyAddMemberAs valid c.member _ _ _ id

end Steps

/-- The leader and all that is in progress on it. -/
structure Administration where
  leader : Leader
  handlers : List Handler := []
  promotions : List Promotion := []

inductive AdminStep where
  | request (req : AdminRequest)
  | promote (id : String)
  | advance (i : Nat) (c : Commits)
  | advancePromotion (i : Nat) (c : Commits)
  /-- The presence watcher or the heartbeat monitor reports a node dead. -/
  | reportDead (s : Submission) (id : String)
  /-- A node announces itself, or was elected. -/
  | announce (s : Submission) (id addr role : String)

namespace Administration

variable [Unicode]

def step (a : Administration) : AdminStep → Administration
  | .request req => { a with handlers := a.handlers ++ [req.handler] }
  | .promote id => { a with promotions := a.promotions ++ [.members id] }
  | .advance i c =>
      match a.handlers[i]? with
      | none => a
      | some h =>
          { a with
            leader := (h.advance a.leader c).1
            handlers := match (h.advance a.leader c).2 with
              | none => a.handlers.eraseIdx i
              | some h' => a.handlers.set i h' }
  | .advancePromotion i c =>
      match a.promotions[i]? with
      | none => a
      | some h =>
          { a with
            leader := (h.advance a.leader c).1
            promotions := match (h.advance a.leader c).2 with
              | none => a.promotions.eraseIdx i
              | some h' => a.promotions.set i h' }
  | .reportDead s id => { a with leader := (a.leader.applyRemoveMember s id).1 }
  | .announce s id addr role => { a with leader := (a.leader.applyAddMemberAs s id addr role).1 }

/-- No `Leave` of `id` is in progress. -/
def Unleaving (id : String) (a : Administration) : Prop :=
  ∀ h ∈ a.handlers, h.id = id → h.leaves = false

/-- No `Leave` of `id` is requested. -/
def Stays (id : String) : AdminStep → Prop
  | .request req => req.id = id → req.leaves = false
  | _ => True

/-- What holds as long as no `Leave` of `id` is requested; `l` is the leader at first. -/
structure Kept (id : String) (l : Leader) (a : Administration) : Prop where
  valid : a.leader.fsm.applier.Valid
  unleaving : Unleaving id a
  keeps : Leader.Keeps id l a.leader

theorem unleaving_advance {id : String} {a : Administration} (h : Unleaving id a) (i : Nat)
    (c : Commits) : Unleaving id (a.step (.advance i c)) := by
  cases hi : a.handlers[i]? with
  | none => simpa only [step, hi] using h
  | some g =>
      have hold := h g (List.mem_of_getElem? hi)
      intro g' hg'
      simp only [step, hi] at hg'
      split at hg'
      · exact h g' (List.mem_of_mem_eraseIdx hg')
      · rename_i next hnext
        rcases List.mem_or_eq_of_mem_set hg' with hmem | rfl
        · exact h g' hmem
        · obtain ⟨hid, hleaves⟩ := Handler.id_leaves_next hnext
          exact fun hsame => hleaves.trans (hold (hid.symm.trans hsame))

theorem kept_step {id : String} {l : Leader} {a : Administration} (kept : Kept id l a)
    {e : AdminStep} (stays : Stays id e) : Kept id l (a.step e) := by
  cases e with
  | request req =>
      refine ⟨kept.valid, fun h hh => ?_, kept.keeps⟩
      rcases List.mem_append.mp hh with hold | hnew
      · exact kept.unleaving h hold
      · rw [List.mem_singleton.mp hnew, req.handler_id, req.handler_leaves]
        exact stays
  | promote j => exact ⟨kept.valid, kept.unleaving, kept.keeps⟩
  | advance i c =>
      have hunleaving := unleaving_advance kept.unleaving i c
      cases hi : a.handlers[i]? with
      | none => simpa only [step, hi] using kept
      | some h =>
          simp only [step, hi] at hunleaving ⊢
          have hmem := List.mem_of_getElem? hi
          exact ⟨(h.moves_advance kept.valid c).valid, hunleaving,
            kept.keeps.trans (h.keeps_advance kept.valid c (kept.unleaving h hmem))⟩
  | advancePromotion i c =>
      cases hi : a.promotions[i]? with
      | none => simpa only [step, hi] using kept
      | some h =>
          simp only [step, hi]
          exact ⟨h.valid_advance kept.valid c, kept.unleaving,
            kept.keeps.trans (h.keeps_advance kept.valid c id)⟩
  | reportDead s j =>
      exact ⟨(Leader.only_applyRemoveMember kept.valid s j).valid, kept.unleaving,
        kept.keeps.trans (Leader.keeps_applyRemoveMember kept.valid s j id)⟩
  | announce s j addr role =>
      exact ⟨Leader.valid_applyAddMemberAs kept.valid s j addr role, kept.unleaving,
        kept.keeps.trans (Leader.keeps_applyAddMemberAs kept.valid s j addr role id)⟩

/-- In every interleaving of handlers, dead reports and announcements, with any of their
commits failing before or after it took effect: a node that nobody asks to leave keeps its
place in Raft's configuration, its vote and its entry in the member list. -/
theorem only_leave_takes_away (id : String) (a : Administration)
    (valid : a.leader.fsm.applier.Valid) (unleaving : Unleaving id a) (steps : List AdminStep)
    (stays : ∀ e ∈ steps, Stays id e) :
    let l := (Runs.run step a steps).leader
    (a.leader.Serves id → l.Serves id) ∧ (a.leader.Votes id → l.Votes id) ∧
      (a.leader.Lists id → l.Lists id) := by
  have halong : Runs.Along step (fun _ e => Stays id e) a steps :=
    Runs.along_iff_forall_mem.mpr stays
  have hkept := Runs.invariant (fun _ s => Kept id a.leader s)
    ⟨valid, unleaving, .refl id a.leader⟩
    (fun _ _ _ kept hstays => kept_step kept hstays) halong
  exact ⟨hkept.keeps.serves, hkept.keeps.votes, hkept.keeps.lists⟩

end Administration

open JoinService (allCommitted seedLeader)

/-- `n1` is reported dead while `n2` leaves and `n1` is promoted. -/
def crashing : List AdminStep :=
  [.request (.leave "n2"), .reportDead allCommitted.member "n1", .promote "n1",
    .advance 0 allCommitted, .advancePromotion 0 allCommitted]

theorem only_leave_takes_away_crashing : letI := Unicode.ascii
    seedLeader.Votes "n1" ∧
      (Runs.run Administration.step ⟨seedLeader, [], []⟩ crashing).leader.Votes "n1" := by
  let := Unicode.ascii
  have hvotes : seedLeader.Votes "n1" := rfl
  have hstays : ∀ e ∈ crashing, Administration.Stays "n1" e := by
    simp [crashing, Administration.Stays, AdminRequest.id]
  exact ⟨hvotes, (Administration.only_leave_takes_away "n1" ⟨seedLeader, [], []⟩
    (Membership.Engine.valid_new _ _ _) nofun crashing hstays).2.1 hvotes⟩

end Clusdr
