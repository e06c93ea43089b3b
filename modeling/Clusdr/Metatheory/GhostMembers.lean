import Clusdr.Metatheory.HandlerMoves
import Clusdr.Runs.Along

/-!
Handlers that run at the same time. One that lists a member has seen it in the
configuration, and one that removes a server has dropped it from the list, but
neither looks again. While no `Leave` meets a `Join` or a `Rejoin` of its id, what
they have seen stays true.
-/

namespace Clusdr

open Go (Unicode)
open Consensus (Leader)

/-- The leader, the handlers in progress, and the ids that handlers have listed. -/
structure Handling where
  leader : Leader
  handlers : List Handler
  entered : List String

inductive HandlingStep where
  | begin (req : AdminRequest)
  /-- The next read or commit of the handler at `i`. -/
  | advance (i : Nat) (c : Commits)

namespace Handling

def start (l : Leader) : Handling := ⟨l, [], []⟩

variable [Unicode]

def step (s : Handling) : HandlingStep → Handling
  | .begin req => { s with handlers := s.handlers ++ [req.handler] }
  | .advance i c =>
      match s.handlers[i]? with
      | none => s
      | some h =>
          let (leader, h') := h.advance s.leader c
          { leader
            handlers := match h' with
              | none => s.handlers.eraseIdx i
              | some h' => s.handlers.set i h'
            entered := if h.lists && c.member.logged then h.id :: s.entered else s.entered }

/-- With no handler in progress, every member that handlers listed is a server. -/
def NoGhosts (s : Handling) : Prop :=
  s.handlers = [] → ∀ m ∈ s.leader.fsm.applier.membersList, m.id ∈ s.entered →
    s.leader.Serves m.id

/-- A `Leave` does not begin during a `Join` or a `Rejoin` of its id, nor one of
these during a `Leave`. -/
def Apart (s : Handling) : HandlingStep → Prop
  | .begin req => ∀ h ∈ s.handlers, h.id = req.id → h.leaves = req.leaves
  | .advance _ _ => True

instance (s : Handling) (e : HandlingStep) : Decidable (s.Apart e) := by
  cases e <;> unfold Apart <;> infer_instance

/-- What holds while `Leave` and the other handlers keep apart. -/
structure Kept (s : Handling) : Prop where
  valid : s.leader.fsm.applier.Valid
  backed : ∀ id ∈ s.entered, s.leader.Lists id → s.leader.Serves id
  ready : ∀ h ∈ s.handlers, h.Ready s.leader
  apart : ∀ h ∈ s.handlers, ∀ g ∈ s.handlers, g.id = h.id → g.leaves = h.leaves

omit [Unicode] in
theorem kept_start {l : Leader} (valid : l.fsm.applier.Valid) : (start l).Kept :=
  ⟨valid, nofun, nofun, nofun⟩

omit [Unicode] in
/-- A handler lists a server, and removes one that is not listed. -/
theorem Kept.backed_moves {s : Handling} (kept : s.Kept) {h : Handler} (hmem : h ∈ s.handlers)
    {l : Leader} (moves : h.Moves s.leader l) {id : String}
    (entered : id ∈ s.entered ∨ id = h.id ∧ h.lists = true) (hlists : l.Lists id) :
    l.Serves id := by
  have ready := kept.ready h hmem
  by_cases hid : id = h.id
  · subst hid
    cases hremoves : h.removes with
    | true =>
        have hbefore := moves.lists (Handler.lists_of_removes hremoves) _ hlists
        exact absurd hbefore (ready.not_lists hremoves)
    | false =>
        refine moves.serves hremoves _ ?_
        cases hnew : h.lists with
        | true => exact ready.serves hnew
        | false =>
            have hold : h.id ∈ s.entered := by simpa [hnew] using entered
            exact kept.backed _ hold (moves.lists hnew _ hlists)
  · have hold : id ∈ s.entered := entered.resolve_right fun hnew => hid hnew.1
    rw [Leader.Lists, moves.listing id hid] at hlists
    rw [Leader.Serves, moves.servers id hid]
    exact kept.backed id hold hlists

theorem kept_begin {s : Handling} (kept : s.Kept) {req : AdminRequest}
    (hraft : ∀ r, req = .join r → r.raftAddr ≠ "") (apart : s.Apart (.begin req)) :
    (s.step (.begin req)).Kept := by
  have hid := req.handler_id
  have hleaves := req.handler_leaves
  refine ⟨kept.valid, kept.backed, fun h hmem => ?_, fun h hmem g gmem hsame => ?_⟩
  · cases List.mem_append.mp hmem with
    | inl hold => exact kept.ready h hold
    | inr hnew =>
        rw [List.mem_singleton.mp hnew]
        exact req.ready_handler hraft
  · cases List.mem_append.mp hmem with
    | inl hold =>
        cases List.mem_append.mp gmem with
        | inl gold => exact kept.apart h hold g gold hsame
        | inr gnew =>
            rw [List.mem_singleton.mp gnew] at hsame ⊢
            rw [hleaves, apart h hold (hsame.symm.trans hid)]
    | inr hnew =>
        rw [List.mem_singleton.mp hnew] at hsame ⊢
        cases List.mem_append.mp gmem with
        | inl gold => rw [hleaves, apart g gold (hsame.trans hid)]
        | inr gnew => rw [List.mem_singleton.mp gnew]

/-- After a step of the handler at `i` there are the handlers of before and its next
phase. -/
theorem mem_handlers_advance {s : Handling} {i : Nat} {c : Commits} {h g : Handler}
    (hi : s.handlers[i]? = some h) (hg : g ∈ (s.step (.advance i c)).handlers) :
    g ∈ s.handlers ∨ (h.advance s.leader c).2 = some g := by
  simp only [step, hi] at hg
  cases hnext : (h.advance s.leader c).2 with
  | none =>
      rw [hnext] at hg
      exact Or.inl (List.mem_of_mem_eraseIdx hg)
  | some h' =>
      rw [hnext] at hg
      exact (List.mem_or_eq_of_mem_set hg).imp_right fun heq => congrArg some heq.symm

theorem kept_advance {s : Handling} (kept : s.Kept) (i : Nat) (c : Commits) :
    (s.step (.advance i c)).Kept := by
  cases hi : s.handlers[i]? with
  | none => simpa only [step, hi] using kept
  | some h =>
      have hmem := List.mem_of_getElem? hi
      have moves := h.moves_advance kept.valid c
      have hleader : (s.step (.advance i c)).leader = (h.advance s.leader c).1 := by
        simp only [step, hi]
      have hready := h.ready_next kept.valid c (kept.ready h hmem)
      -- Either of two handlers may be the one that moved; it kept its id and its kind.
      have hfrom : ∀ g ∈ (s.step (.advance i c)).handlers,
          ∃ g' ∈ s.handlers, g.id = g'.id ∧ g.leaves = g'.leaves := by
        intro g hg
        cases mem_handlers_advance hi hg with
        | inl hold => exact ⟨g, hold, rfl, rfl⟩
        | inr hnew => exact ⟨h, hmem, (hready g hnew).2⟩
      refine ⟨hleader ▸ moves.valid, fun id hentered => ?_, fun g hg => ?_, fun g hg k hk hsame => ?_⟩
      · rw [hleader]
        refine kept.backed_moves hmem moves ?_
        simp only [step, hi] at hentered
        split at hentered
        · rename_i hlogged
          refine (List.mem_cons.mp hentered).symm.imp_right fun hid => ⟨hid, ?_⟩
          exact (Bool.and_eq_true_iff.mp hlogged).1
        · exact Or.inl hentered
      · rw [hleader]
        cases mem_handlers_advance hi hg with
        | inl hold => exact moves.ready (kept.ready g hold) (kept.apart h hmem g hold)
        | inr hnew => exact (hready g hnew).1
      · obtain ⟨g', hg', gid, gleaves⟩ := hfrom g hg
        obtain ⟨k', hk', kid, kleaves⟩ := hfrom k hk
        rw [gleaves, kleaves]
        exact kept.apart g' hg' k' hk' (kid.symm.trans (hsame.trans gid))

omit [Unicode] in
theorem Kept.noGhosts {s : Handling} (kept : s.Kept) : s.NoGhosts := by
  intro _ m hm hentered
  refine kept.backed m.id hentered ?_
  have hget := (Go.Map.get_iff_mem_sorted kept.valid.keyed m.id m).mpr ⟨hm, rfl⟩
  rw [Leader.lists_iff, hget]
  rfl

end Handling

open Handling in
/-- While no `Leave` runs at the same time as a `Join` or a `Rejoin` of its id, no
member is left that is not a server. -/
theorem no_ghosts_apart [Unicode] (l : Leader) (reachable : l.fsm.applier.Reachable)
    (steps : List HandlingStep)
    (hraft : ∀ req, .begin (.join req) ∈ steps → req.raftAddr ≠ "")
    (apart : Runs.Along step Apart (start l) steps) :
    Runs.Always step NoGhosts (start l) steps := by
  have hasked : Runs.Along step (fun _ e => ∀ req, e = .begin (.join req) → req.raftAddr ≠ "")
      (start l) steps :=
    Runs.Along.of_forall_mem fun _ e he req heq => hraft req (heq ▸ he)
  refine Runs.Always.of_invariant Kept (kept_start reachable.valid) (fun s e kept hok => ?_)
    (fun s kept => kept.noGhosts) (apart.and hasked)
  cases e with
  | begin req => exact kept_begin kept (fun r hr => hok.2 r (hr ▸ rfl)) hok.1
  | advance i c => exact kept_advance kept i c

namespace Handling

open JoinService (allCommitted seedLeader)

def joinN2 : JoinRequest where
  nodeId := "n2"
  address := "10.0.0.2:7947"
  raftAddr := "10.0.0.2:7946"

def rejoinN2 : AdminRequest := .rejoin "n2" "10.0.0.2:7947" "voter"

def next (i : Nat) : HandlingStep := .advance i allCommitted

/-- `n2` joins. Later it announces itself and passes the check of its `Rejoin`, a whole
`Leave` of `n2` runs, and the `Rejoin` goes on. -/
def crossing : List HandlingStep :=
  [.begin (.join joinN2), next 0, next 0, .begin rejoinN2, next 0] ++
    ([.begin (.leave "n2"), next 1, next 1, next 1] ++ [next 1, next 1, next 0, next 0])

variable [Unicode]

def joined : Leader :=
  ((seedLeader.addVoter .committed "n2" "10.0.0.2:7946").1.applyAddMemberAs allCommitted.member "n2"
    "10.0.0.2:7947" (JoinService.joinRole joinN2)).1

/-- `n2` dropped and removed. -/
def left : Leader :=
  ((joined.applyDropMember allCommitted.member "n2").1.removeVoter .committed "n2").1

theorem hasServer_joined : joined.hasServer "n2" = true := rfl

theorem run_rejoining : Runs.run step (start seedLeader)
    [.begin (.join joinN2), next 0, next 0, .begin rejoinN2, next 0] =
      ⟨joined, [.rejoinRole "n2" "10.0.0.2:7947" "voter"], ["n2"]⟩ := by
  change step ⟨joined, [.rejoinServer "n2" "10.0.0.2:7947" "voter"], ["n2"]⟩ (next 0) = _
  simp [step, next, Handler.advance, hasServer_joined, Handler.lists]

theorem run_leaving (r : Handler) : Runs.run step ⟨joined, [r], ["n2"]⟩
    [.begin (.leave "n2"), next 1, next 1, next 1] =
      ⟨joined, [r, .leaveDrop "n2" true], ["n2"]⟩ := by
  change step ⟨joined, [r, .leaveLeft "n2" (memberByID joined.fsm.applier "n2").isSome
    (joined.hasServer "n2")], ["n2"]⟩ (next 1) = _
  simp [step, next, Handler.advance, hasServer_joined, Handler.lists]

/-- What the listing handler finds is gone when it lists `n2`. -/
def ghost : Leader :=
  (left.applyAddMemberAs allCommitted.member "n2" "10.0.0.2:7947"
    (JoinService.rejoinRole left.fsm.applier "n2" "voter")).1

theorem run_crossing : Runs.run step (start seedLeader) crossing = ⟨ghost, [], ["n2", "n2"]⟩ := by
  rw [crossing, Runs.run_append, run_rejoining, Runs.run_append, run_leaving]
  rfl

theorem valid_left : left.fsm.applier.Valid := by
  have hseed : seedLeader.fsm.applier.Valid := Membership.Engine.valid_new _ _ _
  rw [left, Leader.removeVoter, Leader.fsm_change]
  refine Leader.valid_applyDropMember (Leader.valid_applyAddMemberAs ?_ _ _ _ _) _ _
  rwa [Leader.addVoter, Leader.fsm_change]

theorem lists_ghost : ghost.Lists "n2" := by
  rw [Leader.Lists, ghost, Leader.listing_applyAddMemberAs valid_left, if_pos]
  · rfl
  · exact ⟨rfl, rfl, by decide⟩

theorem servers_ghost : ghost.servers.get "n2" = none :=
  Consensus.Configuration.get_removeServer joined.servers "n2" "n2"

theorem not_serves_ghost : ¬ ghost.Serves "n2" := by
  rw [Leader.Serves, servers_ghost, Option.isSome_none]
  exact Bool.false_ne_true

theorem valid_ghost : ghost.fsm.applier.Valid :=
  Leader.valid_applyAddMemberAs valid_left _ _ _ _

omit [Unicode] in
theorem NoGhosts.serves {s : Handling} (h : s.NoGhosts) (valid : s.leader.fsm.applier.Valid)
    (idle : s.handlers = []) {id : String} (hmem : id ∈ s.entered) (hlists : s.leader.Lists id) :
    s.leader.Serves id := by
  obtain ⟨m, hm, -⟩ := Option.map_eq_some_iff.mp (Option.some_get hlists).symm
  obtain ⟨hlisted, hid⟩ := (Go.Map.get_iff_mem_sorted valid.keyed id m).mp hm
  subst hid
  exact h idle m hlisted hmem

def crowded : List HandlingStep :=
  [.begin (.join joinN2), next 0, next 0, .begin rejoinN2, .begin (.leave "n1"), next 1, next 0,
    next 1, next 0, next 0]

omit [Unicode] in
theorem raftAddr_crowded (req : JoinRequest) (h : .begin (.join req) ∈ crowded) :
    req.raftAddr ≠ "" := by
  have hreq : req = joinN2 := by simpa [crowded, next, rejoinN2] using h
  subst hreq
  decide

omit [Unicode] in
theorem apart_crowded : letI := Unicode.ascii
    Runs.Along step Apart (start seedLeader) crowded := by
  decide +kernel

end Handling

open Handling JoinService in
theorem rejoin_during_leave_lists_ghost : letI := Unicode.ascii
    (Runs.run step (start seedLeader) crossing).handlers = [] ∧
      "n2" ∈ (Runs.run step (start seedLeader) crossing).entered ∧
      (Runs.run step (start seedLeader) crossing).leader.Lists "n2" ∧
      (Runs.run step (start seedLeader) crossing).leader.servers.get "n2" = none ∧
      ¬ Runs.Always step NoGhosts (start seedLeader) crossing := by
  let := Unicode.ascii
  rw [run_crossing]
  refine ⟨rfl, List.mem_cons_self, lists_ghost, servers_ghost, fun always => ?_⟩
  have hclean := always.last
  rw [run_crossing] at hclean
  exact not_serves_ghost (hclean.serves valid_ghost rfl List.mem_cons_self lists_ghost)

open Handling JoinService in
/-- `n2` joins, and then rejoins while `n1` leaves. -/
theorem no_ghosts_apart_crowded : letI := Unicode.ascii
    Runs.Always step NoGhosts (start seedLeader) crowded :=
  @no_ghosts_apart .ascii seedLeader ⟨0, "n1", "10.0.0.1:7947", [], rfl⟩ crowded raftAddr_crowded
    apart_crowded

end Clusdr
