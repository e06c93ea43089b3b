import Mathlib.Algebra.GroupWithZero.Nat
import Clusdr.Metatheory.EventNetwork

/-!
A custom event reaches the bus of a node once, and travels one hop. An id is
published by the handler that accepted it, and accepted again only after 4096
other ids; only the handler of a client request starts relays, one for each
peer it lists.
-/

namespace Clusdr

open Go (Time Unicode)
open EventBus (Bus)
open Clusdr.Membership (Member)

theorem sum_map_set {α : Type} (f : α → Nat) {l : List α} {i : Nat} {a : α} (b : α)
    (h : l[i]? = some a) : ((l.set i b).map f).sum + f a = (l.map f).sum + f b := by
  induction l generalizing i with
  | nil => cases h
  | cons x l ih =>
      cases i with
      | zero =>
          cases h
          simp only [List.set_cons_zero, List.map_cons, List.sum_cons]
          omega
      | succ i =>
          have hrest := ih h
          simp only [List.set_cons_succ, List.map_cons, List.sum_cons]
          omega

namespace EventNetwork

variable {N : Type} [DecidableEq N]

/-- The ids accepted as new, oldest first. -/
def newIds (arrivals : List (String × Bool)) : List String :=
  arrivals.filterMap fun a => if a.2 then some a.1 else none

/-- How many events the bus of a node has numbered for the id. -/
def timesPublished (net : EventNetwork N) (n : N) (id : String) : Nat :=
  (net.nodes n).published.countP (·.id = id)

/-- The buses have counted on, from where they started, by the events that are recorded. -/
def Accounted (bus : N → Option Bus) (net : EventNetwork N) : Prop :=
  ∀ n, (net.nodes n).service.bus.map Bus.lastSeq =
    (bus n).map fun b => b.lastSeq + UInt64.ofNat (net.nodes n).published.length

/-- One for each handler of the id at the node that has yet to publish. -/
def pending (n : N) (id : String) (h : EventHandler N) : Nat :=
  if h.node = n ∧ h.id = id ∧ h.stage = .accepted then 1 else 0

/-- Caches hold the ids accepted, and every acceptance is published or about to be. -/
structure Tallied (net : EventNetwork N) : Prop where
  caches : ∀ n, (net.nodes n).service.seen.Holds (newIds (net.nodes n).arrivals)
  caps : ∀ n, (net.nodes n).service.seen.cap = 4096
  published : ∀ n id, net.timesPublished n id + (net.handlers.map (pending n id)).sum ≤
    (net.nodes n).arrivals.count (id, true)

theorem tallied_start (bus : N → Option Bus) (peers : N → Option String) :
    (start bus peers).Tallied :=
  ⟨fun _ => IdCache.holds_new _, fun _ => rfl, fun _ _ => le_rfl⟩

/-- The caches and the counts after an id reached a node. -/
theorem tallied_arrived {net : EventNetwork N} (tallied : net.Tallied) (n : N) (id : String)
    (new : Bool) (hnew : ((net.nodes n).service.seen.seenOrAdd id).2 = !new) :
    (∀ k, ((net.arrived n id new).nodes k).service.seen.Holds
        (newIds ((net.arrived n id new).nodes k).arrivals)) ∧
      (∀ k, ((net.arrived n id new).nodes k).service.seen.cap = 4096) ∧
      (∀ k x, (net.arrived n id new).timesPublished k x = net.timesPublished k x) ∧
      ∀ k x, ((net.arrived n id new).nodes k).arrivals.count (x, true) =
        (net.nodes k).arrivals.count (x, true) + if k = n ∧ x = id ∧ new = true then 1 else 0 := by
  have hholds := tallied.caches n
  refine ⟨fun k => ?_, fun k => ?_, fun k x => ?_, fun k x => ?_⟩
  · by_cases hk : k = n
    · subst hk
      simp only [arrived, setNode, Function.update_self, newIds, List.filterMap_append]
      cases new with
      | true => exact (hholds.add hnew).1
      | false =>
          rw [IdCache.seenOrAdd_of_seen hnew]
          simpa [newIds] using hholds
    · simp only [arrived, setNode, Function.update_of_ne hk]
      exact tallied.caches k
  · by_cases hk : k = n
    · subst hk
      simp only [arrived, setNode, Function.update_self]
      cases new with
      | true => exact (hholds.add hnew).2.trans (tallied.caps k)
      | false =>
          rw [IdCache.seenOrAdd_of_seen hnew]
          exact tallied.caps k
    · simp only [arrived, setNode, Function.update_of_ne hk]
      exact tallied.caps k
  · by_cases hk : k = n
    · subst hk
      simp only [timesPublished, arrived, setNode, Function.update_self]
    · simp only [timesPublished, arrived, setNode, Function.update_of_ne hk]
  · by_cases hk : k = n
    · subst hk
      simp only [arrived, setNode, Function.update_self, List.count_append, List.count_singleton]
      by_cases hx : x = id
      · subst hx
        cases new <;> simp
      · have hne : ((id, new) == (x, true)) = false := by
          simp only [beq_eq_false_iff_ne, ne_eq, Prod.mk.injEq, not_and]
          exact fun h => absurd h.symm hx
        simp [hne, hx]
    · simp [arrived, setNode, hk]

/-- A publishing handler takes one number of its bus, or there is no bus. -/
theorem timesPublished_publish_le (net : EventNetwork N) (i : Nat) {h : EventHandler N}
    (stage : h.stage = .accepted) (now : Time) (n : N) (id : String) :
    (net.publish i h now).timesPublished n id ≤ net.timesPublished n id + pending n id h := by
  by_cases hn : n = h.node
  · subst hn
    simp only [publish, setNode, timesPublished, Function.update_self, EventNode.acted,
      EventNode.numbered_publish, List.countP_append, List.countP_map]
    refine Nat.add_le_add_left ?_ _
    cases (net.nodes h.node).service.bus with
    | none => exact Nat.zero_le _
    | some b => simp [pending, stage, List.countP_cons]
  · simp [publish, setNode, timesPublished, hn]

theorem tallied_change {net net' : EventNetwork N} {e : EventStep N} (tallied : net.Tallied)
    (change : net.Change e net') : net'.Tallied := by
  cases change with
  | idle => exact tallied
  | duplicate n id seen =>
      obtain ⟨hcaches, hcaps, hpublished, hcount⟩ := tallied_arrived tallied n id false seen
      refine ⟨hcaches, hcaps, fun k x => ?_⟩
      rw [hpublished, hcount, if_neg (by simp)]
      exact tallied.published k x
  | accepted n client origin req id sent named own unseen =>
      obtain ⟨hcaches, hcaps, hpublished, hcount⟩ := tallied_arrived tallied n id true unseen
      refine ⟨hcaches, hcaps, fun k x => ?_⟩
      have hold := tallied.published k x
      have hnew : pending k x (⟨n, client, origin, req, id, .accepted⟩ : EventHandler N) =
          if k = n ∧ x = id ∧ true = true then 1 else 0 := by
        simp only [pending, and_true]
        congr 1
        exact propext ⟨fun h => ⟨h.1.symm, h.2.symm⟩, fun h => ⟨h.1.symm, h.2.symm⟩⟩
      change (net.arrived n id true).timesPublished k x + ((net.handlers ++ [_]).map _).sum ≤
        ((net.arrived n id true).nodes k).arrivals.count (x, true)
      rw [hpublished, hcount, List.map_append, List.sum_append, List.map_singleton,
        List.sum_singleton, hnew]
      omega
  | published i h now running stage =>
      refine ⟨fun k => ?_, fun k => ?_, fun k x => ?_⟩
      · by_cases hk : k = h.node
        · subst hk
          simpa [publish, setNode, EventNode.acted, EventService.publish] using
            tallied.caches h.node
        · simpa [publish, setNode, hk] using tallied.caches k
      · by_cases hk : k = h.node
        · subst hk
          simpa [publish, setNode, EventNode.acted, EventService.publish] using
            tallied.caps h.node
        · simpa [publish, setNode, hk] using tallied.caps k
      · have hold := tallied.published k x
        have hsum := sum_map_set (pending k x) { h with stage := .published } running
        have hdone : pending k x { h with stage := .published } = 0 := by simp [pending]
        have hcount := timesPublished_publish_le net i stage now k x
        have harrivals : ((net.publish i h now).nodes k).arrivals = (net.nodes k).arrivals := by
          by_cases hk : k = h.node
          · subst hk
            simp [publish, setNode, EventNode.acted]
          · simp [publish, setNode, hk]
        rw [harrivals]
        change (net.publish i h now).timesPublished k x + ((net.handlers.set i _).map _).sum ≤ _
        omega
  | fanned i h members running stage =>
      refine ⟨tallied.caches, tallied.caps, fun k x => ?_⟩
      have hbefore : pending k x h = 0 := by simp [pending, stage]
      have hafter : ∀ m, pending k x { h with stage := .finished m } = 0 := fun m => by
        simp [pending]
      have hsum := fun m => sum_map_set (pending k x) { h with stage := .finished m } running
      simp only [hbefore, hafter, Nat.add_zero] at hsum
      exact (congrArg (net.timesPublished k x + ·) (hsum _)).trans_le (tallied.published k x)

omit [DecidableEq N] in
theorem accounted_start (bus : N → Option Bus) (peers : N → Option String) :
    Accounted bus (start bus peers) := by
  intro n
  simp [start]

theorem accounted_arrived {bus : N → Option Bus} {net : EventNetwork N} (h : Accounted bus net)
    (n : N) (id : String) (new : Bool) : Accounted bus (net.arrived n id new) := by
  intro k
  by_cases hk : k = n
  · subst hk
    simpa [arrived, setNode] using h k
  · simpa [arrived, setNode, hk] using h k

theorem accounted_change {bus : N → Option Bus} {net net' : EventNetwork N} {e : EventStep N}
    (h : Accounted bus net) (change : net.Change e net') : Accounted bus net' := by
  cases change with
  | idle => exact h
  | duplicate n id seen => exact accounted_arrived h n id false
  | accepted n client origin req id sent named own unseen => exact accounted_arrived h n id true
  | published i g now running stage =>
      intro k
      by_cases hk : k = g.node
      · subst hk
        have hold := h g.node
        simp only [publish, setNode, Function.update_self, EventNode.acted,
          EventNode.numbered_publish, List.length_append, List.length_map]
        simp only [EventService.publish]
        cases hbus : (net.nodes g.node).service.bus with
        | none =>
            rw [hbus] at hold
            simpa using hold
        | some b =>
            rw [hbus] at hold
            obtain ⟨b', hb', hseq⟩ := Option.map_eq_some_iff.mp hold.symm
            rw [hb']
            simp only [Option.map_some, Bus.publish, Bus.lastSeq, Option.toList_some,
              List.length_singleton, UInt64.ofNat_add, ← UInt64.add_assoc] at hseq ⊢
            rw [hseq]
            rfl
      · simpa [publish, setNode, hk] using h k
  | fanned i g members running stage => exact h

/-- Between any two arrivals of the id at the node, it accepts fewer than 4096 other new
ids. -/
def Spaced (net : EventNetwork N) (n : N) (id : String) : Prop :=
  ∀ before between after new new', (net.nodes n).arrivals =
      before ++ (id, new) :: between ++ (id, new') :: after →
    ((newIds between).toFinset.erase id).card < 4096

omit [DecidableEq N] in
theorem split_of_two_le_count {α : Type} [BEq α] [LawfulBEq α] {l : List α} {a : α}
    (h : 2 ≤ l.count a) : ∃ before between after, l = before ++ a :: between ++ a :: after := by
  have hmem : a ∈ l := List.count_pos_iff.mp (by omega)
  obtain ⟨before, rest, rfl, hbefore⟩ := List.eq_append_cons_of_mem hmem
  rw [List.count_append, List.count_eq_zero.mpr hbefore, List.count_cons_self] at h
  have hagain : 0 < rest.count a := by omega
  obtain ⟨between, after, rfl⟩ := List.append_of_mem (List.count_pos_iff.mp hagain)
  exact ⟨before, between, after, by simp⟩

theorem timesPublished_le_one {net : EventNetwork N} (tallied : net.Tallied) {n : N} {id : String}
    (spaced : net.Spaced n id) : net.timesPublished n id ≤ 1 := by
  have hcount := tallied.published n id
  by_contra hmore
  have htwo : 2 ≤ (net.nodes n).arrivals.count (id, true) := by omega
  obtain ⟨before, between, after, hsplit⟩ := split_of_two_le_count htwo
  have hfresh := (tallied.caches n).fresh
  rw [hsplit, tallied.caps n] at hfresh
  simp only [newIds, List.filterMap_append, List.filterMap_cons, if_true] at hfresh
  exact absurd (spaced before between after true true hsplit)
    (Nat.not_lt.mpr (Dedup.Fresh.spaced (by decide) hfresh))

/-- The peers a client's handler of the id has seen alive. -/
def clientPeers (id : String) (h : EventHandler N) : Nat :=
  if h.client = true ∧ h.id = id then h.stage.peers else 0

/-- The handler a relay goes back to has the relay's id and origin, and served a
client. -/
def Causes (r : SentRelay) (h : EventHandler N) : Prop :=
  h.client = true ∧ h.id = r.req.eventId ∧ h.origin = r.origin

/-- Only client requests are passed on, once to each peer. -/
structure OneHop (net : EventNetwork N) : Prop where
  passive : ∀ h ∈ net.handlers, h.client = false → h.req.relay = true
  marked : ∀ r ∈ net.sent, r.req.relay = true
  caused : ∀ r ∈ net.sent, ∃ h, net.handlers[r.cause]? = some h ∧ Causes r h
  counted : ∀ id, net.sent.countP (·.req.eventId = id) ≤
    (net.handlers.map (clientPeers id)).sum

omit [DecidableEq N] in
/-- A handler that only moves on still causes what it caused. -/
theorem caused_set {handlers : List (EventHandler N)} {i : Nat} {h : EventHandler N}
    (running : handlers[i]? = some h) (stage : Stage) {r : SentRelay}
    (caused : ∃ h, handlers[r.cause]? = some h ∧ Causes r h) :
    ∃ h', (handlers.set i { h with stage })[r.cause]? = some h' ∧ Causes r h' := by
  obtain ⟨g, hg, hcauses⟩ := caused
  by_cases hi : i = r.cause
  · subst hi
    rw [running] at hg
    cases hg
    exact ⟨_, List.getElem?_set_self (List.getElem?_eq_some_iff.mp running).1, hcauses⟩
  · exact ⟨g, (List.getElem?_set_ne hi).trans hg, hcauses⟩

theorem mem_fanout {s : EventService} {req : PublishEventRequest} {id : String}
    {members : List Member} {r : String × PublishEventRequest}
    (h : r ∈ s.fanout req id members) : req.relay = false ∧ r.2 = s.relayOf req id := by
  unfold EventService.fanout at h
  split at h
  · cases h
  · rename_i hrelay
    obtain ⟨m, -, rfl⟩ := List.mem_map.mp h
    exact ⟨Bool.eq_false_iff.mpr hrelay, rfl⟩

theorem length_fanout_le (s : EventService) (req : PublishEventRequest) (id : String)
    (members : List Member) :
    (s.fanout req id members).length ≤ (s.alivePeers members).length := by
  unfold EventService.fanout
  split
  · exact Nat.zero_le _
  · rw [List.length_map]

omit [DecidableEq N] in
/-- A handler starts at most one relay for each peer it sees alive. -/
theorem countP_fanout_le {s : EventService} {h : EventHandler N} {members : List Member} (i : Nat)
    (hclient : ∀ r ∈ s.fanout h.req h.id members, h.client = true) (id : String) :
    ((s.fanout h.req h.id members).map fun r => (⟨i, h.origin, r.1, r.2⟩ : SentRelay)).countP
        (·.req.eventId = id) ≤
      clientPeers id { h with stage := .finished (s.alivePeers members).length } := by
  rw [List.countP_map]
  by_cases hcounts : ∃ r ∈ s.fanout h.req h.id members, r.2.eventId = id
  · obtain ⟨r, hr, hid⟩ := hcounts
    have hidEq : h.id = id := by
      rw [← hid, (mem_fanout hr).2]
      rfl
    rw [clientPeers, if_pos ⟨hclient r hr, hidEq⟩]
    exact List.countP_le_length.trans (length_fanout_le s h.req h.id members)
  · have hnone : ∀ r ∈ s.fanout h.req h.id members, r.2.eventId ≠ id :=
      fun r hr hid => hcounts ⟨r, hr, hid⟩
    rw [List.countP_eq_zero.mpr fun r hr => by simpa using hnone r hr]
    exact Nat.zero_le _

theorem oneHop_change {net net' : EventNetwork N} {e : EventStep N} (oneHop : net.OneHop)
    (change : net.Change e net') : net'.OneHop := by
  cases change with
  | idle => exact oneHop
  | duplicate n id seen => exact ⟨oneHop.passive, oneHop.marked, oneHop.caused, oneHop.counted⟩
  | accepted n client origin req id sent named own unseen =>
      refine ⟨fun h hh hclient => ?_, oneHop.marked, fun r hr => ?_, fun x => ?_⟩
      · rcases List.mem_append.mp hh with hh | hh
        · exact oneHop.passive h hh hclient
        · obtain rfl := List.mem_singleton.mp hh
          rcases sent with ⟨hsent, -⟩ | ⟨r, hr, -, rfl⟩
          · exact absurd (hsent.symm.trans hclient) (by decide)
          · exact oneHop.marked r hr
      · obtain ⟨h, hget, hcauses⟩ := oneHop.caused r hr
        exact ⟨h, List.getElem?_append_left (List.getElem?_eq_some_iff.mp hget).1 |>.trans hget,
          hcauses⟩
      · refine (oneHop.counted x).trans ?_
        simp only [List.map_append, List.sum_append]
        exact Nat.le_add_right _ _
  | published i h now running stage =>
      have hmem := List.mem_of_getElem? running
      refine ⟨fun g hg hclient => ?_, oneHop.marked,
        fun r hr => caused_set running _ (oneHop.caused r hr), fun x => ?_⟩
      · rcases List.mem_or_eq_of_mem_set hg with hg | rfl
        · exact oneHop.passive g hg hclient
        · exact oneHop.passive h hmem hclient
      · have hsum := sum_map_set (clientPeers x) { h with stage := .published } running
        have hzero : clientPeers x h = 0 := by simp [clientPeers, stage, Stage.peers]
        have hcounted := oneHop.counted x
        change net.sent.countP _ ≤ ((net.handlers.set i _).map _).sum
        omega
  | fanned i h members running stage =>
      have hmem := List.mem_of_getElem? running
      have hclient : ∀ r ∈ (net.nodes h.node).service.fanout h.req h.id members,
          h.client = true := by
        intro r hr
        by_contra hnot
        have hrelay := oneHop.passive h hmem (Bool.eq_false_iff.mpr hnot)
        exact absurd (hrelay.symm.trans (mem_fanout hr).1) (by decide)
      refine ⟨fun g hg hpassive => ?_, fun r hr => ?_, fun r hr => ?_, fun x => ?_⟩
      · rcases List.mem_or_eq_of_mem_set hg with hg | rfl
        · exact oneHop.passive g hg hpassive
        · exact oneHop.passive h hmem hpassive
      · rcases List.mem_append.mp hr with hr | hr
        · exact oneHop.marked r hr
        · obtain ⟨q, hq, rfl⟩ := List.mem_map.mp hr
          rw [(mem_fanout hq).2]
          rfl
      · rcases List.mem_append.mp hr with hr | hr
        · exact caused_set running _ (oneHop.caused r hr)
        · obtain ⟨q, hq, rfl⟩ := List.mem_map.mp hr
          refine ⟨_, List.getElem?_set_self (List.getElem?_eq_some_iff.mp running).1,
            hclient q hq, ?_, rfl⟩
          rw [(mem_fanout hq).2]
          rfl
      · have hsum := fun k => sum_map_set (clientPeers x) { h with stage := .finished k } running
        have hzero : clientPeers x h = 0 := by simp [clientPeers, stage, Stage.peers]
        have hcounted := oneHop.counted x
        have hnew := countP_fanout_le i hclient x
        have hsum := hsum ((net.nodes h.node).service.alivePeers members).length
        change (net.sent ++ _).countP _ ≤ ((net.handlers.set i _).map _).sum
        rw [List.countP_append]
        omega

omit [DecidableEq N] in
theorem oneHop_start (bus : N → Option Bus) (peers : N → Option String) :
    (start bus peers).OneHop :=
  ⟨nofun, nofun, nofun, fun _ => Nat.zero_le _⟩

/-- What every step keeps holds after every run. -/
theorem run_induct [Unicode] {P : EventNetwork N → Prop} {net : EventNetwork N} (init : P net)
    (keep : ∀ {net net' : EventNetwork N} {e : EventStep N}, P net → net.Change e net' → P net')
    (steps : List (EventStep N)) : P (Runs.run step net steps) := by
  induction steps generalizing net with
  | nil => exact init
  | cons e steps ih => exact ih (keep init (step_change net e))

omit [DecidableEq N] in
theorem spaced_of_length_le {net : EventNetwork N} {n : N}
    (short : (net.nodes n).arrivals.length ≤ 4096) (id : String) : net.Spaced n id := by
  intro before between after new new' hsplit
  have hlength := congrArg List.length hsplit
  simp only [List.length_append, List.length_cons] at hlength
  have hids : (newIds between).length ≤ between.length := List.length_filterMap_le _ _
  have hcard := (Finset.card_erase_le (s := (newIds between).toFinset) (a := id)).trans
    (List.toFinset_card_le _)
  omega

end EventNetwork

/-- Whatever clients send and however relays are delivered, the bus of a daemon numbers an
event of an id at most once unless the daemon forgot it, and no relay is answered by
another. -/
theorem custom_events_once_and_one_hop [Unicode] {N : Type} [DecidableEq N]
    (bus : N → Option Bus) (peers : N → Option String) (steps : List (EventStep N)) :
    let net := Runs.run EventNetwork.step (EventNetwork.start bus peers) steps
    EventNetwork.Accounted bus net ∧
      (∀ n id, net.Spaced n id → net.timesPublished n id ≤ 1) ∧
      (∀ r ∈ net.sent, ∃ h, net.handlers[r.cause]? = some h ∧ h.client = true ∧
        h.id = r.req.eventId) ∧
      ∀ id, net.sent.countP (·.req.eventId = id) ≤
        (net.handlers.map (EventNetwork.clientPeers id)).sum := by
  intro net
  have accounted : EventNetwork.Accounted bus net :=
    EventNetwork.run_induct (EventNetwork.accounted_start bus peers)
      EventNetwork.accounted_change steps
  have tallied : net.Tallied :=
    EventNetwork.run_induct (EventNetwork.tallied_start bus peers)
      EventNetwork.tallied_change steps
  have oneHop : net.OneHop :=
    EventNetwork.run_induct (EventNetwork.oneHop_start bus peers)
      EventNetwork.oneHop_change steps
  refine ⟨accounted, fun n id => EventNetwork.timesPublished_le_one tallied, fun r hr => ?_,
    oneHop.counted⟩
  obtain ⟨h, hget, hclient, hid, -⟩ := oneHop.caused r hr
  exact ⟨h, hget, hclient, hid⟩

namespace EventNetwork

/-- A request that reached both of two daemons, whose relays then arrived twice at each. -/
def crossing : List (EventStep Bool) :=
  let view : List Member := [⟨"a", "a:1", Membership.statusAlive, true, "voter", 0⟩,
    ⟨"b", "b:1", Membership.statusAlive, false, "voter", 0⟩]
  let req : PublishEventRequest := { topic := "t", eventId := "e" }
  [.client false 0 req (.error ""), .client true 1 req (.error ""), .publish 0 0, .publish 1 0,
    .fanout 0 view, .fanout 1 view, .deliver 0 true (.error ""), .deliver 1 false (.error ""),
    .deliver 0 true (.error ""), .deliver 1 false (.error "")]

def twoDaemons : EventNetwork Bool :=
  start (fun _ => some .new) fun n => some (if n then "b" else "a")

end EventNetwork

/-- There each bus numbers one event, and one relay goes each way. -/
theorem custom_events_once_and_one_hop_crossing :
    letI := Unicode.ascii
    let net := Runs.run EventNetwork.step EventNetwork.twoDaemons EventNetwork.crossing
    (∀ n, (net.nodes n).arrivals.length = 3 ∧ net.timesPublished n "e" = 1) ∧
      net.sent.length = 2 ∧
      (∀ n, (net.nodes n).service.bus.map Bus.lastSeq = some (0 + UInt64.ofNat 1)) ∧
      (∀ n, net.timesPublished n "e" ≤ 1) ∧
      net.sent.countP (·.req.eventId = "e") ≤
        (net.handlers.map (EventNetwork.clientPeers "e")).sum := by
  let := Unicode.ascii
  intro net
  have harrivals : ∀ n, (net.nodes n).arrivals.length = 3 ∧ net.timesPublished n "e" = 1 := by
    decide +kernel
  have hall := custom_events_once_and_one_hop (fun _ => some .new)
    (fun n => some (if n then "b" else "a")) EventNetwork.crossing
  have hspaced : ∀ n, net.Spaced n "e" := fun n =>
    EventNetwork.spaced_of_length_le ((harrivals n).1.le.trans (by decide)) "e"
  have hone : ∀ n, (net.nodes n).published.length = 1 := by decide +kernel
  refine ⟨harrivals, by decide +kernel, fun n => ?_, fun n => hall.2.1 n "e" (hspaced n),
    hall.2.2.2 "e"⟩
  have accounted : EventNetwork.Accounted (fun _ => some .new) net := hall.1
  rw [accounted n, hone n]
  rfl

end Clusdr
