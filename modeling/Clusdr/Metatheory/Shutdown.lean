import Clusdr.Core.Lifecycle
import Clusdr.Runs.Along

/-!
How the daemon ends. Whatever stops it and in whatever order its goroutines get to run,
the units are closed once, last started first, and `Wait` returns only after that, with
the first error any serve goroutine ever sent.
-/

namespace Clusdr.Lifecycle

open Runs

/-- The units with a close function, in the order they start. -/
def closers (units : List AppUnit) : List String :=
  (units.filter (·.hasClose)).map (·.name)

section Init

variable [Go.Unicode]

theorem closeFns_of_initUnits {units : List AppUnit} {a b : App}
    (h : a.initUnits units = .ok b) : b.closeFns = a.closeFns ++ closers units := by
  induction units generalizing a with
  | nil =>
      cases h
      exact (List.append_nil _).symm
  | cons u units ih =>
      obtain ⟨name, initFn, hasClose⟩ := u
      unfold App.initUnits at h
      split at h
      · cases h
      · split at h
        · cases h
        · rw [ih h]
          cases hasClose with
          | false => rfl
          | true => exact List.append_assoc _ [name] _

/-- Why a unit does not start in the bag `a`, in the words of the error. -/
inductive Refuses (a : App) : AppUnit → String → Prop
  | missing (name : String) (hasClose : Bool) :
      Refuses a ⟨name, none, hasClose⟩ ("unit " ++ Go.quote name ++ " has nil InitFn")
  | failed {name : String} {initFn : App → Nat × Option String} {hasClose : Bool} {err : String}
      (h : (initFn a).2 = some err) : Refuses a ⟨name, some initFn, hasClose⟩ (name ++ ": " ++ err)

theorem failure_of_initUnits {units : List AppUnit} {a : App} {f : Failure}
    (h : a.initUnits units = .error f) :
    ∃ before u after b, units = before ++ u :: after ∧ a.initUnits before = .ok b ∧
      Refuses b u f.err ∧ f.closed = (a.closeFns ++ closers before).reverse := by
  induction units generalizing a with
  | nil => cases h
  | cons u units ih =>
      obtain ⟨name, initFn, hasClose⟩ := u
      unfold App.initUnits at h
      split at h
      case h_1 missing =>
        cases h
        cases missing
        exact ⟨[], _, units, a, rfl, rfl, .missing name hasClose,
          congrArg List.reverse (List.append_nil _).symm⟩
      case h_2 initFn' there =>
        cases there
        split at h
        case h_1 err failed =>
          cases h
          exact ⟨[], _, units, a, rfl, rfl, .failed (congrArg Prod.snd failed),
            congrArg List.reverse (List.append_nil _).symm⟩
        case h_2 serves started =>
          obtain ⟨before, u, after, b, rfl, hbefore, refuses, closed⟩ := ih h
          have hinit : a.initUnits (⟨name, some initFn', hasClose⟩ :: before) = .ok b := by
            unfold App.initUnits
            simp only [started]
            exact hbefore
          refine ⟨_ :: before, u, after, b, rfl, hinit, refuses, ?_⟩
          rw [closed, ← closeFns_of_initUnits hbefore, closeFns_of_initUnits hinit]

end Init

/-- How far the receives of `Wait` are, `n` results having been taken off the channel. -/
def Received (count n : Nat) (serveTaken : Bool) (closing : Closing) : Waiting → Prop
  | .idle | .selecting => n = 0 ∧ serveTaken = false
  | .closing => n = (if serveTaken then 1 else 0) ∧ closing ≠ .idle
  | .draining m => n + m = count ∧ closing = .done
  | .returned => n = count ∧ closing = .done

/-- How far the close functions are. -/
def ClosedSoFar (all closeFns closed : List String) : Closing → Prop
  | .idle => closeFns = all ∧ closed = []
  | .running rest => closed ++ rest = all.reverse
  | .done => closed = all.reverse

/-- The process after the events `past` of a daemon that started as `a`. -/
structure Sound (a : App) (past : List Event) (s : Live) : Prop where
  count : s.serveCount = a.serveCount
  sent : s.arrived.length + s.running = a.serveCount
  closers : ClosedSoFar a.closeFns s.closeFns s.closed s.closing
  received : ∃ taken, s.arrived = taken ++ s.serveErr ∧ s.waitErr = taken.findSome? id ∧
    Received a.serveCount taken.length s.serveTaken s.closing s.waiting
  stopped : s.stopped = true → .stop ∈ past
  begun : s.closing ≠ .idle → .stop ∈ past ∨ .close ∈ past ∨ s.arrived ≠ []

theorem Sound.start (a : App) : Sound a [] a.live where
  count := rfl
  sent := Nat.zero_add _
  closers := ⟨rfl, rfl⟩
  received := ⟨[], rfl, rfl, rfl, rfl⟩
  stopped := nofun
  begun := fun h => absurd rfl h

variable {a : App} {past : List Event} {s : Live}

theorem Sound.later (h : Sound a past s) (e : Event) : Sound a (past ++ [e]) s where
  count := h.count
  sent := h.sent
  closers := h.closers
  received := h.received
  stopped := fun hs => List.mem_append_left _ (h.stopped hs)
  begun := fun hs => (h.begun hs).imp (List.mem_append_left _) (.imp_left (List.mem_append_left _))

theorem Sound.serveExits (h : Sound a past s) (err : Option String) :
    Sound a past (s.step (.serveExits err)) := by
  simp only [Live.step]
  split
  case isFalse => exact h
  case isTrue room =>
    obtain ⟨taken, harrived, hwaitErr, hreceived⟩ := h.received
    refine { h with sent := ?_, received := ⟨taken, ?_, hwaitErr, hreceived⟩, begun := ?_ }
    · have := h.sent
      simp only [List.length_append, List.length_singleton]
      omega
    · simp only [harrived, List.append_assoc]
    · exact fun _ => .inr (.inr (List.append_ne_nil_of_right_ne_nil _ (List.cons_ne_nil _ _)))

/-- Until the close functions are done their progress does not concern `Wait`. -/
theorem Received.moves {count n : Nat} {serveTaken : Bool} {waiting : Waiting}
    {closing closing' : Closing} (h : Received count n serveTaken closing waiting)
    (before : closing ≠ .done) (after : closing' ≠ .idle) :
    Received count n serveTaken closing' waiting := by
  cases waiting with
  | idle | selecting => exact h
  | closing => exact ⟨h.1, after⟩
  | draining m | returned => exact absurd h.2 before

/-- `Close` may begin where something asked for it. -/
theorem Sound.close (h : Sound a past s) (hbegun : .stop ∈ past ∨ .close ∈ past ∨ s.arrived ≠ []) :
    Sound a past s.close := by
  unfold Live.close
  split
  case h_1 idle =>
    have hclosers := h.closers
    obtain ⟨taken, harrived, hwaitErr, hreceived⟩ := h.received
    rw [idle] at hclosers hreceived
    obtain ⟨hall, hclosed⟩ := hclosers
    refine { h with
      closers := ?_
      received := ⟨taken, harrived, hwaitErr, hreceived.moves Closing.noConfusion Closing.noConfusion⟩
      begun := fun _ => hbegun }
    show s.closed ++ s.closeFns.reverse = _
    rw [hall, hclosed, List.nil_append]
  all_goals exact h

theorem Live.close_closing (s : Live) : s.close.closing ≠ .idle := by
  unfold Live.close
  split
  case h_1 => exact Closing.noConfusion
  case h_2 rest running => rw [running]; exact Closing.noConfusion
  case h_3 done => rw [done]; exact Closing.noConfusion

theorem Sound.closeNext (h : Sound a past s) : Sound a past (s.step .closeNext) := by
  have hclosers := h.closers
  obtain ⟨taken, harrived, hwaitErr, hreceived⟩ := h.received
  have hbegun := h.begun
  simp only [Live.step]
  split
  case h_1 name rest running =>
    rw [running] at hclosers hreceived hbegun
    exact { h with
      closers := (List.append_assoc _ [name] rest).trans hclosers
      received := ⟨taken, harrived, hwaitErr,
        hreceived.moves Closing.noConfusion Closing.noConfusion⟩
      begun := fun _ => hbegun Closing.noConfusion }
  case h_2 running =>
    rw [running] at hclosers hreceived hbegun
    exact { h with
      closers := (List.append_nil _).symm.trans hclosers
      received := ⟨taken, harrived, hwaitErr,
        hreceived.moves Closing.noConfusion Closing.noConfusion⟩
      begun := fun _ => hbegun Closing.noConfusion }
  all_goals exact h

theorem Sound.wait (h : Sound a past s) : Sound a past (s.step .wait) := by
  simp only [Live.step]
  split
  case isFalse => exact h
  case isTrue idle =>
    obtain ⟨taken, harrived, hwaitErr, hreceived⟩ := h.received
    rw [idle] at hreceived
    exact { h with received := ⟨taken, harrived, hwaitErr, hreceived⟩ }

/-- What `Wait` notes before it closes does not concern `Close`. -/
theorem Live.close_noting (s : Live) (serveErr : List (Option String)) (serveTaken : Bool)
    (waitErr : Option String) :
    close { s with serveErr, serveTaken, waitErr, waiting := .closing } =
      { s.close with serveErr, serveTaken, waitErr, waiting := .closing } := by
  obtain ⟨_, _, _, _, _, _ | _ | _, _, _, _, _, _⟩ := s <;> rfl

theorem Live.close_frame (s : Live) :
    s.close.waiting = s.waiting ∧ s.close.serveErr = s.serveErr ∧
      s.close.arrived = s.arrived ∧ s.close.serveTaken = s.serveTaken ∧
      s.close.waitErr = s.waitErr := by
  obtain ⟨_, _, _, _, _, _ | _ | _, _, _, _, _, _⟩ := s <;> exact ⟨rfl, rfl, rfl, rfl, rfl⟩

/-- While `Wait` selects nothing has been received. -/
theorem Sound.selecting (h : Sound a past s) (hw : s.waiting = .selecting) :
    s.arrived = s.serveErr ∧ s.waitErr = none ∧ s.serveTaken = false := by
  obtain ⟨taken, harrived, hwaitErr, hreceived⟩ := h.received
  rw [hw] at hreceived
  obtain rfl : taken = [] := List.eq_nil_of_length_eq_zero hreceived.1
  exact ⟨harrived, hwaitErr, hreceived.2⟩

theorem Sound.takeErr (h : Sound a past s) : Sound a past (s.step .takeErr) := by
  simp only [Live.step]
  split
  case h_1 => exact h
  case h_2 err rest hsent =>
    split
    case isFalse => exact h
    case isTrue hselect =>
      obtain ⟨harrived, -, -⟩ := h.selecting hselect.1
      rw [hsent] at harrived
      have hbegun : s.arrived ≠ [] := harrived ▸ List.cons_ne_nil err rest
      have hclose := h.close (.inr (.inr hbegun))
      rw [Live.close_noting]
      refine { hclose with received := ⟨[err], ?_, ?_, rfl, s.close_closing⟩ }
      · exact s.close_frame.2.2.1.trans harrived
      · cases err <;> rfl

theorem Sound.takeStop (h : Sound a past s) : Sound a past (s.step .takeStop) := by
  simp only [Live.step]
  split
  case isFalse => exact h
  case isTrue hselect =>
    obtain ⟨harrived, hnone, htaken⟩ := h.selecting hselect.1
    have hclose := h.close (.inl (h.stopped hselect.2))
    have hnoting := s.close_noting s.serveErr s.serveTaken s.waitErr
    rw [show Live.close { s with waiting := .closing } = _ from hnoting]
    refine { hclose with received := ⟨[], ?_, hnone, ?_, s.close_closing⟩ }
    · exact s.close_frame.2.2.1.trans harrived
    · show 0 = if s.serveTaken then 1 else 0
      rw [htaken]
      rfl

theorem Sound.drain (h : Sound a past s) : Sound a past (s.step .drain) := by
  obtain ⟨taken, harrived, hwaitErr, hreceived⟩ := h.received
  have hlen := congrArg List.length harrived
  rw [List.length_append] at hlen
  have hsent := h.sent
  simp only [Live.step]
  split
  case h_1 closing =>
    split
    case isFalse => exact h
    case isTrue done =>
      rw [closing] at hreceived
      refine { h with received := ⟨taken, harrived, hwaitErr, ?_, done⟩ }
      have hn := hreceived.1
      rw [h.count]
      omega
  case h_2 last =>
    rw [last] at hreceived
    exact { h with received := ⟨taken, harrived, hwaitErr, hreceived⟩ }
  case h_3 n draining =>
    rw [draining] at hreceived
    split
    case h_1 => exact h
    case h_2 err rest hnext =>
      refine { h with received := ⟨taken ++ [err], ?_, ?_, ?_, hreceived.2⟩ }
      · exact (harrived.trans (congrArg _ hnext)).trans (List.append_cons taken err rest)
      · show s.waitErr.or err = _
        rw [hwaitErr, List.findSome?_append]
        cases err <;> rfl
      · have hn := hreceived.1
        simp only [List.length_append, List.length_singleton]
        omega
  all_goals exact h

theorem Sound.step (h : Sound a past s) (e : Event) : Sound a (past ++ [e]) (s.step e) := by
  have hlater := h.later e
  cases e with
  | serveExits err => exact hlater.serveExits err
  | stop => exact { hlater with stopped := fun _ => List.mem_append_right _ List.mem_cons_self }
  | wait => exact hlater.wait
  | close => exact hlater.close (.inr (.inl (List.mem_append_right _ List.mem_cons_self)))
  | closeNext => exact hlater.closeNext
  | takeErr => exact hlater.takeErr
  | takeStop => exact hlater.takeStop
  | drain => exact hlater.drain

theorem Sound.run (a : App) (es : List Event) : Sound a es (run Live.step a.live es) := by
  have halong : Along Live.step (fun _ _ => True) a.live es :=
    Along.of_forall_mem fun _ _ _ => trivial
  exact invariant (Sound a) (Sound.start a) (fun _ _ e h _ => h.step e) halong

/-- The steps the process takes by itself once it is asked to end. -/
def Event.own : Event → Bool
  | .closeNext | .takeErr | .takeStop | .drain => true
  | .serveExits _ | .stop | .wait | .close => false

/-- All that could go on by itself blocks. -/
def Live.Settled (s : Live) : Prop := ∀ e : Event, e.own = true → s.step e = s

/-- What a settled process is waiting for. -/
inductive Awaits (a : App) (s : Live) : Prop
  | call (h : s.waiting = .idle)
  | reason (selecting : s.waiting = .selecting) (running : s.stopped = false) (none : s.arrived = [])
  | server (closed : s.closed = a.closeFns.reverse) (running : 0 < s.running)
  | nothing (h : s.waiting = .returned)

theorem Sound.awaits (h : Sound a past s) (settled : s.Settled) : Awaits a s := by
  obtain ⟨taken, harrived, -, hreceived⟩ := h.received
  have hclosers := h.closers
  have hsent := h.sent
  have blocked : ∀ e : Event, e.own = true → (s.step e).waiting = s.waiting :=
    fun e own => congrArg _ (settled e own)
  cases hw : s.waiting with
  | idle => exact .call hw
  | returned => exact .nothing hw
  | selecting =>
      refine .reason hw (Bool.eq_false_iff.mpr fun stopped => ?_) ?_
      · have hstop := blocked .takeStop rfl
        simp only [Live.step] at hstop
        rw [if_pos ⟨hw, stopped⟩, (Live.close_frame _).1, hw] at hstop
        cases hstop
      · obtain ⟨hall, -, -⟩ := h.selecting hw
        rw [hall]
        cases hs : s.serveErr with
        | nil => rfl
        | cons err rest =>
            have hcount : 0 < s.serveCount := by
              rw [h.count, ← hsent, hall, hs, List.length_cons]
              omega
            have htake := blocked .takeErr rfl
            simp only [Live.step, hs] at htake
            rw [if_pos ⟨hw, hcount⟩, (Live.close_frame _).1, hw] at htake
            cases htake
  | closing =>
      rw [hw] at hreceived
      cases hc : s.closing with
      | idle => exact absurd hc hreceived.2
      | running rest =>
          have hnext := congrArg Live.closing (settled .closeNext rfl)
          cases rest with
          | nil =>
              simp only [Live.step, hc] at hnext
              cases hnext
          | cons name rest =>
              simp only [Live.step, hc, Closing.running.injEq] at hnext
              exact absurd hnext (List.cons_ne_self name rest).symm
      | done =>
          have hdrain := blocked .drain rfl
          simp only [Live.step, hw, if_pos hc] at hdrain
          cases hdrain
  | draining n =>
      rw [hw] at hreceived
      obtain ⟨hn, hdone⟩ := hreceived
      rw [hdone] at hclosers
      have hdrain := blocked .drain rfl
      cases n with
      | zero =>
          simp only [Live.step, hw] at hdrain
          cases hdrain
      | succ n =>
          cases hs : s.serveErr with
          | nil =>
              rw [hs, List.append_nil] at harrived
              rw [harrived] at hsent
              exact .server hclosers (by omega)
          | cons err rest =>
              simp only [Live.step, hw, hs, Waiting.draining.injEq] at hdrain
              omega

/-- How many steps of its own the process has left at most. -/
def Live.left (s : Live) : Nat :=
  (match s.waiting with
    | .idle => s.serveCount + 5
    | .selecting => s.serveCount + 4
    | .closing => s.serveCount + 3
    | .draining n => n + 1
    | .returned => 0) +
  (match s.closing with
    | .idle => s.closeFns.length + 2
    | .running rest => rest.length + 1
    | .done => 0)

theorem Live.close_left (s : Live) : s.close.left ≤ s.left := by
  unfold Live.close
  split
  case h_1 idle =>
    simp only [Live.left, idle, List.length_reverse]
    omega
  all_goals exact Nat.le_refl _

theorem Live.step_left (s : Live) (e : Event) :
    s.step e = s ∨ (s.step e).left + e.own.toNat ≤ s.left := by
  cases e with
  | serveExits err =>
      simp only [Live.step]
      split
      · exact .inr (Nat.le_refl _)
      · exact .inl rfl
  | stop => exact .inr (Nat.le_refl _)
  | wait =>
      simp only [Live.step]
      split
      case isTrue idle =>
        right
        simp only [Live.left, idle, Event.own, Bool.toNat_false]
        omega
      case isFalse => exact .inl rfl
  | close => exact .inr s.close_left
  | closeNext =>
      simp only [Live.step]
      split
      case h_1 name rest running =>
        right
        simp only [Live.left, running, Event.own, Bool.toNat_true, List.length_cons]
        omega
      case h_2 running =>
        right
        simp only [Live.left, running, Event.own, Bool.toNat_true, List.length_nil]
        omega
      all_goals exact .inl rfl
  | takeErr =>
      simp only [Live.step]
      split
      case h_1 => exact .inl rfl
      case h_2 err rest hsent =>
        split
        case isTrue hselect =>
          right
          refine Nat.le_trans (Nat.add_le_add_right (Live.close_left _) _) ?_
          simp only [Live.left, hselect.1, Event.own, Bool.toNat_true]
          omega
        case isFalse => exact .inl rfl
  | takeStop =>
      simp only [Live.step]
      split
      case isTrue hselect =>
        right
        refine Nat.le_trans (Nat.add_le_add_right (Live.close_left _) _) ?_
        simp only [Live.left, hselect.1, Event.own, Bool.toNat_true]
        omega
      case isFalse => exact .inl rfl
  | drain =>
      simp only [Live.step]
      split
      case h_1 closing =>
        split
        case isTrue done =>
          right
          simp only [Live.left, closing, Event.own, Bool.toNat_true]
          omega
        case isFalse => exact .inl rfl
      case h_2 last =>
        right
        simp only [Live.left, last, Event.own, Bool.toNat_true]
        omega
      case h_3 n draining =>
        split
        case h_1 => exact .inl rfl
        case h_2 err rest hnext =>
          right
          simp only [Live.left, draining, Event.own, Bool.toNat_true]
          omega
      all_goals exact .inl rfl

/-- The steps of its own that the process takes in a run and that do not block. -/
def ownMoves : Live → List Event → Nat
  | _, [] => 0
  | s, e :: es => (if s.step e = s then 0 else e.own.toNat) + ownMoves (s.step e) es

theorem ownMoves_le (s : Live) (es : List Event) : ownMoves s es ≤ s.left := by
  induction es generalizing s with
  | nil => exact Nat.zero_le _
  | cons e es ih =>
      have hrest := ih (s.step e)
      unfold ownMoves
      split
      case isTrue hstep =>
        rw [hstep] at hrest ⊢
        rwa [Nat.zero_add]
      case isFalse hstep =>
        have hleft := (s.step_left e).resolve_left hstep
        omega

theorem ClosedSoFar.isPrefix {all closeFns closed : List String} {closing : Closing}
    (h : ClosedSoFar all closeFns closed closing) : closed <+: all.reverse := by
  cases closing with
  | idle => exact ⟨all.reverse, by rw [h.2, List.nil_append]⟩
  | running rest => exact ⟨rest, h⟩
  | done => exact ⟨[], (List.append_nil _).trans h⟩

theorem Sound.closed_begun (h : Sound a past s) (hclosed : s.closed ≠ []) :
    .stop ∈ past ∨ .close ∈ past ∨ s.arrived ≠ [] := by
  refine h.begun fun idle => hclosed ?_
  have hclosers := h.closers
  rw [idle] at hclosers
  exact hclosers.2

theorem Sound.returned (h : Sound a past s) (hreturned : s.waiting = .returned) :
    s.closed = a.closeFns.reverse ∧ s.arrived.length = a.serveCount ∧
      s.waitErr = s.arrived.findSome? id := by
  obtain ⟨taken, harrived, hwaitErr, hreceived⟩ := h.received
  have hclosers := h.closers
  rw [hreturned] at hreceived
  obtain ⟨hall, hdone⟩ := hreceived
  rw [hdone] at hclosers
  -- All the serve goroutines' results have been taken, so the channel is empty.
  have hempty : s.serveErr = [] := by
    have hlen := congrArg List.length harrived
    have hsent := h.sent
    rw [List.length_append] at hlen
    exact List.eq_nil_of_length_eq_zero (by omega)
  rw [hempty, List.append_nil] at harrived
  exact ⟨hclosers, harrived ▸ hall, harrived ▸ hwaitErr⟩

/-- A start that fails closes the units before the failing one again, and a daemon that
started ends, whatever the interleaving: no unit is closed before there is a reason to,
those that are were the last to start, and `Wait` returns when all are closed and all serve
goroutines are gone, with the first error one of them sent. Nothing but a serve goroutine
that does not return holds this up. -/
theorem wait_ends_in_reverse [Go.Unicode] (units : List AppUnit) :
    (∀ f, App.initApp units = .error f →
      ∃ before u after a, units = before ++ u :: after ∧ App.initApp before = .ok a ∧
        Refuses a u f.err ∧ f.closed = (closers before).reverse) ∧
    ∀ a, App.initApp units = .ok a → ∀ es : List Event,
      let s := run Live.step a.live es
      s.closed <+: (closers units).reverse ∧
      (s.closed ≠ [] → .stop ∈ es ∨ .close ∈ es ∨ s.arrived ≠ []) ∧
      (s.waiting = .returned → s.closed = (closers units).reverse ∧
        s.arrived.length = a.serveCount ∧
        s.waitResult = (s.arrived.findSome? id).map ("serve: " ++ ·)) ∧
      (s.Settled → Awaits a s) ∧
      ownMoves a.live es ≤ a.serveCount + (closers units).length + 7 := by
  refine ⟨fun f hf => ?_, fun a ha es => ?_⟩
  · exact failure_of_initUnits hf
  · have hunits : a.closeFns = closers units := closeFns_of_initUnits ha
    have hsound := Sound.run a es
    refine ⟨hunits ▸ hsound.closers.isPrefix, hsound.closed_begun, fun hreturned => ?_,
      hsound.awaits, ?_⟩
    · obtain ⟨hclosed, harrived, hwaitErr⟩ := hsound.returned hreturned
      exact ⟨hunits ▸ hclosed, harrived, congrArg (Option.map _) hwaitErr⟩
    · refine Nat.le_trans (ownMoves_le a.live es) (Nat.le_of_eq ?_)
      rw [← hunits]
      simp only [Live.left, App.live]
      omega

/-- The daemon's units where all of them start: `InitGRPC` serves two listeners. -/
def started : List AppUnit :=
  defaultUnits fun name _ => (if name = "grpc" then 2 else 0, none)

/-- A signal stops the daemon while the control listener is failing: the select may see
either, and the other server ends only because the gRPC server is closed. -/
def stopping : List Event :=
  [.wait, .serveExits (some "accept: closed"), .stop, .takeStop, .closeNext, .closeNext,
    .closeNext, .serveExits none, .closeNext, .closeNext, .closeNext, .drain, .drain, .drain,
    .drain]

theorem wait_ends_in_reverse_started :
    letI := Go.Unicode.ascii
    App.initApp started = .ok ⟨["store", "consensus", "grpc", "heartbeat", "presence"], 2⟩ ∧
      let s := run Live.step
        (App.live ⟨["store", "consensus", "grpc", "heartbeat", "presence"], 2⟩) stopping
      s.waiting = .returned ∧
        s.closed = ["presence", "heartbeat", "grpc", "consensus", "store"] ∧
        s.waitResult = some "serve: accept: closed" := by
  let := Go.Unicode.ascii
  have hinit : App.initApp started =
      .ok ⟨["store", "consensus", "grpc", "heartbeat", "presence"], 2⟩ := by rfl
  have hreturned : (run Live.step
      (App.live ⟨["store", "consensus", "grpc", "heartbeat", "presence"], 2⟩) stopping).waiting =
      .returned := by decide +kernel
  obtain ⟨-, -, hends, -, -⟩ := (wait_ends_in_reverse started).2 _ hinit stopping
  obtain ⟨hclosed, -, hresult⟩ := hends hreturned
  exact ⟨hinit, hreturned, hclosed, hresult⟩

end Clusdr.Lifecycle
