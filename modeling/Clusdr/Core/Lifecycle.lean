import Clusdr.Go.Text

/-!
The daemon as a process: the units it is started from, and the interleaving of its
serve goroutines, of `Stop`, of `Close` and of the one `Wait` that ends it.
-/

namespace Clusdr.Lifecycle

/-- What `InitApp` builds up besides the collaborators the units put into the bag. -/
structure App where
  closeFns : List String := []
  serveCount : Nat := 0
deriving DecidableEq

/-- `Unit`. What an `InitFn` does to the process is to call `StartServe` some number of
times and to return an error or nil; both may depend on what ran before it. -/
structure AppUnit where
  name : String
  initFn : Option (App → Nat × Option String)
  hasClose : Bool := false

/-- A start that failed: the units closed again, in the order they were closed, and the
error. -/
structure Failure where
  closed : List String
  err : String
deriving DecidableEq

namespace App

/-- The bag after a unit whose `InitFn` started `serves` goroutines and returned nil. -/
def add (a : App) (u : AppUnit) (serves : Nat) : App where
  closeFns := if u.hasClose then a.closeFns ++ [u.name] else a.closeFns
  serveCount := a.serveCount + serves

variable [Go.Unicode]

def initUnits : App → List AppUnit → Except Failure App
  | a, [] => .ok a
  | a, u :: units =>
      match u.initFn with
      | none => .error ⟨a.closeFns.reverse, "unit " ++ Go.quote u.name ++ " has nil InitFn"⟩
      | some initFn =>
          match initFn a with
          | (_, some err) => .error ⟨a.closeFns.reverse, u.name ++ ": " ++ err⟩
          | (serves, none) => initUnits (a.add u serves) units

def initApp (units : List AppUnit) : Except Failure App := initUnits {} units

end App

/-- `DefaultUnits`, with what each `InitFn` does left open. -/
def defaultUnits (initFn : String → App → Nat × Option String) : List AppUnit :=
  [("config", false), ("logger", false), ("store", true), ("membership", false),
    ("bus", false), ("locks", false), ("leases", false), ("consensus", true),
    ("grpc", true), ("heartbeat", true), ("presence", true), ("announce", false)].map
    fun (name, hasClose) => { name, initFn := some (initFn name), hasClose }

/-- How far `closeOnce` is: the close functions still to run. -/
inductive Closing where
  | idle
  | running (rest : List String)
  | done
deriving DecidableEq

/-- How far the one `Wait` is; `draining n` has `n` receives of `drainServeErr` left. -/
inductive Waiting where
  | idle
  | selecting
  | closing
  | draining (n : Nat)
  | returned
deriving DecidableEq

/-- The running process. `running` counts the serve goroutines that have not sent their
result; `closed` and `arrived` record the close functions that ran and the results sent. -/
structure Live where
  closeFns : List String
  serveCount : Nat
  running : Nat
  serveErr : List (Option String) := []
  stopped : Bool := false
  closing : Closing := .idle
  closed : List String := []
  waiting : Waiting := .idle
  serveTaken : Bool := false
  waitErr : Option String := none
  arrived : List (Option String) := []
deriving DecidableEq

def App.live (a : App) : Live where
  closeFns := a.closeFns
  serveCount := a.serveCount
  running := a.serveCount

/-- The buffer of `serveErr`. -/
def serveErrCap : Nat := 8

inductive Event where
  /-- A serve goroutine's server returns `err` and its send goes through. -/
  | serveExits (err : Option String)
  | stop
  | wait
  | close
  /-- The next close function of `closeOnce` returns; all of them are taken to return. -/
  | closeNext
  /-- `Wait`'s select receives a serve error. -/
  | takeErr
  /-- `Wait`'s select sees the stop channel closed. -/
  | takeStop
  | drain
deriving DecidableEq

namespace Live

/-- `Close` enters `closeOnce`; a second caller only waits for the first. -/
def close (s : Live) : Live :=
  match s.closing with
  | .idle => { s with closing := .running s.closeFns.reverse }
  | .running _ | .done => s

/-- A step that has to block leaves the process as it is. -/
def step (s : Live) : Event → Live
  | .serveExits err =>
      if 0 < s.running ∧ s.serveErr.length < serveErrCap then
        { s with
          running := s.running - 1
          serveErr := s.serveErr ++ [err]
          arrived := s.arrived ++ [err] }
      else s
  | .stop => { s with stopped := true }
  | .wait => if s.waiting = .idle then { s with waiting := .selecting } else s
  | .close => s.close
  | .closeNext =>
      match s.closing with
      | .running (name :: rest) =>
          { s with closing := .running rest, closed := s.closed ++ [name] }
      | .running [] => { s with closing := .done, closeFns := [] }
      | .idle | .done => s
  | .takeErr =>
      match s.serveErr with
      | [] => s
      | err :: rest =>
          if s.waiting = .selecting ∧ 0 < s.serveCount then
            close { s with serveErr := rest, serveTaken := true, waitErr := err, waiting := .closing }
          else s
  | .takeStop =>
      if s.waiting = .selecting ∧ s.stopped then close { s with waiting := .closing } else s
  | .drain =>
      match s.waiting with
      | .closing =>
          if s.closing = .done then
            { s with waiting := .draining (s.serveCount - if s.serveTaken then 1 else 0) }
          else s
      | .draining 0 => { s with waiting := .returned }
      | .draining (n + 1) =>
          match s.serveErr with
          | [] => s
          | err :: rest =>
              { s with serveErr := rest, waitErr := s.waitErr.or err, waiting := .draining n }
      | .idle | .selecting | .returned => s

/-- What every call of `Wait` returns, once one does. -/
def waitResult (s : Live) : Option String := s.waitErr.map ("serve: " ++ ·)

end Live

end Clusdr.Lifecycle
