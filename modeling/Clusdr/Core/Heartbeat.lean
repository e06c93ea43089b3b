import Clusdr.Core.Membership

/-!
The heartbeat monitor. A tick goes over the members as they were listed when it
began and pings those that were alive; a peer that missed `maxMisses` pings in a
row is reported and its count forgotten.
-/

namespace Clusdr.Heartbeat

open Clusdr.Membership (Engine Member statusAlive)

structure Monitor where
  maxMisses : Int
  misses : Go.Map String Nat

/-- One round of the loop in `tick`: whether the member answered its ping, and the
id that is reported dead. -/
def Monitor.probe (m : Monitor) (selfID : String) (mem : Member) (reached : Bool) :
    Monitor × Option String :=
  if mem.id = selfID ∨ mem.status ≠ statusAlive then (m, none)
  else if reached then ({ m with misses := m.misses.delete mem.id }, none)
  else
    let missed := (m.misses.get mem.id).getD 0 + 1
    if m.maxMisses ≤ missed then ({ m with misses := m.misses.delete mem.id }, some mem.id)
    else ({ m with misses := m.misses.set mem.id missed }, none)

/-- A tick in progress: the members it pinged and those it reported so far. -/
structure Tick where
  monitor : Monitor
  engine : Engine
  pinged : List String
  reported : List String

/-- One round of the loop; `reached` is which members answer. A report goes to the
`reportDead` hook if there is one, and what it does comes after the tick: the loop
does not read the engine again. -/
def Tick.round (hook : Bool) (selfID : String) (reached : String → Bool) (t : Tick)
    (mem : Member) : Tick :=
  let (monitor, dead) := t.monitor.probe selfID mem (reached mem.id)
  { monitor
    engine := if hook then t.engine else dead.elim t.engine fun id => (t.engine.markDead id).1
    pinged := if mem.id = selfID ∨ mem.status ≠ statusAlive then t.pinged
      else t.pinged ++ [mem.id]
    reported := t.reported ++ dead.toList }

def Monitor.tick (m : Monitor) (e : Engine) (hook : Bool) (reached : String → Bool) : Tick :=
  e.membersList.foldl (Tick.round hook e.selfID reached) ⟨m, e, [], []⟩

end Clusdr.Heartbeat
