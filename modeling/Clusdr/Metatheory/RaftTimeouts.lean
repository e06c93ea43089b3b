import Clusdr.Core.Config

/-!
Which configurations start Raft. Loading compares the leader lease with the heartbeat
only, and only where the heartbeat is set; what is left to the defaults of the library
is compared with nothing.
-/

namespace Clusdr.Settings

open Go (Duration Unicode)
open Consensus (timeouts defaultTimeouts)

namespace Config

theorem clamped_lease {c : Config}
    (long : 0 < c.raft.heartbeatTimeout ∧ c.raft.heartbeatTimeout < c.raft.leaderLeaseTimeout) :
    0 < c.clampRaft.raft.leaderLeaseTimeout ∧
      c.clampRaft.raft.leaderLeaseTimeout ≤ c.raft.heartbeatTimeout := by
  rw [clampRaft, if_pos long]
  dsimp only
  split
  · exact ⟨long.1, Int64.le_refl _⟩
  · rename_i hhalf
    exact ⟨Int64.not_le.mp hhalf, Go.Duration.half_le long.1⟩

theorem heartbeat_clampRaft (c : Config) :
    c.clampRaft.raft.heartbeatTimeout = c.raft.heartbeatTimeout := by
  unfold clampRaft
  split <;> rfl

theorem election_clampRaft (c : Config) :
    c.clampRaft.raft.electionTimeout = c.raft.electionTimeout := by
  unfold clampRaft
  split <;> rfl

/-- The check finds nothing that the clamp has left. -/
theorem checked_eq (c : Config) : c.checked = .ok c.clampRaft := by
  have hvalid : c.clampRaft.validate = .ok () := by
    refine if_neg ?_
    rw [heartbeat_clampRaft]
    by_cases hlong : 0 < c.raft.heartbeatTimeout ∧
        c.raft.heartbeatTimeout < c.raft.leaderLeaseTimeout
    · exact fun h => Int64.not_lt.mpr (clamped_lease hlong).2 h.2
    · rw [clampRaft, if_neg hlong]
      exact hlong
  rw [checked, hvalid]

end Config

namespace RaftConfig

/-- The timeouts that were set suit each other and the defaults of those that were not. -/
structure Suited (r : RaftConfig) : Prop where
  election : (if 0 < r.heartbeatTimeout then r.heartbeatTimeout else 1000 * Duration.millisecond) ≤
    if 0 < r.electionTimeout then r.electionTimeout else 1000 * Duration.millisecond
  heartbeat : r.leaderLeaseTimeout ≤ 0 → 0 < r.heartbeatTimeout →
    500 * Duration.millisecond ≤ r.heartbeatTimeout
  leaderLease : r.heartbeatTimeout ≤ 0 → r.leaderLeaseTimeout ≤ 1000 * Duration.millisecond

end RaftConfig

/-- Where the clamp has nothing to do, the leader lease is left as it was merged. -/
theorem lease_timeouts_iff {r : RaftConfig}
    (short : ¬(0 < r.heartbeatTimeout ∧ r.heartbeatTimeout < r.leaderLeaseTimeout)) :
    (timeouts r).leaderLease ≤ (timeouts r).heartbeat ↔
      (r.leaderLeaseTimeout ≤ 0 → 0 < r.heartbeatTimeout →
        500 * Duration.millisecond ≤ r.heartbeatTimeout) ∧
      (r.heartbeatTimeout ≤ 0 → r.leaderLeaseTimeout ≤ 1000 * Duration.millisecond) := by
  simp only [timeouts, defaultTimeouts]
  by_cases hheartbeat : 0 < r.heartbeatTimeout
  · rw [if_pos hheartbeat]
    have hset : r.leaderLeaseTimeout ≤ r.heartbeatTimeout :=
      Int64.not_lt.mp fun h => short ⟨hheartbeat, h⟩
    by_cases hlease : 0 < r.leaderLeaseTimeout
    · rw [if_pos hlease]
      refine iff_of_true hset ⟨fun h => absurd hlease (Int64.not_lt.mpr h), fun h => ?_⟩
      exact absurd hheartbeat (Int64.not_lt.mpr h)
    · rw [if_neg hlease]
      refine ⟨fun h => ⟨fun _ _ => h, fun h => absurd hheartbeat (Int64.not_lt.mpr h)⟩, fun h => ?_⟩
      exact h.1 (Int64.not_lt.mp hlease) hheartbeat
  · rw [if_neg hheartbeat]
    by_cases hlease : 0 < r.leaderLeaseTimeout
    · rw [if_pos hlease]
      exact ⟨fun h => ⟨fun _ h => absurd h hheartbeat, fun _ => h⟩,
        fun h => h.2 (Int64.not_lt.mp hheartbeat)⟩
    · rw [if_neg hlease]
      refine iff_of_true (by decide) ⟨fun _ h => absurd h hheartbeat, fun _ => ?_⟩
      exact Int64.le_trans (Int64.not_lt.mp hlease) (by decide)

theorem timeouts_clampRaft_iff (c : Config) :
    (timeouts c.clampRaft.raft).Valid ↔ c.raft.Suited := by
  have helection : (timeouts c.clampRaft.raft).heartbeat ≤ (timeouts c.clampRaft.raft).election ↔
      (if 0 < c.raft.heartbeatTimeout then c.raft.heartbeatTimeout
        else 1000 * Duration.millisecond) ≤
      if 0 < c.raft.electionTimeout then c.raft.electionTimeout
        else 1000 * Duration.millisecond := by
    simp only [timeouts, c.heartbeat_clampRaft, c.election_clampRaft, defaultTimeouts]
  by_cases hlong : 0 < c.raft.heartbeatTimeout ∧
      c.raft.heartbeatTimeout < c.raft.leaderLeaseTimeout
  · obtain ⟨hpos, hle⟩ := Config.clamped_lease hlong
    have hlease :
        (timeouts c.clampRaft.raft).leaderLease ≤ (timeouts c.clampRaft.raft).heartbeat := by
      simp only [timeouts, c.heartbeat_clampRaft]
      rw [if_pos hpos, if_pos hlong.1]
      exact hle
    constructor
    · intro h
      refine ⟨helection.mp h.2, fun hnone => ?_, fun hnone => ?_⟩
      · exact absurd (Int64.lt_trans hlong.1 hlong.2) (Int64.not_lt.mpr hnone)
      · exact absurd hlong.1 (Int64.not_lt.mpr hnone)
    · exact fun h => ⟨hlease, helection.mpr h.election⟩
  · have hsame : c.clampRaft = c := if_neg hlong
    rw [hsame] at helection ⊢
    constructor
    · intro h
      obtain ⟨hheartbeat, hlease⟩ := (lease_timeouts_iff hlong).mp h.1
      exact ⟨helection.mp h.2, hheartbeat, hlease⟩
    · exact fun h => ⟨(lease_timeouts_iff hlong).mpr ⟨h.heartbeat, h.leaderLease⟩,
        helection.mpr h.election⟩

theorem loaded_timeouts_valid_iff [Unicode] (w : Surroundings) (path : String) (cfg : Config)
    (accepted : Config.loadFrom w path = .ok cfg) :
    ∃ merged, Config.merged w path = .ok merged ∧
      ((timeouts cfg.raft).Valid ↔ merged.raft.Suited) := by
  unfold Config.loadFrom at accepted
  cases hmerged : Config.merged w path with
  | error err =>
      rw [hmerged] at accepted
      cases accepted
  | ok merged =>
      rw [hmerged] at accepted
      have hcfg : merged.clampRaft = cfg :=
        Except.ok.inj ((Config.checked_eq merged).symm.trans accepted)
      exact ⟨merged, rfl, hcfg ▸ timeouts_clampRaft_iff merged⟩

/-- No home directory, no file, and these variables. -/
def bare (getenv : String → String) : Surroundings :=
  ⟨none, fun _ => .notExist, fun _ cfg => .ok cfg, getenv⟩

/-- The heartbeat raised to a second, and nothing else. -/
def slowHeartbeat (key : String) : String :=
  if key = "CLUSDR_RAFT_HEARTBEAT_TIMEOUT" then "1s" else ""

/-- The heartbeat and the election raised together. -/
def slowElection (key : String) : String :=
  if key = "CLUSDR_RAFT_ELECTION_TIMEOUT" then "1s" else slowHeartbeat key

theorem loaded_timeouts_valid_iff_raised : letI := Unicode.ascii
    ∃ cfg, Config.loadFrom (bare slowElection) "" = .ok cfg ∧ (timeouts cfg.raft).Valid := by
  let := Unicode.ascii
  let cfg := ((Config.defaults none).applyEnv slowElection).clampRaft
  have accepted : Config.loadFrom (bare slowElection) "" = .ok cfg := rfl
  obtain ⟨merged, hmerged, hvalid⟩ := loaded_timeouts_valid_iff _ _ cfg accepted
  obtain rfl : (Config.defaults none).applyEnv slowElection = merged := Except.ok.inj hmerged
  exact ⟨cfg, accepted, hvalid.mpr ⟨by decide, by decide, by decide⟩⟩

/-- The raised heartbeat exceeds the default election timeout. -/
theorem raised_heartbeat_not_valid : letI := Unicode.ascii
    ∃ cfg, Config.loadFrom (bare slowHeartbeat) "" = .ok cfg ∧
      timeouts cfg.raft = ⟨1000000000, 150000000, 75000000⟩ ∧ ¬(timeouts cfg.raft).Valid :=
  ⟨((Config.defaults none).applyEnv slowHeartbeat).clampRaft, rfl, by decide, by decide⟩

end Clusdr.Settings
