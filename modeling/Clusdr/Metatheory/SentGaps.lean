import Clusdr.Metatheory.WatchStream

/-!
Gaps among the messages of one stream: before its first event, in what it sends
on connecting, and with an event it passes on.
-/

namespace Clusdr

open Go (Time)
open Events (Event)
open Clusdr.Membership (Member)

def WatchMessage.isEvent : WatchMessage → Bool
  | .live _ => true
  | _ => false

def HasLive (sent : List WatchMessage) : Prop := ∃ e, .live e ∈ sent

def HasGap (sent : List WatchMessage) : Prop := ∃ lo hi now, .gap lo hi now ∈ sent

/-- A gap comes before the first event. -/
def GapFirst (sent : List WatchMessage) : Prop :=
  ∀ before e after, sent = before ++ .live e :: after → HasGap before

theorem gapFirst_of_not_hasLive {sent : List WatchMessage} (h : ¬ HasLive sent) :
    GapFirst sent := by
  intro before e after hsplit
  refine absurd ⟨e, ?_⟩ h
  rw [hsplit]
  exact List.mem_append_right _ List.mem_cons_self

theorem hasGap_of_hasLive {sent : List WatchMessage} (h : GapFirst sent) (live : HasLive sent) :
    HasGap sent := by
  obtain ⟨e, he⟩ := live
  obtain ⟨before, after, hsplit⟩ := List.append_of_mem he
  obtain ⟨lo, hi, now, hgap⟩ := h before e after hsplit
  refine ⟨lo, hi, now, ?_⟩
  rw [hsplit]
  exact List.mem_append_left _ hgap

theorem hasGap_append (sent sent' : List WatchMessage) :
    HasGap (sent ++ sent') ↔ HasGap sent ∨ HasGap sent' := by
  simp only [HasGap, List.mem_append, exists_or]

/-- Sending one more event after some gaps. -/
theorem gapFirst_append {sent gaps : List WatchMessage} (h : GapFirst sent) (noLive : ¬ HasLive gaps)
    (e : Event) : GapFirst (sent ++ gaps ++ [.live e]) ↔ HasGap (sent ++ gaps) := by
  constructor
  · intro hnew
    exact hnew (sent ++ gaps) e [] rfl
  · intro hgap before e' after hsplit
    rcases Feed.split_append hsplit with ⟨rest, hold⟩ | ⟨more, rfl, hlast⟩
    · rcases Feed.split_append hold with ⟨rest', hsent⟩ | ⟨more, -, hgaps⟩
      · exact h before e' rest' hsent
      · exact absurd ⟨e', by rw [hgaps]; simp⟩ noLive
    · obtain ⟨lo, hi, now, hmem⟩ := hgap
      exact ⟨lo, hi, now, List.mem_append_left _ hmem⟩

namespace Watching

/-- The messages before the loop. -/
theorem greeting_sent (req : WatchRequest) (fromSeq : UInt64) (now : Time)
    (members : List Member) (leaderID : String) :
    let sent := WatchStream.greeting req fromSeq now members leaderID
    (∀ r, .state r ∈ sent → r.seq = 0) ∧ (∀ q at', .sync q at' ∈ sent → q = fromSeq) ∧
      ¬ HasLive sent ∧ (HasGap sent ↔ 0 < req.lastSeq ∧ req.lastSeq < fromSeq) := by
  refine ⟨fun r hr => ?_, fun q at' hq => ?_, ?_, ?_⟩
  · rcases kind_of_mem_greeting hr with ⟨r', hr', hseq⟩ | hr' | ⟨-, hr'⟩ <;> cases hr'
    exact hseq
  · rcases kind_of_mem_greeting hq with ⟨r', hq', -⟩ | hq' | ⟨-, hq'⟩ <;> cases hq'
    rfl
  · rintro ⟨e, he⟩
    exact (mem_greeting he).1 e rfl
  · constructor
    · rintro ⟨lo, hi, at', h⟩
      rcases kind_of_mem_greeting h with ⟨r', h', -⟩ | h' | ⟨hgap, -⟩
      · cases h'
      · cases h'
      · exact hgap
    · intro hgap
      refine ⟨req.lastSeq + 1, fromSeq, now, List.mem_append_right _ ?_⟩
      rw [if_pos hgap]
      exact List.mem_singleton_self _

/-- Without an event sent before, the loop sends a gap if events were dropped and
the event is not the daemon's first. -/
theorem gapBefore_zero (now : Time) (e : Event) :
    HasGap (WatchStream.gapBefore 0 now e) ↔ 1 < e.seq := by
  have hiff : (e.seq > 0 ∧ 1 ≤ e.seq - 1) ↔ 1 < e.seq := by
    simp only [gt_iff_lt, UInt64.lt_iff_toNat_lt, UInt64.le_iff_toNat_le]
    constructor
    · rintro ⟨hpos, hle⟩
      rw [Go.Counter.toNat_pred hpos, UInt64.toNat_one] at hle
      rw [UInt64.toNat_one]
      omega
    · intro h
      rw [UInt64.toNat_one] at h
      have hpos : 0 < e.seq.toNat := by omega
      refine ⟨hpos, ?_⟩
      rw [Go.Counter.toNat_pred hpos, UInt64.toNat_one]
      omega
  simp only [WatchStream.gapBefore, gt_iff_lt, UInt64.lt_irrefl, ite_false]
  rw [← hiff]
  constructor
  · rintro ⟨lo, hi, at', h⟩
    exact (List.mem_ite_nil_right.mp h).1
  · intro h
    refine ⟨1, e.seq - 1, now, ?_⟩
    rw [if_pos h]
    exact List.mem_singleton_self _

theorem not_hasLive_gapBefore (lastLive : UInt64) (now : Time) (e : Event) :
    ¬ HasLive (WatchStream.gapBefore lastLive now e) := by
  rintro ⟨e', he'⟩
  cases List.mem_singleton.mp (List.mem_ite_nil_right.mp he').2

end Watching

end Clusdr
