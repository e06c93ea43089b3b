import Clusdr.Go.JsonRoundTrip
import Clusdr.Metatheory.SnapshotReplay
import Clusdr.Metatheory.Submissions

/-!
The bytes of the Raft log. The leader writes each command as JSON text, and every
node decodes the text again before it applies it.
-/

namespace Clusdr.Consensus

open Go (Json Time Unicode)

/-- `encodeCommand`. -/
def encodeCommand (c : Command) : Option (List Char) := c.encode.text

/-- The document of an entry's data. Why a text is no document is not told apart. -/
def document (data : List Char) : Except Json.Error Json :=
  match Json.parse data with
  | some j => .ok j
  | none => .error .mismatch

/-- `decodeCommand`. -/
def decodeCommand (data : List Char) : Except Json.Error Command :=
  (document data).bind Command.decode

/-- The fields of a command are strings and integers. -/
theorem Command.leaf_of_mem {c : Command} {fields : List (String × Json)}
    (h : c.encode = .obj fields) {f : String × Json} (hf : f ∈ fields) :
    (∃ s, f.2 = .str s) ∨ ∃ n, f.2 = .num n := by
  obtain rfl := Json.obj.inj h
  simp only [List.mem_append, List.mem_cons, List.not_mem_nil, or_false] at hf
  rcases hf with ((((((rfl | rfl) | hf) | hf) | hf) | hf) | hf) | hf
  · exact .inl ⟨_, rfl⟩
  · exact .inl ⟨_, rfl⟩
  · exact .inl ⟨_, congrArg Prod.snd (Json.eq_of_mem_omitEmpty hf)⟩
  · exact .inl ⟨_, congrArg Prod.snd (Json.eq_of_mem_omitEmpty hf)⟩
  · exact .inl ⟨_, congrArg Prod.snd (Json.eq_of_mem_omitEmpty hf)⟩
  · exact .inr ⟨_, congrArg Prod.snd (Json.eq_of_mem_omitEmpty hf)⟩
  · exact .inr ⟨_, congrArg Prod.snd (Json.eq_of_mem_omitEmpty hf)⟩
  · exact .inr ⟨_, congrArg Prod.snd (Json.eq_of_mem_omitEmpty hf)⟩

theorem exists_encodeCommand (c : Command) :
    ∃ data, encodeCommand c = some data ∧ document data = .ok c.encode := by
  obtain ⟨fields, hfields⟩ : ∃ fields, c.encode = .obj fields := ⟨_, rfl⟩
  have hleaf := fun f => Command.leaf_of_mem (f := f) hfields
  obtain ⟨t, ht⟩ := Json.exists_textMembers fun f hf => by
    rcases hleaf f hf with ⟨s, hs⟩ | ⟨n, hn⟩
    · exact ⟨_, by rw [hs]; rfl⟩
    · exact ⟨_, by rw [hn]; rfl⟩
  have hdepth : Json.depthMembers fields ≤ 0 := Json.depthMembers_le fun f hf => by
    rcases hleaf f hf with ⟨s, hs⟩ | ⟨n, hn⟩
    · rw [hs, Json.depth]
      all_goals nofun
    · rw [hn, Json.depth]
      all_goals nofun
  have htext : c.encode.text = some ('\x7b' :: (t ++ ['\x7d'])) := by
    rw [hfields, Json.text, ht]
    rfl
  refine ⟨_, htext, ?_⟩
  have hmax : c.encode.depth ≤ Json.maxNestingDepth := by
    rw [hfields, Json.depth, Json.maxNestingDepth]
    omega
  rw [document, Json.parse_text htext hmax]

theorem decodeCommand_encodeCommand {c : Command} (known : c.kind ∈ CommandKind.known)
    {data : List Char} (h : encodeCommand c = some data) : decodeCommand data = .ok c := by
  obtain ⟨data', h', hdoc⟩ := exists_encodeCommand c
  obtain rfl : data' = data := Option.some.inj (h'.symm.trans h)
  rw [decodeCommand, hdoc]
  exact Command.decode_encode known

/-- A log in the leader's hands: the commands it submitted, and the entries of Raft's
own between them. -/
abbrev Submitted := List (Option Command)

/-- The log as it is written. -/
def Submitted.write : Submitted → Option (List (Option (List Char)))
  | [] => some []
  | none :: log => (write log).map fun disk => none :: disk
  | some c :: log => do return some (← encodeCommand c) :: (← write log)

/-- An entry as a node reads it. -/
def LogEntry.ofData : Option (List Char) → LogEntry
  | some data => .command (document data)
  | none => .other

def Submitted.Known (log : Submitted) : Prop :=
  ∀ c, some c ∈ log → c.kind ∈ CommandKind.known

theorem Submitted.exists_write (log : Submitted) : ∃ disk, log.write = some disk := by
  induction log with
  | nil => exact ⟨[], rfl⟩
  | cons e log ih =>
      obtain ⟨disk, hdisk⟩ := ih
      cases e with
      | none => exact ⟨none :: disk, by simp [write, hdisk]⟩
      | some c =>
          obtain ⟨data, hdata, -⟩ := exists_encodeCommand c
          exact ⟨some data :: disk, by simp [write, hdisk, hdata]⟩

theorem Submitted.write_cons {e : Option Command} {log : Submitted}
    {disk : List (Option (List Char))} (h : write (e :: log) = some disk) :
    ∃ d rest, disk = d :: rest ∧ log.write = some rest ∧
      ((e = none ∧ d = none) ∨
        ∃ c data, e = some c ∧ d = some data ∧ encodeCommand c = some data) := by
  cases e with
  | none =>
      obtain ⟨rest, hrest, rfl⟩ := Option.map_eq_some_iff.mp h
      exact ⟨none, rest, rfl, hrest, .inl ⟨rfl, rfl⟩⟩
  | some c =>
      simp only [write, Option.bind_eq_bind, Option.bind_eq_some_iff, Option.pure_def,
        Option.some.injEq] at h
      obtain ⟨data, hdata, rest, hrest, rfl⟩ := h
      exact ⟨some data, rest, rfl, hrest, .inr ⟨c, data, rfl, rfl, hdata⟩⟩

theorem Submitted.known_tail {e : Option Command} {log : Submitted}
    (h : Submitted.Known (e :: log)) : log.Known :=
  fun c hc => h c (List.mem_cons_of_mem _ hc)

/-- Two logs that are written the same are the same. -/
theorem Submitted.write_injective {log log' : Submitted} (known : log.Known)
    (known' : log'.Known) {disk : List (Option (List Char))} (h : log.write = some disk)
    (h' : log'.write = some disk) : log = log' := by
  induction log generalizing log' disk with
  | nil =>
      obtain rfl := Option.some.inj h
      cases log' with
      | nil => rfl
      | cons e log' =>
          obtain ⟨d, rest, hnil, -⟩ := write_cons h'
          exact absurd hnil (by simp)
  | cons e log ih =>
      obtain ⟨d, rest, rfl, hrest, hd⟩ := write_cons h
      cases log' with
      | nil => exact absurd (Option.some.inj h') (by simp)
      | cons e' log' =>
          obtain ⟨d', rest', heq, hrest', hd'⟩ := write_cons h'
          obtain ⟨rfl, rfl⟩ := List.cons.inj heq
          rw [ih (known_tail known) (known_tail known') hrest hrest']
          congr 1
          rcases hd with ⟨rfl, rfl⟩ | ⟨c, data, rfl, rfl, hc⟩
          · rcases hd' with ⟨rfl, -⟩ | ⟨_, _, -, hdata, -⟩
            · rfl
            · exact absurd hdata (by simp)
          · rcases hd' with ⟨-, hdata⟩ | ⟨c', data', rfl, hdata, hc'⟩
            · exact absurd hdata (by simp)
            · obtain rfl := Option.some.inj hdata
              have hdec := decodeCommand_encodeCommand (known c List.mem_cons_self) hc
              have hdec' := decodeCommand_encodeCommand (known' c' List.mem_cons_self) hc'
              rw [Except.ok.inj (hdec.symm.trans hdec')]

section Replay

variable [Unicode]

/-- The commands of a log applied as they were submitted. -/
def Fsm.applySubmitted (f : Fsm) (now : Nat → Time) : Submitted → Fsm × List Response
  | [] => (f, [])
  | none :: log =>
      let (f, responses) := f.applySubmitted (fun i => now (i + 1)) log
      (f, .nil :: responses)
  | some c :: log =>
      let (f, response, _) := f.applyCommand (now 0) c
      let (f, responses) := f.applySubmitted (fun i => now (i + 1)) log
      (f, response :: responses)

theorem Fsm.applyAll_written {log : Submitted} (known : log.Known)
    {disk : List (Option (List Char))} (h : log.write = some disk) (f : Fsm)
    (now : Nat → Time) :
    f.applyAll now (disk.map LogEntry.ofData) = f.applySubmitted now log := by
  induction log generalizing f now disk with
  | nil =>
      obtain rfl := Option.some.inj h
      rfl
  | cons e log ih =>
      obtain ⟨d, rest, rfl, hrest, hd⟩ := Submitted.write_cons h
      have hlog := fun f now => ih (Submitted.known_tail known) hrest f now
      rcases hd with ⟨rfl, rfl⟩ | ⟨c, data, rfl, rfl, hc⟩
      · simp only [List.map_cons, LogEntry.ofData, applyAll, apply, hlog, applySubmitted]
      · have hdec := decodeCommand_encodeCommand (known c List.mem_cons_self) hc
        rw [decodeCommand] at hdec
        simp only [List.map_cons, LogEntry.ofData, applyAll, apply, hdec, hlog, applySubmitted]

/-- A node that reads the log ends where applying the commands themselves ends, with
the same answers, and no other commands are written as that log. -/
theorem replay_of_written_log (log : Submitted) (known : log.Known) :
    ∃ disk, log.write = some disk ∧
      (∀ f now, Fsm.applyAll f now (disk.map LogEntry.ofData) = f.applySubmitted now log) ∧
      ∀ log' : Submitted, log'.Known → log'.write = some disk → log' = log := by
  obtain ⟨disk, hdisk⟩ := log.exists_write
  refine ⟨disk, hdisk, Fsm.applyAll_written known hdisk, ?_⟩
  exact fun log' known' h' => Submitted.write_injective known' known h' hdisk

end Replay

/-- A lock whose name has a quote and a line break, and a negative lifetime. -/
def oddLog : Submitted :=
  [some { kind := .lockAcquire, id := "a", name := "job \"x\"\n<1>", token := 7, ttlMs := -5 }, none]

theorem oddLog_known : oddLog.Known := by
  intro c hc
  simp only [oddLog, List.mem_cons, Option.some.injEq, reduceCtorEq, List.not_mem_nil,
    or_false] at hc
  subst hc
  decide

theorem replay_of_written_log_odd : letI := Unicode.ascii
    oddLog.Known ∧ ∃ disk, oddLog.write = some disk ∧
      (∀ f now, Fsm.applyAll f now (disk.map LogEntry.ofData) = f.applySubmitted now oddLog) ∧
      ∀ log' : Submitted, log'.Known → log'.write = some disk → log' = oddLog :=
  letI := Unicode.ascii
  ⟨oddLog_known, replay_of_written_log oddLog oddLog_known⟩

end Clusdr.Consensus
