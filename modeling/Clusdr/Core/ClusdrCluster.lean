import Clusdr.Core.JoinService
import Clusdr.Go.Text

/-!
The `ClusdrCluster` object as its operator sees it, and what the operator works
out without a call: which pods are members, which of them vote, and the join
token in the log of init.
-/

namespace Clusdr.Operator

structure Spec where
  topology : String := ""
  voterCount : Int
  seedNodeName : String := ""
  leave : List String := []

structure Cluster where
  generation : Int := 0
  resourceVersion : String
  statusSeed : String
  warning : String := ""
  spec : Spec

structure MemberStatus where
  id : String
  address : String
  status : String
  role : String
deriving DecidableEq

structure Status where
  clusterID : String := ""
  leader : String := ""
  seedNodeName : String := ""
  members : List MemberStatus := []
  observedGeneration : Int := 0
  phase : String := ""
  message : String := ""
  warning : String := ""
deriving DecidableEq

structure PodAddr where
  name : String
  hostIP : String
  nodeName : String
  addr : String
  ready : Bool
deriving DecidableEq

def topoDaemon : String := "DaemonSet"
def topoSidecar : String := "Sidecar"
def grpcPort : Nat := 7947
def warnTwoClusters : String := "two clusters"

/-- `Spec.topology()`. -/
def Spec.topologyOrDefault (s : Spec) : String :=
  if s.topology = "" then topoDaemon else s.topology

def dropSet (ids : List String) : Go.Map String Unit :=
  ids.foldl (fun out id =>
    let id := Go.trimSpace id
    if id ≠ "" then out.set id () else out) ∅

def memberAddr (p : PodAddr) : String :=
  if p.hostIP = "" then "" else p.hostIP ++ ":" ++ toString grpcPort

def joinAddr (p : PodAddr) : String := if p.addr ≠ "" then p.addr else memberAddr p

def podOrdinal (name : String) : Int :=
  match Go.afterLast '-' name with
  | some ord => (Go.atoi ord).getD (-1)
  | none => -1

def alreadyMember (st : Status) (p : PodAddr) : Bool :=
  let addr := joinAddr p
  st.members.any fun m =>
    (p.nodeName ≠ "" && m.id = p.nodeName) ||
      (addr ≠ "" && m.address ≠ "" && (m.address = addr || m.address = p.hostIP))

def memberListed (st : Status) (id : String) : Bool := st.members.any (·.id = id)

def memberObserver (dsIndex voterCount : Int) : Bool :=
  if voterCount < 1 then true else decide (dsIndex + 2 > voterCount)

/-- The `\s` of a regular expression. -/
def isBlank (r : Char) : Bool := [9, 10, 12, 13, 32].contains r.toNat

/-- `joinTokenLine` from the start of a line on: the token it captures. -/
def joinTokenAt (text : List Char) : Option (List Char) :=
  let text := text.dropWhile isBlank
  let words := "join token".toList
  if words.isPrefixOf text then
    match (text.drop words.length).dropWhile isBlank with
    | ':' :: text =>
        let text := text.dropWhile isBlank
        let token := text.takeWhile (!isBlank ·)
        let rest := text.dropWhile (!isBlank ·)
        -- The line ends within the blanks after the token, or the text with them.
        if token ≠ [] ∧ ('\n' ∈ rest.takeWhile isBlank ∨ rest.dropWhile isBlank = []) then
          some token
        else none
    | _ => none
  else none

/-- `joinTokenLine.FindStringSubmatch`: the first line that matches. -/
def findJoinToken : Bool → List Char → Option (List Char)
  | _, [] => none
  | lineStart, r :: text =>
      (if lineStart then joinTokenAt (r :: text) else none) <|> findJoinToken (r == '\n') text

def parseJoinToken (logs : String) : Except String String :=
  match findJoinToken true logs.toList with
  | none => .error "join token not in init logs"
  | some token =>
      let tok := Go.trimSpace (String.ofList token)
      if tok = "" then .error "empty join token" else .ok tok

theorem parseJoinToken_ne {logs tok : String} (h : parseJoinToken logs = .ok tok) : tok ≠ "" := by
  unfold parseJoinToken at h
  split at h
  · cases h
  · simp only at h
    split at h
    · cases h
    · rename_i hne
      cases h
      exact hne

/-- What `Runtime.Snapshot` makes of the answers to `ListMembers`, `GetLeader` and
`Health`. -/
def snapshotStatus (list : List MemberInfo) (lead health : Except String String) : Status where
  phase := "Ready"
  members := list.map fun m =>
    ⟨m.id, m.address, m.status,
      if m.leader then "leader" else if m.role = "" then "voter" else m.role⟩
  leader := match lead with
    | .ok id => id
    | .error _ => ""
  clusterID := match health with
    | .ok id => id
    | .error _ => ""

end Clusdr.Operator
