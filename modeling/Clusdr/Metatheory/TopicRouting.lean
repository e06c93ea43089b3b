import Clusdr.Core.EventService

/-!
Topics on their way from a publisher to a watcher. Both may write a topic with or
without the leading `custom.`; the watcher's side takes it off, `PublishEvent` puts
another one before it.
-/

namespace Clusdr

open Go (Time Unicode hasPrefix trimPrefix)
open EventBus (Bus)
open Events (Event customType normalizeTopic topicFromType typeCustomPrefix validTopic)

namespace Events

theorem normalizeTopic_of_short {topic : String} (h : hasPrefix topic typeCustomPrefix = false) :
    normalizeTopic topic = topic := Go.trimPrefix_of_not h

theorem normalizeTopic_ne {topic : String} (h : hasPrefix topic typeCustomPrefix = true) :
    normalizeTopic topic ≠ topic := Go.trimPrefix_ne h (by decide)

theorem topicFromType_customType {topic : String} (h : topic ≠ "") :
    topicFromType (customType topic) = some topic := by
  rw [topicFromType, customType, if_pos (Go.hasPrefix_append _ _)]
  simp only [Go.trimPrefix_append]
  exact if_neg h

variable [Unicode]

theorem ne_empty_of_validTopic {topic : String} (h : validTopic topic = .ok ()) : topic ≠ "" := by
  rintro rfl
  have hnormal : normalizeTopic "" = "" := normalizeTopic_of_short (by decide)
  rw [validTopic, hnormal, checkName, if_pos rfl] at h
  cases h

omit [Unicode] in
theorem not_protocol_customType (topic : String) :
    WatchRequest.isProtocolEvent (customType topic) = false := by
  have hne : ∀ t, hasPrefix t typeCustomPrefix = false → (customType topic == t) = false := by
    intro t ht
    rw [beq_eq_false_iff_ne]
    rintro rfl
    rw [customType, Go.hasPrefix_append] at ht
    cases ht
  rw [WatchRequest.isProtocolEvent, hne _ (by decide), hne _ (by decide)]
  rfl

end Events

/-- A watcher of one topic gets the type `PublishEvent` gives its topic. -/
theorem WatchRequest.accepts_customType {req : WatchRequest} {t u : String} (ht : t ≠ "")
    (topics : req.topics = [u]) (types : req.eventTypes = []) :
    req.accepts (customType t) = decide (normalizeTopic u = t) := by
  rw [accepts, Events.not_protocol_customType, topics, types, Events.topicFromType_customType ht]
  simp [topicListed, matchesType, Bool.beq_eq_decide_eq]

namespace WatchStream

/-- The stream's next round sends the event. -/
def Forwards (w : WatchStream) (b : Bus) (now : Time) (e : Event) : Prop :=
  ∃ gaps, ((w.receive b).1.forward (w.receive b).2 now).1.sent = w.sent ++ gaps ++ [.live e]

theorem forwards_iff {w : WatchStream} {b b' : Bus} {e : Event} (idle : w.received = none)
    (head : b.receive w.sub = some (e, b')) (now : Time) :
    w.Forwards b now e ↔ w.req.accepts e.type = true := by
  rw [Forwards, receive, head]
  by_cases haccepts : w.req.accepts e.type = true
  · simp only [if_pos haccepts]
    exact iff_of_true ⟨_, rfl⟩ haccepts
  · simp only [if_neg haccepts, forward, idle]
    refine iff_of_false ?_ haccepts
    rintro ⟨gaps, hsent⟩
    have hlen := congrArg List.length hsent
    simp only [List.length_append, List.length_singleton] at hlen
    omega

/-- A stream that watches the topic `u` alone is about to receive what `PublishEvent` put on
the bus for the request. -/
structure Offered (s : EventService) (req : PublishEventRequest) (u : String) (w : WatchStream)
    (b : Bus) (e : Event) : Prop where
  topics : w.req.topics = [u]
  types : w.req.eventTypes = []
  idle : w.received = none
  published : ∃ bus now, e = Bus.stamped bus now (s.event req)
  head : ∃ b', b.receive w.sub = some (e, b')

variable [Unicode]

theorem forwards_published {s : EventService} {req : PublishEventRequest} {u : String}
    {w : WatchStream} {b : Bus} {e : Event} (offered : Offered s req u w b e)
    (valid : validTopic req.topic = .ok ()) (now : Time) :
    w.Forwards b now e ↔ normalizeTopic u = req.topic := by
  obtain ⟨topics, types, idle, ⟨bus, at', rfl⟩, b', head⟩ := offered
  rw [forwards_iff idle head]
  change w.req.accepts (customType req.topic) = true ↔ _
  rw [WatchRequest.accepts_customType (Events.ne_empty_of_validTopic valid) topics types,
    decide_eq_true_eq]

end WatchStream

open WatchStream (Offered)

/-- A watcher of `u` gets what is published to the topic exactly when both name one topic, as long
as the publisher writes the short form; if it writes the long form, only a watcher that names
neither form's topic is treated as it should be. -/
theorem topics_agree_iff [Unicode] {s : EventService} {req : PublishEventRequest} {u : String}
    {w : WatchStream} {b : Bus} {e : Event} (offered : Offered s req u w b e)
    (published : validTopic req.topic = .ok ()) (now : Time) :
    (w.Forwards b now e ↔ normalizeTopic req.topic = normalizeTopic u) ↔
      (hasPrefix req.topic typeCustomPrefix = true →
        normalizeTopic u ≠ req.topic ∧ normalizeTopic u ≠ normalizeTopic req.topic) := by
  rw [WatchStream.forwards_published offered published]
  cases hlong : hasPrefix req.topic typeCustomPrefix with
  | false =>
      rw [Events.normalizeTopic_of_short hlong]
      exact iff_of_true eq_comm nofun
  | true =>
      have hne := Events.normalizeTopic_ne hlong
      constructor
      · intro h _
        refine ⟨fun hu => hne ((h.mp hu).trans hu), fun hu => hne ?_⟩
        exact hu.symm.trans (h.mpr hu.symm)
      · intro h
        obtain ⟨hother, hsame⟩ := h rfl
        exact iff_of_false hother (Ne.symm hsame)

namespace WatchStream

def soleEvents : EventService := ⟨some .new, some "n1", newIDCache seenEventCap⟩

/-- The first subscriber of a fresh bus watches the topic. -/
def watching (u : String) : Bus × WatchStream := subscribe .new 16 { topics := [u] }

/-- And the topic `t` is published. -/
def afterPublish (t u : String) : Bus := (watching u).1.publish 0 (soleEvents.event { topic := t })

def publishedTo (t u : String) : Event :=
  (watching u).1.stamped 0 (soleEvents.event { topic := t })

theorem offered_afterPublish (t u : String) :
    Offered soleEvents { topic := t } u (watching u).2 (afterPublish t u) (publishedTo t u) where
  topics := rfl
  types := rfl
  idle := rfl
  published := ⟨_, _, rfl⟩
  head := ⟨_, rfl⟩

end WatchStream

open WatchStream (watching afterPublish publishedTo offered_afterPublish)

/-- A watcher that writes the long form gets what is published in the short one. -/
theorem topics_agree_iff_short :
    (watching "custom.deployment").2.Forwards (afterPublish "deployment" "custom.deployment") 0
      (publishedTo "deployment" "custom.deployment") := by
  let := Unicode.ascii
  have hagree := (topics_agree_iff (offered_afterPublish "deployment" "custom.deployment")
    (by decide +kernel) 0).mpr fun hlong => absurd hlong (by decide)
  exact hagree.mpr (by decide)

/-- What is published in the long form does not reach a watcher that writes the same form. -/
theorem long_topic_not_forwarded :
    letI := Unicode.ascii
    validTopic "custom.deployment" = .ok () ∧
      ¬ (watching "custom.deployment").2.Forwards
        (afterPublish "custom.deployment" "custom.deployment") 0
        (publishedTo "custom.deployment" "custom.deployment") := by
  let := Unicode.ascii
  have hvalid : validTopic "custom.deployment" = .ok () := by decide +kernel
  refine ⟨hvalid, fun hforwards => ?_⟩
  have htopic := (WatchStream.forwards_published
    (offered_afterPublish "custom.deployment" "custom.deployment") hvalid 0).mp hforwards
  exact Events.normalizeTopic_ne (by decide) htopic

end Clusdr
