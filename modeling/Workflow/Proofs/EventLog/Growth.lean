import Workflow.EventLog

/-!
# What a log holds

Events are only ever added to a log, and their numbers are their places in it.
-/

namespace Workflow

namespace EventLog

variable {log log' log'' : EventLog} {messages messages' : List Message}

/-- The later log holds the events of the earlier one and, numbered on, one for each message. -/
def Tells (log log' : EventLog) (messages : List Message) : Prop :=
  ∃ events, log'.events = log.events ++ events ∧ events.map (·.message) = messages ∧
    events.map (·.seq) = List.range' log.events.length events.length

theorem Tells.of_events_eq (h : log'.events = log.events) : log.Tells log' [] :=
  ⟨[], by rw [h, List.append_nil], rfl, rfl⟩

theorem Tells.trans (h : log.Tells log' messages) (h' : log'.Tells log'' messages') :
    log.Tells log'' (messages ++ messages') := by
  obtain ⟨events, hevents, rfl, hseq⟩ := h
  obtain ⟨events', hevents', rfl, hseq'⟩ := h'
  refine ⟨events ++ events', ?_, List.map_append, ?_⟩
  · rw [hevents', hevents, List.append_assoc]
  · rw [hevents, List.length_append] at hseq'
    rw [List.map_append, hseq, hseq', List.length_append, List.range'_append_1]

theorem events_close (log : EventLog) : log.close.events = log.events := by
  unfold close
  split <;> rfl

theorem tells_emit (log : EventLog) (time : Moment) (message : Message) :
    log.Tells (log.emit time message) [message] := ⟨_, rfl, rfl, rfl⟩

/-- The numbers of the events are their places in the log. -/
def IsNumbered (log : EventLog) : Prop :=
  log.events.map (·.seq) = List.range log.events.length

theorem Tells.isNumbered (h : log.Tells log' messages) (hnumbered : log.IsNumbered) :
    log'.IsNumbered := by
  obtain ⟨events, hevents, -, hseq⟩ := h
  rw [IsNumbered, List.range_eq_range'] at hnumbered
  rw [IsNumbered, hevents, List.map_append, hnumbered, hseq, List.length_append,
    List.range_eq_range', ← List.range'_append_1, Nat.zero_add]

end EventLog

end Workflow
