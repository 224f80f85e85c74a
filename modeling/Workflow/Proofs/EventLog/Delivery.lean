import Workflow.Proofs.EventLog.Growth
import Mathlib.Data.List.Count
import Mathlib.Data.List.Infix

/-!
# What the consumers of a log receive

Events are emitted, the log is closed, and subscribers come, read and leave, in whatever order. What
a subscriber has read and what stands in its queue are together what it is due: all events as long
as the log is open, and those recorded at the later one of its start and the close after that.
-/

namespace Workflow

namespace Subscription

variable {s : Subscription} {due : List Event} {isOver : Bool}

/-- The subscriber reads as long as there is something to read. -/
def IsSteady (s : Subscription) : Prop := s.limit = none

/-- What stands in a queue behind the events. -/
def ending (isOver : Bool) : List Notice := if isOver then [.closed] else []

/-- A subscriber is given the events it is due, and after them, once the log is closed, the end. -/
inductive Awaits (s : Subscription) (due : List Event) (isOver : Bool) : Prop
  | reading (rest : List Event) (hended : s.hasEnded = false) (hlive : s.isLive = !isOver)
    (hqueue : s.queue = rest.map .event ++ ending isOver)
    (hdue : s.seen ++ rest = due)
  | through (hended : s.hasEnded = true) (hlive : s.isLive = false) (hover : isOver = true)
    (hseen : s.seen = due)

/-- A subscriber has stopped reading before the end. -/
structure HasLeft (s : Subscription) (due : List Event) : Prop where
  ended : s.hasEnded = true
  live : s.isLive = false
  seen : s.seen <+: due

theorem Awaits.isPrefix_seen (h : s.Awaits due isOver) : s.seen <+: due := by
  cases h with
  | reading rest _ _ _ hdue => exact ⟨rest, hdue⟩
  | through _ _ _ hseen => exact hseen ▸ List.prefix_rfl

theorem Awaits.push (h : s.Awaits due false) (event : Event) :
    (s.push (.event event)).Awaits (due ++ [event]) false := by
  cases h with
  | reading rest hended hlive hqueue hdue =>
      have hpush : s.push (.event event) = { s with queue := s.queue ++ [.event event] } := by
        rw [Subscription.push, hlive]
        rfl
      rw [hpush]
      refine .reading (rest ++ [event]) hended hlive ?_ ?_
      · simp [hqueue, ending]
      · rw [← hdue, List.append_assoc]
  | through _ _ hover => cases hover

theorem Awaits.push_of_isOver (h : s.Awaits due true) (notice : Notice) : s.push notice = s := by
  have hlive : s.isLive = false := by
    cases h with
    | reading _ _ hlive => exact hlive
    | through _ hlive => exact hlive
  rw [Subscription.push, hlive]
  rfl

theorem Awaits.close (h : s.Awaits due false) :
    Awaits { s.push .closed with isLive := false } due true := by
  cases h with
  | reading rest hended hlive hqueue hdue =>
      rw [Subscription.push, hlive]
      exact .reading rest hended rfl (by simp [hqueue, ending]) hdue
  | through _ _ hover => cases hover

theorem read_event {event : Event} {queue : List Notice} (hgoing : s.hasEnded = false)
    (hqueue : s.queue = .event event :: queue) : s.read = { s with queue }.take event := by
  rw [Subscription.read, hgoing, hqueue]
  rfl

theorem read_closed (hgoing : s.hasEnded = false) (hqueue : s.queue = [.closed]) :
    s.read = { s with queue := [] }.cancel := by
  rw [Subscription.read, hgoing, hqueue]
  rfl

theorem read_of_hasEnded (hended : s.hasEnded = true) : s.read = s := by
  rw [Subscription.read, hended]
  rfl

theorem read_empty (hqueue : s.queue = []) : s.read = s := by
  rw [Subscription.read, hqueue]
  split <;> rfl

theorem Awaits.read (h : s.Awaits due isOver) :
    s.read.Awaits due isOver ∨ (s.read.HasLeft due ∧ ¬ s.IsSteady) := by
  cases h with
  | through hended hlive hover hseen =>
      rw [read_of_hasEnded hended]
      exact Or.inl (.through hended hlive hover hseen)
  | reading rest hended hlive hqueue hdue =>
      cases rest with
      | nil =>
          left
          cases isOver with
          | false =>
              rw [read_empty hqueue]
              exact .reading [] hended hlive hqueue hdue
          | true =>
              rw [read_closed hended hqueue]
              exact .through rfl rfl rfl (by simpa [cancel] using hdue)
      | cons event rest =>
          rw [read_event hended hqueue]
          have hdue' : s.seen ++ [event] ++ rest = due := by simpa using hdue
          unfold take
          dsimp only
          split
          · rename_i hsated
            refine Or.inr ⟨⟨rfl, rfl, ⟨rest, hdue'⟩⟩, fun hsteady => ?_⟩
            rw [IsSteady] at hsteady
            simp [isSated, hsteady] at hsated
          · exact Or.inl (.reading rest hended hlive rfl hdue')

theorem limit_read (s : Subscription) : s.read.limit = s.limit := by
  unfold Subscription.read
  split
  · rfl
  · split
    · rfl
    · simp only [take]
      split <;> rfl
    · rfl

end Subscription

namespace EventLog

/-- What can be done with a log. -/
inductive Use where
  | emit (time : Moment) (message : Message)
  | close
  /-- Somebody starts to read, perhaps to leave after some number of events. -/
  | subscribe (limit : Option Int)
  | read (index : Nat)
  | unsubscribe (index : Nat)
  deriving DecidableEq

variable {log : EventLog} {use : Use} {uses : List Use} {index : Nat} {s : Subscription}
  {due : List Event} {broken : List Bool}

def apply (log : EventLog) : Use → EventLog
  | .emit time message => log.emit time message
  | .close => log.close
  | .subscribe limit => log.subscribe limit
  | .read index => log.modifySubscription index Subscription.read
  | .unsubscribe index => log.modifySubscription index Subscription.cancel

def play (log : EventLog) (uses : List Use) : EventLog := uses.foldl apply log

theorem play_append (log : EventLog) (uses later : List Use) :
    log.play (uses ++ later) = (log.play uses).play later := List.foldl_append

/-! ### One subscription -/

/-- What becomes of the subscription at an index. -/
def subscriptionAfter (log : EventLog) (index : Nat) (s : Subscription) : Use → Subscription
  | .emit time message => s.push (.event ⟨log.events.length, message, time⟩)
  | .close => if log.isClosed then s else { s.push .closed with isLive := false }
  | .subscribe _ => s
  | .read other => if other = index then s.read else s
  | .unsubscribe other => if other = index then s.cancel else s

theorem getElem?_apply (hs : log.subscriptions[index]? = some s) (use : Use) :
    (log.apply use).subscriptions[index]? = some (log.subscriptionAfter index s use) := by
  cases use with
  | emit time message => simp [apply, emit, subscriptionAfter, hs]
  | close =>
      simp only [apply, close, subscriptionAfter]
      split
      · exact hs
      · simp [hs]
  | subscribe limit =>
      simp only [apply, subscribe, subscriptionAfter]
      rw [List.getElem?_append_left (List.getElem?_eq_some_iff.mp hs).1]
      exact hs
  | read other =>
      simp only [apply, modifySubscription, List.getElem?_modify, hs, subscriptionAfter]
      split <;> rfl
  | unsubscribe other =>
      simp only [apply, modifySubscription, List.getElem?_modify, hs, subscriptionAfter]
      split <;> rfl

theorem limit_subscriptionAfter (log : EventLog) (index : Nat) (s : Subscription) (use : Use) :
    (log.subscriptionAfter index s use).limit = s.limit := by
  cases use with
  | emit => simp only [subscriptionAfter, Subscription.push]; split <;> rfl
  | close =>
      simp only [subscriptionAfter, Subscription.push]
      split
      · rfl
      · dsimp only; split <;> rfl
  | subscribe => rfl
  | read => simp only [subscriptionAfter]; split <;> simp [Subscription.limit_read]
  | unsubscribe => simp only [subscriptionAfter]; split <;> rfl

theorem isClosed_apply (log : EventLog) (use : Use) :
    (log.apply use).isClosed = (log.isClosed || decide (use = .close)) := by
  cases use with
  | close =>
      simp only [apply, close]
      split <;> simp_all
  | subscribe => simp [apply, subscribe]
  | _ => simp [apply, emit, modifySubscription]

theorem isPrefix_events_apply (log : EventLog) (use : Use) :
    log.events <+: (log.apply use).events := by
  cases use with
  | emit => exact List.prefix_append _ _
  | close => rw [apply, events_close]
  | _ => exact List.prefix_rfl

theorem subscriptionAfter_of_isClosed (hawaits : s.Awaits due true) (hclosed : log.isClosed = true)
    (hstays : use ≠ .unsubscribe index) :
    log.subscriptionAfter index s use = if use = .read index then s.read else s := by
  cases use with
  | emit => exact hawaits.push_of_isOver _
  | close => simp [subscriptionAfter, hclosed]
  | subscribe => rfl
  | read other => simp [subscriptionAfter]
  | unsubscribe other =>
      have hne : other ≠ index := by
        rintro rfl
        exact hstays rfl
      simp [subscriptionAfter, hne]

theorem awaits_of_isOpen (hawaits : s.Awaits log.events false) (hopen : log.isClosed = false)
    (hstays : use ≠ .unsubscribe index) :
    (log.subscriptionAfter index s use).Awaits (log.apply use).events (log.apply use).isClosed ∨
      ((log.subscriptionAfter index s use).HasLeft (log.apply use).events ∧ ¬ s.IsSteady) := by
  cases use with
  | emit time message =>
      left
      rw [isClosed_apply, hopen]
      exact hawaits.push _
  | close =>
      left
      rw [isClosed_apply, hopen, subscriptionAfter, hopen, apply, events_close]
      exact hawaits.close
  | subscribe limit =>
      left
      rw [isClosed_apply, hopen]
      exact hawaits
  | read other =>
      rw [isClosed_apply, hopen, subscriptionAfter]
      split
      · exact hawaits.read
      · exact Or.inl hawaits
  | unsubscribe other =>
      have hne : other ≠ index := by
        rintro rfl
        exact hstays rfl
      rw [isClosed_apply, hopen, subscriptionAfter, if_neg hne]
      exact Or.inl hawaits

/-- The subscription at an index is one whose reader goes on, and this is what it is due. -/
structure Attends (log : EventLog) (index : Nat) (due : List Event) (s : Subscription) : Prop where
  found : log.subscriptions[index]? = some s
  steady : s.IsSteady
  awaits : s.Awaits due log.isClosed
  due : log.isClosed = false → due = log.events

theorem Attends.apply (h : log.Attends index due s) (hstays : use ≠ .unsubscribe index) :
    (log.apply use).Attends index (if log.isClosed then due else (log.apply use).events)
      (log.subscriptionAfter index s use) := by
  have hfound := getElem?_apply h.found use
  have hsteady : (log.subscriptionAfter index s use).IsSteady :=
    (limit_subscriptionAfter log index s use).trans h.steady
  have hawaits := h.awaits
  cases hclosed : log.isClosed with
  | false =>
      rw [hclosed, h.due hclosed] at hawaits
      refine ⟨hfound, hsteady, ?_, fun _ => rfl⟩
      exact (awaits_of_isOpen hawaits hclosed hstays).resolve_right fun hleft => hleft.2 h.steady
  | true =>
      rw [hclosed] at hawaits
      have hclosed' : (log.apply use).isClosed = true := by
        rw [isClosed_apply, hclosed]
        rfl
      refine ⟨hfound, hsteady, ?_, fun hopen => absurd hclosed' (by simp [hopen])⟩
      rw [subscriptionAfter_of_isClosed hawaits hclosed hstays, hclosed', if_pos rfl]
      split
      · exact hawaits.read.resolve_right fun hleft => hleft.2 h.steady
      · exact hawaits

/-- What a subscriber has read, whether it reads on or has left. -/
def Serves (log : EventLog) (s : Subscription) : Prop :=
  ∃ due, (s.Awaits due log.isClosed ∨ s.HasLeft due) ∧ due <+: log.events ∧
    (log.isClosed = false → due = log.events)

theorem Serves.isPrefix_seen (h : log.Serves s) : s.seen <+: log.events := by
  obtain ⟨due, hawaits | hleft, hprefix, -⟩ := h
  · exact hawaits.isPrefix_seen.trans hprefix
  · exact hleft.seen.trans hprefix

theorem hasLeft_subscriptionAfter (hleft : s.HasLeft due) (log : EventLog) (index : Nat)
    (use : Use) : (log.subscriptionAfter index s use).HasLeft due := by
  have hpush (notice : Notice) : s.push notice = s := by
    rw [Subscription.push, hleft.live]
    rfl
  cases use with
  | emit time message =>
      rw [subscriptionAfter, hpush]
      exact hleft
  | close =>
      rw [subscriptionAfter, hpush]
      split
      · exact hleft
      · exact ⟨hleft.ended, rfl, hleft.seen⟩
  | subscribe limit => exact hleft
  | read other =>
      rw [subscriptionAfter, Subscription.read_of_hasEnded hleft.ended, ite_self]
      exact hleft
  | unsubscribe other =>
      rw [subscriptionAfter]
      split
      · exact ⟨rfl, rfl, hleft.seen⟩
      · exact hleft

theorem Serves.apply (h : log.Serves s) (index : Nat) (use : Use) :
    (log.apply use).Serves (log.subscriptionAfter index s use) := by
  obtain ⟨due, hstate, hprefix, hopen⟩ := h
  cases hclosed : log.isClosed with
  | true =>
      have hclosed' : (log.apply use).isClosed = true := by
        rw [isClosed_apply, hclosed]
        rfl
      refine ⟨due, ?_, hprefix.trans (log.isPrefix_events_apply use), by simp [hclosed']⟩
      rcases hstate with hawaits | hleft
      · rw [hclosed] at hawaits
        by_cases hleaves : use = .unsubscribe index
        · subst hleaves
          rw [subscriptionAfter, if_pos rfl]
          exact Or.inr ⟨rfl, rfl, hawaits.isPrefix_seen⟩
        · rw [subscriptionAfter_of_isClosed hawaits hclosed hleaves, hclosed']
          split
          · exact hawaits.read.imp_right fun hleft => hleft.1
          · exact Or.inl hawaits
      · exact Or.inr (hasLeft_subscriptionAfter hleft log index use)
  | false =>
      obtain rfl := hopen hclosed
      refine ⟨(log.apply use).events, ?_, List.prefix_rfl, fun _ => rfl⟩
      rcases hstate with hawaits | hleft
      · rw [hclosed] at hawaits
        by_cases hleaves : use = .unsubscribe index
        · subst hleaves
          rw [subscriptionAfter, if_pos rfl]
          exact Or.inr ⟨rfl, rfl, hawaits.isPrefix_seen⟩
        · exact (awaits_of_isOpen hawaits hclosed hleaves).imp_right fun hleft => hleft.1
      · obtain ⟨hended, hlive, hseen⟩ := hasLeft_subscriptionAfter hleft log index use
        exact Or.inr ⟨hended, hlive, hseen.trans (log.isPrefix_events_apply use)⟩

end EventLog

end Workflow
