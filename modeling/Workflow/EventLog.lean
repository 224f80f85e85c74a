import Workflow.Event

/-!
Event logs. Every event goes to the observers as it is emitted, and into the queue of each live
subscription. A subscription starts with the events recorded so far and ends after the last event
before the log was closed; events after that are recorded all the same.
-/

namespace Workflow

/-- One that is called with every event; what a broken one does is lost. -/
structure Observer where
  isBroken : Bool := false
  received : List Event := []

/-- What stands in the queue of a subscription. -/
inductive Notice where
  | event (event : Event)
  | closed

structure Subscription where
  /-- A live subscription is told of new events. -/
  isLive : Bool
  queue : List Notice
  /-- After so many events the subscriber reads no further. -/
  limit : Option Int := none
  seen : List Event := []
  hasEnded : Bool := false

structure EventLog where
  events : List Event := []
  isClosed : Bool := false
  observers : List Observer := []
  /-- All subscriptions ever made, in their order. -/
  subscriptions : List Subscription := []

namespace Observer

def notify (event : Event) (observer : Observer) : Observer :=
  if observer.isBroken then observer
  else { observer with received := observer.received ++ [event] }

end Observer

namespace Subscription

def push (notice : Notice) (s : Subscription) : Subscription :=
  if s.isLive then { s with queue := s.queue ++ [notice] } else s

/-- Reads no further. -/
def cancel (s : Subscription) : Subscription := { s with hasEnded := true, isLive := false }

/-- Whether the subscriber has read enough. -/
def isSated (s : Subscription) : Bool :=
  match s.limit with
  | some limit => limit ≤ s.seen.length
  | none => false

def take (event : Event) (s : Subscription) : Subscription :=
  let s := { s with seen := s.seen ++ [event] }
  if s.isSated then s.cancel else s

/-- Reads the next notice; one that says the log is closed is the last. -/
def read (s : Subscription) : Subscription :=
  if s.hasEnded then s
  else match s.queue with
    | [] => s
    | .event event :: queue => { s with queue }.take event
    | .closed :: queue => { s with queue }.cancel

/-- Reads what there is to read. -/
def readAll (s : Subscription) : Subscription := s.queue.length.repeat read s

def encode (s : Subscription) : Value :=
  .record
    [("seen", .list (s.seen.map fun event => .int event.seq)), ("ended", .bool s.hasEnded)]

end Subscription

namespace EventLog

def emit (log : EventLog) (time : Moment) (message : Message) : EventLog :=
  let event : Event := ⟨log.events.length, message, time⟩
  { log with
    events := log.events ++ [event]
    observers := log.observers.map (Observer.notify event)
    subscriptions := log.subscriptions.map (Subscription.push (.event event)) }

/-- Ends all live subscriptions, once. -/
def close (log : EventLog) : EventLog :=
  if log.isClosed then log
  else
    { log with
      isClosed := true
      subscriptions := log.subscriptions.map fun s => { s.push .closed with isLive := false } }

/-- A new subscription, at the end of the list. -/
def subscribe (log : EventLog) (limit : Option Int := none) : EventLog :=
  let past := log.events.map Notice.event
  let subscription : Subscription :=
    if log.isClosed then { isLive := false, queue := past ++ [.closed], limit }
    else { isLive := true, queue := past, limit }
  { log with subscriptions := log.subscriptions ++ [subscription] }

def modifySubscription (log : EventLog) (index : Nat) (f : Subscription → Subscription) :
    EventLog :=
  { log with subscriptions := log.subscriptions.modify index f }

/-- The events of a step; those of no step when there is none given. -/
def forStep (log : EventLog) (stepId : Option String) : List Event :=
  log.events.filter fun event => event.message.stepId = stepId

end EventLog

end Workflow
