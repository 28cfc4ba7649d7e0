import ForwardedIp.Fault
/-!
# Events

The manager tells an observer what it does through a bounded channel. It never waits: an event
that finds the channel full is dropped, and so is every event once nobody listens.
-/
namespace ForwardedIp

/-- What the manager tells its observer. -/
inductive Event where
  | managerStatus (component : String) (disabled : Bool)
  | forwardedIpsChanged (mac : String) (added removed : List String)
  | addressAddFailed (mac ip error : String)
  | addressRemoveFailed (mac ip error : String)
  | badInterface (mac reason : String)
  | badForwardedIp (mac ip : String)
  | cycleCompleted (reconciled skipped : Nat)
  deriving DecidableEq

/-- A bounded channel to one observer. -/
structure EventChannel where
  capacity : Nat
  queue : List Event := []
  isOpen : Bool := true
  deriving DecidableEq

namespace EventChannel

/-- Offers an event. -/
def offer (c : EventChannel) (e : Event) : EventChannel :=
  if c.isOpen && c.queue.length < c.capacity then { c with queue := c.queue ++ [e] } else c

/-- Offers events in order. -/
def offerAll (c : EventChannel) (es : List Event) : EventChannel := es.foldl offer c

/-- Receives everything that waits. -/
def drain (c : EventChannel) : List Event × EventChannel := (c.queue, { c with queue := [] })

/-- The observer goes away. -/
def close (c : EventChannel) : EventChannel := { c with queue := [], isOpen := false }

@[simp] theorem offerAll_nil (c : EventChannel) : c.offerAll [] = c := rfl

/-- Events for which there is room arrive in order. -/
theorem queue_offerAll {c : EventChannel} {es : List Event} (hopen : c.isOpen = true)
    (hroom : c.queue.length + es.length ≤ c.capacity) :
    (c.offerAll es).queue = c.queue ++ es := by
  induction es generalizing c with
  | nil => simp [offerAll]
  | cons e es ih =>
      simp only [List.length_cons] at hroom
      have hlt : c.queue.length < c.capacity := by omega
      have ho : c.offer e = { c with queue := c.queue ++ [e] } := by simp [offer, hopen, hlt]
      show ((c.offer e).offerAll es).queue = _
      rw [ih (by simp [ho, hopen]) (by simp [ho]; omega)]
      simp [ho]

end EventChannel

end ForwardedIp
