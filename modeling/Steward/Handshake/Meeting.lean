import Steward.Handshake

/-!
# Handshake/Meeting — all callers of one handshake

Who publishes an outcome puts it down and then sets dispatcher-ready; who asks for it waits for the signal
and then takes what is there.  Between the two halves of a call anything may be done by the other callers,
so a `Meeting` has the handshake together with everybody who has called so far and how far each of them is.
Its histories are lists of `Action`s in any order; an action that its caller is not ready for does nothing.
-/

namespace Steward

namespace Handshake

/-- Take the outcome that is there, the second half of asking for it. -/
def take (h : Handshake) : Handshake × Option Outcome := ({ h with outcome := none }, h.outcome)

/-- How far a caller is that publishes an outcome. -/
inductive Publisher where
  /-- It has not reached the slot. -/
  | coming (o : Outcome)
  /-- It has put its outcome down and not set dispatcher-ready. -/
  | stored
  /-- It was told whether its outcome counted. -/
  | done (counted : Bool)

/-- How far a caller is that asks for the outcome. -/
inductive Asker where
  /-- It waits for dispatcher-ready. -/
  | waiting
  /-- It has seen the signal and not taken the outcome. -/
  | admitted
  /-- It has got the outcome, or nothing. -/
  | done (o : Option Outcome)

/-- What a caller is told in the end. -/
inductive Reply where
  | published (counted : Bool)
  | outcome (o : Option Outcome)

/-- A handshake with its callers, each kind numbered in the order of their coming. -/
structure Meeting where
  handshake : Handshake
  publishers : List Publisher
  askers : List Asker
  /-- The waiters for bridge-stopped: was it seen? -/
  waiters : List Bool

namespace Meeting

/-- Nobody has come yet. -/
def fresh : Meeting := ⟨.fresh, [], [], []⟩

/-- One thing that a caller does. -/
inductive Action where
  /-- Somebody comes to publish an outcome. -/
  | publish (o : Outcome)
  /-- A publisher reaches the slot. -/
  | reach (publisher : Nat)
  /-- A publisher sets dispatcher-ready. -/
  | announce (publisher : Nat)
  /-- Somebody comes to ask for the outcome. -/
  | ask
  /-- An asker looks whether dispatcher-ready is set. -/
  | look (asker : Nat)
  /-- An asker takes the outcome. -/
  | take (asker : Nat)
  /-- Bridge-stopped is set. -/
  | stop
  /-- Somebody comes to wait for bridge-stopped. -/
  | wait
  /-- A waiter looks whether bridge-stopped is set. -/
  | check (waiter : Nat)

/-- The state after an action. -/
def act (m : Meeting) : Action → Meeting
  | .publish o => { m with publishers := m.publishers ++ [.coming o] }
  | .reach n =>
    match m.publishers[n]? with
    | some (.coming o) =>
      let (handshake, counts) := m.handshake.store o
      { m with
        handshake := handshake
        publishers := m.publishers.set n (if counts then .stored else .done false) }
    | _ => m
  | .announce n =>
    match m.publishers[n]? with
    | some .stored =>
      { m with
        handshake := m.handshake.announce
        publishers := m.publishers.set n (.done true) }
    | _ => m
  | .ask => { m with askers := m.askers ++ [.waiting] }
  | .look n =>
    match m.askers[n]? with
    | some .waiting =>
      if m.handshake.ready then { m with askers := m.askers.set n .admitted } else m
    | _ => m
  | .take n =>
    match m.askers[n]? with
    | some .admitted =>
      let (handshake, o) := m.handshake.take
      { m with handshake := handshake, askers := m.askers.set n (.done o) }
    | _ => m
  | .stop => { m with handshake := m.handshake.stop }
  | .wait => { m with waiters := m.waiters ++ [false] }
  | .check n => { m with waiters := m.waiters.modify n (· || m.handshake.stopped) }

/-- The state after a history. -/
def after (m : Meeting) (history : List Action) : Meeting := history.foldl act m

/-- The publisher that an action brings to the slot, with its outcome. -/
def reaches? (m : Meeting) : Action → Option (Nat × Outcome)
  | .reach n =>
    match m.publishers[n]? with
    | some (.coming o) => some (n, o)
    | _ => none
  | _ => none

/-- The publishers that reach the slot along a history, in the order in which they do. -/
def reached (m : Meeting) : List Action → List (Nat × Outcome)
  | [] => []
  | a :: later => (m.reaches? a).toList ++ (m.act a).reached later

/-- What somebody is told with an action. -/
def reply? (m : Meeting) : Action → Option Reply
  | .reach n =>
    match m.publishers[n]? with
    | some (.coming o) => if (m.handshake.store o).2 then none else some (.published false)
    | _ => none
  | .announce n =>
    match m.publishers[n]? with
    | some .stored => some (.published true)
    | _ => none
  | .take n =>
    match m.askers[n]? with
    | some .admitted => some (.outcome m.handshake.take.2)
    | _ => none
  | _ => none

/-- What the callers are told along a history. -/
def replies (m : Meeting) : List Action → List Reply
  | [] => []
  | a :: later => (m.reply? a).toList ++ (m.act a).replies later

end Meeting

end Handshake

end Steward
