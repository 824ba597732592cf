/-! Shutdown: a signal that a coordinator sends to everyone listening. Only so many of the latest
signals are kept; whoever listens is told how many it missed. -/

namespace ApiGateway

/-- Signals are numbered as they are sent, and the last `capacity` of them are kept. Every listener
knows the number of the first signal it has not accounted for. Receivers and waiters keep their
places; a place is empty once its listener is gone. -/
structure Shutdown where
  capacity : Nat
  sent : Nat
  coordinators : Nat
  receivers : List (Option Nat)
  waiters : List (Option Nat)
deriving DecidableEq

namespace Shutdown

/-- `subscribe` and `signalled` make a receiver and a waiter. With `clone` a coordinator is replaced
by a copy of itself, with `copy` a copy joins it, and with `close` it goes while its listeners stay.
A receiver takes the oldest signal kept, without waiting; a waiter that is through is gone. -/
inductive Operation where
  | subscribe
  | signalled
  | trigger
  | clone
  | copy
  | close
  | receive (place : Nat)
  | poll (place : Nat)
  | dropReceiver (place : Nat)
  | dropWaiter (place : Nat)
deriving DecidableEq

inductive Answer where
  | absent
  | place (number : Nat)
  | triggered
  | cloned
  | closed
  | signal
  | empty
  | lagged (missed : Nat)
  | channelClosed
  | ready
  | pending
  | dropped (existed : Bool)
deriving DecidableEq

def start : Shutdown where
  capacity := 1
  sent := 0
  coordinators := 1
  receivers := []
  waiters := []

def isOpen (s : Shutdown) : Bool := 0 < s.coordinators

def listeners (s : Shutdown) : Nat :=
  (s.receivers.filter Option.isSome).length + (s.waiters.filter Option.isSome).length

def listener? (places : List (Option Nat)) (place : Nat) : Option Nat := (places[place]?).join

def whileOpen (s : Shutdown) (result : Answer × Shutdown) : Answer × Shutdown :=
  if s.isOpen then result else (.absent, s)

def account (s : Shutdown) (place n : Nat) : Shutdown :=
  { s with receivers := s.receivers.set place (some n) }

/-- A receiver that missed signals is told so first and gets the oldest one kept next. What is kept
is still received after the end of the last coordinator. -/
def receiveFrom (s : Shutdown) (place next : Nat) : Answer × Shutdown :=
  let unread := s.sent - next
  if unread = 0 then (if s.isOpen then .empty else .channelClosed, s)
  else if s.capacity < unread then
    (.lagged (unread - s.capacity), s.account place (s.sent - s.capacity))
  else (.signal, s.account place (next + 1))

theorem receiveFrom_of_capacity_eq_one {s : Shutdown} (h : s.capacity = 1) (place next : Nat) :
    s.receiveFrom place next =
      match s.sent - next with
      | 0 => (if s.isOpen then .empty else .channelClosed, s)
      | 1 => (.signal, s.account place s.sent)
      | n + 2 => (.lagged (n + 1), s.account place (s.sent - 1)) := by
  unfold receiveFrom
  rw [h]
  cases hunread : s.sent - next with
  | zero => rfl
  | succ unread =>
    cases unread with
    | zero =>
      have hsent : next + 1 = s.sent := by omega
      rw [hsent]
      rfl
    | succ n =>
      have hlagged : 1 < n + 2 := by omega
      simp only [Nat.succ_ne_zero, if_false, hlagged, if_true, Nat.add_sub_cancel]

/-- The end of the last coordinator counts as a signal. -/
def pollFrom (s : Shutdown) (place next : Nat) : Answer × Shutdown :=
  if next < s.sent || !s.isOpen then (.ready, { s with waiters := s.waiters.set place none })
  else (.pending, s)

def perform (s : Shutdown) : Operation → Answer × Shutdown
  | .subscribe =>
    s.whileOpen (.place s.receivers.length, { s with receivers := s.receivers ++ [some s.sent] })
  | .signalled =>
    s.whileOpen (.place s.waiters.length, { s with waiters := s.waiters ++ [some s.sent] })
  | .trigger => s.whileOpen (.triggered, { s with sent := s.sent + 1 })
  | .clone => s.whileOpen (.cloned, s)
  | .copy => s.whileOpen (.cloned, { s with coordinators := s.coordinators + 1 })
  | .close => s.whileOpen (.closed, { s with coordinators := s.coordinators - 1 })
  | .receive place =>
    match listener? s.receivers place with
    | some next => s.receiveFrom place next
    | none => (.absent, s)
  | .poll place =>
    match listener? s.waiters place with
    | some next => s.pollFrom place next
    | none => (.absent, s)
  | .dropReceiver place =>
    (.dropped (listener? s.receivers place).isSome,
      { s with receivers := s.receivers.set place none })
  | .dropWaiter place =>
    (.dropped (listener? s.waiters place).isSome, { s with waiters := s.waiters.set place none })

def run (s : Shutdown) (operations : List Operation) : Shutdown :=
  operations.foldl (fun s operation => (s.perform operation).2) s

end Shutdown
end ApiGateway
