import Converge.Store.Basic
import Converge.Text.Digits

/-!
# Events in a store

Events are kept under the text `namespace/name:number`, where the number has twenty digits and
counts all events of the store, so that the events of a subject are a range of keys in the order
in which they were recorded. An event that repeats the last one of its subject is folded into it,
and only the latest events of a subject are kept.

## Main definitions

* `Store.eventsOf`: the range of keys of a subject.
* `Store.putEvent`, `Store.listEvents`, `Store.record`.
-/

namespace Converge.Store

/-- The number of events that are kept for a subject. -/
def eventLimit : Nat := 64

/-- The key of the event with a given number. -/
def eventKey (subject : ObjectKey) (number : Nat) : String :=
  subject.display ++ ":" ++ Text.padded 20 number

/-- The entries of the events of a subject: their keys lie between its display form followed by a
colon and by a semicolon, the next character. -/
def eventsOf (s : Store) (subject : ObjectKey) : List (String × Event) :=
  s.events.between (subject.display ++ ":") (subject.display ++ ";")

/-- The events of a subject, the oldest first. -/
def listEvents (s : Store) (subject : ObjectKey) : List Event := (s.eventsOf subject).map (·.2)

/-- Store an event under the next number, and drop the oldest of its subject beyond the limit. -/
def appendEvent (e : Event) (s : Store) : Store :=
  let entries := s.eventsOf e.subject
  let number := s.sequence + 1
  let excess := entries.take (entries.length + 1 - eventLimit)
  let events := s.events.insert (eventKey e.subject number) e
  { s with
    events := excess.foldl (fun t entry => t.erase entry.1) events
    sequence := number }

/-- Record an event: fold it into the latest of its subject if it repeats that, and append it
otherwise. -/
def putEvent (e : Event) (s : Store) : Store :=
  match (s.eventsOf e.subject).getLast? with
  | some (key, last) =>
    if e.repeats last then { s with events := s.events.insert key (last.folded e) }
    else s.appendEvent e
  | none => s.appendEvent e

/-- Record a notice at time `now`. -/
def record (notice : Notice) (now : UInt64) (s : Store) : Store :=
  s.putEvent { toNotice := notice, timestamp := now }

end Converge.Store
