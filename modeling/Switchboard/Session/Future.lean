import Switchboard.Session.Basic

/-!
# Awaited calls

A `CallFuture` is a call that somebody waits for by polling. Nothing is issued before the first
poll, which makes the channel that the callbacks of the call share; later ones look into it. A
channel whose sender is gone tells of a connection that was closed. Whoever drops a future that is
not finished no longer wants the call, which is then cancelled.
-/

namespace Switchboard

inductive CallFuture
  /-- Not polled yet. -/
  | unpolled (spec : CallSpec)
  | waiting (id : RequestId) (channel : Channel)
  | finished

namespace CallFuture

/-- The outcome of an issued call, if it has been delivered. -/
def await (s : Session) (id : RequestId) (channel : Channel) :
    Option CallOutcome × CallFuture × Session :=
  match (s.replies.get channel).receive? with
  | none => (none, .waiting id channel, s)
  | some received => (some (received.getD (.error .disconnected)), .finished, s)

/-- Asks for the outcome; the first time the call is issued. -/
def poll (f : CallFuture) (s : Session) : Option CallOutcome × CallFuture × Session :=
  match f with
  | unpolled spec => let (channel, id, s) := s.call spec; await s id channel
  | waiting id channel => await s id channel
  | finished => (none, .finished, s)

/-- Polls several futures: the outcomes that are there, and the futures that still wait. -/
def pollAll {κ : Type} : List (κ × CallFuture) → Session →
    List (κ × CallOutcome) × List (κ × CallFuture) × Session
  | [], s => ([], [], s)
  | (k, f) :: fs, s =>
    let (outcome, f, s) := f.poll s
    let (settled, left, s) := pollAll fs s
    match outcome with
    | some o => ((k, o) :: settled, left, s)
    | none => (settled, (k, f) :: left, s)

/-- Gives a future up. -/
def drop (f : CallFuture) (s : Session) : Session :=
  match f with
  | waiting id _ => (s.cancelCall id (some "caller went away")).2
  | unpolled _ | finished => s

end CallFuture
end Switchboard
