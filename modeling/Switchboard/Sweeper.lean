import Switchboard.Session.Basic
import Switchboard.Task.Store

/-!
# Periodic sweeps

A sweeper visits a session, and possibly a task store, once at the start and then again after
each period. At every visit the calls fail whose deadline has passed, and the tasks go that are
older than they may get.
-/

namespace Switchboard

structure Sweeper where
  session : Session
  tasks : Option TaskStore := none
  /-- The instant at which the session's clock was at zero. -/
  epoch : Timestamp

namespace Sweeper

/-- The present instant. -/
def now (s : Sweeper) : Timestamp :=
  .ofNanos (s.epoch.toNanos + s.session.clock * 1000000)

/-- One visit. -/
def visit (s : Sweeper) : Sweeper :=
  { s with
    session := s.session.checkTimeouts.2
    tasks := s.tasks.map fun store => (store.sweep s.now).2 }

/-- Lets a period pass. -/
def wait (s : Sweeper) : Sweeper :=
  { s with session := { s.session with clock := s.session.clock + s.session.config.period } }

/-- So many visits, a period apart. -/
def visits : Nat → Sweeper → Sweeper
  | 0, s => s
  | n + 1, s => visits n s.visit.wait

end Sweeper
end Switchboard
