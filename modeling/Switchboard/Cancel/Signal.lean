/-!
# Cancellation signals

Whoever does some work holds a `Handle`, and whoever may want it stopped fires the signal behind
the handle. Copies of a handle are the same signal. The first firing decides the reason, once and
for all.
-/

namespace Switchboard

/-- Whether work is to stop, and why. -/
inductive Signal
  | quiet
  | fired (reason : Option String)
deriving DecidableEq

namespace Signal

def isFired : Signal → Bool
  | quiet => false
  | fired _ => true

def reason : Signal → Option String
  | quiet => none
  | fired r => r

/-- Fires a signal. One that has been fired keeps its reason, or that it has none. -/
def fire (r : Option String) : Signal → Signal
  | quiet => fired r
  | fired r₀ => fired r₀

end Signal

/-- Names a signal. -/
structure Handle where
  index : Nat
deriving DecidableEq

/-- The signals there are, each under the number of its handle. -/
structure Signals where
  all : List Signal := []
deriving DecidableEq

namespace Signals

/-- The handle of a new signal. -/
def fresh (s : Signals) : Handle × Signals :=
  (⟨s.all.length⟩, ⟨s.all ++ [.quiet]⟩)

/-- The signal behind a handle. -/
def get (s : Signals) (h : Handle) : Signal :=
  s.all.getD h.index .quiet

/-- Fires the signal behind a handle. -/
def fire (s : Signals) (h : Handle) (reason : Option String) : Signals :=
  ⟨s.all.modify h.index (Signal.fire reason)⟩

/-- Fires the signals behind several handles. -/
def fireAll (s : Signals) (hs : List Handle) (reason : Option String) : Signals :=
  hs.foldl (fun s h => s.fire h reason) s

end Signals
end Switchboard
