/-!
# One-shot channels

A one-shot channel carries one value from a sender to a receiver. Several may share the sender: the
first of them that sends something uses it up, and the others find it gone. A sender that is given
up unused closes the channel, and the receiver is told so.
-/

namespace Switchboard

/-- A one-shot channel. -/
inductive OneShot (α : Type)
  /-- Nothing has been sent yet. -/
  | empty
  | sent (a : α)
  /-- Nothing will be sent any more. -/
  | closed
deriving DecidableEq

namespace OneShot

variable {α : Type}

/-- Sends a value, if the sender is still there. -/
def send (a : α) : OneShot α → OneShot α
  | empty => sent a
  | sent b => sent b
  | closed => closed

/-- The sender is given up. -/
def close : OneShot α → OneShot α
  | empty => closed
  | sent a => sent a
  | closed => closed

/-- What the receiver finds: nothing yet, or the value, or that there will be none. -/
def receive? : OneShot α → Option (Option α)
  | empty => none
  | sent a => some (some a)
  | closed => some none

end OneShot

/-- Names a channel. -/
structure Channel where
  index : Nat
deriving DecidableEq

/-- The channels there are, each under its number. -/
structure Channels (α : Type) where
  all : List (OneShot α) := []

namespace Channels

variable {α : Type}

/-- A new channel. -/
def fresh (cs : Channels α) : Channel × Channels α :=
  (⟨cs.all.length⟩, ⟨cs.all ++ [.empty]⟩)

/-- The state of a channel. -/
def get (cs : Channels α) (c : Channel) : OneShot α :=
  cs.all.getD c.index .closed

def send (cs : Channels α) (c : Channel) (a : α) : Channels α :=
  ⟨cs.all.modify c.index (OneShot.send a)⟩

def close (cs : Channels α) (c : Channel) : Channels α :=
  ⟨cs.all.modify c.index OneShot.close⟩

/-! ### What is in a channel -/

/-- The channel has been made. -/
def Has (cs : Channels α) (c : Channel) : Prop :=
  c.index < cs.all.length

theorem has_fresh (cs : Channels α) : cs.fresh.2.Has cs.fresh.1 := by
  simp [Has, fresh]

theorem Has.fresh {cs : Channels α} {c : Channel} (h : cs.Has c) : cs.fresh.2.Has c := by
  rw [Has, Channels.fresh, List.length_append]
  exact Nat.lt_add_right _ h

theorem Has.send {cs : Channels α} {c : Channel} (h : cs.Has c) (c' : Channel) (a : α) :
    (cs.send c' a).Has c := by
  rwa [Has, Channels.send, List.length_modify]

/-- A new channel is none of those that have been made before. -/
theorem Has.ne_fresh {cs : Channels α} {c : Channel} (h : cs.Has c) : c ≠ cs.fresh.1 := by
  rintro rfl
  exact Nat.lt_irrefl _ h

theorem get_fresh_self (cs : Channels α) : cs.fresh.2.get cs.fresh.1 = .empty := by
  simp [get, fresh]

theorem get_fresh_of_has {cs : Channels α} {c : Channel} (h : cs.Has c) :
    cs.fresh.2.get c = cs.get c := by
  simp only [fresh, get, List.getD_eq_getElem?_getD, List.getElem?_append_left h]

theorem get_send_self {cs : Channels α} {c : Channel} (h : cs.Has c) (a : α) :
    (cs.send c a).get c = (cs.get c).send a := by
  simp only [send, get, List.getD_eq_getElem?_getD, List.getElem?_modify,
    List.getElem?_eq_getElem h, Option.getD_some]
  rfl

theorem get_send_of_ne {cs : Channels α} {c c' : Channel} (h : c ≠ c') (a : α) :
    (cs.send c' a).get c = cs.get c := by
  have hne : c'.index ≠ c.index := fun heq => h (by cases c; cases c'; simp_all)
  simp [send, get, List.getD_eq_getElem?_getD, List.getElem?_modify, if_neg hne]

end Channels
end Switchboard
