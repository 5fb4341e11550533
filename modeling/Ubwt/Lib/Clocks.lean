import Mathlib.Init

/-!
# Ubwt.Lib.Clocks

Parties that exchange messages over channels with any times. Each party has a clock, which says
when it was done with its last exchange. In an exchange one of them speaks, and the others hear
it: **a message that arrives before its listener is there waits for it** (`Times.heard`).

An exchange does not depend on when it takes place (`Times.after_add`), nor on when its listeners
got there, as long as they are there in time (`Times.after_of_waits`).
-/

namespace Lib

/-- The times of an exchange. -/
structure Times (S : Type) where
  /-- From the last exchange of a party until it is at this one. -/
  ready : S → Nat
  /-- Until the message is out, -/
  send : Nat
  /-- until it arrives, -/
  transit : Nat
  /-- and until a listener is done with it. -/
  handle : Nat

namespace Times

variable {S : Type} (t : Times S) (clock : S → Nat) (s e : S)

/-- When the speaker starts. -/
def start : Nat := clock s + t.ready s

/-- When the message is out. -/
def said : Nat := t.start clock s + t.send

/-- When the message arrives. -/
def arrived : Nat := t.said clock s + t.transit

/-- When a listener is done with the message. -/
def heard : Nat := max (clock e + t.ready e) (t.arrived clock s) + t.handle

/-- The listener is there when the message arrives. -/
def Waits : Prop := clock e + t.ready e ≤ t.arrived clock s

instance : Decidable (t.Waits clock s e) := inferInstanceAs (Decidable (_ ≤ _))

/-- The clocks after the exchange. -/
def after {S : Type} [DecidableEq S] (t : Times S) (clock : S → Nat) (s e : S) : Nat :=
  if e = s then t.said clock s else t.heard clock s e

variable {t clock s e} {clock' : S → Nat} {k : Nat}

theorem heard_of_waits (h : t.Waits clock s e) :
    t.heard clock s e = t.arrived clock s + t.handle := by
  rw [heard, Nat.max_eq_right h]

theorem start_le_said : t.start clock s ≤ t.said clock s := Nat.le_add_right ..

theorem said_le_heard : t.said clock s ≤ t.heard clock s e := by
  have hmax := Nat.le_max_right (clock e + t.ready e) (t.arrived clock s)
  unfold heard
  unfold arrived at *
  omega

/-- Nobody speaks before it is there. -/
theorem le_heard : clock e + t.ready e ≤ t.heard clock s e := by
  have hmax := Nat.le_max_left (clock e + t.ready e) (t.arrived clock s)
  unfold heard
  omega

theorem start_add (hs : clock' s = clock s + k) : t.start clock' s = t.start clock s + k := by
  unfold start
  omega

theorem said_add (hs : clock' s = clock s + k) : t.said clock' s = t.said clock s + k := by
  rw [said, said, start_add hs]
  omega

theorem arrived_add (hs : clock' s = clock s + k) :
    t.arrived clock' s = t.arrived clock s + k := by
  rw [arrived, arrived, said_add hs]
  omega

section

variable [DecidableEq S]

@[simp] theorem after_self : t.after clock s s = t.said clock s := if_pos rfl

theorem after_of_ne (h : e ≠ s) : t.after clock s e = t.heard clock s e := if_neg h

/-- A clock does not go back. -/
theorem le_after : clock e ≤ t.after clock s e := by
  unfold after
  split
  · rename_i heq
    subst heq
    exact Nat.le_trans (Nat.le_add_right ..) start_le_said
  · exact Nat.le_trans (Nat.le_add_right ..) le_heard

/-- The message was out before anybody is done. -/
theorem said_le_after : t.said clock s ≤ t.after clock s e := by
  unfold after
  split
  · exact Nat.le_refl _
  · exact said_le_heard

/-- **An exchange that takes place later is over later**, by as much. -/
theorem after_add (h : ∀ e, clock' e = clock e + k) :
    t.after clock' s e = t.after clock s e + k := by
  unfold after
  split
  · exact said_add (h s)
  · unfold heard
    rw [arrived_add (h s), h e]
    omega

/-- **Listeners that are there in time do not matter.** -/
theorem after_of_waits (hs : clock' s = clock s + k) (h : ∀ e, e ≠ s → t.Waits clock s e)
    (h' : ∀ e, e ≠ s → t.Waits clock' s e) : t.after clock' s e = t.after clock s e + k := by
  unfold after
  split
  · exact said_add hs
  · rename_i hne
    rw [heard_of_waits (h e hne), heard_of_waits (h' e hne), arrived_add hs]
    omega

end

end Times

end Lib
