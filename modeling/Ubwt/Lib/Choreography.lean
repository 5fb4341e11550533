import Mathlib.Init

/-!
# Ubwt.Lib.Choreography

Two parties that follow one script over two FIFO channels. The script says at each
position who speaks, what may be said, and where both go from there.

**One party is ahead.** At every moment the positions of the two parties differ only by
what one of them has said and the other has not heard yet, and nothing is on its way in
the other direction (`InStep`). Saying and hearing keep this, so a party always hears what
its own position calls for; and two parties that both listen to empty channels would be
at one position with two speakers.
-/

namespace Lib

/-- A script for two parties, which are the values of `S`. -/
structure Choreography (S P M : Type) where
  peer : S → S
  peer_peer : ∀ s, peer (peer s) = s
  peer_ne : ∀ s, peer s ≠ s
  eq_or_eq_peer : ∀ s t, t = s ∨ t = peer s
  /-- Who speaks at a position; nobody at the end. -/
  speaker : P → Option S
  /-- What may be said there. -/
  admits : P → M → Prop
  /-- Where both go from there, once they have said or heard it. -/
  next : P → M → P

namespace Choreography

variable {S P M : Type} (C : Choreography S P M)

/-- From `p`, `s` alone says `ms` and gets to `q`. -/
inductive Spoken (s : S) : P → List M → P → Prop
  | nil (p) : Spoken s p [] p
  | cons {p m ms q} (hspeaker : C.speaker p = some s) (hadmits : C.admits p m)
      (h : Spoken s (C.next p m) ms q) : Spoken s p (m :: ms) q

/-- `s` is ahead of its peer by what is in its channel, and hears nothing. -/
def Ahead (pos : S → P) (chan : S → List M) (s : S) : Prop :=
  C.Spoken s (pos (C.peer s)) (chan s) (pos s) ∧ chan (C.peer s) = []

/-- The two parties are in step. -/
def InStep (pos : S → P) (chan : S → List M) : Prop := ∃ s, C.Ahead pos chan s

variable {C} {pos pos' : S → P} {chan chan' : S → List M} {s : S} {p q : P} {m : M} {ms : List M}

theorem Spoken.snoc (h : C.Spoken s p ms q) (hspeaker : C.speaker q = some s)
    (hadmits : C.admits q m) : C.Spoken s p (ms ++ [m]) (C.next q m) := by
  induction h with
  | nil p => exact .cons hspeaker hadmits (.nil _)
  | cons hsp hsy _ ih => exact .cons hsp hsy (ih hspeaker hadmits)

/-- Where `s` does not speak, it has said nothing. -/
theorem Spoken.of_silent (h : C.Spoken s p ms q) (hsilent : C.speaker p ≠ some s) :
    ms = [] ∧ p = q := by
  cases h with
  | nil p => exact ⟨rfl, rfl⟩
  | cons hsp _ _ => exact absurd hsp hsilent

theorem Spoken.eq_of_nil (h : C.Spoken s p [] q) : p = q := by
  cases h
  rfl

theorem inStep_start (p : P) [Nonempty S] : C.InStep (fun _ => p) (fun _ => []) :=
  ⟨Classical.choice ‹_›, .nil p, rfl⟩

/-- Both parties start from one position again. -/
theorem Ahead.of_eq (hpos : pos s = pos (C.peer s)) (hs : chan s = [])
    (hpeer : chan (C.peer s) = []) : C.Ahead pos chan s := by
  refine ⟨?_, hpeer⟩
  rw [hs, hpos]
  exact .nil _

/-- A party that is to speak is ahead, or both parties are at one position. -/
theorem InStep.ahead_of_speaker (h : C.InStep pos chan)
    (hspeaker : C.speaker (pos s) = some s) : C.Ahead pos chan s := by
  obtain ⟨t, ht⟩ := h
  rcases C.eq_or_eq_peer s t with rfl | rfl
  · exact ht
  · obtain ⟨hspoken, hempty⟩ := ht
    rw [C.peer_peer] at hspoken hempty
    obtain ⟨hnil, heq⟩ := hspoken.of_silent (by
      rw [hspeaker]
      exact fun hs => C.peer_ne s (Option.some.inj hs).symm)
    exact .of_eq heq hempty hnil

/-- Saying something keeps the parties in step. -/
theorem InStep.say (h : C.InStep pos chan) (hspeaker : C.speaker (pos s) = some s)
    (hadmits : C.admits (pos s) m) (hpos : pos' s = C.next (pos s) m)
    (hposPeer : pos' (C.peer s) = pos (C.peer s)) (hchan : chan' s = chan s ++ [m])
    (hchanPeer : chan' (C.peer s) = chan (C.peer s)) : C.InStep pos' chan' := by
  obtain ⟨hspoken, hempty⟩ := h.ahead_of_speaker hspeaker
  refine ⟨s, ?_, by rw [hchanPeer, hempty]⟩
  rw [hposPeer, hchan, hpos]
  exact hspoken.snoc hspeaker hadmits

/-- A party that has something before it is behind its peer, which said what the position of
the party calls for. -/
theorem InStep.behind (h : C.InStep pos chan) (hchan : chan (C.peer s) = m :: ms) :
    C.speaker (pos s) = some (C.peer s) ∧ C.admits (pos s) m ∧
      C.Spoken (C.peer s) (C.next (pos s) m) ms (pos (C.peer s)) ∧ chan s = [] := by
  obtain ⟨t, hspoken, hempty⟩ := h
  rcases C.eq_or_eq_peer s t with rfl | rfl
  · rw [hempty] at hchan
    cases hchan
  · rw [C.peer_peer] at hspoken hempty
    rw [hchan] at hspoken
    cases hspoken with
    | cons hspeaker hadmits hrest => exact ⟨hspeaker, hadmits, hrest, hempty⟩

/-- **What a party hears is what its position calls for**, and hearing it keeps the
parties in step. -/
theorem InStep.hear (h : C.InStep pos chan) (hchan : chan (C.peer s) = m :: ms) :
    C.speaker (pos s) = some (C.peer s) ∧ C.admits (pos s) m ∧
      (pos' s = C.next (pos s) m → pos' (C.peer s) = pos (C.peer s) → chan' s = chan s →
        chan' (C.peer s) = ms → C.InStep pos' chan') := by
  obtain ⟨hspeaker, hadmits, hrest, hempty⟩ := h.behind hchan
  refine ⟨hspeaker, hadmits, ?_⟩
  intro hpos hposPeer hchan' hchanPeer
  refine ⟨C.peer s, ?_, ?_⟩
  · rw [C.peer_peer, hpos, hposPeer, hchanPeer]
    exact hrest
  · rw [C.peer_peer, hchan', hempty]

/-- Two parties that listen do not both have an empty channel before them. -/
theorem InStep.not_both_listen (h : C.InStep pos chan)
    (hs : C.speaker (pos s) = some (C.peer s))
    (hpeer : C.speaker (pos (C.peer s)) = some s) :
    ¬(chan s = [] ∧ chan (C.peer s) = []) := by
  rintro ⟨hnil, hnilPeer⟩
  have heq : pos s = pos (C.peer s) := by
    obtain ⟨t, hspoken, -⟩ := h
    rcases C.eq_or_eq_peer s t with rfl | rfl
    · rw [hnil] at hspoken
      exact hspoken.eq_of_nil.symm
    · rw [hnilPeer, C.peer_peer] at hspoken
      exact hspoken.eq_of_nil
  rw [heq, hpeer] at hs
  exact C.peer_ne s (Option.some.inj hs).symm

/-- At the end nothing is left in the channels. -/
theorem InStep.chan_eq_nil (h : C.InStep pos chan) (hend : ∀ s, C.speaker (pos s) = none) (s : S) :
    chan s = [] := by
  obtain ⟨t, hspoken, hempty⟩ := h
  have hnil : chan t = [] := (hspoken.of_silent (by rw [hend]; exact fun h => by cases h)).1
  rcases C.eq_or_eq_peer t s with rfl | rfl
  · exact hnil
  · exact hempty

end Choreography

end Lib
