import Mathlib.Data.List.Nodup
import Mathlib.Logic.Function.Basic

/-!
# Ubwt.Lib.LinkedList

Doubly linked lists in a heap of nodes, between two addresses and as a whole.

`Seg h p s l e` says that from `s` on the nodes of `l` come one after the other, the first with
`p` before it and the last with `e` behind it. A heap is `Listed` as `l` if its nodes are the
ones of `l`, each once. **Both directions of the links are determined by the list**, and so is
what the patches for an insertion behind the head and for a removal make of it
(`Listed.insertAfter`, `Listed.remove`). An access to an address without a node has no result.
-/

namespace Lib.LinkedList

/-- A node, with its links and what it is for. -/
structure Node (α β : Type) where
  next : Option α
  prev : Option α
  val : β
  deriving Repr, DecidableEq

/-- The nodes that are allocated. -/
abbrev Heap (α β : Type) := α → Option (Node α β)

variable {α β : Type}

/-! ### Segments -/

/-- The nodes from `s` up to `e`. -/
def Seg (h : Heap α β) : Option α → Option α → List (α × β) → Option α → Prop
  | _, s, [], e => s = e
  | p, s, x :: l, e => s = some x.1 ∧ ∃ next, h x.1 = some ⟨next, p, x.2⟩ ∧ Seg h (some x.1) next l e

/-- The address before the end of a segment. -/
def lastOf : Option α → List (α × β) → Option α
  | p, [] => p
  | _, x :: l => lastOf (some x.1) l

variable {h h' : Heap α β} {p s e : Option α} {x y : α × β} {l l₁ l₂ : List (α × β)} {a b c : α}

theorem lastOf_append : lastOf p (l₁ ++ x :: l₂) = lastOf (some x.1) l₂ := by
  induction l₁ generalizing p with
  | nil => rfl
  | cons z l₁ ih => exact ih

theorem lastOf_ne_none (hne : l ≠ []) : lastOf p l ≠ none := by
  rcases List.eq_nil_or_concat l with hnil | ⟨l₀, x, hconcat⟩
  · exact absurd hnil hne
  · rw [hconcat, List.concat_eq_append, lastOf_append]
    exact Option.some_ne_none _

theorem Seg.append : Seg h p s (l₁ ++ l₂) e ↔ ∃ m, Seg h p s l₁ m ∧ Seg h (lastOf p l₁) m l₂ e := by
  induction l₁ generalizing p s with
  | nil =>
      constructor
      · exact fun hseg => ⟨s, rfl, hseg⟩
      · intro hex
        obtain ⟨m, hsm, hseg⟩ := hex
        subst hsm
        exact hseg
  | cons z l₁ ih =>
      constructor
      · intro hseg
        obtain ⟨hs, next, hz, hrest⟩ := hseg
        obtain ⟨m, hl₁, hl₂⟩ := ih.mp hrest
        exact ⟨m, ⟨hs, next, hz, hl₁⟩, hl₂⟩
      · intro hex
        obtain ⟨m, ⟨hs, next, hz, hl₁⟩, hl₂⟩ := hex
        exact ⟨hs, next, hz, ih.mpr ⟨m, hl₁, hl₂⟩⟩

/-- A segment depends on its own nodes only. -/
theorem Seg.congr (hseg : Seg h p s l e) (hsame : ∀ x ∈ l, h' x.1 = h x.1) : Seg h' p s l e := by
  induction l generalizing p s with
  | nil => exact hseg
  | cons z l ih =>
      obtain ⟨hs, next, hz, hrest⟩ := hseg
      obtain ⟨hsame_z, hsame_l⟩ := List.forall_mem_cons.mp hsame
      exact ⟨hs, next, hsame_z.trans hz, ih hrest hsame_l⟩

/-- The node in the middle of a segment. -/
theorem Seg.node (hseg : Seg h p s (l₁ ++ x :: l₂) e) :
    ∃ next, h x.1 = some ⟨next, lastOf p l₁, x.2⟩ ∧ Seg h p s l₁ (some x.1)
      ∧ Seg h (some x.1) next l₂ e := by
  obtain ⟨m, hl₁, hm, next, hx, hl₂⟩ := Seg.append.mp hseg
  subst hm
  exact ⟨next, hx, hl₁, hl₂⟩

theorem Seg.start_eq (hseg : Seg h p s l none) : s = l.head?.map Prod.fst := by
  cases l with
  | nil => exact hseg
  | cons x l => exact hseg.1

/-! ### The list of a heap -/

/-- The nodes of a heap are those of the list, in this order. -/
structure Listed (h : Heap α β) (l : List (α × β)) : Prop where
  seg : Seg h none (l.head?.map Prod.fst) l none
  nodup : (l.map Prod.fst).Nodup
  only : ∀ a, h a ≠ none → a ∈ l.map Prod.fst

theorem mem_keys : a ∈ l.map Prod.fst ↔ ∃ v, (a, v) ∈ l := by
  simp

/-- The node at an address of the list. -/
theorem Listed.node (hl : Listed h (l₁ ++ x :: l₂)) :
    ∃ next, h x.1 = some ⟨next, lastOf none l₁, x.2⟩ ∧ Seg h (some x.1) next l₂ none :=
  let ⟨next, hx, _, hl₂⟩ := hl.seg.node
  ⟨next, hx, hl₂⟩

theorem Listed.val (hl : Listed h l) (hx : x ∈ l) : (h x.1).map Node.val = some x.2 := by
  obtain ⟨l₁, l₂, rfl⟩ := List.append_of_mem hx
  obtain ⟨next, hnode, -⟩ := hl.node
  rw [hnode]
  rfl

theorem Listed.ne_of_fresh (hl : Listed h l) (hfresh : h c = none) (hx : x ∈ l) : x.1 ≠ c := by
  intro heq
  have hval := hl.val hx
  rw [heq, hfresh] at hval
  cases hval

theorem Listed.exists_of_node (hl : Listed h l) {n : Node α β} (ha : h a = some n) :
    ∃ l₁ v l₂, l = l₁ ++ (a, v) :: l₂ := by
  obtain ⟨v, hv⟩ := mem_keys.mp (hl.only a (by simp [ha]))
  obtain ⟨l₁, l₂, rfl⟩ := List.append_of_mem hv
  exact ⟨l₁, v, l₂, rfl⟩

/-- **Each link of the one direction is one of the other.** -/
theorem Listed.prev_iff_next (hl : Listed h l) :
    (∃ n, h a = some n ∧ n.next = some b) ↔ ∃ m, h b = some m ∧ m.prev = some a := by
  constructor
  · intro hn
    obtain ⟨n, ha, hnext⟩ := hn
    obtain ⟨l₁, v, l₂, rfl⟩ := hl.exists_of_node ha
    obtain ⟨next, hnode, hrest⟩ := hl.node
    rw [ha] at hnode
    cases hnode
    dsimp only at hnext
    subst hnext
    cases l₂ with
    | nil => cases hrest
    | cons y l₂ =>
        obtain ⟨hy, next', hb, -⟩ := hrest
        cases hy
        exact ⟨_, hb, rfl⟩
  · intro hm
    obtain ⟨m, hb, hprev⟩ := hm
    obtain ⟨l₁, v, l₂, rfl⟩ := hl.exists_of_node hb
    obtain ⟨next, hnode, -⟩ := hl.node
    rw [hb] at hnode
    cases hnode
    dsimp only at hprev
    rcases List.eq_nil_or_concat l₁ with hnil | ⟨l₀, y, hconcat⟩
    · subst hnil
      cases hprev
    · rw [List.concat_eq_append] at hconcat
      subst hconcat
      rw [lastOf_append] at hprev
      cases hprev
      obtain ⟨next', -, hl₁, -⟩ := hl.seg.node
      obtain ⟨next'', hy, -, hend⟩ := hl₁.node
      cases hend
      exact ⟨_, hy, rfl⟩

/-! ### Patches -/

variable [DecidableEq α]

/-- `a->next = q`. -/
def setNext (h : Heap α β) (a : α) (q : Option α) : Option (Heap α β) :=
  (h a).map fun n => Function.update h a (some { n with next := q })

/-- `a->prev = q`. -/
def setPrev (h : Heap α β) (a : α) (q : Option α) : Option (Heap α β) :=
  (h a).map fun n => Function.update h a (some { n with prev := q })

/-- `a->val = f(a->val)`. -/
def modifyVal (h : Heap α β) (a : α) (f : β → β) : Option (Heap α β) :=
  (h a).map fun n => Function.update h a (some { n with val := f n.val })

/-- The last node of a segment gets another one behind it. -/
theorem Seg.setNext (hseg : Seg h p s (l ++ [x]) e) (hnodup : ((l ++ [x]).map Prod.fst).Nodup)
    (q : Option α) :
    ∃ h', LinkedList.setNext h x.1 q = some h' ∧ Seg h' p s (l ++ [x]) q
      ∧ ∀ a ≠ x.1, h' a = h a := by
  obtain ⟨next, hx, hl, -⟩ := hseg.node
  have hother : ∀ a ≠ x.1, Function.update h x.1 (some ⟨q, lastOf p l, x.2⟩) a = h a :=
    fun a ha => Function.update_of_ne ha _ _
  refine ⟨Function.update h x.1 (some ⟨q, lastOf p l, x.2⟩), ?_, ?_, hother⟩
  · rw [LinkedList.setNext, hx]
    rfl
  · refine Seg.append.mpr ⟨some x.1, hl.congr ?_, rfl, q, Function.update_self .., rfl⟩
    intro y hy
    refine hother y.1 fun heq => ?_
    rw [List.map_append, List.nodup_append] at hnodup
    exact hnodup.2.2 _ (List.mem_map_of_mem hy) _ (List.mem_singleton_self _) heq

/-- The first node of a segment gets another one before it. -/
theorem Seg.setPrev (hseg : Seg h p s (x :: l) e) (hnodup : ((x :: l).map Prod.fst).Nodup)
    (q : Option α) :
    ∃ h', LinkedList.setPrev h x.1 q = some h' ∧ Seg h' q s (x :: l) e
      ∧ ∀ a ≠ x.1, h' a = h a := by
  obtain ⟨hs, next, hx, hl⟩ := hseg
  have hother : ∀ a ≠ x.1, Function.update h x.1 (some ⟨next, q, x.2⟩) a = h a :=
    fun a ha => Function.update_of_ne ha _ _
  refine ⟨Function.update h x.1 (some ⟨next, q, x.2⟩), ?_, ?_, hother⟩
  · rw [LinkedList.setPrev, hx]
    rfl
  · refine ⟨hs, next, Function.update_self .., hl.congr ?_⟩
    intro y hy
    refine hother y.1 fun heq => ?_
    rw [List.map_cons, List.nodup_cons] at hnodup
    exact hnodup.1 (heq ▸ List.mem_map_of_mem hy)

/-- What stands before the first node of a segment is in that node's link, if there is one. -/
theorem Seg.relink (hseg : Seg h p s l e) (hnodup : (l.map Prod.fst).Nodup) (q : Option α) :
    (∃ h', (match l.head? with
        | some x => LinkedList.setPrev h x.1 q
        | none => some h) = some h'
      ∧ Seg h' q s l e ∧ ∀ a ∉ l.map Prod.fst, h' a = h a) := by
  cases l with
  | nil => exact ⟨h, rfl, hseg, fun _ _ => rfl⟩
  | cons x l =>
      obtain ⟨h', hset, hseg', hother⟩ := hseg.setPrev hnodup q
      refine ⟨h', hset, hseg', ?_⟩
      intro a ha
      exact hother a fun heq => ha (by simp [heq])

/-- Put a node behind `a`. -/
def insertAfter (h : Heap α β) (a c : α) (v : β) : Option (Heap α β) :=
  (h a).bind fun n =>
    let h := Function.update h c (some ⟨n.next, some a, v⟩)
    (match n.next with
      | some q => setPrev h q (some c)
      | none => some h).bind fun h =>
    setNext h a (some c)

/-- Take a node out that has another one before it. -/
def unlink (h : Heap α β) (c : α) : Option (Heap α β) :=
  (h c).bind fun n =>
    match n.prev, n.next with
    | some p, some q => (setNext h p (some q)).bind fun h => setPrev h q (some p)
    | some p, none => setNext h p none
    | none, _ => none

/-- `free(a)`. -/
def free (h : Heap α β) (a : α) : Heap α β := Function.update h a none

theorem Seg.relink_start (hseg : Seg h p s l none) (hnodup : (l.map Prod.fst).Nodup)
    (q : Option α) :
    ∃ h', (match s with
        | some a => LinkedList.setPrev h a q
        | none => some h) = some h'
      ∧ Seg h' q s l none ∧ ∀ a ∉ l.map Prod.fst, h' a = h a := by
  obtain ⟨h', hset, hrest⟩ := hseg.relink hnodup q
  refine ⟨h', ?_, hrest⟩
  rw [← hset, hseg.start_eq]
  cases l <;> rfl

/-- **Insertion.** -/
theorem Listed.insertAfter (hl : Listed h (x :: l)) (hfresh : h c = none) (v : β) :
    ∃ h', LinkedList.insertAfter h x.1 c v = some h' ∧ Listed h' (x :: (c, v) :: l) := by
  obtain ⟨-, next, hx, hrest⟩ := hl.seg
  have hnodup := hl.nodup
  rw [List.map_cons, List.nodup_cons] at hnodup
  have hxc : x.1 ≠ c := hl.ne_of_fresh hfresh List.mem_cons_self
  have hc : c ∉ l.map Prod.fst := by
    intro hmem
    obtain ⟨w, hw⟩ := mem_keys.mp hmem
    exact hl.ne_of_fresh hfresh (List.mem_cons_of_mem x hw) rfl
  let h₁ := Function.update h c (some ⟨next, some x.1, v⟩)
  have hrest₁ : Seg h₁ (some x.1) next l none := by
    refine hrest.congr fun y hy => Function.update_of_ne ?_ _ _
    exact hl.ne_of_fresh hfresh (List.mem_cons_of_mem x hy)
  obtain ⟨h₂, hset₂, hrest₂, hsame₂⟩ := hrest₁.relink_start hnodup.2 (some c)
  have hx₂ : h₂ x.1 = some ⟨next, none, x.2⟩ := by
    rw [hsame₂ x.1 hnodup.1, ← hx]
    exact Function.update_of_ne hxc _ _
  have hc₂ : h₂ c = some ⟨next, some x.1, v⟩ := by
    rw [hsame₂ c hc]
    exact Function.update_self ..
  refine ⟨Function.update h₂ x.1 (some ⟨some c, none, x.2⟩), ?_, ?_, ?_, ?_⟩
  · rw [LinkedList.insertAfter, hx, Option.bind_some]
    dsimp only
    rw [hset₂, Option.bind_some, LinkedList.setNext, hx₂]
    rfl
  · refine ⟨rfl, some c, Function.update_self .., rfl, next, ?_, hrest₂.congr fun y hy => ?_⟩
    · rw [Function.update_of_ne hxc.symm, hc₂]
    · refine Function.update_of_ne (fun heq => hnodup.1 ?_) _ _
      rw [← heq]
      exact List.mem_map_of_mem hy
  · simp only [List.map_cons, List.nodup_cons, List.mem_cons, not_or]
    exact ⟨⟨hxc, hnodup.1⟩, hc, hnodup.2⟩
  · intro a ha
    simp only [List.map_cons, List.mem_cons]
    by_cases hax : a = x.1
    · exact .inl hax
    by_cases hac : a = c
    · exact .inr (.inl hac)
    by_cases hal : a ∈ l.map Prod.fst
    · exact .inr (.inr hal)
    rw [Function.update_of_ne hax, hsame₂ a hal, show h₁ a = h a from
      Function.update_of_ne hac _ _] at ha
    have hkey := hl.only a ha
    rw [List.map_cons, List.mem_cons] at hkey
    exact absurd hkey (not_or.mpr ⟨hax, hal⟩)

/-- **Removal**, of any node but the first. -/
theorem Listed.remove (hl : Listed h (l₁ ++ x :: l₂)) (hne : l₁ ≠ []) :
    ∃ h', unlink h x.1 = some h' ∧ Listed (free h' x.1) (l₁ ++ l₂) := by
  obtain ⟨l₀, y, rfl⟩ : ∃ l₀ y, l₁ = l₀ ++ [y] := by
    rcases List.eq_nil_or_concat l₁ with hnil | ⟨l₀, y, hconcat⟩
    · exact absurd hnil hne
    · exact ⟨l₀, y, by rw [hconcat, List.concat_eq_append]⟩
  obtain ⟨next, hx, hl₁, hl₂⟩ := hl.seg.node
  rw [lastOf_append] at hx
  have hnodup := hl.nodup
  rw [List.map_append, List.map_cons, List.nodup_append, List.nodup_cons] at hnodup
  obtain ⟨hnodup₁, ⟨hx₂, hnodup₂⟩, hdisjoint⟩ := hnodup
  have hne₁ : ∀ a ∈ (l₀ ++ [y]).map Prod.fst, a ≠ x.1 := fun a ha => hdisjoint a ha _ (by simp)
  have hy : y.1 ∈ (l₀ ++ [y]).map Prod.fst := by simp
  obtain ⟨h₁, hset₁, hseg₁, hsame₁⟩ := hl₁.setNext hnodup₁ next
  have hrest₁ : Seg h₁ (some x.1) next l₂ none := by
    refine hl₂.congr fun z hz => hsame₁ z.1 fun heq => ?_
    exact hdisjoint _ hy z.1 (List.mem_cons_of_mem _ (List.mem_map_of_mem hz)) heq.symm
  obtain ⟨h₂, hset₂, hrest₂, hsame₂⟩ := hrest₁.relink_start hnodup₂ (some y.1)
  have hseg₂ : Seg h₂ none ((l₀ ++ [y] ++ x :: l₂).head?.map Prod.fst) (l₀ ++ [y]) next := by
    refine hseg₁.congr fun z hz => hsame₂ z.1 fun hmem => ?_
    exact hdisjoint _ (List.mem_map_of_mem hz) z.1 (List.mem_cons_of_mem _ hmem) rfl
  refine ⟨h₂, ?_, ?_, ?_, ?_⟩
  · rw [unlink, hx, Option.bind_some]
    cases next with
    | none =>
        cases hset₂
        exact hset₁
    | some q =>
        dsimp only
        rw [show lastOf (some y.1) [] = some y.1 from rfl]
        dsimp only
        rw [hset₁, Option.bind_some]
        exact hset₂
  · have hhead : (l₀ ++ [y] ++ l₂).head?.map Prod.fst
        = (l₀ ++ [y] ++ x :: l₂).head?.map Prod.fst := by
      cases l₀ <;> rfl
    rw [hhead]
    refine Seg.append.mpr ⟨next, hseg₂.congr fun z hz => ?_, ?_⟩
    · exact Function.update_of_ne (hne₁ _ (List.mem_map_of_mem hz)) _ _
    · rw [lastOf_append]
      refine hrest₂.congr fun z hz => Function.update_of_ne ?_ _ _
      exact fun heq => hx₂ (heq ▸ List.mem_map_of_mem hz)
  · rw [List.map_append, List.nodup_append]
    exact ⟨hnodup₁, hnodup₂, fun a ha b hb => hdisjoint a ha b (List.mem_cons_of_mem _ hb)⟩
  · intro a ha
    by_cases hax : a = x.1
    · rw [free, hax, Function.update_self] at ha
      exact absurd rfl ha
    · rw [free, Function.update_of_ne hax] at ha
      rw [List.map_append, List.mem_append]
      by_cases ha₂ : a ∈ l₂.map Prod.fst
      · exact .inr ha₂
      by_cases hay : a = y.1
      · exact .inl (hay ▸ hy)
      rw [hsame₂ a ha₂, hsame₁ a hay] at ha
      have hkey := hl.only a ha
      rw [List.map_append, List.mem_append, List.map_cons, List.mem_cons] at hkey
      rcases hkey with hkey | hkey | hkey
      · exact .inl hkey
      · exact absurd hkey hax
      · exact .inr hkey

/-- A change of what a node is for leaves the links. -/
theorem Listed.modifyVal (hl : Listed h (l₁ ++ x :: l₂)) (f : β → β) :
    ∃ h', LinkedList.modifyVal h x.1 f = some h' ∧ Listed h' (l₁ ++ (x.1, f x.2) :: l₂) := by
  obtain ⟨next, hx, hl₁, hl₂⟩ := hl.seg.node
  have hnodup := hl.nodup
  rw [List.map_append, List.map_cons, List.nodup_append, List.nodup_cons] at hnodup
  obtain ⟨hnodup₁, ⟨hx₂, hnodup₂⟩, hdisjoint⟩ := hnodup
  have hkeys : (l₁ ++ (x.1, f x.2) :: l₂).map Prod.fst = (l₁ ++ x :: l₂).map Prod.fst := by
    rw [List.map_append, List.map_cons, List.map_append, List.map_cons]
  refine ⟨Function.update h x.1 (some ⟨next, lastOf none l₁, f x.2⟩), ?_, ?_, ?_, ?_⟩
  · rw [LinkedList.modifyVal, hx]
    rfl
  · have hhead : (l₁ ++ (x.1, f x.2) :: l₂).head?.map Prod.fst
        = (l₁ ++ x :: l₂).head?.map Prod.fst := by
      cases l₁ <;> rfl
    rw [hhead]
    refine Seg.append.mpr ⟨some x.1, hl₁.congr fun z hz => ?_, rfl, next,
      Function.update_self .., hl₂.congr fun z hz => ?_⟩
    · exact Function.update_of_ne
        (hdisjoint _ (List.mem_map_of_mem hz) _ List.mem_cons_self) _ _
    · refine Function.update_of_ne (fun heq => hx₂ ?_) _ _
      rw [← heq]
      exact List.mem_map_of_mem hz
  · rw [hkeys]
    exact hl.nodup
  · intro a ha
    rw [hkeys]
    by_cases hax : a = x.1
    · simp [hax]
    · rw [Function.update_of_ne hax] at ha
      exact hl.only a ha

/-! ### Walks -/

omit [DecidableEq α]

/-- The first node from `s` on with a property, or the end. There is no result if the fuel runs
out, or a link is one to nowhere. -/
def find (h : Heap α β) (q : β → Bool) : Nat → Option α → Option (Option α)
  | 0, _ => none
  | _ + 1, none => some none
  | n + 1, some a =>
      match h a with
      | none => none
      | some node => if q node.val then some (some a) else find h q n node.next

/-- The nodes from `s` on. -/
def follow (h : Heap α β) : Nat → Option α → Option (List (α × β))
  | 0, _ => none
  | _ + 1, none => some []
  | n + 1, some a =>
      match h a with
      | none => none
      | some node => (follow h n node.next).map ((a, node.val) :: ·)

theorem Seg.find (hseg : Seg h p s l none) (q : β → Bool) {n : Nat} (hn : l.length < n) :
    LinkedList.find h q n s = some ((l.find? fun x => q x.2).map Prod.fst) := by
  induction l generalizing p s n with
  | nil =>
      cases hseg
      cases n with
      | zero => cases hn
      | succ n => rfl
  | cons x l ih =>
      obtain ⟨hs, next, hx, hrest⟩ := hseg
      subst hs
      cases n with
      | zero => cases hn
      | succ n =>
          rw [LinkedList.find, hx, List.find?_cons]
          dsimp only
          by_cases hq : q x.2 = true
          · rw [hq]
            rfl
          · rw [Bool.not_eq_true] at hq
            rw [hq]
            exact ih hrest (Nat.lt_of_succ_lt_succ hn)

/-- A walk that returns has found the first node, or that there is none, whatever its fuel. -/
theorem Seg.find_eq (hseg : Seg h p s l none) {q : β → Bool} {n : Nat} {r : Option α}
    (hfind : LinkedList.find h q n s = some r) : r = (l.find? fun x => q x.2).map Prod.fst := by
  induction l generalizing p s n with
  | nil =>
      cases hseg
      cases n <;> cases hfind
      rfl
  | cons x l ih =>
      obtain ⟨hs, next, hx, hrest⟩ := hseg
      subst hs
      cases n with
      | zero => cases hfind
      | succ n =>
          rw [LinkedList.find, hx] at hfind
          dsimp only at hfind
          rw [List.find?_cons]
          by_cases hq : q x.2 = true
          · rw [if_pos hq] at hfind
            cases hfind
            rw [hq]
            rfl
          · rw [if_neg hq] at hfind
            rw [Bool.not_eq_true] at hq
            rw [hq]
            exact ih hrest hfind

theorem Seg.follow (hseg : Seg h p s l none) {n : Nat} (hn : l.length < n) :
    LinkedList.follow h n s = some l := by
  induction l generalizing p s n with
  | nil =>
      cases hseg
      cases n with
      | zero => cases hn
      | succ n => rfl
  | cons x l ih =>
      obtain ⟨hs, next, hx, hrest⟩ := hseg
      subst hs
      cases n with
      | zero => cases hn
      | succ n =>
          rw [LinkedList.follow, hx]
          dsimp only
          rw [ih hrest (Nat.lt_of_succ_lt_succ hn)]
          rfl

/-- A heap is listed in one way from an address on. -/
theorem Listed.unique (hl : Listed h l₁) (hl' : Listed h l₂)
    (hstart : l₁.head?.map Prod.fst = l₂.head?.map Prod.fst) : l₁ = l₂ := by
  have hfollow := hl.seg.follow (n := l₁.length + l₂.length + 1) (by omega)
  have hfollow' := hl'.seg.follow (n := l₁.length + l₂.length + 1) (by omega)
  rw [hstart, hfollow'] at hfollow
  exact (Option.some.inj hfollow).symm

end Lib.LinkedList
