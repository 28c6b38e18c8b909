import Mathlib.Data.Fintype.Card
import Mathlib.Data.List.Nodup
import Mathlib.Logic.Relation

/-!
# Depth-first walks that list a node once

A graph is given by the successors of each node. A walk appends a node to the list of
those seen, when it is not there yet, and goes on with its successors in order.

- `walk`: the walk from some roots, with a bound on its depth.
- `Extends`: what a walk has added to a list of seen nodes. Walks one after the other
  compose (`Extends.trans`), and one node's walk is its successors' walk with the node
  in front (`visit_extends`).
- `mem_walk_iff`, `walk_nodup`: on a finite graph, a bound above the number of nodes is
  enough, and the list then has each reachable node once.
-/

namespace Walk

universe u

variable {α : Type u} [DecidableEq α]

/-- The edges of the graph. -/
def Edge (succ : α → List α) (a b : α) : Prop := b ∈ succ a

/-- Reachable from one of the roots. -/
def Reach (succ : α → List α) (roots : List α) (b : α) : Prop :=
  ∃ a ∈ roots, Relation.ReflTransGen (Edge succ) a b

/-- One node's walk, at most `fuel` nodes deep. -/
def visit (succ : α → List α) : Nat → α → List α → List α
  | 0, _, seen => seen
  | fuel + 1, a, seen =>
    if a ∈ seen then seen
    else (succ a).foldl (fun seen b => visit succ fuel b seen) (seen ++ [a])

/-- The walks of several nodes, one after the other. -/
def visitAll (succ : α → List α) (fuel : Nat) (as seen : List α) : List α :=
  as.foldl (fun seen a => visit succ fuel a seen) seen

/-- The walk from some roots. -/
def walk (succ : α → List α) (fuel : Nat) (roots : List α) : List α :=
  visitAll succ fuel roots []

variable {succ : α → List α}

/-! ## Reachable nodes -/

omit [DecidableEq α] in
theorem Reach.root {roots : List α} {a : α} (h : a ∈ roots) : Reach succ roots a :=
  ⟨a, h, .refl⟩

omit [DecidableEq α] in
/-- What follows something reached is reached. -/
theorem Reach.step {roots : List α} {a b : α} (h : Reach succ roots a) (hb : b ∈ succ a) :
    Reach succ roots b := by
  obtain ⟨root, hroot, hpath⟩ := h
  exact ⟨root, hroot, hpath.tail hb⟩

omit [DecidableEq α] in
/-- A set with the roots in it and closed under successors has every reachable node. -/
theorem Reach.mem_of_closed {roots : List α} {p : α → Prop} (hroots : ∀ a ∈ roots, p a)
    (hclosed : ∀ a, p a → ∀ b ∈ succ a, p b) {b : α} (h : Reach succ roots b) : p b := by
  obtain ⟨a, ha, hpath⟩ := h
  induction hpath with
  | refl => exact hroots a ha
  | tail _ hedge ih => exact hclosed _ ih _ hedge

/-! ## What a walk adds -/

/-- Walks from `as` took the list of seen nodes from `seen` to `seen'`. -/
structure Extends (succ : α → List α) (as seen seen' : List α) : Prop where
  isPrefix : seen <+: seen'
  nodup : seen'.Nodup
  sound : ∀ b ∈ seen', b ∈ seen ∨ Reach succ as b
  roots : ∀ a ∈ as, a ∈ seen'
  closed : ∀ b ∈ seen', b ∉ seen → ∀ c ∈ succ b, c ∈ seen'

omit [DecidableEq α] in
theorem Extends.refl {seen : List α} (h : seen.Nodup) : Extends succ [] seen seen where
  isPrefix := List.prefix_refl seen
  nodup := h
  sound := fun _ hb => .inl hb
  roots := fun _ ha => absurd ha List.not_mem_nil
  closed := fun _ hb hnew => absurd hb hnew

omit [DecidableEq α] in
/-- A walk goes on behind a walk. -/
theorem Extends.trans {as bs seen seen₁ seen₂ : List α} (h₁ : Extends succ as seen seen₁)
    (h₂ : Extends succ bs seen₁ seen₂) : Extends succ (as ++ bs) seen seen₂ where
  isPrefix := h₁.isPrefix.trans h₂.isPrefix
  nodup := h₂.nodup
  sound := by
    intro b hb
    rcases h₂.sound b hb with hold | ⟨root, hroot, hpath⟩
    · rcases h₁.sound b hold with hseen | ⟨root, hroot, hpath⟩
      · exact .inl hseen
      · exact .inr ⟨root, List.mem_append_left _ hroot, hpath⟩
    · exact .inr ⟨root, List.mem_append_right _ hroot, hpath⟩
  roots := by
    intro a ha
    rcases List.mem_append.mp ha with ha | ha
    · exact h₂.isPrefix.subset (h₁.roots a ha)
    · exact h₂.roots a ha
  closed := by
    intro b hb hnew c hc
    by_cases hmid : b ∈ seen₁
    · exact h₂.isPrefix.subset (h₁.closed b hmid hnew c hc)
    · exact h₂.closed b hb hmid c hc

omit [DecidableEq α] in
/-- A node not seen yet goes in front of the walks of its successors. -/
theorem Extends.node {a : α} {seen seen' : List α}
    (h : Extends succ (succ a) (seen ++ [a]) seen') : Extends succ [a] seen seen' where
  isPrefix := (List.prefix_append seen [a]).trans h.isPrefix
  nodup := h.nodup
  sound := by
    intro b hb
    rcases h.sound b hb with hold | ⟨c, hc, hpath⟩
    · rcases List.mem_append.mp hold with hseen | ha
      · exact .inl hseen
      · exact .inr (.root ha)
    · exact .inr ⟨a, List.mem_singleton_self a, .head hc hpath⟩
  roots := by
    intro b hb
    exact h.isPrefix.subset (List.mem_append_right seen hb)
  closed := by
    intro b hb hnew c hc
    by_cases hba : b = a
    · subst hba
      exact h.roots c hc
    · refine h.closed b hb (fun hmem => ?_) c hc
      rcases List.mem_append.mp hmem with hseen | ha
      · exact hnew hseen
      · exact hba (List.mem_singleton.mp ha)

omit [DecidableEq α] in
/-- A walk leaves no less room in the bound than it found. -/
theorem Extends.room [Fintype α] {as seen seen' : List α} {fuel : Nat}
    (h : Extends succ as seen seen') (hroom : Fintype.card α < seen.length + fuel) :
    Fintype.card α < seen'.length + fuel := by
  have hlen := h.isPrefix.length_le
  omega

section Finite

variable [Fintype α]

/-- Several nodes' walks, from what each node's walk does. -/
theorem visitAll_extends_of {fuel : Nat}
    (hvisit : ∀ a (seen : List α), seen.Nodup → Fintype.card α < seen.length + fuel →
      Extends succ [a] seen (visit succ fuel a seen)) :
    ∀ (as seen : List α), seen.Nodup → Fintype.card α < seen.length + fuel →
      Extends succ as seen (visitAll succ fuel as seen)
  | [], _, hnodup, _ => .refl hnodup
  | a :: as, seen, hnodup, hroom => by
    have hfirst := hvisit a seen hnodup hroom
    have hrest := visitAll_extends_of hvisit as _ hfirst.nodup (hfirst.room hroom)
    exact hfirst.trans hrest

/-- Visiting a node adds what it reaches, with fuel for every node. -/
theorem visit_extends :
    ∀ (fuel : Nat) (a : α) (seen : List α), seen.Nodup →
      Fintype.card α < seen.length + fuel → Extends succ [a] seen (visit succ fuel a seen)
  | 0, _, _, hnodup, hroom => by
    -- More nodes than there are.
    have hle := hnodup.length_le_card
    omega
  | fuel + 1, a, seen, hnodup, hroom => by
    rw [visit]
    split
    case isTrue hmem =>
      have hsame : Extends succ [] seen seen := .refl hnodup
      exact { hsame with
        sound := fun _ hb => .inl hb
        roots := fun b hb => List.mem_singleton.mp hb ▸ hmem }
    case isFalse hnew =>
      have hnodup' : (seen ++ [a]).Nodup :=
        List.Nodup.append hnodup (List.nodup_singleton a)
          fun b hb hba => hnew (List.mem_singleton.mp hba ▸ hb)
      have hroom' : Fintype.card α < (seen ++ [a]).length + fuel := by
        rw [List.length_append, List.length_singleton]
        omega
      exact (visitAll_extends_of (visit_extends fuel) (succ a) _ hnodup' hroom').node

/-- Visiting several adds what these reach. -/
theorem visitAll_extends {fuel : Nat} {as seen : List α} (hnodup : seen.Nodup)
    (hroom : Fintype.card α < seen.length + fuel) :
    Extends succ as seen (visitAll succ fuel as seen) :=
  visitAll_extends_of (visit_extends fuel) as seen hnodup hroom

/-! ## The walk from the roots -/

/-- A walk finds what its roots reach. -/
theorem walk_extends {fuel : Nat} (hfuel : Fintype.card α < fuel) (roots : List α) :
    Extends succ roots [] (walk succ fuel roots) :=
  visitAll_extends List.nodup_nil (by simpa using hfuel)

theorem walk_nodup {fuel : Nat} (hfuel : Fintype.card α < fuel) (roots : List α) :
    (walk succ fuel roots).Nodup :=
  (walk_extends hfuel roots).nodup

/-- The walk lists the reachable nodes. -/
theorem mem_walk_iff {fuel : Nat} (hfuel : Fintype.card α < fuel) {roots : List α} {b : α} :
    b ∈ walk succ fuel roots ↔ Reach succ roots b := by
  have h : Extends succ roots [] (walk succ fuel roots) := walk_extends hfuel roots
  constructor
  · intro hb
    rcases h.sound b hb with hnil | hreach
    · exact absurd hnil List.not_mem_nil
    · exact hreach
  · intro hreach
    refine hreach.mem_of_closed (p := fun b => b ∈ walk succ fuel roots) h.roots ?_
    intro a ha c hc
    exact h.closed a ha List.not_mem_nil c hc

end Finite

end Walk
