import Mathlib.Data.List.Nodup
import Mathlib.Logic.Function.Basic

/-!
# Chains of nodes in memory

A library for structures whose nodes hold a pointer to the next one. The memory is a
function from nodes to what their pointers hold.

- `Chain next p nodes`: from the pointer `p`, following `next` visits `nodes` and ends at
  a null pointer. A pointer starts at most one chain (`Chain.unique`), and none of them
  comes back to a node (`Chain.nodup`).
- `Chain.update`: a write to a node off the chain does not change it; `Chain.append`: a
  write to its last node puts another node behind it.
-/

namespace Memory

universe u

variable {ν : Type u}

/-- Following `next` from a pointer visits some nodes, and then ends. -/
inductive Chain (next : ν → Option ν) : Option ν → List ν → Prop where
  | nil : Chain next none []
  | cons {a : ν} {nodes : List ν} (h : Chain next (next a) nodes) : Chain next (some a) (a :: nodes)

namespace Chain

variable {next : ν → Option ν} {p : Option ν} {nodes nodes' : List ν} {a b : ν}

theorem unique (h : Chain next p nodes) (h' : Chain next p nodes') : nodes = nodes' := by
  induction h generalizing nodes' with
  | nil =>
    cases h'
    rfl
  | cons _ ih =>
    cases h' with
    | cons h' => rw [ih h']

/-- The pointer is to the first node. -/
theorem head?_eq (h : Chain next p nodes) : nodes.head? = p := by
  cases h with
  | nil => rfl
  | cons _ => rfl

theorem eq_none_iff (h : Chain next p nodes) : p = none ↔ nodes = [] := by
  rw [← h.head?_eq, List.head?_eq_none_iff]

/-- From each of its nodes, the rest of a chain is a chain. -/
theorem of_mem (h : Chain next p nodes) (ha : a ∈ nodes) :
    ∃ rest, Chain next (some a) (a :: rest) ∧ (a :: rest) <:+ nodes := by
  induction h with
  | nil => exact absurd ha List.not_mem_nil
  | @cons b nodes h ih =>
    rcases List.mem_cons.mp ha with rfl | ha
    · exact ⟨nodes, .cons h, List.suffix_refl _⟩
    · obtain ⟨rest, hrest, hsuffix⟩ := ih ha
      exact ⟨rest, hrest, hsuffix.trans (List.suffix_cons b nodes)⟩

/-- A chain that came back to a node would not end. -/
theorem nodup (h : Chain next p nodes) : nodes.Nodup := by
  induction h with
  | nil => exact List.nodup_nil
  | @cons a nodes h ih =>
    refine List.nodup_cons.mpr ⟨fun ha => ?_, ih⟩
    obtain ⟨rest, hrest, hsuffix⟩ := h.of_mem ha
    have heq : a :: rest = a :: nodes := hrest.unique (.cons h)
    have hlength := hsuffix.length_le
    rw [heq] at hlength
    exact absurd hlength (Nat.not_succ_le_self nodes.length)

/-- The last node's pointer is null. -/
theorem next_last (h : Chain next p nodes) (ha : nodes.getLast? = some a) : next a = none := by
  induction h with
  | nil => cases ha
  | @cons b nodes h ih =>
    cases nodes with
    | nil =>
      obtain rfl : b = a := Option.some.inj ha
      exact h.eq_none_iff.mpr rfl
    | cons c nodes => exact ih ha

section Writes

variable [DecidableEq ν]

/-- A write to another node leaves a chain as it is. -/
theorem update (h : Chain next p nodes) (ha : a ∉ nodes) (q : Option ν) :
    Chain (Function.update next a q) p nodes := by
  induction h with
  | nil => exact .nil
  | @cons b nodes _ ih =>
    obtain ⟨hne, ha⟩ := not_or.mp (mt List.mem_cons.mpr ha)
    refine .cons ?_
    rw [Function.update_of_ne (Ne.symm hne)]
    exact ih ha

/-- A node whose pointer is null is put behind the last one. -/
theorem append (h : Chain next p nodes) (ha : nodes.getLast? = some a) (hb : b ∉ nodes)
    (hnext : next b = none) :
    Chain (Function.update next a (some b)) p (nodes ++ [b]) := by
  induction h with
  | nil => cases ha
  | @cons c nodes h ih =>
    obtain ⟨hne, hb⟩ := not_or.mp (mt List.mem_cons.mpr hb)
    cases nodes with
    | nil =>
      -- The write is to this node, and the chain of the new one is behind it.
      obtain rfl : c = a := Option.some.inj ha
      refine .cons ?_
      rw [Function.update_self]
      refine .cons ?_
      rw [Function.update_of_ne hne, hnext]
      exact .nil
    | cons d nodes =>
      have hlast : (d :: nodes).getLast? = some a := ha
      have hca : c ≠ a := by
        rintro rfl
        exact (List.nodup_cons.mp (Chain.cons h).nodup).1 (List.mem_of_getLast? hlast)
      refine .cons ?_
      rw [Function.update_of_ne hca]
      exact ih hlast hb

end Writes

end Chain

end Memory
