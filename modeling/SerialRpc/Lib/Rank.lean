import Mathlib.Data.List.Sort
import Mathlib.Order.Basic

/-!
# Ranks in a list of distinct keys

The position an element takes when a list is sorted by distinct keys is its *rank*,
the number of smaller keys. The rank needs no sorting and does not depend on the
order of the list, so two parties that sort the same elements, and a third one that
only counts, agree on positions.

- `rank_eq_of_getElem_sortBy`, `getElem?_sortBy_rank`: positions are ranks.
- `rank_perm`: ranks do not depend on the order.
- `rank_eq_rank_iff`: a key has the same rank in a list and in a longer one exactly
  when the longer one has no new key below it.
-/

namespace Rank

universe u v

variable {α : Type u} {β : Type v} [LinearOrder β] {key : α → β}

/-- How many elements have a key below `k`. -/
def rank (key : α → β) (as : List α) (k : β) : Nat := as.countP fun a => key a < k

/-- The list sorted by key. -/
def sortBy (key : α → β) (as : List α) : List α := as.insertionSort fun a b => key a ≤ key b

theorem sortBy_perm (key : α → β) (as : List α) : (sortBy key as).Perm as :=
  List.perm_insertionSort _ as

/-- Sorted by strictly increasing keys. -/
def Increasing (key : α → β) (as : List α) : Prop := as.Pairwise fun a b => key a < key b

theorem sortBy_increasing {as : List α} (h : (as.map key).Nodup) :
    Increasing key (sortBy key as) := by
  have hle : (sortBy key as).Pairwise fun a b => key a ≤ key b := by
    have htotal : Std.Total fun a b : α => key a ≤ key b := ⟨fun a b => le_total _ _⟩
    have htrans : IsTrans α fun a b => key a ≤ key b := ⟨fun _ _ _ => le_trans⟩
    exact List.pairwise_insertionSort (fun a b => key a ≤ key b) as
  have hne : (sortBy key as).Pairwise fun a b => key a ≠ key b :=
    List.pairwise_map.mp (((sortBy_perm key as).map key).nodup_iff.mpr h)
  exact (hle.and hne).imp fun hab => lt_of_le_of_ne hab.1 hab.2

theorem sortBy_of_increasing {as : List α} (h : Increasing key as) : sortBy key as = as :=
  List.Pairwise.insertionSort_eq (h.imp le_of_lt)

theorem rank_perm {as bs : List α} (h : as.Perm bs) (k : β) : rank key as k = rank key bs k :=
  h.countP_eq _

/-- In an increasing list the position is the rank. -/
theorem rank_getElem :
    ∀ {as : List α}, Increasing key as → ∀ (i : Nat) (h : i < as.length),
      rank key as (key as[i]) = i
  | [], _, i, h => absurd h (Nat.not_lt_zero i)
  | a :: as, hinc, 0, _ => by
    have hall : ∀ b ∈ as, ¬ key b < key a := fun b hb =>
      not_lt_of_gt ((List.pairwise_cons.mp hinc).1 b hb)
    simpa [rank, List.countP_eq_zero] using hall
  | a :: as, hinc, i + 1, h => by
    have hlt : i < as.length := Nat.lt_of_succ_lt_succ h
    obtain ⟨hhead, htail⟩ := List.pairwise_cons.mp hinc
    have ha : key a < key as[i] := hhead _ (List.getElem_mem hlt)
    have ih := rank_getElem htail i hlt
    simp only [rank, List.getElem_cons_succ] at ih ⊢
    rw [List.countP_cons, ih]
    simp [ha]

/-- The element of an increasing list at the rank of its key. -/
theorem getElem?_rank {as : List α} (h : Increasing key as) {a : α} (ha : a ∈ as) :
    as[rank key as (key a)]? = some a := by
  obtain ⟨i, hi, rfl⟩ := List.getElem_of_mem ha
  rw [rank_getElem h i hi, List.getElem?_eq_getElem hi]

/-- Sorting puts an element at its rank. -/
theorem getElem?_sortBy_rank {as : List α} (h : (as.map key).Nodup) {a : α} (ha : a ∈ as) :
    (sortBy key as)[rank key as (key a)]? = some a := by
  rw [← rank_perm (sortBy_perm key as)]
  exact getElem?_rank (sortBy_increasing h) ((sortBy_perm key as).mem_iff.mpr ha)

/-- The first position of an increasing list where a property holds is the rank of the
only element that has it. -/
theorem findIdx_eq_rank {as : List α} (h : Increasing key as) {p : α → Bool} {a : α}
    (ha : a ∈ as) (hpa : p a = true) (honly : ∀ b ∈ as, p b = true → b = a) :
    as.findIdx p = rank key as (key a) := by
  have hlt : as.findIdx p < as.length := List.findIdx_lt_length.mpr ⟨a, ha, hpa⟩
  have hat : as[as.findIdx p] = a :=
    honly _ (List.getElem_mem hlt) (List.findIdx_getElem (w := hlt))
  have hrank := rank_getElem h _ hlt
  rw [hat] at hrank
  exact hrank.symm

theorem rank_lt_length {as : List α} {a : α} (ha : a ∈ as) : rank key as (key a) < as.length := by
  refine lt_of_le_of_ne List.countP_le_length fun heq => ?_
  have hall := List.countP_eq_length.mp heq a ha
  simp at hall

/-- A list of distinct keys within another: a key has the same rank in both exactly when
every key of the other one below it is a key of the first. -/
theorem rank_eq_rank_iff {as bs : List α} (ha : (as.map key).Nodup) (hb : (bs.map key).Nodup)
    (hsub : ∀ a ∈ as, key a ∈ bs.map key) (k : β) :
    rank key as k = rank key bs k ↔ ∀ b ∈ bs, key b < k → key b ∈ as.map key := by
  have hcount : ∀ cs : List α, rank key cs k = ((cs.map key).filter (· < k)).length := by
    intro cs
    rw [← List.countP_eq_length_filter, List.countP_map]
    rfl
  -- The keys below `k`, without repetition, are among those of the other list.
  have hsubperm : ((as.map key).filter (· < k)).Subperm ((bs.map key).filter (· < k)) := by
    refine List.subperm_of_subset (ha.filter _) fun x hx => ?_
    obtain ⟨hx, hlt⟩ := List.mem_filter.mp hx
    obtain ⟨a, has, rfl⟩ := List.mem_map.mp hx
    exact List.mem_filter.mpr ⟨hsub a has, hlt⟩
  rw [hcount, hcount]
  constructor
  · intro heq b hbs hlt
    -- Of equal length, they are the same keys.
    have hperm := hsubperm.perm_of_length_le heq.ge
    have hmem : key b ∈ (bs.map key).filter (· < k) :=
      List.mem_filter.mpr ⟨List.mem_map_of_mem hbs, by simpa using hlt⟩
    exact (List.mem_filter.mp (hperm.mem_iff.mpr hmem)).1
  · intro hall
    refine le_antisymm hsubperm.length_le
      (List.subperm_of_subset (hb.filter _) fun x hx => ?_).length_le
    obtain ⟨hx, hlt⟩ := List.mem_filter.mp hx
    obtain ⟨b, hbs, rfl⟩ := List.mem_map.mp hx
    exact List.mem_filter.mpr ⟨hall b hbs (by simpa using hlt), hlt⟩

end Rank
