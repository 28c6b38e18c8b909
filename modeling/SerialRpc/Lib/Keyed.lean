import Mathlib.Data.List.Nodup
import Mathlib.Logic.Function.Basic

/-!
# Tables built from a list

A program goes through a list and enters some of its elements into a map, each under its own
key, and looks them up later. Where the keys are distinct, an element is found under its key,
with the value it was entered with, and nothing else is found.

- `Map`: a map as what it finds. `Map.emplace` does not replace what is there.
- `Holds`: the map holds what the elements of a list with some property were entered with.
  `Holds.emplace`, `Holds.skip`: one element more.
- `Holds.find`: an element is found. `Holds.isSome_iff`: what is found.
- `pass_spec`: a pass over a list that goes on while the elements so far are good ones.
-/

namespace Keyed

universe u v w

variable {α : Type u} {κ : Type v} {β : Type w}

/-- A map, as what it finds under a key. -/
abbrev Map (κ : Type v) (β : Type w) := κ → Option β

/-- The empty map. -/
def Map.empty : Map κ β := fun _ => none

/-- Enter a value under a key, unless there is one. -/
def Map.emplace [DecidableEq κ] (m : Map κ β) (k : κ) (v : β) : Map κ β :=
  if (m k).isSome then m else Function.update m k (some v)

/-- The map holds the elements of the list that have a property, each under its key and with
a value that may depend on its position. -/
def Holds (key : α → κ) (p : α → Prop) (value : Nat → α → β) (as : List α) (m : Map κ β) :
    Prop :=
  ∀ k v, m k = some v ↔ ∃ i a, as[i]? = some a ∧ p a ∧ key a = k ∧ value i a = v

namespace Holds

variable {key : α → κ} {p : α → Prop} {value : Nat → α → β} {as : List α} {m : Map κ β}

theorem nil : Holds key p value [] Map.empty := by
  intro k v
  simp [Map.empty]

/-- Nothing is found under a key that no element has. -/
theorem eq_none (h : Holds key p value as m) {k : κ} (hk : k ∉ as.map key) : m k = none := by
  by_contra hsome
  obtain ⟨v, hv⟩ := Option.ne_none_iff_exists'.mp hsome
  obtain ⟨i, a, ha, -, rfl, -⟩ := (h k v).mp hv
  exact hk (List.mem_map_of_mem (List.mem_of_getElem? ha))

/-- The positions of a longer list: those there were, and the last. -/
theorem getElem?_concat {a b : α} {i : Nat} :
    (as ++ [a])[i]? = some b ↔ as[i]? = some b ∨ i = as.length ∧ a = b := by
  rcases Nat.lt_trichotomy i as.length with hlt | rfl | hgt
  · rw [List.getElem?_append_left hlt]
    simp [Nat.ne_of_lt hlt]
  · simp
  · have hout : (as ++ [a])[i]? = none := List.getElem?_eq_none (by simp; omega)
    have hout' : as[i]? = none := List.getElem?_eq_none (Nat.le_of_lt hgt)
    simp [hout, hout', Nat.ne_of_gt hgt]

/-- An element with a new key is entered. -/
theorem emplace [DecidableEq κ] (h : Holds key p value as m) {a : α} (hp : p a)
    (hkey : key a ∉ as.map key) :
    Holds key p value (as ++ [a]) (m.emplace (key a) (value as.length a)) := by
  intro k v
  have hnone := h.eq_none hkey
  simp only [Map.emplace, hnone, Option.isSome_none, Bool.false_eq_true, if_false]
  by_cases hk : k = key a
  · subst hk
    rw [Function.update_self]
    constructor
    · intro hv
      exact ⟨as.length, a, getElem?_concat.mpr (.inr ⟨rfl, rfl⟩), hp, rfl, Option.some.inj hv⟩
    · rintro ⟨i, b, hb, -, hbk, rfl⟩
      rcases getElem?_concat.mp hb with hb | ⟨rfl, rfl⟩
      · exact absurd (hbk ▸ List.mem_map_of_mem (List.mem_of_getElem? hb)) hkey
      · rfl
  · rw [Function.update_of_ne hk, h k v]
    constructor
    · rintro ⟨i, b, hb, hpb, hbk, hv⟩
      exact ⟨i, b, getElem?_concat.mpr (.inl hb), hpb, hbk, hv⟩
    · rintro ⟨i, b, hb, hpb, hbk, hv⟩
      rcases getElem?_concat.mp hb with hb | ⟨-, rfl⟩
      · exact ⟨i, b, hb, hpb, hbk, hv⟩
      · exact absurd hbk.symm hk

/-- An element without the property is passed over. -/
theorem skip (h : Holds key p value as m) {a : α} (hp : ¬ p a) :
    Holds key p value (as ++ [a]) m := by
  intro k v
  rw [h k v]
  constructor
  · rintro ⟨i, b, hb, hpb, hbk, hv⟩
    exact ⟨i, b, getElem?_concat.mpr (.inl hb), hpb, hbk, hv⟩
  · rintro ⟨i, b, hb, hpb, hbk, hv⟩
    rcases getElem?_concat.mp hb with hb | ⟨-, rfl⟩
    · exact ⟨i, b, hb, hpb, hbk, hv⟩
    · exact absurd hpb hp

/-- An element with the property is found under its key. -/
theorem find (h : Holds key p value as m) {i : Nat} {a : α} (ha : as[i]? = some a) (hp : p a) :
    m (key a) = some (value i a) :=
  (h _ _).mpr ⟨i, a, ha, hp, rfl, rfl⟩

/-- Something is found under the keys of the elements with the property. -/
theorem isSome_iff (h : Holds key p value as m) (k : κ) :
    (m k).isSome ↔ ∃ a ∈ as, p a ∧ key a = k := by
  rw [Option.isSome_iff_exists]
  constructor
  · rintro ⟨v, hv⟩
    obtain ⟨i, a, ha, hp, hk, -⟩ := (h k v).mp hv
    exact ⟨a, List.mem_of_getElem? ha, hp, hk⟩
  · rintro ⟨a, ha, hp, rfl⟩
    obtain ⟨i, hi⟩ := List.getElem?_of_mem ha
    exact ⟨_, h.find hi hp⟩

end Holds

/-! ## Passes -/

section Pass

variable {σ : Type w} {ε : Type v} (good : List α → Prop) (inv : List α → σ → Prop)
  (failure : ε → Prop) (step : σ → α → Except ε σ)

/-- A pass keeps an invariant while what it has seen is good, and fails at the first element
that is not. So it gets through exactly if all is good. -/
theorem pass_spec (all : List α) (hgood : ∀ done rest, good (done ++ rest) → good done)
    (hstep : ∀ done a rest, done ++ a :: rest = all → ∀ s, inv done s →
      (good (done ++ [a]) ∧ ∃ s', step s a = .ok s' ∧ inv (done ++ [a]) s') ∨
        (¬ good (done ++ [a]) ∧ ∃ e, step s a = .error e ∧ failure e)) :
    ∀ (rest done : List α), done ++ rest = all → good done → ∀ s, inv done s →
      (good all ∧ ∃ s', rest.foldlM step s = .ok s' ∧ inv all s') ∨
        (¬ good all ∧ ∃ e, rest.foldlM step s = .error e ∧ failure e)
  | [], done, hall, hdone, s, hs => by
    rw [List.append_nil] at hall
    subst hall
    exact .inl ⟨hdone, s, rfl, hs⟩
  | a :: rest, done, hall, _, s, hs => by
    rcases hstep done a rest hall s hs with ⟨hgood', s', hs', hinv⟩ | ⟨hbad, e, he, hfailure⟩
    · have hrest :=
        pass_spec all hgood hstep rest (done ++ [a]) (by simpa using hall) hgood' s' hinv
      simpa only [List.foldlM_cons, hs', bind, Except.bind] using hrest
    · refine .inr ⟨fun hall' => hbad (hgood _ rest ?_), e, ?_, hfailure⟩
      · rw [List.append_assoc, List.singleton_append, hall]
        exact hall'
      · simp only [List.foldlM_cons, he, bind, Except.bind]

end Pass

end Keyed
