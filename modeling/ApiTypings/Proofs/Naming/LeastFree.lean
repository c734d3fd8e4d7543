import ApiTypings.Declaration.Lowering
import ApiTypings.Declaration.Name
import Mathlib.Data.Finset.Card

/-!
# How a free name is found

While a name is taken, the next number is tried. The names that are tried differ from each other,
and all but the last are taken, so the search ends after at most as many rounds as there are taken
names. What it ends with is the base itself or the base with the least number that makes it free.
-/
namespace ApiTypings.Declaration

open Text (camelCase)

section Search

variable (base : String) (taken : List String)

/-- The search for a free name, with the number of its rounds. It begins with a name to ask about
and the number that comes next, and every round puts that number behind the base. -/
inductive Search : String → Nat → Nat → String → Prop
  | free {name : String} {next : Nat} : name ∉ taken → Search name next 0 name
  | round {name found : String} {next rounds : Nat} : name ∈ taken →
      Search (base ++ toString next) (next + 1) rounds found →
      Search name next (rounds + 1) found

/-- The name for a base among taken names: the base itself if it is free, and otherwise the base
with the least number from 2 on that makes it free. -/
inductive IsLeastFree : String → Prop
  | unnumbered : base ∉ taken → IsLeastFree base
  | numbered {k : Nat} : base ∈ taken → 2 ≤ k → base ++ toString k ∉ taken →
      (∀ j, 2 ≤ j → j < k → base ++ toString j ∈ taken) → IsLeastFree (base ++ toString k)

end Search

section Candidates

variable {base : String} {taken : List String} {rounds : Nat}

theorem search_candidate {k : Nat} (hfree : candidate base (k + rounds) ∉ taken)
    (hpassed : ∀ i < rounds, candidate base (k + i) ∈ taken) :
    Search base taken (candidate base k) (k + 2) rounds (candidate base (k + rounds)) := by
  induction rounds generalizing k with
  | zero => exact .free hfree
  | succ rounds ih =>
    have hshift : ∀ i, k + 1 + i = k + (i + 1) := by omega
    have hrest : Search base taken (candidate base (k + 1)) (k + 3) rounds
        (candidate base (k + 1 + rounds)) := by
      apply ih
      · rwa [hshift]
      · intro i hi
        rw [hshift]
        exact hpassed (i + 1) (by omega)
    rw [hshift] at hrest
    exact .round (hpassed 0 (by omega)) hrest

theorem isLeastFree_candidate (hfree : candidate base rounds ∉ taken)
    (hpassed : ∀ i < rounds, candidate base i ∈ taken) :
    IsLeastFree base taken (candidate base rounds) := by
  cases rounds with
  | zero => exact .unnumbered hfree
  | succ k =>
    have htaken : base ∈ taken := hpassed 0 (by omega)
    apply IsLeastFree.numbered htaken (by omega) hfree
    intro j hj hlt
    have hcandidate : candidate base (j - 1) = base ++ toString j := by
      obtain ⟨i, rfl⟩ : ∃ i, j = i + 2 := ⟨j - 2, by omega⟩
      rfl
    rw [← hcandidate]
    exact hpassed (j - 1) (by omega)

/-- There are no more distinct candidates among the taken names than taken names. -/
theorem rounds_le_card (hpassed : ∀ i < rounds, candidate base i ∈ taken) :
    rounds ≤ taken.toFinset.card := by
  have hsub : (Finset.range rounds).image (candidate base) ⊆ taken.toFinset := by
    intro name hname
    obtain ⟨i, hi, rfl⟩ := Finset.mem_image.mp hname
    exact List.mem_toFinset.mpr (hpassed i (Finset.mem_range.mp hi))
  calc rounds = ((Finset.range rounds).image (candidate base)).card := by
        rw [Finset.card_image_of_injective _ fun _ _ => candidate_injective, Finset.card_range]
    _ ≤ taken.toFinset.card := Finset.card_le_card hsub

end Candidates

/-- Taking a name always ends, after at most as many rounds as there are different taken names. The
name is the one made from owner and field, with the least number that makes it free if it is
taken, and nothing but this name is taken in addition. -/
theorem takeName_least_free (owner field : String) (taken : List String) :
    ∃ name rounds, (takeName owner field).run taken = (name, name :: taken) ∧
      IsLeastFree (owner ++ camelCase field) taken name ∧
      Search (owner ++ camelCase field) taken (owner ++ camelCase field) 2 rounds name ∧
      rounds ≤ taken.toFinset.card := by
  obtain ⟨rounds, hfound, hfree, hpassed⟩ := exists_freshName_eq (owner ++ camelCase field) taken
  refine ⟨candidate (owner ++ camelCase field) rounds, rounds, ?_, ?_, ?_, ?_⟩
  · rw [← hfound]
    rfl
  · exact isLeastFree_candidate hfree hpassed
  · rw [← Nat.zero_add rounds] at hfree
    have hsearch := search_candidate hfree fun i hi => (Nat.zero_add i).symm ▸ hpassed i hi
    rwa [Nat.zero_add rounds] at hsearch
  · exact rounds_le_card hpassed

/-- A base may end in a digit itself. -/
example : freshName "Chat2" ["Chat2", "Chat3", "Chat22"] = "Chat23" := by decide +kernel

end ApiTypings.Declaration
