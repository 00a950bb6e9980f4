import Mathlib.Data.Fintype.Card

/-!
# Counting parties

The number of parties with a property, and how it changes when the property
changes at one party only.
-/

namespace RsIpc.Protocol

universe u

variable {ι : Type u} [Fintype ι]

/-- The number of parties with a property. -/
def count (property : ι → Prop) [DecidablePred property] : Nat :=
  (Finset.univ.filter property).card

variable {before after : ι → Prop} [DecidablePred before] [DecidablePred after]

theorem count_eq_zero_iff : count before = 0 ↔ ∀ party, ¬ before party := by
  simp [count, Finset.filter_eq_empty_iff]

theorem count_pos_of {party : ι} (has : before party) : 0 < count before :=
  Finset.card_pos.mpr ⟨party, by simp [has]⟩

theorem count_le_of_imp (imp : ∀ party, before party → after party) :
    count before ≤ count after :=
  Finset.card_le_card fun party => by
    simpa using imp party

theorem count_congr (agree : ∀ party, before party ↔ after party) :
    count before = count after :=
  le_antisymm (count_le_of_imp fun party => (agree party).mp)
    (count_le_of_imp fun party => (agree party).mpr)

theorem count_le_card : count before ≤ Fintype.card ι :=
  Finset.card_le_univ _

/-- All parties have the property once as many as there are parties do. -/
theorem forall_of_card_le_count (full : Fintype.card ι ≤ count before) (party : ι) :
    before party := by
  have univ : Finset.univ.filter before = Finset.univ :=
    Finset.eq_univ_of_card _ (le_antisymm count_le_card full)
  have mem : party ∈ Finset.univ.filter before := by
    rw [univ]
    exact Finset.mem_univ party
  simpa using mem

/-- Different parties with the property are no more than all of them. -/
theorem length_le_count {parties : List ι} (different : parties.Nodup)
    (all : ∀ party ∈ parties, before party) : parties.length ≤ count before := by
  classical
  rw [← List.toFinset_card_of_nodup different]
  refine Finset.card_le_card fun party mem => ?_
  rw [List.mem_toFinset] at mem
  simp [all party mem]

/-- Parties that are all in a list are no more than it has entries. -/
theorem count_le_length {parties : List ι} (all : ∀ party, before party → party ∈ parties) :
    count before ≤ parties.length := by
  classical
  refine le_trans (Finset.card_le_card fun party mem => ?_) (List.toFinset_card_le parties)
  rw [List.mem_toFinset]
  simp only [Finset.mem_filter, Finset.mem_univ, true_and] at mem
  exact all party mem

/-- As many parties with a further property as without: everybody has it. -/
theorem imp_of_count_le {further : ι → Prop} [DecidablePred further]
    (all : count before ≤ count fun party => before party ∧ further party) {party : ι}
    (has : before party) : further party := by
  have sub : Finset.univ.filter (fun party => before party ∧ further party) ⊆
      Finset.univ.filter before := by
    intro party mem
    simp only [Finset.mem_filter, Finset.mem_univ, true_and] at mem ⊢
    exact mem.1
  have mem : party ∈ Finset.univ.filter before := by simp [has]
  rw [← Finset.eq_of_subset_of_card_le sub all] at mem
  simp only [Finset.mem_filter, Finset.mem_univ, true_and] at mem
  exact mem.2

variable [DecidableEq ι]

/-- The count of the other parties. -/
theorem count_eq_count_others_add (party : ι) :
    count before = count (fun other => other ≠ party ∧ before other) +
      if before party then 1 else 0 := by
  unfold count
  by_cases has : before party
  · have insert : Finset.univ.filter before =
        insert party (Finset.univ.filter fun other => other ≠ party ∧ before other) := by
      ext other
      by_cases here : other = party <;> simp [here, has]
    rw [insert, Finset.card_insert_of_notMem (by simp), if_pos has]
  · have same : Finset.univ.filter before =
        Finset.univ.filter fun other => other ≠ party ∧ before other := by
      ext other
      by_cases here : other = party <;> simp [here, has]
    rw [← same, if_neg has, Nat.add_zero]

/-- A change at one party changes the count by what it changes there. -/
theorem count_change {party : ι} (agree : ∀ other, other ≠ party → (before other ↔ after other)) :
    count after + (if before party then 1 else 0) =
      count before + if after party then 1 else 0 := by
  have others : count (fun other => other ≠ party ∧ before other) =
      count fun other => other ≠ party ∧ after other :=
    count_congr fun other => and_congr_right (agree other)
  have first : count before = count (fun other => other ≠ party ∧ before other) +
      if before party then 1 else 0 := count_eq_count_others_add party
  have second : count after = count (fun other => other ≠ party ∧ after other) +
      if after party then 1 else 0 := count_eq_count_others_add party
  rw [first, second, others]
  omega

end RsIpc.Protocol
