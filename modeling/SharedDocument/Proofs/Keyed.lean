import Mathlib.Data.String.Basic
import SharedDocument.Keyed

/-! Finite maps as increasing lists. In such a list a key occurs once, so an entry is listed exactly
if it is found, and two lists that answer every look-up alike are one list. Writing and erasing
keep the order. -/

namespace SharedDocument.Keyed

variable {κ α β : Type}

section

variable [DecidableEq κ]

theorem mem_of_find? {key : κ} {value : α} {entries : List (κ × α)}
    (found : find? key entries = some value) : (key, value) ∈ entries := by
  induction entries with
  | nil => simp at found
  | cons entry rest ih =>
      by_cases here : key = entry.1
      · rw [find?, if_pos here, Option.some.injEq] at found
        rw [here, ← found]
        exact List.mem_cons_self
      · rw [find?, if_neg here] at found
        exact List.mem_cons_of_mem _ (ih found)

theorem find?_eq_none_iff {key : κ} {entries : List (κ × α)} :
    find? key entries = none ↔ ∀ entry ∈ entries, entry.1 ≠ key := by
  induction entries with
  | nil => simp
  | cons entry rest ih =>
      by_cases here : key = entry.1
      · simp [find?, here]
      · simp [find?, here, ih, Ne.symm here]

theorem erase_sublist (key : κ) (entries : List (κ × α)) :
    (erase key entries).Sublist entries := by
  induction entries with
  | nil => exact List.Sublist.refl _
  | cons entry rest ih =>
      unfold erase
      split
      · exact ih.cons entry
      · exact ih.cons_cons entry

theorem erase_of_find?_eq_none {key : κ} {entries : List (κ × α)}
    (absent : find? key entries = none) : erase key entries = entries := by
  induction entries with
  | nil => rfl
  | cons entry rest ih =>
      have elsewhere : key ≠ entry.1 :=
        Ne.symm (find?_eq_none_iff.mp absent entry List.mem_cons_self)
      rw [find?, if_neg elsewhere] at absent
      rw [erase, if_neg elsewhere, ih absent]

theorem mapValues_erase (transform : α → β) (key : κ) (entries : List (κ × α)) :
    mapValues transform (erase key entries) = erase key (mapValues transform entries) := by
  induction entries with
  | nil => rfl
  | cons first rest ih =>
      simp only [mapValues, List.map_cons, erase] at ih ⊢
      split
      · exact ih
      · rw [← ih]
        rfl

end

section

variable [LT κ]

theorem Increasing.tail {entry : κ × α} {rest : List (κ × α)}
    (increasing : Increasing (entry :: rest)) : Increasing rest :=
  (List.pairwise_cons.mp increasing).2

theorem Increasing.head_lt {entry other : κ × α} {rest : List (κ × α)}
    (increasing : Increasing (entry :: rest)) (listed : other ∈ rest) : entry.1 < other.1 :=
  (List.pairwise_cons.mp increasing).1 other listed

theorem increasing_mapValues (transform : α → β) {entries : List (κ × α)}
    (increasing : Increasing entries) : Increasing (mapValues transform entries) :=
  List.pairwise_map.mpr increasing

end

section

variable [DecidableEq κ] [LT κ]

theorem increasing_erase (key : κ) {entries : List (κ × α)} (increasing : Increasing entries) :
    Increasing (erase key entries) :=
  increasing.sublist (erase_sublist key entries)

end

section

variable [DecidableEq κ] [LT κ] [DecidableLT κ]

theorem mem_insert {key : κ} {value : α} {entries : List (κ × α)} {entry : κ × α}
    (listed : entry ∈ insert key value entries) : entry = (key, value) ∨ entry ∈ entries := by
  induction entries with
  | nil => simpa [insert] using listed
  | cons first rest ih =>
      unfold insert at listed
      split at listed
      · rcases List.mem_cons.mp listed with new | old
        · exact Or.inl new
        · exact Or.inr (List.mem_cons_of_mem _ old)
      · split at listed
        · exact List.mem_cons.mp listed
        · rcases List.mem_cons.mp listed with old | later
          · exact Or.inr (old ▸ List.mem_cons_self)
          · rcases ih later with new | old
            · exact Or.inl new
            · exact Or.inr (List.mem_cons_of_mem _ old)

theorem mapValues_insert (transform : α → β) (key : κ) (value : α) (entries : List (κ × α)) :
    mapValues transform (insert key value entries) =
      insert key (transform value) (mapValues transform entries) := by
  induction entries with
  | nil => rfl
  | cons first rest ih =>
      unfold insert
      simp only [mapValues, List.map_cons] at ih ⊢
      split
      · rfl
      · split
        · rfl
        · rw [← ih]
          rfl

end

section

variable [DecidableEq κ] [LT κ] [IsStrictTotalOrder κ (· < ·)]

theorem find?_head_eq_none {entry : κ × α} {rest : List (κ × α)}
    (increasing : Increasing (entry :: rest)) : find? entry.1 rest = none := by
  rw [find?_eq_none_iff]
  intro other listed same
  have before := increasing.head_lt listed
  rw [same] at before
  exact irrefl _ before

theorem mem_iff_find? {key : κ} {value : α} {entries : List (κ × α)}
    (increasing : Increasing entries) : (key, value) ∈ entries ↔ find? key entries = some value := by
  refine ⟨fun listed => ?_, mem_of_find?⟩
  induction entries with
  | nil => cases listed
  | cons entry rest ih =>
      rcases List.mem_cons.mp listed with rfl | later
      · simp [find?]
      · have elsewhere : entry.1 ≠ key := ne_of_irrefl (increasing.head_lt later)
        rw [find?, if_neg elsewhere.symm]
        exact ih increasing.tail later

theorem find?_filter (keep : κ × α → Bool) {entries : List (κ × α)}
    (increasing : Increasing entries) (key : κ) :
    find? key (entries.filter keep) = (find? key entries).filter fun value => keep (key, value) := by
  have kept : Increasing (entries.filter keep) := increasing.sublist List.filter_sublist
  ext value
  rw [← mem_iff_find? kept, List.mem_filter, mem_iff_find? increasing, Option.filter_eq_some_iff]

theorem eq_of_find? {left right : List (κ × α)} (leftIncreasing : Increasing left)
    (rightIncreasing : Increasing right) (same : ∀ key, find? key left = find? key right) :
    left = right := by
  induction left generalizing right with
  | nil =>
      cases right with
      | nil => rfl
      | cons entry rest => simpa [find?] using same entry.1
  | cons first firsts ih =>
      cases right with
      | nil => simpa [find?] using same first.1
      | cons second seconds =>
          have firstListed : (first.1, first.2) ∈ second :: seconds := by
            apply mem_of_find?
            rw [← same]
            simp [find?]
          have secondListed : (second.1, second.2) ∈ first :: firsts := by
            apply mem_of_find?
            rw [same]
            simp [find?]
          have heads : first = second := by
            rcases List.mem_cons.mp firstListed with equal | firstLater
            · exact equal
            · rcases List.mem_cons.mp secondListed with equal | secondLater
              · exact equal.symm
              · exact absurd (leftIncreasing.head_lt secondLater)
                  (asymm (rightIncreasing.head_lt firstLater))
          subst heads
          congr 1
          apply ih leftIncreasing.tail rightIncreasing.tail
          intro key
          by_cases here : key = first.1
          · rw [here, find?_head_eq_none leftIncreasing, find?_head_eq_none rightIncreasing]
          · simpa [find?, here] using same key

theorem increasing_insert [DecidableLT κ] (key : κ) (value : α) {entries : List (κ × α)}
    (increasing : Increasing entries) : Increasing (insert key value entries) := by
  induction entries with
  | nil => simp [insert, Increasing]
  | cons first rest ih =>
      unfold insert
      split
      · rename_i same
        apply List.pairwise_cons.mpr
        exact ⟨fun other listed => same ▸ increasing.head_lt listed, increasing.tail⟩
      · split
        · rename_i before
          apply List.pairwise_cons.mpr
          refine ⟨?_, increasing⟩
          intro other listed
          rcases List.mem_cons.mp listed with here | later
          · exact here ▸ before
          · exact trans_of (· < ·) before (increasing.head_lt later)
        · rename_i different notBefore
          apply List.pairwise_cons.mpr
          refine ⟨?_, ih increasing.tail⟩
          intro other listed
          rcases mem_insert listed with new | old
          · rw [new]
            exact (trichotomous_of (· < ·) first.1 key).resolve_right
              fun other => other.elim (fun same => different same.symm) notBefore
          · exact increasing.head_lt old

theorem perm_erase {key : κ} {value : α} {entries : List (κ × α)} (increasing : Increasing entries)
    (found : find? key entries = some value) : entries.Perm ((key, value) :: erase key entries) := by
  induction entries with
  | nil => simp at found
  | cons entry rest ih =>
      by_cases here : key = entry.1
      · subst here
        rw [find?, if_pos rfl, Option.some.injEq] at found
        rw [erase, if_pos rfl, erase_of_find?_eq_none (find?_head_eq_none increasing), ← found]
      · rw [find?, if_neg here] at found
        rw [erase, if_neg here]
        exact ((ih increasing.tail found).cons entry).trans (List.Perm.swap _ _ _)

theorem perm_insert [DecidableLT κ] (key : κ) (value : α) {entries : List (κ × α)}
    (increasing : Increasing entries) :
    (insert key value entries).Perm ((key, value) :: erase key entries) := by
  induction entries with
  | nil => exact List.Perm.refl _
  | cons entry rest ih =>
      unfold insert
      by_cases here : key = entry.1
      · subst here
        rw [if_pos rfl, erase, if_pos rfl,
          erase_of_find?_eq_none (find?_head_eq_none increasing)]
      · rw [if_neg here, erase, if_neg here]
        split
        · rename_i before
          have absent : find? key rest = none := by
            rw [find?_eq_none_iff]
            rintro other listed rfl
            exact asymm before (increasing.head_lt listed)
          rw [erase_of_find?_eq_none absent]
        · exact ((ih increasing.tail).cons entry).trans (List.Perm.swap _ _ _)

section

variable [DecidableLT κ] {entries : List (κ × α)} (increasing : Increasing entries)

include increasing

theorem insert_eq_self {key : κ} {value : α} (found : find? key entries = some value) :
    insert key value entries = entries := by
  refine eq_of_find? (increasing_insert key value increasing) increasing fun other => ?_
  rw [find?_insert]
  split
  · rename_i same
    rw [same, found]
  · rfl

theorem insert_insert (key : κ) (value later : α) :
    insert key later (insert key value entries) = insert key later entries := by
  refine eq_of_find? (increasing_insert key later (increasing_insert key value increasing))
    (increasing_insert key later increasing) fun other => ?_
  simp only [find?_insert]
  split <;> rfl

theorem erase_insert (key : κ) (value : α) :
    erase key (insert key value entries) = erase key entries := by
  refine eq_of_find? (increasing_erase key (increasing_insert key value increasing))
    (increasing_erase key increasing) fun other => ?_
  simp only [find?_erase, find?_insert]
  split <;> rfl

end

end

end SharedDocument.Keyed
