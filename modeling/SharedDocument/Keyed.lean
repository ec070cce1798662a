/-! Association lists kept in increasing key order. Reading, writing and erasing an entry are
correct on any list; the order makes the list of a finite map unique. -/

namespace SharedDocument.Keyed

variable {κ α β : Type}

def find? [DecidableEq κ] (key : κ) : List (κ × α) → Option α
  | [] => none
  | entry :: rest => if key = entry.1 then some entry.2 else find? key rest

def contains [DecidableEq κ] (key : κ) (entries : List (κ × α)) : Bool :=
  (find? key entries).isSome

def insert [DecidableEq κ] [LT κ] [DecidableLT κ] (key : κ) (value : α) :
    List (κ × α) → List (κ × α)
  | [] => [(key, value)]
  | entry :: rest =>
      if key = entry.1 then (key, value) :: rest
      else if key < entry.1 then (key, value) :: entry :: rest
      else entry :: insert key value rest

def erase [DecidableEq κ] (key : κ) : List (κ × α) → List (κ × α)
  | [] => []
  | entry :: rest => if key = entry.1 then erase key rest else entry :: erase key rest

/-- Of several entries with one key the last remains. -/
def ofList [DecidableEq κ] [LT κ] [DecidableLT κ] (entries : List (κ × α)) : List (κ × α) :=
  entries.foldl (fun kept entry => insert entry.1 entry.2 kept) []

def mapValues (transform : α → β) (entries : List (κ × α)) : List (κ × β) :=
  entries.map fun entry => (entry.1, transform entry.2)

def Increasing [LT κ] (entries : List (κ × α)) : Prop :=
  entries.Pairwise fun left right => left.1 < right.1

@[simp] theorem find?_nil [DecidableEq κ] (key : κ) : find? key ([] : List (κ × α)) = none := rfl

theorem find?_insert [DecidableEq κ] [LT κ] [DecidableLT κ] (key other : κ) (value : α)
    (entries : List (κ × α)) :
    find? other (insert key value entries) = if other = key then some value else find? other entries := by
  induction entries with
  | nil => simp [insert, find?]
  | cons entry rest ih =>
      unfold insert
      by_cases same : key = entry.1
      · subst same
        by_cases here : other = entry.1 <;> simp [find?, here]
      · by_cases before : key < entry.1
        · simp only [same, before, if_true, if_false]
          by_cases here : other = key <;> simp [find?, here]
        · simp only [same, before, if_false]
          by_cases here : other = entry.1
          · have different : other ≠ key := fun equal => same (equal.symm.trans here)
            simp [find?, here, Ne.symm same]
          · simp [find?, here, ih]

theorem find?_erase [DecidableEq κ] (key other : κ) (entries : List (κ × α)) :
    find? other (erase key entries) = if other = key then none else find? other entries := by
  induction entries with
  | nil => simp [erase]
  | cons entry rest ih =>
      unfold erase
      by_cases gone : key = entry.1
      · subst gone
        rw [if_pos rfl, ih]
        by_cases here : other = entry.1 <;> simp [find?, here]
      · by_cases here : other = entry.1
        · subst here
          simp [find?, gone, Ne.symm gone]
        · simp [find?, gone, here, ih]

theorem find?_mapValues [DecidableEq κ] (transform : α → β) (key : κ) (entries : List (κ × α)) :
    find? key (mapValues transform entries) = (find? key entries).map transform := by
  induction entries with
  | nil => rfl
  | cons entry rest ih =>
      by_cases here : key = entry.1
      · simp [mapValues, find?, here]
      · simpa [mapValues, find?, here] using ih

end SharedDocument.Keyed
