/-! Computations that may fail. A sequence of them succeeds if every one of them does. -/

namespace SharedDocument.Fallible

variable {ε α β γ : Type}

theorem bind_eq_ok_iff {first : Except ε α} {next : α → Except ε β} {result : β} :
    (first >>= next) = .ok result ↔ ∃ middle, first = .ok middle ∧ next middle = .ok result := by
  cases first with
  | error fault => simp [bind, Except.bind]
  | ok middle => simp [bind, Except.bind]

theorem bind_eq_error_iff {first : Except ε α} {next : α → Except ε β} {fault : ε} :
    (first >>= next) = .error fault ↔
      first = .error fault ∨ ∃ middle, first = .ok middle ∧ next middle = .error fault := by
  cases first with
  | error fault => simp [bind, Except.bind]
  | ok middle => simp [bind, Except.bind]

theorem map_eq_ok_iff {first : Except ε α} {transform : α → β} {result : β} :
    first.map transform = .ok result ↔ ∃ middle, first = .ok middle ∧ transform middle = result := by
  cases first with
  | error fault => simp [Except.map]
  | ok middle => simp [Except.map]

theorem map_eq_error_iff {first : Except ε α} {transform : α → β} {fault : ε} :
    first.map transform = .error fault ↔ first = .error fault := by
  cases first with
  | error fault => simp [Except.map]
  | ok middle => simp [Except.map]

theorem map_some_ne_none {first : Except ε α} {transform : α → β} :
    first.map (fun value => some (transform value)) ≠ .ok none := by
  intro found
  obtain ⟨_, _, lifted⟩ := map_eq_ok_iff.mp found
  cases lifted

theorem exists_of_discard {first : Except ε α} (succeeds : discard first = .ok PUnit.unit) :
    ∃ value, first = .ok value := by
  cases first with
  | error fault => cases succeeds
  | ok value => exact ⟨value, rfl⟩

theorem pure_eq_ok_iff {value result : α} :
    (pure value : Except ε α) = .ok result ↔ value = result :=
  Except.ok.injEq value result ▸ Iff.rfl

theorem pure_ne_error {value : α} {fault : ε} : (pure value : Except ε α) ≠ .error fault :=
  fun same => by cases same

theorem mapM_congr {first second : α → Except ε β} {items : List α}
    (same : ∀ item ∈ items, first item = second item) : items.mapM first = items.mapM second := by
  induction items with
  | nil => rfl
  | cons item rest ih =>
      rw [List.mapM_cons, List.mapM_cons, same item List.mem_cons_self,
        ih fun other listed => same other (List.mem_cons_of_mem _ listed)]

/-- Reading a list element by element gives a list back if it does so for each element. -/
theorem mapM_eq_ok_iff {read : α → Except ε β} {key : γ → α} (stored : γ → β) {Clear : γ → Prop}
    {items : List γ}
    (each : ∀ item ∈ items, ∀ result,
      read (key item) = .ok result ↔ result = stored item ∧ Clear item)
    (results : List β) :
    (items.map key).mapM read = .ok results ↔
      results = items.map stored ∧ ∀ item ∈ items, Clear item := by
  induction items generalizing results with
  | nil =>
      simp only [List.map_nil, List.mapM_nil, pure_eq_ok_iff]
      constructor
      · rintro rfl
        simp
      · rintro ⟨rfl, _⟩
        rfl
  | cons item rest ih =>
      simp only [List.map_cons, List.mapM_cons, bind_eq_ok_iff, pure_eq_ok_iff,
        each item List.mem_cons_self,
        ih fun other listed => each other (List.mem_cons_of_mem _ listed)]
      constructor
      · rintro ⟨first, ⟨rfl, clear⟩, later, ⟨rfl, laterClear⟩, rfl⟩
        exact ⟨rfl, List.forall_mem_cons.mpr ⟨clear, laterClear⟩⟩
      · rintro ⟨rfl, clear⟩
        obtain ⟨first, later⟩ := List.forall_mem_cons.mp clear
        exact ⟨_, ⟨rfl, first⟩, _, ⟨rfl, later⟩, rfl⟩

/-- The same for the entries of a map. Each key stays with what is read. -/
theorem mapM_entries_eq_ok_iff {κ : Type} {read : α → Except ε γ} {name : γ → α} {Clear : γ → Prop}
    {entries : List (κ × γ)}
    (each : ∀ value ∈ entries.map Prod.snd, ∀ result,
      read (name value) = .ok result ↔ result = value ∧ Clear value)
    (results : List (κ × γ)) :
    (entries.map fun entry => (entry.1, name entry.2)).mapM (fun entry => do
        let value ← read entry.2
        return (entry.1, value)) = .ok results ↔
      results = entries ∧ ∀ value ∈ entries.map Prod.snd, Clear value := by
  have entryRead : ∀ entry ∈ entries, ∀ result,
      (do
        let value ← read (name entry.2)
        return (entry.1, value) : Except ε (κ × γ)) = .ok result ↔
        result = entry ∧ Clear entry.2 := by
    intro entry listed result
    simp only [bind_eq_ok_iff, pure_eq_ok_iff, each entry.2 (List.mem_map_of_mem listed)]
    constructor
    · rintro ⟨_, ⟨rfl, clear⟩, rfl⟩
      exact ⟨rfl, clear⟩
    · rintro ⟨rfl, clear⟩
      exact ⟨_, ⟨rfl, clear⟩, rfl⟩
  have all := @mapM_eq_ok_iff _ _ _ _
    (fun entry : κ × α => do
      let value ← read entry.2
      return (entry.1, value))
    (fun entry : κ × γ => (entry.1, name entry.2)) id _ entries entryRead results
  rwa [List.map_id, ← List.forall_mem_map] at all

end SharedDocument.Fallible
