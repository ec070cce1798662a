import SharedDocument.Proofs.Change
import SharedDocument.Proofs.Transform.Outcome
import SharedDocument.Transform.Property

/-! Concurrent edits of the properties of one object converge. What an edit does is read from the
look-ups after it. -/

namespace SharedDocument.PropertyEdit

variable {children : List (String × DataValue)}

def written : PropertyEdit → Option DataValue
  | .add _ value => some value
  | .set _ value => some value
  | .remove _ => none

theorem find?_applyTo (edit : PropertyEdit) (key : String) :
    Keyed.find? key (edit.applyTo children) =
      if key = edit.key then edit.written else Keyed.find? key children := by
  cases edit with
  | add own value => exact Keyed.find?_insert own key value children
  | set own value => exact Keyed.find?_insert own key value children
  | remove own => exact Keyed.find?_erase own key children

theorem increasing_applyTo (edit : PropertyEdit) (increasing : Keyed.Increasing children) :
    Keyed.Increasing (edit.applyTo children) := by
  cases edit with
  | add key value => exact Keyed.increasing_insert key value increasing
  | set key value => exact Keyed.increasing_insert key value increasing
  | remove key => exact Keyed.increasing_erase key increasing

/-- Whether an edit fits depends on its own key only. -/
theorem fits_congr {other : List (String × DataValue)} {edit : PropertyEdit}
    (same : Keyed.find? edit.key other = Keyed.find? edit.key children)
    (fits : edit.Fits children) : edit.Fits other := by
  cases edit with
  | add key value => exact same.trans fits
  | set key value => exact fun absent => fits (same ▸ absent)
  | remove key => exact fun absent => fits (same ▸ absent)

abbrev Meets (children : List (String × DataValue)) (server client : PropertyEdit)
    (outcome : Outcome PropertyEdit) : Prop :=
  outcome.Converges (fun edit children => edit.Fits children)
    (fun edit children => edit.applyTo children) children server client

theorem applyTo_eq {first second third : PropertyEdit} (increasing : Keyed.Increasing children)
    (secondKey : second.key = first.key) (thirdKey : third.key = first.key)
    (same : second.written = first.written) :
    first.applyTo children = second.applyTo (third.applyTo children) := by
  apply Keyed.eq_of_find? (first.increasing_applyTo increasing)
    (second.increasing_applyTo (third.increasing_applyTo increasing))
  intro key
  rw [find?_applyTo, find?_applyTo, find?_applyTo, secondKey, thirdKey, same]
  split <;> rfl

/-- Two edits of one key that both fit find it absent, or find it present. -/
theorem transform_meets_key {server client : PropertyEdit} (increasing : Keyed.Increasing children)
    (serverFits : server.Fits children) (clientFits : client.Fits children)
    (unequal : ∀ value ∈ server.values, ∀ other ∈ client.values, (value == other) = false)
    (together : server.key = client.key) :
    Meets children server client (server.transform client) := by
  have stored : Keyed.find? client.key (server.applyTo children) = server.written := by
    rw [find?_applyTo, if_pos together.symm]
  have storedClient : Keyed.find? server.key (client.applyTo children) = client.written := by
    rw [find?_applyTo, if_pos together]
  have sameBefore : Keyed.find? server.key children = Keyed.find? client.key children := by
    rw [together]
  unfold transform
  rw [if_pos together]
  cases server with
  | add serverKey serverValue =>
      cases client with
      | add clientKey clientValue =>
          have differ := unequal serverValue List.mem_cons_self clientValue List.mem_cons_self
          simp only [addWrite, differ, Bool.false_eq_true, if_false]
          refine .keepServer ?_ (applyTo_eq increasing rfl together.symm rfl)
          exact Option.ne_none_iff_exists'.mpr ⟨clientValue, storedClient⟩
      | set clientKey clientValue => exact absurd (sameBefore.symm.trans serverFits) clientFits
      | remove clientKey => exact absurd (sameBefore.symm.trans serverFits) clientFits
  | set serverKey serverValue =>
      cases client with
      | add clientKey clientValue => exact absurd (sameBefore.trans clientFits) serverFits
      | set clientKey clientValue =>
          have differ := unequal serverValue List.mem_cons_self clientValue List.mem_cons_self
          simp only [Outcome.writeConflict, differ, Bool.false_eq_true, if_false]
          refine .keepServer ?_ (applyTo_eq increasing rfl together.symm rfl)
          exact Option.ne_none_iff_exists'.mpr ⟨clientValue, storedClient⟩
      | remove clientKey =>
          refine .keepServer ?_ (applyTo_eq increasing rfl together.symm rfl)
          exact storedClient
  | remove serverKey =>
      cases client with
      | add clientKey clientValue => exact absurd (sameBefore.trans clientFits) serverFits
      | set clientKey clientValue =>
          refine .keepClient ?_ (applyTo_eq increasing rfl together rfl).symm
          exact stored
      | remove clientKey =>
          refine .dropBoth ?_
          rw [show serverKey = clientKey from together]

theorem transform_meets {server client : PropertyEdit} (increasing : Keyed.Increasing children)
    (serverFits : server.Fits children) (clientFits : client.Fits children)
    (unequal : ∀ value ∈ server.values, ∀ other ∈ client.values, (value == other) = false) :
    Meets children server client (server.transform client) := by
  by_cases together : server.key = client.key
  · exact transform_meets_key increasing serverFits clientFits unequal together
  · unfold transform
    rw [if_neg together]
    refine .keepBoth ?_ ?_ ?_
    · exact fits_congr (by rw [find?_applyTo, if_neg together]) serverFits
    · exact fits_congr (by rw [find?_applyTo, if_neg (Ne.symm together)]) clientFits
    · apply Keyed.eq_of_find? (client.increasing_applyTo (server.increasing_applyTo increasing))
        (server.increasing_applyTo (client.increasing_applyTo increasing))
      intro key
      rw [find?_applyTo, find?_applyTo, find?_applyTo, find?_applyTo]
      split
      · rename_i isClient
        rw [if_neg (fun isServer => together (isServer.symm.trans isClient))]
      · rfl

/-! What becomes of a pair writes the same values. -/

theorem addWrite_values (key : String) (added written : DataValue) (other : PropertyEdit) :
    (addWrite key added written other).server.change.values = [added] ∧
      (addWrite key added written other).client.change.values = other.values := by
  unfold addWrite
  split <;> exact ⟨rfl, rfl⟩

theorem transform_values (server client : PropertyEdit) :
    (server.transform client).server.change.values = server.values ∧
      (server.transform client).client.change.values = client.values := by
  unfold transform
  split
  · cases server with
    | add key added =>
        cases client with
        | remove other => exact ⟨rfl, rfl⟩
        | _ => exact addWrite_values key added _ _
    | set key value =>
        cases client with
        | add other added => exact (addWrite_values other added value _).symm
        | set other written =>
            dsimp only [Outcome.writeConflict]
            split <;> exact ⟨rfl, rfl⟩
        | remove other => exact ⟨rfl, rfl⟩
    | remove key => cases client <;> exact ⟨rfl, rfl⟩
  · exact ⟨rfl, rfl⟩

end SharedDocument.PropertyEdit
