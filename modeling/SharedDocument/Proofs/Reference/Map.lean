import SharedDocument.Proofs.Keyed
import SharedDocument.Reference

/-! The references of a node as a finite map from their names. The names in it increase, so what it
stores determines it, and every request changes it as the values that are stored change. -/

namespace SharedDocument

/-! The order of names. -/

namespace ReferenceName

theorem lt_iff {left right : ReferenceName} :
    left < right ↔ left.sessionId < right.sessionId ∨
      left.sessionId = right.sessionId ∧ left.key < right.key :=
  Iff.rfl

theorem eq_iff {left right : ReferenceName} :
    left = right ↔ left.sessionId = right.sessionId ∧ left.key = right.key := by
  cases left
  cases right
  simp

end ReferenceName

instance : IsStrictTotalOrder ReferenceName (· < ·) where
  irrefl name := by simp [ReferenceName.lt_iff]
  trans first second third := by
    simp only [ReferenceName.lt_iff]
    rintro (before | ⟨same, before⟩) (after | ⟨sameAgain, after⟩)
    · exact Or.inl (lt_trans before after)
    · exact Or.inl (sameAgain ▸ before)
    · exact Or.inl (same ▸ after)
    · exact Or.inr ⟨same.trans sameAgain, lt_trans before after⟩
  trichotomous first second notBefore notAfter := by
    simp only [ReferenceName.lt_iff, not_or, not_and, not_lt] at notBefore notAfter
    have sameSession := le_antisymm notAfter.1 notBefore.1
    have sameKey := le_antisymm (notAfter.2 sameSession.symm) (notBefore.2 sameSession)
    exact ReferenceName.eq_iff.mpr ⟨sameSession, sameKey⟩

/-! Requests. -/

abbrev StoredReferences : Type :=
  ReferenceName → Option ReferenceValue

inductive ReferenceRequest where
  | put (reference : Reference)
  | remove (name : ReferenceName)
  | removeSession (sessionId : String)
  | removeKey (key : String)
  | removeAll
  | rewrite (change : ReferenceValue → ReferenceValue)

namespace ReferenceRequest

def effect (stored : StoredReferences) (request : ReferenceRequest) : StoredReferences := fun name =>
  match request with
  | .put reference =>
      if name = reference.name then some ((stored name).getD reference.value) else stored name
  | .remove gone => if name = gone then none else stored name
  | .removeSession sessionId => if name.sessionId = sessionId then none else stored name
  | .removeKey key => if name.key = key then none else stored name
  | .removeAll => none
  | .rewrite change => (stored name).map change

theorem effect_put_present {stored : StoredReferences} {reference : Reference}
    (present : (stored reference.name).isSome) : effect stored (.put reference) = stored := by
  obtain ⟨value, found⟩ := Option.isSome_iff_exists.mp present
  funext name
  rw [effect]
  split
  · rename_i same
    rw [same, found, Option.getD_some]
  · rfl

theorem effect_put_absent {stored : StoredReferences} {reference : Reference}
    (absent : stored reference.name = none) (name : ReferenceName) :
    effect stored (.put reference) name =
      if name = reference.name then some reference.value else stored name := by
  rw [effect]
  split
  · rename_i same
    rw [same, absent, Option.getD_none]
  · rfl

def effects (requests : List ReferenceRequest) : StoredReferences :=
  requests.foldl effect fun _ => none

end ReferenceRequest

namespace ReferenceMap

variable {references other : ReferenceMap} {stored : StoredReferences}

def perform (references : ReferenceMap) : ReferenceRequest → ReferenceMap
  | .put reference =>
      match references.put reference with
      | .ok grown => grown
      | .error _ => references
  | .remove name => references.remove name
  | .removeSession sessionId => references.removeSession sessionId
  | .removeKey key => references.removeKey key
  | .removeAll => empty
  | .rewrite change => ⟨Keyed.mapValues change references.entries⟩

def performAll (requests : List ReferenceRequest) : ReferenceMap :=
  requests.foldl perform empty

structure Stores (references : ReferenceMap) (stored : StoredReferences) : Prop where
  increasing : Keyed.Increasing references.entries
  find : ∀ name, Keyed.find? name references.entries = stored name

namespace Stores

theorem unique (left : references.Stores stored) (right : other.Stores stored) :
    references = other := by
  cases references
  cases other
  congr 1
  exact Keyed.eq_of_find? left.increasing right.increasing fun name =>
    (left.find name).trans (right.find name).symm

theorem empty : ReferenceMap.empty.Stores fun _ => none :=
  ⟨List.Pairwise.nil, fun _ => rfl⟩

theorem filter (stores : references.Stores stored) (keep : ReferenceName → Bool) :
    Stores ⟨references.entries.filter fun entry => keep entry.1⟩ fun name =>
      if keep name then stored name else none := by
  refine ⟨stores.increasing.sublist List.filter_sublist, fun name => ?_⟩
  rw [Keyed.find?_filter _ stores.increasing, stores.find]
  cases stored name <;> cases kept : keep name <;> simp [kept]

theorem perform (stores : references.Stores stored) (request : ReferenceRequest) :
    (references.perform request).Stores (request.effect stored) := by
  cases request with
  | put reference =>
      simp only [ReferenceMap.perform, put, Keyed.contains, stores.find]
      by_cases present : (stored reference.name).isSome
      · rw [if_pos present, ReferenceRequest.effect_put_present present]
        exact stores
      · rw [if_neg present]
        refine ⟨Keyed.increasing_insert _ _ stores.increasing, fun name => ?_⟩
        rw [ReferenceRequest.effect_put_absent (Option.not_isSome_iff_eq_none.mp present),
          ← stores.find]
        exact Keyed.find?_insert reference.name name _ _
  | remove gone =>
      refine ⟨Keyed.increasing_erase gone stores.increasing, fun name => ?_⟩
      rw [ReferenceRequest.effect, ← stores.find]
      exact Keyed.find?_erase gone name _
  | removeSession sessionId =>
      have kept := stores.filter fun name => name.sessionId != sessionId
      simp only [bne_iff_ne, ite_not] at kept
      exact kept
  | removeKey key =>
      have kept := stores.filter fun name => name.key != key
      simp only [bne_iff_ne, ite_not] at kept
      exact kept
  | removeAll => exact empty
  | rewrite change =>
      refine ⟨Keyed.increasing_mapValues _ stores.increasing, fun name => ?_⟩
      rw [ReferenceRequest.effect, ← stores.find]
      exact Keyed.find?_mapValues change name _

theorem performAll (requests : List ReferenceRequest) :
    (ReferenceMap.performAll requests).Stores (ReferenceRequest.effects requests) :=
  List.foldl_rel empty fun request _ _ _ stores => stores.perform request

end Stores

end ReferenceMap

end SharedDocument
