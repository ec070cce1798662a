import SharedDocument.Proofs.Reference.Map
import SharedDocument.Reference.Table

/-! The table of references as a finite map. Every session in a table has references, each under its
own session and key. So the table answers as the map from names to values does, whatever has been
asked of it before, and the references that it lists are those of the flat map, in the same order. -/

namespace SharedDocument

namespace ReferenceTable

variable {table : ReferenceTable} {stored : StoredReferences} {sessionId : String}
  {session : List (String × Reference)}

/-! One session. -/

structure Holds (sessionId : String) (session : List (String × Reference)) : Prop where
  increasing : Keyed.Increasing session
  named : ∀ entry ∈ session, entry.2.name = ⟨sessionId, entry.1⟩

namespace Holds

theorem nil (sessionId : String) : Holds sessionId [] :=
  ⟨List.Pairwise.nil, fun _ listed => absurd listed List.not_mem_nil⟩

theorem insert (holds : Holds sessionId session) {reference : Reference}
    (own : reference.name.sessionId = sessionId) :
    Holds sessionId (Keyed.insert reference.name.key reference session) := by
  refine ⟨Keyed.increasing_insert _ _ holds.increasing, fun entry listed => ?_⟩
  rcases Keyed.mem_insert listed with rfl | old
  · rw [← own]
  · exact holds.named entry old

theorem erase (holds : Holds sessionId session) (key : String) :
    Holds sessionId (Keyed.erase key session) :=
  ⟨Keyed.increasing_erase key holds.increasing,
    fun entry listed => holds.named entry ((Keyed.erase_sublist key session).subset listed)⟩

theorem rewrite (holds : Holds sessionId session) (change : ReferenceValue → ReferenceValue) :
    Holds sessionId
      (Keyed.mapValues (fun reference => { reference with value := change reference.value }) session) := by
  refine ⟨Keyed.increasing_mapValues _ holds.increasing, fun entry listed => ?_⟩
  obtain ⟨old, oldListed, rfl⟩ := List.mem_map.mp listed
  exact holds.named old oldListed

end Holds

/-! The table. -/

structure IsSound (table : ReferenceTable) : Prop where
  increasing : Keyed.Increasing table.sessions
  holds : ∀ entry ∈ table.sessions, Holds entry.1 entry.2
  filled : ∀ entry ∈ table.sessions, entry.2 ≠ []

namespace IsSound

theorem holds_ofSession (sound : table.IsSound) (sessionId : String) :
    Holds sessionId (table.ofSession sessionId) := by
  rw [ofSession]
  cases found : Keyed.find? sessionId table.sessions with
  | none => exact .nil sessionId
  | some session => exact sound.holds _ (Keyed.mem_of_find? found)

theorem enter (sound : table.IsSound) (holds : Holds sessionId session) (filled : session ≠ []) :
    IsSound ⟨Keyed.insert sessionId session table.sessions⟩ := by
  refine ⟨Keyed.increasing_insert _ _ sound.increasing, fun entry listed => ?_,
    fun entry listed => ?_⟩
  all_goals rcases Keyed.mem_insert listed with rfl | old
  · exact holds
  · exact sound.holds entry old
  · exact filled
  · exact sound.filled entry old

theorem sublist (sound : table.IsSound) {sessions : List (String × List (String × Reference))}
    (fewer : sessions.Sublist table.sessions) : IsSound ⟨sessions⟩ :=
  ⟨sound.increasing.sublist fewer, fun entry listed => sound.holds entry (fewer.subset listed),
    fun entry listed => sound.filled entry (fewer.subset listed)⟩

theorem removeSession (sound : table.IsSound) (sessionId : String) :
    (table.removeSession sessionId).IsSound :=
  sound.sublist (Keyed.erase_sublist sessionId table.sessions)

theorem removeKey (sound : table.IsSound) (key : String) : (table.removeKey key).IsSound := by
  refine ⟨(Keyed.increasing_mapValues _ sound.increasing).sublist List.filter_sublist,
    fun entry listed => ?_, fun entry listed => ?_⟩
  all_goals obtain ⟨left, filled⟩ := List.mem_filter.mp listed
  · obtain ⟨old, oldListed, rfl⟩ := List.mem_map.mp left
    exact (sound.holds old oldListed).erase key
  · simpa using filled

theorem rewrite (sound : table.IsSound) (change : ReferenceValue → ReferenceValue) :
    (table.rewrite change).IsSound := by
  refine ⟨Keyed.increasing_mapValues _ sound.increasing, fun entry listed => ?_,
    fun entry listed => ?_⟩
  all_goals obtain ⟨old, oldListed, rfl⟩ := List.mem_map.mp listed
  · exact (sound.holds old oldListed).rewrite change
  · simpa [Keyed.mapValues] using sound.filled old oldListed

end IsSound

/-! Looking up. -/

theorem get?_eq (table : ReferenceTable) (name : ReferenceName) :
    table.get? name = Keyed.find? name.key (table.ofSession name.sessionId) := by
  rw [get?, ofSession]
  cases Keyed.find? name.sessionId table.sessions <;> rfl

theorem get?_enter (table : ReferenceTable) (sessionId : String)
    (session : List (String × Reference)) (name : ReferenceName) :
    get? ⟨Keyed.insert sessionId session table.sessions⟩ name =
      if name.sessionId = sessionId then Keyed.find? name.key session else table.get? name := by
  simp only [get?, Keyed.find?_insert]
  split <;> rfl

theorem get?_removeSession (table : ReferenceTable) (sessionId : String) (name : ReferenceName) :
    (table.removeSession sessionId).get? name =
      if name.sessionId = sessionId then none else table.get? name := by
  simp only [get?, removeSession, Keyed.find?_erase]
  split <;> rfl

theorem get?_removeKey (sound : table.IsSound) (key : String) (name : ReferenceName) :
    (table.removeKey key).get? name = if name.key = key then none else table.get? name := by
  have pruned (session : Option (List (String × Reference))) :
      ((session.map (Keyed.erase key)).filter fun left => !left.isEmpty).bind
          (Keyed.find? name.key) =
        session.bind fun session => Keyed.find? name.key (Keyed.erase key session) := by
    cases session with
    | none => rfl
    | some session =>
        rw [Option.map_some, Option.filter_some, Option.bind_some]
        cases Keyed.erase key session <;> rfl
  rw [get?, removeKey, Keyed.find?_filter _ (Keyed.increasing_mapValues _ sound.increasing),
    Keyed.find?_mapValues, pruned, get?]
  simp only [Keyed.find?_erase]
  split
  · exact Option.bind_fun_none _
  · rfl

theorem get?_rewrite (table : ReferenceTable) (change : ReferenceValue → ReferenceValue)
    (name : ReferenceName) :
    (table.rewrite change).get? name =
      (table.get? name).map fun reference => { reference with value := change reference.value } := by
  rw [get?, rewrite, Keyed.find?_mapValues, get?]
  cases Keyed.find? name.sessionId table.sessions with
  | none => rfl
  | some session => exact Keyed.find?_mapValues _ _ _

/-! Putting and removing one reference. -/

/-- A session is entered that differs from the old one at a single key. -/
theorem get?_enter_of_find? {changed : ReferenceName} {found : Option Reference}
    (each : ∀ key, Keyed.find? key session = if key = changed.key then found
      else Keyed.find? key (table.ofSession changed.sessionId))
    (name : ReferenceName) :
    (if name.sessionId = changed.sessionId then Keyed.find? name.key session
      else table.get? name) = if name = changed then found else table.get? name := by
  by_cases own : name.sessionId = changed.sessionId
  · rw [if_pos own, each, get?_eq, own]
    by_cases same : name.key = changed.key
    · rw [if_pos same, if_pos (ReferenceName.eq_iff.mpr ⟨own, same⟩)]
    · rw [if_neg same, if_neg fun equal => same (ReferenceName.eq_iff.mp equal).2]
  · rw [if_neg own, if_neg fun equal => own (ReferenceName.eq_iff.mp equal).1]

/-- A name that is present is refused, and the table stays as it is. Otherwise the session of the
reference is entered with one reference more. -/
theorem put_eq (sound : table.IsSound) (reference : Reference) :
    table.put reference =
      if (table.get? reference.name).isSome then
        (.error (.referenceExists reference.name.sessionId reference.name.key), table)
      else
        (.ok (), ⟨Keyed.insert reference.name.sessionId
          (Keyed.insert reference.name.key reference (table.ofSession reference.name.sessionId))
          table.sessions⟩) := by
  simp only [put, Keyed.contains, ← get?_eq]
  split
  · rename_i present
    cases found : Keyed.find? reference.name.sessionId table.sessions with
    | none => simp [get?, found] at present
    | some session =>
        rw [ofSession, found, Option.getD_some, Keyed.insert_eq_self sound.increasing found]
  · rw [Keyed.insert_insert sound.increasing]

theorem IsSound.put (sound : table.IsSound) (reference : Reference) :
    (table.put reference).2.IsSound := by
  rw [put_eq sound]
  split
  · exact sound
  · refine sound.enter ((sound.holds_ofSession _).insert rfl) fun emptied => ?_
    have listed := Keyed.find?_insert reference.name.key reference.name.key reference
      (table.ofSession reference.name.sessionId)
    rw [emptied, if_pos rfl] at listed
    cases listed

theorem get?_put (sound : table.IsSound) {reference : Reference}
    (absent : table.get? reference.name = none) (name : ReferenceName) :
    (table.put reference).2.get? name =
      if name = reference.name then some reference else table.get? name := by
  rw [put_eq sound, absent, if_neg (by simp), get?_enter]
  exact get?_enter_of_find? (fun key => Keyed.find?_insert reference.name.key key reference _) name

theorem remove_eq_get? (table : ReferenceTable) (name : ReferenceName) :
    (table.remove name).1 = table.get? name := by
  rw [remove, get?]
  cases Keyed.find? name.sessionId table.sessions <;> rfl

theorem remove_of_find?_eq_none {gone : ReferenceName}
    (absent : Keyed.find? gone.sessionId table.sessions = none) : (table.remove gone).2 = table := by
  rw [remove, absent]

/-- A session that has nothing left is gone, and any other is entered without the reference. -/
theorem remove_sessions (sound : table.IsSound) {gone : ReferenceName}
    (found : Keyed.find? gone.sessionId table.sessions = some session) :
    (table.remove gone).2 =
      if Keyed.erase gone.key session = [] then table.removeSession gone.sessionId
      else ⟨Keyed.insert gone.sessionId (Keyed.erase gone.key session) table.sessions⟩ := by
  rw [remove, found]
  simp only [List.isEmpty_iff, Keyed.erase_insert sound.increasing]
  split <;> rfl

theorem IsSound.remove (sound : table.IsSound) (gone : ReferenceName) :
    (table.remove gone).2.IsSound := by
  cases found : Keyed.find? gone.sessionId table.sessions with
  | none => exact (remove_of_find?_eq_none found).symm ▸ sound
  | some session =>
      rw [remove_sessions sound found]
      split
      · exact sound.removeSession gone.sessionId
      · rename_i filled
        exact sound.enter ((sound.holds _ (Keyed.mem_of_find? found)).erase gone.key) filled

theorem get?_remove (sound : table.IsSound) (gone name : ReferenceName) :
    (table.remove gone).2.get? name = if name = gone then none else table.get? name := by
  cases found : Keyed.find? gone.sessionId table.sessions with
  | none =>
      rw [remove_of_find?_eq_none found]
      split
      · rename_i same
        rw [same, get?, found, Option.bind_none]
      · rfl
  | some session =>
      have each (key : String) : Keyed.find? key (Keyed.erase gone.key session) =
          if key = gone.key then none else Keyed.find? key (table.ofSession gone.sessionId) := by
        rw [ofSession, found]
        exact Keyed.find?_erase gone.key key session
      rw [← get?_enter_of_find? each, remove_sessions sound found]
      split
      · rename_i emptied
        rw [get?_removeSession, emptied]
        rfl
      · exact get?_enter table gone.sessionId _ name

/-! Listing. -/

def references (table : ReferenceTable) : List Reference :=
  table.sessions.flatMap fun entry => entry.2.map Prod.snd

theorem flatMap_filter_sessions {sessions : List (String × List (String × Reference))}
    (holds : ∀ entry ∈ sessions, Holds entry.1 entry.2) (keep : String → Bool) :
    ((sessions.filter fun entry => keep entry.1).flatMap fun entry => entry.2.map Prod.snd) =
      (sessions.flatMap fun entry => entry.2.map Prod.snd).filter fun reference =>
        keep reference.name.sessionId := by
  induction sessions with
  | nil => rfl
  | cons first rest ih =>
      obtain ⟨firstHolds, restHolds⟩ := List.forall_mem_cons.mp holds
      have together : ∀ reference ∈ first.2.map Prod.snd,
          keep reference.name.sessionId = keep first.1 := by
        intro reference listed
        obtain ⟨entry, entryListed, rfl⟩ := List.mem_map.mp listed
        rw [firstHolds.named entry entryListed]
      rw [List.flatMap_cons, List.filter_append, ← ih restHolds, List.filter_congr together,
        List.filter_cons]
      cases keep first.1 <;> simp

namespace IsSound

theorem getAll_eq (sound : table.IsSound) (filter : ReferenceFilter) :
    table.getAll filter = table.references.filter fun reference => filter.accepts reference.name := by
  have chosen := flatMap_filter_sessions sound.holds fun own =>
    filter.sessionId.all fun sessionId => sessionId == own
  rw [getAll, chosen, List.filter_filter, references]
  simp only [ReferenceFilter.accepts, Bool.and_comm]

theorem references_eq_nil_iff (sound : table.IsSound) :
    table.references = [] ↔ table.isEmpty = true := by
  rw [references, List.flatMap_eq_nil_iff, isEmpty, List.isEmpty_iff,
    List.eq_nil_iff_forall_not_mem]
  refine forall₂_congr fun entry listed => iff_of_false ?_ not_false
  rw [List.map_eq_nil_iff]
  exact sound.filled entry listed

theorem mem_references_iff (sound : table.IsSound) {reference : Reference} :
    reference ∈ table.references ↔ table.get? reference.name = some reference := by
  simp only [references, List.mem_flatMap, List.mem_map, get?, Option.bind_eq_some_iff]
  constructor
  · rintro ⟨entry, listed, inner, held, rfl⟩
    refine ⟨entry.2, ?_, ?_⟩
    all_goals rw [(sound.holds entry listed).named inner held]
    · exact (Keyed.mem_iff_find? sound.increasing).mp listed
    · exact (Keyed.mem_iff_find? (sound.holds entry listed).increasing).mp held
  · rintro ⟨session, found, inner⟩
    exact ⟨_, Keyed.mem_of_find? found, _, Keyed.mem_of_find? inner, rfl⟩

theorem pairwise_references (sound : table.IsSound) :
    table.references.Pairwise fun left right => left.name < right.name := by
  refine List.pairwise_flatMap.mpr ⟨fun entry listed => ?_, ?_⟩
  · have holds := sound.holds entry listed
    refine List.pairwise_map.mpr (holds.increasing.imp_of_mem fun left right before => ?_)
    rw [holds.named _ left, holds.named _ right]
    exact Or.inr ⟨rfl, before⟩
  · refine sound.increasing.imp_of_mem fun left right before => ?_
    intro first firstListed second secondListed
    obtain ⟨own, ownListed, rfl⟩ := List.mem_map.mp firstListed
    obtain ⟨other, otherListed, rfl⟩ := List.mem_map.mp secondListed
    rw [(sound.holds _ left).named own ownListed, (sound.holds _ right).named other otherListed]
    exact Or.inl before

end IsSound

def flat (table : ReferenceTable) : ReferenceMap :=
  ⟨table.references.map fun reference => (reference.name, reference.value)⟩

/-! Runs. -/

def perform (table : ReferenceTable) : ReferenceRequest → ReferenceTable
  | .put reference => (table.put reference).2
  | .remove name => (table.remove name).2
  | .removeSession sessionId => table.removeSession sessionId
  | .removeKey key => table.removeKey key
  | .removeAll => empty
  | .rewrite change => table.rewrite change

def performAll (requests : List ReferenceRequest) : ReferenceTable :=
  requests.foldl perform empty

structure Stores (table : ReferenceTable) (stored : StoredReferences) : Prop where
  sound : table.IsSound
  find : ∀ name, table.get? name = (stored name).map (Reference.mk name)

namespace Stores

theorem empty : ReferenceTable.empty.Stores fun _ => none :=
  ⟨⟨List.Pairwise.nil, fun _ listed => absurd listed List.not_mem_nil,
    fun _ listed => absurd listed List.not_mem_nil⟩, fun _ => rfl⟩

theorem isSome_get? (stores : table.Stores stored) (name : ReferenceName) :
    (table.get? name).isSome = (stored name).isSome := by
  rw [stores.find, Option.isSome_map]

theorem perform (stores : table.Stores stored) (request : ReferenceRequest) :
    (table.perform request).Stores (request.effect stored) := by
  cases request with
  | put reference =>
      refine ⟨stores.sound.put reference, fun name => ?_⟩
      by_cases present : (stored reference.name).isSome
      · rw [ReferenceRequest.effect_put_present present, ReferenceTable.perform,
          put_eq stores.sound, stores.isSome_get?, if_pos present, stores.find]
      · have absent := Option.not_isSome_iff_eq_none.mp present
        rw [ReferenceRequest.effect_put_absent absent, ReferenceTable.perform,
          get?_put stores.sound (by rw [stores.find, absent, Option.map_none]), stores.find]
        split
        · rename_i same
          rw [same, Option.map_some]
        · rfl
  | remove gone =>
      refine ⟨stores.sound.remove gone, fun name => ?_⟩
      rw [ReferenceTable.perform, get?_remove stores.sound, stores.find, ReferenceRequest.effect]
      split <;> rfl
  | removeSession sessionId =>
      refine ⟨stores.sound.removeSession sessionId, fun name => ?_⟩
      rw [ReferenceTable.perform, get?_removeSession, stores.find, ReferenceRequest.effect]
      split <;> rfl
  | removeKey key =>
      refine ⟨stores.sound.removeKey key, fun name => ?_⟩
      rw [ReferenceTable.perform, get?_removeKey stores.sound, stores.find, ReferenceRequest.effect]
      split <;> rfl
  | removeAll => exact empty
  | rewrite change =>
      refine ⟨stores.sound.rewrite change, fun name => ?_⟩
      rw [ReferenceTable.perform, get?_rewrite, stores.find, ReferenceRequest.effect,
        Option.map_map, Option.map_map]
      rfl

theorem performAll (requests : List ReferenceRequest) :
    (ReferenceTable.performAll requests).Stores (ReferenceRequest.effects requests) :=
  List.foldl_rel empty fun request _ _ _ stores => stores.perform request

theorem mem_references_iff (stores : table.Stores stored) {reference : Reference} :
    reference ∈ table.references ↔ stored reference.name = some reference.value := by
  rw [stores.sound.mem_references_iff, stores.find, Option.map_eq_some_iff]
  constructor
  · rintro ⟨value, found, same⟩
    rw [found, ← same]
  · exact fun found => ⟨reference.value, found, rfl⟩

theorem flat (stores : table.Stores stored) : table.flat.Stores stored := by
  have increasing : Keyed.Increasing table.flat.entries :=
    List.pairwise_map.mpr stores.sound.pairwise_references
  refine ⟨increasing, fun name => Option.ext fun value => ?_⟩
  rw [← Keyed.mem_iff_find? increasing, ReferenceTable.flat, List.mem_map]
  constructor
  · rintro ⟨reference, listed, same⟩
    cases same
    exact stores.mem_references_iff.mp listed
  · exact fun found => ⟨⟨name, value⟩, stores.mem_references_iff.mpr found, rfl⟩

end Stores

/-- The table answers as the map of these values: what is looked up, what is put and what is removed. A
filter lists exactly the references that it accepts, in the order of their names and so each once. -/
structure Answers (table : ReferenceTable) (stored : StoredReferences) : Prop where
  found : ∀ name, table.get? name = (stored name).map (Reference.mk name)
  removed : ∀ name, (table.remove name).1 = (stored name).map (Reference.mk name)
  granted : ∀ reference, stored reference.name = none → (table.put reference).1 = .ok ()
  refused : ∀ reference, stored reference.name ≠ none → table.put reference =
    (.error (.referenceExists reference.name.sessionId reference.name.key), table)
  listed : ∀ filter reference, reference ∈ table.getAll filter ↔
    stored reference.name = some reference.value ∧ filter.accepts reference.name = true
  inOrder : ∀ filter, (table.getAll filter).Pairwise fun left right => left.name < right.name
  isEmpty : table.isEmpty = true ↔ table.getAll ⟨none, none⟩ = []

theorem Stores.answers (stores : table.Stores stored) : table.Answers stored := by
  have sound := stores.sound
  refine ⟨stores.find, fun name => (remove_eq_get? table name).trans (stores.find name),
    fun reference absent => ?_, fun reference present => ?_, fun filter reference => ?_,
    fun filter => ?_, ?_⟩
  · rw [put_eq sound, stores.isSome_get?, absent, Option.isSome_none, if_neg Bool.false_ne_true]
  · rw [put_eq sound, stores.isSome_get?, if_pos (Option.isSome_iff_ne_none.mpr present)]
  · rw [sound.getAll_eq, List.mem_filter, stores.mem_references_iff]
  · rw [sound.getAll_eq]
    exact sound.pairwise_references.sublist List.filter_sublist
  · have all : table.getAll ⟨none, none⟩ = table.references :=
      (sound.getAll_eq _).trans (List.filter_eq_self.mpr fun _ _ => rfl)
    rw [all, sound.references_eq_nil_iff]

/-- Whatever is put, removed and rewritten from the start, the table answers as the finite map does of
which the same is asked, and without its sessions it is the flat map of references. -/
theorem answers_performAll (requests : List ReferenceRequest) :
    (performAll requests).Answers (ReferenceRequest.effects requests) ∧
      (performAll requests).flat = ReferenceMap.performAll requests :=
  ⟨(Stores.performAll requests).answers,
    (Stores.performAll requests).flat.unique (.performAll requests)⟩

example : (performAll [.put ⟨⟨"left", "cursor"⟩, .index .zero⟩, .removeKey "cursor"]).isEmpty = true :=
  rfl

end ReferenceTable

end SharedDocument
