import DarijaScript.Machine.Basic
import Mathlib.Data.List.Induction
import Mathlib.Data.List.Nodup

/-!
# The fields of objects

Objects come about by literals and change by assignments to their fields, and by nothing else. What has
been assigned to an object so far, in order, tells all there is to know of it: its keys are the names
in the order in which each of them was first assigned, and the value of a field is the last one.
-/

namespace DarijaScript

/-- What has been assigned to the fields of an object, the first assignment first. -/
abbrev History := List (String × Value)

namespace History

/-- The names that were assigned, as often as they were. -/
def names (history : History) : List String := history.map Prod.fst

/-- The value is the last one that was assigned to the name. -/
def Last (history : History) (name : String) (value : Value) : Prop :=
  ∃ before after, history = before ++ (name, value) :: after ∧ ∀ entry ∈ after, entry.1 ≠ name

@[simp] theorem names_append (history further : History) :
    (history ++ further).names = history.names ++ further.names := List.map_append

@[simp] theorem names_singleton (name : String) (value : Value) :
    names [(name, value)] = [name] := rfl

theorem last_iff {history : History} {name : String} {value : Value} :
    history.Last name value ↔ history.reverse.lookup name = some value := by
  rw [List.lookup_eq_some_iff]
  constructor
  · rintro ⟨before, after, rfl, others⟩
    refine ⟨after.reverse, before.reverse, by simp, fun entry mem => ?_⟩
    exact bne_iff_ne.mpr (Ne.symm (others entry (List.mem_reverse.mp mem)))
  · rintro ⟨after, before, eq, others⟩
    refine ⟨before.reverse, after.reverse, ?_, fun entry mem => ?_⟩
    · simpa using congrArg List.reverse eq
    · exact Ne.symm (bne_iff_ne.mp (others entry (List.mem_reverse.mp mem)))

end History

/-- The keys are the names, each of them once, in the order in which they first occur. -/
structure FirstOccurrences (names keys : List String) : Prop where
  distinct : keys.Nodup
  mem_iff : ∀ name, name ∈ keys ↔ name ∈ names
  ordered : keys.Pairwise fun first second => names.idxOf first < names.idxOf second

namespace FirstOccurrences

variable {names keys : List String} {name : String}

theorem nil : FirstOccurrences [] [] := ⟨.nil, fun _ => .rfl, .nil⟩

/-- A further name does not change the order of those that have occurred. -/
theorem pairwise_append (h : FirstOccurrences names keys) (name : String) :
    keys.Pairwise fun first second =>
      (names ++ [name]).idxOf first < (names ++ [name]).idxOf second := by
  refine h.ordered.imp_of_mem fun {first second} left right before => ?_
  rwa [List.idxOf_append_of_mem ((h.mem_iff first).mp left),
    List.idxOf_append_of_mem ((h.mem_iff second).mp right)]

theorem again (h : FirstOccurrences names keys) (known : name ∈ keys) :
    FirstOccurrences (names ++ [name]) keys where
  distinct := h.distinct
  mem_iff := by
    intro other
    have old := (h.mem_iff name).mp known
    rw [h.mem_iff, List.mem_append, List.mem_singleton]
    exact ⟨.inl, fun either => either.elim id fun same => same ▸ old⟩
  ordered := h.pairwise_append name

theorem first (h : FirstOccurrences names keys) (new : name ∉ keys) :
    FirstOccurrences (names ++ [name]) (keys ++ [name]) where
  distinct := by
    refine List.nodup_append.mpr ⟨h.distinct, List.nodup_singleton name, fun key mem last eq => ?_⟩
    rintro rfl
    exact new (List.mem_singleton.mp eq ▸ mem)
  mem_iff := by
    intro other
    rw [List.mem_append, List.mem_append, h.mem_iff]
  ordered := by
    have absent : name ∉ names := mt (h.mem_iff name).mpr new
    refine List.pairwise_append.mpr
      ⟨h.pairwise_append name, List.pairwise_singleton _ _, fun key mem last eq => ?_⟩
    have old := (h.mem_iff key).mp mem
    rw [List.mem_singleton.mp eq, List.idxOf_append_of_mem old, List.idxOf_append_of_notMem absent]
    exact Nat.lt_of_lt_of_le (List.idxOf_lt_length_of_mem old) (Nat.le_add_right _ _)

end FirstOccurrences

namespace Fields

variable {fields : Fields} {history : History} {name : String} {value : Value}

theorem get?_set (fields : Fields) (name key : String) (value : Value) :
    (fields.set name value).get? key = if key = name then some value else fields.get? key := by
  induction fields with
  | nil =>
    by_cases same : key = name
    · simp [set, get?, same]
    · simp [set, get?, List.lookup_cons, beq_false_of_ne same, same]
  | cons field rest ih =>
    obtain ⟨first, old⟩ := field
    unfold get? at ih ⊢
    unfold set
    by_cases found : first = name
    · subst found
      by_cases same : key = first
      · simp [same]
      · simp [List.lookup_cons, beq_false_of_ne same, same]
    · rw [if_neg found]
      by_cases same : key = first
      · subst same
        simp [found]
      · simp only [List.lookup_cons, beq_false_of_ne same, ih]

theorem keys_set (fields : Fields) (name : String) (value : Value) :
    (fields.set name value).keys =
      if name ∈ fields.keys then fields.keys else fields.keys ++ [name] := by
  induction fields with
  | nil => rfl
  | cons field rest ih =>
    obtain ⟨first, old⟩ := field
    unfold keys at ih ⊢
    unfold set
    by_cases found : first = name
    · subst found
      simp
    · rw [if_neg found, List.map_cons, ih]
      by_cases known : name ∈ rest.map (·.1)
      · simp [known]
      · simp [known, Ne.symm found]

theorem get?_eq_none_iff : fields.get? name = none ↔ name ∉ fields.keys := by
  rw [get?, List.lookup_eq_none_iff, keys, List.mem_map]
  constructor
  · rintro others ⟨entry, mem, rfl⟩
    exact bne_iff_ne.mp (others entry mem) rfl
  · intro missing entry mem
    exact bne_iff_ne.mpr fun same => missing ⟨entry, mem, same.symm⟩

theorem get?_of_mem (distinct : fields.keys.Nodup) (mem : (name, value) ∈ fields) :
    fields.get? name = some value := by
  induction fields with
  | nil => cases mem
  | cons field rest ih =>
    obtain ⟨first, old⟩ := field
    obtain ⟨new, distinct⟩ := List.nodup_cons.mp distinct
    rw [get?, List.lookup_cons]
    rcases List.mem_cons.mp mem with same | later
    · cases same
      simp
    · have listed : name ∈ Fields.keys rest := List.mem_map.mpr ⟨_, later, rfl⟩
      have other : name ≠ first := fun same => new (same ▸ listed)
      rw [beq_false_of_ne other]
      exact ih distinct later

/-- The fields are what the assignments make of an object without any. -/
structure Records (fields : Fields) (history : History) : Prop where
  keys : FirstOccurrences history.names fields.keys
  get? : ∀ name, fields.get? name = history.reverse.lookup name

theorem Records.nil : Records [] [] := ⟨.nil, fun _ => rfl⟩

/-- One more assignment. -/
theorem Records.set (h : fields.Records history) (name : String) (value : Value) :
    (fields.set name value).Records (history ++ [(name, value)]) where
  keys := by
    rw [keys_set, History.names_append, History.names_singleton]
    split
    · next known => exact h.keys.again known
    · next new => exact h.keys.first new
  get? := by
    intro key
    rw [get?_set, h.get?, List.reverse_concat, List.lookup_cons]
    by_cases same : key = name
    · simp [same]
    · simp [same, beq_false_of_ne same]

theorem ofEntries_append (entries : List (String × Value)) (name : String) (value : Value) :
    ofEntries (entries ++ [(name, value)]) = (ofEntries entries).set name value := by
  rw [ofEntries, List.foldl_append]
  rfl

/-- A literal assigns its entries one after the other. -/
theorem records_ofEntries (entries : List (String × Value)) :
    (ofEntries entries).Records entries := by
  induction entries using List.reverseRecOn with
  | nil => exact .nil
  | append_singleton entries entry ih =>
    rw [ofEntries_append]
    exact ih.set entry.1 entry.2

end Fields

namespace Store

/-- What one step can make of the objects of a store. -/
inductive ObjectStep (store changed : Store) : Prop
  /-- None of them is new or has changed. -/
  | apart (same : changed.objects = store.objects)
  /-- A literal has made a new one. -/
  | literal (entries : List (String × Value))
      (added : changed.objects = store.objects.push (Fields.ofEntries entries))
  /-- A field of one has been assigned. -/
  | assigned (id : ObjectId) (name : String) (value : Value)
      (set : changed.objects = store.objects.modify id (·.set name value))

theorem objectStep_write (store : Store) (slot : Slot) (value : Value) :
    store.ObjectStep (store.write slot value) := by
  cases slot with
  | field id name => exact .assigned id name value rfl
  | element id index => exact .apart rfl

/-- How the objects of a store came about. The store in which programs start has none; a literal makes a
new one, and an assignment to a member goes on with the history of its object, under the text that the
key has at that time. Everything else that happens leaves objects alone. -/
inductive Traced : Store → Array History → Prop
  | initial : Traced Store.initial #[]
  | apart {store changed : Store} {histories : Array History} (traced : Traced store histories)
      (same : changed.objects = store.objects) : Traced changed histories
  | literal {machine after : Machine} {histories : Array History} {object : Value}
      {entries : List (String × Value)} (traced : Traced machine.store histories)
      (made : Run.allocateObject (Fields.ofEntries entries) machine = .ok object after) :
      Traced after.store (histories.push entries)
  | assigned {machine after : Machine} {histories : Array History} {id : ObjectId}
      {key value : Value} (traced : Traced machine.store histories)
      (assigned : Run.assignMember (.object id) key value machine = .ok () after) :
      Traced after.store (histories.modify id (· ++ [(machine.store.text key, value)]))

/-- An object is what its history has made of it: its keys are distinct and stand in the order of their
first assignments, and a key reads what was last assigned under its text, or fails if nothing was. -/
structure Records (store : Store) (id : ObjectId) (history : History) : Prop where
  keys : FirstOccurrences history.names (store.fields id).keys
  reads : ∀ key value, store.member (.object id) key = .ok value ↔
    history.Last (store.text key) value
  fails : ∀ key, store.member (.object id) key = .error (.undefinedMember (store.text key)) ↔
    store.text key ∉ history.names

variable {store changed : Store} {histories : Array History} {id : ObjectId} {history : History}

/-- Every object is what its history makes of no object. -/
theorem Traced.objects_eq (traced : store.Traced histories) :
    store.objects = histories.map Fields.ofEntries := by
  induction traced with
  | initial => exact Array.map_empty.symm
  | apart _ same ih => exact same.trans ih
  | literal _ made ih =>
    cases made
    rw [Array.map_push, ← ih]
    rfl
  | @assigned machine _ histories id key value _ assigned ih =>
    cases assigned
    change machine.store.objects.modify id (·.set (machine.store.text key) value) = _
    apply Array.ext_getElem?
    intro other
    rw [Array.getElem?_modify, Array.getElem?_map, Array.getElem?_modify, ih, Array.getElem?_map]
    split
    · cases histories[other]? with
      | none => rfl
      | some history => exact congrArg some (Fields.ofEntries_append history _ value).symm
    · rfl

theorem Traced.size_eq (traced : store.Traced histories) :
    histories.size = store.objects.size := by
  rw [traced.objects_eq, Array.size_map]

theorem Traced.fields_records (traced : store.Traced histories) (here : histories[id]? = some history) :
    (store.fields id).Records history := by
  have fields : store.fields id = Fields.ofEntries history := by
    rw [fields, traced.objects_eq, Array.getD_eq_getD_getElem?, Array.getElem?_map, here]
    rfl
  rw [fields]
  exact Fields.records_ofEntries history

theorem Traced.nodup_keys (traced : store.Traced histories) (id : ObjectId) :
    (store.fields id).keys.Nodup := by
  cases here : histories[id]? with
  | some history => exact (traced.fields_records here).keys.distinct
  | none =>
    have missing : store.fields id = [] := by
      rw [fields, traced.objects_eq, Array.getD_eq_getD_getElem?, Array.getElem?_map, here]
      rfl
    rw [missing]
    exact List.nodup_nil

@[simp] theorem text_string (store : Store) (name : String) : store.text (.string name) = name := by
  rw [text, textWithin]
  rfl

theorem member_object (store : Store) (id : ObjectId) (key : Value) :
    store.member (.object id) key =
      match (store.fields id).get? (store.text key) with
      | some value => .ok value
      | none => .error (.undefinedMember (store.text key)) := rfl

theorem Traced.records (traced : store.Traced histories) (here : histories[id]? = some history) :
    store.Records id history := by
  have records := traced.fields_records here
  refine ⟨records.keys, fun key value => ?_, fun key => ?_⟩
  · rw [History.last_iff, ← records.get?, member_object]
    cases (store.fields id).get? (store.text key) <;> simp
  · rw [← records.keys.mem_iff, ← Fields.get?_eq_none_iff, member_object]
    cases (store.fields id).get? (store.text key) <;> simp

/-- The store can have become the other one: whatever the histories of its objects are, those of the
other one's objects go on with them. -/
def GoesOn (store changed : Store) : Prop :=
  ∀ histories, store.Traced histories → ∃ later : Array History, changed.Traced later ∧
    ∀ (id : ObjectId) history, histories[id]? = some history →
      ∃ further, later[id]? = some (history ++ further)

theorem GoesOn.refl (store : Store) : store.GoesOn store := fun histories traced =>
  ⟨histories, traced, fun _ history here => ⟨[], (List.append_nil history).symm ▸ here⟩⟩

theorem GoesOn.trans {first second third : Store} (h : first.GoesOn second)
    (h' : second.GoesOn third) : first.GoesOn third := by
  intro histories traced
  obtain ⟨middle, traced, goesOn⟩ := h histories traced
  obtain ⟨later, traced, goesOn'⟩ := h' middle traced
  refine ⟨later, traced, fun id history here => ?_⟩
  obtain ⟨further, here⟩ := goesOn id history here
  obtain ⟨last, here⟩ := goesOn' id _ here
  exact ⟨further ++ last, List.append_assoc .. ▸ here⟩

theorem exists_machine (store : Store) : ∃ machine : Machine, machine.store = store :=
  ⟨{ Machine.initial (.scripted [] [] [] []) with store := store }, rfl⟩

theorem ObjectStep.goesOn (step : store.ObjectStep changed) : store.GoesOn changed := by
  intro histories traced
  obtain ⟨machine, rfl⟩ := exists_machine store
  cases step with
  | apart same =>
    obtain ⟨later, traced, goesOn⟩ := GoesOn.refl machine.store histories traced
    exact ⟨later, traced.apart same, goesOn⟩
  | literal entries added =>
    have made : Run.allocateObject (Fields.ofEntries entries) machine = .ok _ _ := rfl
    refine ⟨_, (traced.literal made).apart added, fun id history here => ⟨[], ?_⟩⟩
    have old : id ≠ histories.size := Nat.ne_of_lt (Array.getElem?_eq_some_iff.mp here).1
    rw [Array.getElem?_push, if_neg old, here, List.append_nil]
  | assigned owner name value set =>
    have assigned : Run.assignMember (.object owner) (.string name) value machine =
        .ok () { machine with store := machine.store.write (.field owner name) value } := rfl
    refine ⟨_, (traced.assigned assigned).apart set, fun id history here => ?_⟩
    rw [Array.getElem?_modify, here]
    split
    · exact ⟨_, rfl⟩
    · exact ⟨[], congrArg some (List.append_nil history).symm⟩

theorem goesOn_of_objects_eq (same : changed.objects = store.objects) : store.GoesOn changed :=
  (ObjectStep.apart same).goesOn

end Store

end DarijaScript
