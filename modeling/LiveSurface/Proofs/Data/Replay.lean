import LiveSurface.Proofs.Data.Placement

/-!
# Writing the same again

A row of writes that is made once more changes nothing, whatever the writes do to one another: they
may make, replace or destroy the objects that others write into (`Fields.writeAll_writeAll`). Fields
of different names do not meet, and under one name either some write replaces the whole value, so
that what was there before does not matter, or all writes go one step deeper.
-/
namespace LiveSurface

namespace Entries

variable {α : Type}

/-- A change of the value under a key. -/
abbrev Change (α : Type) := String × (Option α → α)

/-- Makes a change. -/
def change (entries : Entries α) (c : Change α) : Entries α :=
  set entries c.1 (c.2 (get? entries c.1))

/-- Makes changes one after another. -/
def changeAll (entries : Entries α) (changes : List (Change α)) : Entries α :=
  changes.foldl change entries

/-- What changes make of the value under a key. -/
def changed (key : String) (changes : List (Change α)) (value : Option α) : Option α :=
  changes.foldl (fun v c => if c.1 = key then some (c.2 v) else v) value

theorem changed_cons (key : String) (c : Change α) (changes : List (Change α))
    (value : Option α) :
    changed key (c :: changes) value =
      changed key changes (if c.1 = key then some (c.2 value) else value) := rfl

theorem get?_changeAll (entries : Entries α) (changes : List (Change α)) (key : String) :
    get? (changeAll entries changes) key = changed key changes (get? entries key) := by
  induction changes generalizing entries with
  | nil => rfl
  | cons c changes ih =>
    rw [changed_cons]
    refine (ih (change entries c)).trans (congrArg (changed key changes) ?_)
    rw [change, get?_set]
    by_cases same : c.1 = key <;> simp [same]

theorem changed_some_isSome (key : String) (changes : List (Change α)) (value : α) :
    (changed key changes (some value)).isSome := by
  induction changes generalizing value with
  | nil => rfl
  | cons c changes ih =>
    rw [changed_cons]
    split
    · exact ih _
    · exact ih value

theorem changed_isSome {c : Change α} {changes : List (Change α)} (member : c ∈ changes)
    (value : Option α) : (changed c.1 changes value).isSome := by
  induction changes generalizing value with
  | nil => cases member
  | cons first changes ih =>
    rw [changed_cons]
    rcases List.mem_cons.mp member with rfl | later
    · rw [if_pos rfl]
      exact changed_some_isSome ..
    · exact ih later _

theorem changed_of_forall_ne {key : String} {changes : List (Change α)}
    (apart : ∀ c ∈ changes, c.1 ≠ key) (value : Option α) : changed key changes value = value := by
  induction changes with
  | nil => rfl
  | cons c changes ih =>
    rw [changed_cons, if_neg (apart c (by simp))]
    exact ih fun d member => apart d (by simp [member])

/-- The changes under other keys. -/
def others (key : String) (changes : List (Change α)) : List (Change α) :=
  changes.filter fun c => c.1 ≠ key

theorem mem_others {key : String} {changes : List (Change α)} {c : Change α} :
    c ∈ others key changes ↔ c ∈ changes ∧ c.1 ≠ key := by
  simp [others]

theorem others_cons_of_eq {key : String} {c : Change α} (same : c.1 = key)
    (changes : List (Change α)) : others key (c :: changes) = others key changes := by
  simp [others, same]

theorem others_cons_of_ne {key : String} {c : Change α} (apart : c.1 ≠ key)
    (changes : List (Change α)) : others key (c :: changes) = c :: others key changes := by
  simp [others, apart]

theorem changed_others {key other : String} (apart : key ≠ other) (changes : List (Change α))
    (value : Option α) : changed key (others other changes) value = changed key changes value := by
  induction changes generalizing value with
  | nil => rfl
  | cons c changes ih =>
    by_cases same : c.1 = other
    · have missed : ¬ c.1 = key := fun equal => apart (equal.symm.trans same)
      rw [others_cons_of_eq same, changed_cons, if_neg missed, ih]
    · rw [others_cons_of_ne same, changed_cons, changed_cons, ih]

/-- The first entry takes the changes under its key, and the rest takes the others. -/
theorem changeAll_cons {key : String} {v w : α} {changes : List (Change α)}
    (here : changed key changes (some v) = some w) (rest : Entries α) :
    changeAll ((key, v) :: rest) changes = (key, w) :: changeAll rest (others key changes) := by
  induction changes generalizing v rest with
  | nil =>
    cases here
    rfl
  | cons c changes ih =>
    rw [changed_cons] at here
    by_cases same : c.1 = key
    · rw [if_pos same] at here
      have first : change ((key, v) :: rest) c = (key, c.2 (some v)) :: rest := by
        simp [change, set, get?, same]
      rw [others_cons_of_eq same]
      exact (congrArg (changeAll · changes) first).trans (ih here rest)
    · rw [if_neg same] at here
      have first : change ((key, v) :: rest) c = (key, v) :: change rest c := by
        simp [change, set, get?, Ne.symm same]
      rw [others_cons_of_ne same]
      exact (congrArg (changeAll · changes) first).trans (ih here (change rest c))

/-- Changes that keep every value, and are about keys that are there, keep the entries. -/
theorem changeAll_eq_self {entries : Entries α} {changes : List (Change α)}
    (present : ∀ c ∈ changes, (get? entries c.1).isSome)
    (fixed : ∀ key v, get? entries key = some v → changed key changes (some v) = some v) :
    changeAll entries changes = entries := by
  induction entries generalizing changes with
  | nil =>
    cases changes with
    | nil => rfl
    | cons c changes => exact absurd (present c (by simp)) (by simp [get?])
  | cons entry rest ih =>
    obtain ⟨key, v⟩ := entry
    have skip : ∀ {other : String}, other ≠ key → get? ((key, v) :: rest) other = get? rest other :=
      fun apart => if_neg (Ne.symm apart)
    rw [changeAll_cons (fixed key v (if_pos rfl))]
    congr 1
    refine ih ?_ ?_
    · intro c member
      obtain ⟨inside, apart⟩ := mem_others.mp member
      rw [← skip apart]
      exact present c inside
    · intro other w found
      by_cases apart : other = key
      · exact changed_of_forall_ne (fun c member => apart ▸ (mem_others.mp member).2) _
      · rw [changed_others apart]
        exact fixed other w ((skip apart).trans found)

/-- Changes made again change nothing if under no key they do. -/
theorem changeAll_changeAll {changes : List (Change α)}
    (again : ∀ key value, changed key changes (changed key changes value) =
      changed key changes value) (entries : Entries α) :
    changeAll (changeAll entries changes) changes = changeAll entries changes := by
  refine changeAll_eq_self ?_ ?_
  · intro c member
    rw [get?_changeAll]
    exact changed_isSome member _
  · intro key v found
    rw [get?_changeAll] at found
    rw [← found]
    exact again key _

end Entries

namespace Value

/-- Puts values at places one after another. -/
def putAll (v : Value) (puts : List (List String × Value)) : Value :=
  puts.foldl (fun v p => v.put p.1 p.2) v

/-- A value put below the root of an object as a change of one of its fields. -/
def changeOf? : List String × Value → Option (Entries.Change Value)
  | ([], _) => none
  | (segment :: rest, new) => some (segment, fun old => (old.getD .null).put rest new)

/-- The part of a put that happens below a field. -/
def below? (key : String) : List String × Value → Option (List String × Value)
  | ([], _) => none
  | (segment :: rest, new) => if segment = key then some (rest, new) else none

/-- Where no put replaces the whole, puts are changes of fields. -/
theorem putAll_obj {puts : List (List String × Value)} (deep : ∀ p ∈ puts, p.1 ≠ [])
    (fields : Fields) :
    putAll (.obj fields) puts = .obj (Entries.changeAll fields (puts.filterMap changeOf?)) := by
  induction puts generalizing fields with
  | nil => rfl
  | cons p puts ih =>
    obtain ⟨way, new⟩ := p
    cases way with
    | nil => exact absurd rfl (deep ([], new) (by simp))
    | cons segment rest => exact ih (fun q member => deep q (by simp [member])) _

/-- Puts below the root see a value as an object, with no fields where it is none. -/
theorem putAll_obj_fieldsOrNone {puts : List (List String × Value)} (any : puts ≠ [])
    (deep : ∀ p ∈ puts, p.1 ≠ []) (v : Value) :
    v.putAll puts = (Value.obj v.fieldsOrNone).putAll puts := by
  cases puts with
  | nil => exact absurd rfl any
  | cons p puts =>
    obtain ⟨way, new⟩ := p
    cases way with
    | nil => exact absurd rfl (deep ([], new) (by simp))
    | cons segment rest => rfl

/-- A put at the root makes everything before it forgotten. -/
theorem putAll_of_root {puts : List (List String × Value)} (root : ∃ p ∈ puts, p.1 = [])
    (v w : Value) : putAll v puts = putAll w puts := by
  obtain ⟨⟨way, new⟩, member, rfl⟩ := root
  obtain ⟨before, after, rfl⟩ := List.append_of_mem member
  simp [putAll, put]

/-- What puts change under a key, they put below it. -/
theorem changed_changeOf? (key : String) (puts : List (List String × Value))
    (value : Option Value) :
    Entries.changed key (puts.filterMap changeOf?) value =
      if puts.filterMap (below? key) = [] then value
      else some (putAll (value.getD .null) (puts.filterMap (below? key))) := by
  induction puts generalizing value with
  | nil => rfl
  | cons p puts ih =>
    obtain ⟨way, new⟩ := p
    cases way with
    | nil => exact ih value
    | cons segment rest =>
      have step : ((segment :: rest, new) :: puts).filterMap changeOf? =
          (segment, fun old => (old.getD .null).put rest new) :: puts.filterMap changeOf? := rfl
      rw [step, Entries.changed_cons, ih]
      by_cases same : segment = key
      · have taken : ((segment :: rest, new) :: puts).filterMap (below? key) =
            (rest, new) :: puts.filterMap (below? key) := by simp [below?, same]
        rw [taken, if_pos same, if_neg (List.cons_ne_nil _ _)]
        split
        · next empty => rw [empty]; rfl
        · rfl
      · have left : ((segment :: rest, new) :: puts).filterMap (below? key) =
            puts.filterMap (below? key) := by simp [below?, same]
        rw [left, if_neg same]

theorem length_of_below? {key : String} {p q : List String × Value}
    (found : below? key p = some q) : p.1.length = q.1.length + 1 := by
  obtain ⟨way, new⟩ := p
  cases way with
  | nil => cases found
  | cons segment rest =>
    simp only [below?] at found
    split at found
    · cases found
      rfl
    · cases found

/-- Puts made again change nothing; the induction is on the depth that they reach. -/
theorem putAll_putAll_of_length (depth : Nat) {puts : List (List String × Value)}
    (bounded : ∀ p ∈ puts, p.1.length < depth) (v : Value) :
    (v.putAll puts).putAll puts = v.putAll puts := by
  induction depth generalizing puts v with
  | zero =>
    cases puts with
    | nil => rfl
    | cons p puts => exact absurd (bounded p (by simp)) (Nat.not_lt_zero _)
  | succ depth ih =>
    by_cases root : ∃ p ∈ puts, p.1 = []
    · exact putAll_of_root root _ v
    · have deep : ∀ p ∈ puts, p.1 ≠ [] := fun p member empty => root ⟨p, member, empty⟩
      -- what the puts do under one key are puts again, which reach one step less deep
      have again : ∀ key value,
          Entries.changed key (puts.filterMap changeOf?)
            (Entries.changed key (puts.filterMap changeOf?) value) =
            Entries.changed key (puts.filterMap changeOf?) value := by
        intro key value
        have shallower : ∀ q ∈ puts.filterMap (below? key), q.1.length < depth := by
          intro q member
          obtain ⟨p, inside, found⟩ := List.mem_filterMap.mp member
          have := bounded p inside
          have := length_of_below? found
          omega
        simp only [changed_changeOf?]
        split
        · rfl
        · exact congrArg some (ih shallower _)
      by_cases none : puts = []
      · rw [none]
        rfl
      · rw [putAll_obj_fieldsOrNone none deep v, putAll_obj deep, putAll_obj deep,
          Entries.changeAll_changeAll again]

theorem putAll_putAll (v : Value) (puts : List (List String × Value)) :
    (v.putAll puts).putAll puts = v.putAll puts := by
  refine putAll_putAll_of_length ((puts.flatMap Prod.fst).length + 1) ?_ v
  intro p member
  obtain ⟨before, after, rfl⟩ := List.append_of_mem member
  simp only [List.flatMap_append, List.flatMap_cons, List.length_append]
  omega

end Value

namespace Fields

/-- Writes payloads one after another. -/
def writeAll (data : Fields) (writes : List (List String × Fields)) : Fields :=
  writes.foldl (fun data w => write data w.1 w.2) data

/-- The puts that a write consists of: one for each field of the payload at the root, one of the
whole payload elsewhere. -/
def puts (w : List String × Fields) : List (List String × Value) :=
  match w.1 with
  | [] => w.2.map fun field => ([field.1], field.2)
  | segment :: rest => [(segment :: rest, .obj w.2)]

theorem obj_write_eq_putAll (data : Fields) (w : List String × Fields) :
    Value.obj (write data w.1 w.2) = (Value.obj data).putAll (puts w) := by
  obtain ⟨way, payload⟩ := w
  cases way with
  | nil =>
    induction payload generalizing data with
    | nil => rfl
    | cons field rest ih => exact ih (Entries.set data field.1 field.2)
  | cons segment rest => exact obj_write_eq_put (.obj data) segment rest payload

theorem obj_writeAll_eq_putAll (data : Fields) (writes : List (List String × Fields)) :
    Value.obj (writeAll data writes) = (Value.obj data).putAll (writes.flatMap puts) := by
  induction writes generalizing data with
  | nil => rfl
  | cons w writes ih =>
    have joined : (Value.obj data).putAll ((w :: writes).flatMap puts) =
        ((Value.obj data).putAll (puts w)).putAll (writes.flatMap puts) := by
      simp [Value.putAll, List.flatMap_cons]
    rw [joined, ← obj_write_eq_putAll]
    exact ih _

/-- Writes made again, in the same order, leave the data model as it is. -/
theorem writeAll_writeAll (data : Fields) (writes : List (List String × Fields)) :
    writeAll (writeAll data writes) writes = writeAll data writes := by
  refine Value.obj.inj ?_
  rw [obj_writeAll_eq_putAll, obj_writeAll_eq_putAll, Value.putAll_putAll]

end Fields
end LiveSurface
