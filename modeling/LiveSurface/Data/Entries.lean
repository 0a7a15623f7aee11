/-!
# Entries in insertion order

A record is a list of keyed entries. Setting a key that is present keeps its place, and setting a
new key adds it at the end (`keys_set`); reading gives the value set last (`get?_set`).
-/
namespace LiveSurface

/-- Keyed entries in order. -/
abbrev Entries (α : Type) := List (String × α)

namespace Entries

variable {α : Type}

/-- The keys in order. -/
def keys (entries : Entries α) : List String := entries.map Prod.fst

/-- The value of a key. -/
def get? : Entries α → String → Option α
  | [], _ => none
  | (k, v) :: rest, key => if k = key then some v else get? rest key

/-- Whether a key is present. -/
def has (entries : Entries α) (key : String) : Bool := (get? entries key).isSome

/-- Puts a value under a key, at the key's place or at the end. -/
def set : Entries α → String → α → Entries α
  | [], key, value => [(key, value)]
  | (k, v) :: rest, key, value =>
    if k = key then (k, value) :: rest else (k, v) :: set rest key value

/-- Sets one entry after another. -/
def update (entries more : Entries α) : Entries α :=
  more.foldl (fun entries entry => set entries entry.1 entry.2) entries

@[simp] theorem get?_set (entries : Entries α) (key other : String) (value : α) :
    get? (set entries key value) other =
      if key = other then some value else get? entries other := by
  induction entries with
  | nil => rfl
  | cons entry rest ih =>
    obtain ⟨k, v⟩ := entry
    by_cases h : k = key
    · subst h
      by_cases o : k = other <;> simp [set, get?, o]
    · by_cases o : k = other
      · subst o
        simp [set, get?, h, Ne.symm h]
      · simp [set, get?, h, o, ih]

theorem keys_set (entries : Entries α) (key : String) (value : α) :
    keys (set entries key value) =
      if key ∈ keys entries then keys entries else keys entries ++ [key] := by
  induction entries with
  | nil => rfl
  | cons entry rest ih =>
    obtain ⟨k, v⟩ := entry
    by_cases h : k = key
    · simp [set, keys, h]
    · simp only [keys] at ih
      by_cases m : key ∈ rest.map Prod.fst <;> simp [set, keys, h, Ne.symm h, ih, m]

theorem get?_isSome_iff (entries : Entries α) (key : String) :
    (get? entries key).isSome ↔ key ∈ keys entries := by
  induction entries with
  | nil => simp [get?, keys]
  | cons entry rest ih =>
    obtain ⟨k, v⟩ := entry
    simp only [keys] at ih
    by_cases h : k = key
    · simp [get?, keys, h]
    · simp [get?, keys, h, Ne.symm h, ih]

theorem mem_of_get? {entries : Entries α} {key : String} {value : α}
    (found : get? entries key = some value) : (key, value) ∈ entries := by
  induction entries with
  | nil => cases found
  | cons entry rest ih =>
    obtain ⟨k, v⟩ := entry
    by_cases same : k = key
    · simp only [get?, same, ↓reduceIte, Option.some.injEq] at found
      simp [same, found]
    · simp only [get?, same, ↓reduceIte] at found
      exact List.mem_cons_of_mem _ (ih found)

/-- Where keys are distinct, every entry is found under its key. -/
theorem get?_of_mem {entries : Entries α} (distinct : entries.keys.Nodup) {key : String} {value : α}
    (member : (key, value) ∈ entries) : get? entries key = some value := by
  induction entries with
  | nil => cases member
  | cons entry rest ih =>
    obtain ⟨k, v⟩ := entry
    obtain ⟨new, distinct⟩ := List.nodup_cons.mp distinct
    rcases List.mem_cons.mp member with same | later
    · cases same
      simp [get?]
    · have apart : k ≠ key := fun same => new (List.mem_map.mpr ⟨_, later, same.symm⟩)
      simp only [get?, apart, ↓reduceIte]
      exact ih distinct later

/-- Distinct keys are found in any order of the entries. -/
theorem get?_perm {entries others : Entries α} (same : entries.Perm others)
    (distinct : entries.keys.Nodup) (key : String) : get? entries key = get? others key := by
  have distinct' : others.keys.Nodup := (same.map Prod.fst).nodup_iff.mp distinct
  refine Option.ext fun value => ?_
  constructor
  · exact fun found => get?_of_mem distinct' (same.mem_iff.mp (mem_of_get? found))
  · exact fun found => get?_of_mem distinct (same.mem_iff.mpr (mem_of_get? found))

theorem get?_filter (entries : Entries α) (kept : String → Bool) (key : String) :
    get? (entries.filter fun entry => kept entry.1) key =
      if kept key then get? entries key else none := by
  induction entries with
  | nil => simp [get?]
  | cons entry rest ih =>
    obtain ⟨k, v⟩ := entry
    by_cases same : k = key
    · subst same
      cases keeps : kept k <;> simp [get?, keeps, ih]
    · cases keeps : kept k <;> simp [get?, keeps, same, ih]

end Entries
end LiveSurface
